import Mathlib.Algebra.Order.BigOperators.Group.List
import Mathlib.Algebra.Ring.Int.Defs
import Mathlib.Data.List.Induction

/-!
# Samples of a metrics library

A client of a metrics library: a registry of labelled series, counters that
are incremented, gauges that are set and histograms that observe. `Documented`
says what each operation does to the samples. The samples after any updates
are then known series by series, from the updates of the series alone.
-/

namespace Taskowl.Lib

/-- A metrics library over the series of counters `γ`, gauges `δ` and histograms `η`, with observed
values `ν` and exceptions `ε`. -/
structure Client (γ δ η ν ε : Type) where
  Registry : Type
  /-- A registry without series. -/
  empty : Registry
  inc : γ → Int → Registry → Except ε Registry
  set : δ → Int → Registry → Registry
  observe : η → ν → Registry → Registry
  /-- The sample of a counter, if it is exported. -/
  counter : Registry → γ → Option Int
  gauge : Registry → δ → Option Int
  /-- The sample count of a histogram. -/
  count : Registry → η → Option Nat

variable {γ δ η ν ε α : Type}

/-- What the operations do to the samples; `bucketed` are the values that fall into a bucket. -/
structure Client.Documented (client : Client γ δ η ν ε) (bucketed : ν → Bool) : Prop where
  counter_empty : ∀ s, client.counter client.empty s = none
  gauge_empty : ∀ s, client.gauge client.empty s = none
  count_empty : ∀ s, client.count client.empty s = none
  inc_negative : ∀ s n r, n < 0 → ∃ e, client.inc s n r = .error e
  inc_nonneg : ∀ s n r, 0 ≤ n → ∃ r', client.inc s n r = .ok r'
  counter_inc : ∀ s n r r', client.inc s n r = .ok r' →
    client.counter r' s = some ((client.counter r s).getD 0 + n)
  counter_inc_other : ∀ s n r r' t, client.inc s n r = .ok r' → t ≠ s →
    client.counter r' t = client.counter r t
  gauge_inc : ∀ s n r r' t, client.inc s n r = .ok r' → client.gauge r' t = client.gauge r t
  count_inc : ∀ s n r r' t, client.inc s n r = .ok r' → client.count r' t = client.count r t
  gauge_set : ∀ s n r, client.gauge (client.set s n r) s = some n
  gauge_set_other : ∀ s n r t, t ≠ s → client.gauge (client.set s n r) t = client.gauge r t
  counter_set : ∀ s n r t, client.counter (client.set s n r) t = client.counter r t
  count_set : ∀ s n r t, client.count (client.set s n r) t = client.count r t
  count_observe : ∀ s x r, client.count (client.observe s x r) s =
    some ((client.count r s).getD 0 + if bucketed x then 1 else 0)
  count_observe_other : ∀ s x r t, t ≠ s →
    client.count (client.observe s x r) t = client.count r t
  counter_observe : ∀ s x r t, client.counter (client.observe s x r) t = client.counter r t
  gauge_observe : ∀ s x r t, client.gauge (client.observe s x r) t = client.gauge r t

/-- An operation on a series. -/
inductive Update (γ δ η ν : Type) where
  | inc (s : γ) (n : Int)
  | set (s : δ) (n : Int)
  | observe (s : η) (x : ν)

namespace Client

variable (client : Client γ δ η ν ε)

def update (u : Update γ δ η ν) (r : client.Registry) : Except ε client.Registry :=
  match u with
  | .inc s n => client.inc s n r
  | .set s n => .ok (client.set s n r)
  | .observe s x => .ok (client.observe s x r)

/-- The updates, one after the other. -/
def updates (us : List (Update γ δ η ν)) (r : client.Registry) : Except ε client.Registry :=
  us.foldlM (fun r u => client.update u r) r

@[simp] theorem updates_nil (r : client.Registry) : client.updates [] r = .ok r := rfl

theorem updates_cons (u : Update γ δ η ν) (us : List (Update γ δ η ν)) (r : client.Registry) :
    client.updates (u :: us) r = (client.update u r).bind (client.updates us) := rfl

@[simp] theorem updates_single (u : Update γ δ η ν) (r : client.Registry) :
    client.updates [u] r = client.update u r := by
  rw [updates_cons]
  cases client.update u r <;> rfl

theorem updates_append (us vs : List (Update γ δ η ν)) (r : client.Registry) :
    client.updates (us ++ vs) r = (client.updates us r).bind (client.updates vs) :=
  List.foldlM_append ..

theorem foldlM_updates {f : α → List (Update γ δ η ν)}
    {body : client.Registry → α → Except ε client.Registry}
    (hbody : ∀ r a, body r a = client.updates (f a) r) (as : List α) (r : client.Registry) :
    as.foldlM body r = client.updates (as.flatMap f) r := by
  induction as generalizing r with
  | nil => rfl
  | cons a as ih =>
    rw [List.flatMap_cons, updates_append, List.foldlM_cons, hbody]
    simp only [ih]
    rfl

end Client

/-- Updates succeed unless a counter would go down. -/
theorem Client.Documented.updates_ok_iff {client : Client γ δ η ν ε} {bucketed : ν → Bool}
    (h : client.Documented bucketed) (us : List (Update γ δ η ν)) (r : client.Registry) :
    (∃ r', client.updates us r = .ok r') ↔ ∀ s n, .inc s n ∈ us → 0 ≤ n := by
  induction us generalizing r with
  | nil => exact ⟨fun _ _ _ hmem => absurd hmem List.not_mem_nil, fun _ => ⟨r, rfl⟩⟩
  | cons u us ih =>
    rw [Client.updates_cons]
    cases u with
    | inc s n =>
      by_cases hn : 0 ≤ n
      · obtain ⟨r', hr⟩ := h.inc_nonneg s n r hn
        rw [Client.update, hr]
        refine (ih r').trans ⟨fun hus t m hmem => ?_, fun hus t m hmem =>
          hus t m (List.mem_cons_of_mem _ hmem)⟩
        rcases List.mem_cons.mp hmem with heq | hmem
        · cases heq
          exact hn
        · exact hus t m hmem
      · obtain ⟨e, he⟩ := h.inc_negative s n r (by omega)
        rw [Client.update, he]
        exact ⟨fun ⟨_, hr⟩ => (nomatch hr), fun hus => absurd (hus s n List.mem_cons_self) hn⟩
    | set s n =>
      refine (ih (client.set s n r)).trans (forall₂_congr fun t m => ?_)
      simp
    | observe s x =>
      refine (ih (client.observe s x r)).trans (forall₂_congr fun t m => ?_)
      simp

/-! ## The updates of a series -/

section Series

def increments [DecidableEq γ] (us : List (Update γ δ η ν)) (s : γ) : List Int :=
  us.filterMap fun
    | .inc t n => if t = s then some n else none
    | _ => none

def assignments [DecidableEq δ] (us : List (Update γ δ η ν)) (s : δ) : List Int :=
  us.filterMap fun
    | .set t n => if t = s then some n else none
    | _ => none

def observations [DecidableEq η] (us : List (Update γ δ η ν)) (s : η) : List ν :=
  us.filterMap fun
    | .observe t x => if t = s then some x else none
    | _ => none

@[simp] theorem increments_append [DecidableEq γ] (us vs : List (Update γ δ η ν)) (s : γ) :
    increments (us ++ vs) s = increments us s ++ increments vs s := List.filterMap_append

@[simp] theorem assignments_append [DecidableEq δ] (us vs : List (Update γ δ η ν)) (s : δ) :
    assignments (us ++ vs) s = assignments us s ++ assignments vs s := List.filterMap_append

@[simp] theorem observations_append [DecidableEq η] (us vs : List (Update γ δ η ν)) (s : η) :
    observations (us ++ vs) s = observations us s ++ observations vs s := List.filterMap_append

theorem increments_flatMap [DecidableEq γ] (f : α → List (Update γ δ η ν)) (as : List α) (s : γ) :
    increments (as.flatMap f) s = as.flatMap fun a => increments (f a) s :=
  List.filterMap_flatMap

theorem assignments_flatMap [DecidableEq δ] (f : α → List (Update γ δ η ν)) (as : List α) (s : δ) :
    assignments (as.flatMap f) s = as.flatMap fun a => assignments (f a) s :=
  List.filterMap_flatMap

theorem mem_increments [DecidableEq γ] {us : List (Update γ δ η ν)} {s : γ} {n : Int} :
    n ∈ increments us s ↔ .inc s n ∈ us := by
  unfold increments
  rw [List.mem_filterMap]
  constructor
  · rintro ⟨u, hu, h⟩
    cases u with
    | inc t m =>
      by_cases hts : t = s
      · simp only [hts, if_true, Option.some.injEq] at h
        rwa [← hts, ← h]
      · simp [hts] at h
    | _ => cases h
  · exact fun h => ⟨_, h, by simp⟩

theorem increments_map_inc [DecidableEq γ] (f : α → γ) (n : α → Int) (as : List α) (s : γ) :
    increments (as.map fun a => (.inc (f a) (n a) : Update γ δ η ν)) s =
      (as.filter fun a => f a = s).map n := by
  induction as with
  | nil => rfl
  | cons a as ih =>
    have hcons : increments ((a :: as).map fun a => (.inc (f a) (n a) : Update γ δ η ν)) s =
        (if f a = s then [n a] else []) ++
          increments (as.map fun a => (.inc (f a) (n a) : Update γ δ η ν)) s := by
      by_cases hs : f a = s <;> simp [increments, hs]
    rw [hcons, ih]
    by_cases hs : f a = s <;> simp [hs]

/-- A series without updates is not exported. -/
def exported {β : Type} (amounts : List α) (sample : β) : Option β :=
  if amounts.isEmpty then none else some sample

@[simp] theorem exported_snoc {β : Type} (amounts : List α) (a : α) (sample : β) :
    exported (amounts ++ [a]) sample = some sample := by
  simp [exported]

theorem getD_exported_sum (amounts : List Int) :
    (exported amounts amounts.sum).getD 0 = amounts.sum := by
  cases amounts <;> rfl

def tally (n : Nat) : Option Int := if n = 0 then none else some n

theorem exported_eq_tally {amounts : List Int} {n : Nat} (hpos : ∀ a ∈ amounts, 0 < a)
    (hsum : amounts.sum = n) : exported amounts amounts.sum = tally n := by
  unfold tally exported
  rw [hsum]
  cases amounts with
  | nil =>
    have hn : n = 0 := by simpa using hsum.symm
    rw [if_pos hn]
    rfl
  | cons a amounts =>
    have ha := hpos a List.mem_cons_self
    have hrest : 0 ≤ amounts.sum :=
      List.sum_nonneg fun b hb => (hpos b (List.mem_cons_of_mem a hb)).le
    rw [List.sum_cons] at hsum
    have hn : n ≠ 0 := by omega
    rw [if_neg hn]
    rfl

theorem getD_exported_countP (p : α → Bool) (xs : List α) :
    (exported xs (xs.countP p)).getD 0 = xs.countP p := by
  cases xs <;> rfl

variable [DecidableEq γ] [DecidableEq δ] [DecidableEq η]
variable {client : Client γ δ η ν ε} {bucketed : ν → Bool}

/-- The samples after updates of an empty registry. -/
structure Samples (client : Client γ δ η ν ε) (bucketed : ν → Bool)
    (us : List (Update γ δ η ν)) (r : client.Registry) : Prop where
  counter : ∀ s, client.counter r s = exported (increments us s) (increments us s).sum
  gauge : ∀ s, client.gauge r s = (assignments us s).getLast?
  count : ∀ s, client.count r s = exported (observations us s) ((observations us s).countP bucketed)

theorem Samples.update (h : client.Documented bucketed) {us : List (Update γ δ η ν)}
    {u : Update γ δ η ν} {r r' : client.Registry} (hs : Samples client bucketed us r)
    (hu : client.update u r = .ok r') : Samples client bucketed (us ++ [u]) r' := by
  constructor
  · intro s
    rw [increments_append]
    cases u with
    | inc t n =>
      by_cases hts : t = s
      · subst hts
        rw [h.counter_inc _ _ _ _ hu, hs.counter, getD_exported_sum]
        simp [increments, List.sum_append]
      · rw [h.counter_inc_other _ _ _ _ _ hu (Ne.symm hts), hs.counter]
        simp [increments, hts]
    | set t n => cases hu; rw [h.counter_set, hs.counter]; simp [increments]
    | observe t x => cases hu; rw [h.counter_observe, hs.counter]; simp [increments]
  · intro s
    rw [assignments_append]
    cases u with
    | inc t n => rw [h.gauge_inc _ _ _ _ _ hu, hs.gauge]; simp [assignments]
    | set t n =>
      cases hu
      by_cases hts : t = s
      · subst hts
        rw [h.gauge_set]
        simp [assignments]
      · rw [h.gauge_set_other _ _ _ _ (Ne.symm hts), hs.gauge]
        simp [assignments, hts]
    | observe t x => cases hu; rw [h.gauge_observe, hs.gauge]; simp [assignments]
  · intro s
    rw [observations_append]
    cases u with
    | inc t n => rw [h.count_inc _ _ _ _ _ hu, hs.count]; simp [observations]
    | set t n => cases hu; rw [h.count_set, hs.count]; simp [observations]
    | observe t x =>
      cases hu
      by_cases hts : t = s
      · subst hts
        rw [h.count_observe, hs.count, getD_exported_countP]
        simp [observations, List.countP_append]
      · rw [h.count_observe_other _ _ _ _ (Ne.symm hts), hs.count]
        simp [observations, hts]

theorem Client.Documented.samples (h : client.Documented bucketed) {us : List (Update γ δ η ν)}
    {r : client.Registry} (hr : client.updates us client.empty = .ok r) :
    Samples client bucketed us r := by
  induction us using List.reverseRecOn generalizing r with
  | nil =>
    cases hr
    exact ⟨h.counter_empty, h.gauge_empty, h.count_empty⟩
  | append_singleton us u ih =>
    rw [Client.updates_append] at hr
    cases hus : client.updates us client.empty with
    | error e => rw [hus] at hr; cases hr
    | ok r₀ =>
      rw [hus] at hr
      cases hu : client.update u r₀ with
      | error e => simp [Except.bind, hu] at hr
      | ok r₁ =>
        simp only [Except.bind, Client.updates_single, hu] at hr
        cases hr
        exact (ih hus).update h hu

/-! ## A client that remembers its updates -/

/-- The registry is the list of its updates, and a sample is computed from it. -/
def Client.recorder (negative : ε) (bucketed : ν → Bool) : Client γ δ η ν ε where
  Registry := List (Update γ δ η ν)
  empty := []
  inc s n us := if n < 0 then .error negative else .ok (us ++ [.inc s n])
  set s n us := us ++ [.set s n]
  observe s x us := us ++ [.observe s x]
  counter us s := exported (increments us s) (increments us s).sum
  gauge us s := (assignments us s).getLast?
  count us s := exported (observations us s) ((observations us s).countP bucketed)

theorem Client.documented_recorder (negative : ε) (bucketed : ν → Bool) :
    (Client.recorder negative bucketed : Client γ δ η ν ε).Documented bucketed := by
  have hinc : ∀ (s : γ) (n : Int) (us us' : List (Update γ δ η ν)),
      (Client.recorder negative bucketed : Client γ δ η ν ε).inc s n us = .ok us' →
        us' = us ++ [.inc s n] := by
    intro s n us us' h
    simp only [Client.recorder] at h
    split at h
    · cases h
    · cases h
      rfl
  constructor
  case counter_empty | gauge_empty | count_empty => exact fun _ => rfl
  case inc_negative => exact fun s n us hn => ⟨negative, if_pos hn⟩
  case inc_nonneg => exact fun s n us hn => ⟨_, if_neg (by omega)⟩
  case counter_inc =>
    intro s n (us : List (Update γ δ η ν)) us' h
    rw [hinc s n us us' h]
    simp only [Client.recorder, getD_exported_sum, increments_append]
    simp [increments, List.sum_append]
  case counter_inc_other =>
    intro s n (us : List (Update γ δ η ν)) us' t h hts
    rw [hinc s n us us' h]
    simp only [Client.recorder, increments_append]
    simp [increments, Ne.symm hts]
  case gauge_inc | count_inc =>
    intro s n (us : List (Update γ δ η ν)) us' t h
    rw [hinc s n us us' h]
    simp only [Client.recorder, assignments_append, observations_append]
    simp [assignments, observations]
  case gauge_set =>
    intro s n (us : List (Update γ δ η ν))
    simp only [Client.recorder, assignments_append]
    simp [assignments]
  case gauge_set_other =>
    intro s n (us : List (Update γ δ η ν)) t hts
    simp only [Client.recorder, assignments_append]
    simp [assignments, Ne.symm hts]
  case counter_set | count_set | counter_observe | gauge_observe =>
    intro s n (us : List (Update γ δ η ν)) t
    simp only [Client.recorder, increments_append, assignments_append, observations_append]
    simp [increments, assignments, observations]
  case count_observe =>
    intro s x (us : List (Update γ δ η ν))
    simp only [Client.recorder, getD_exported_countP, observations_append]
    simp [observations, List.countP_append]
  case count_observe_other =>
    intro s x (us : List (Update γ δ η ν)) t hts
    simp only [Client.recorder, observations_append]
    simp [observations, Ne.symm hts]

end Series

end Taskowl.Lib
