import Mathlib.Data.List.Induction
import Mathlib.Data.List.Perm.Basic
import Mathlib.Data.List.Sort

/-!
# Ordered selects

`orderBy key rows` is `ORDER BY key` over rows in the order the database
scanned them: a stable sort, so every order SQL allows is the sort of some
scan, and `ORDER BY a, b` is `orderBy a` after `orderBy b`. `topBy` is
`ORDER BY key DESC LIMIT 1`. A scan is any permutation of the table, so what
a query answers is a function of the scan; where keys are distinct it is one
of the rows alone.
-/

namespace Taskowl.Lib

variable {α : Type}

/-- The order in which the database scans each table. -/
structure Scan where
  order : {β : Type} → List β → List β
  perm : ∀ {β : Type} (rows : List β), (order rows).Perm rows

def Scan.byId : Scan := ⟨id, fun _ => .refl _⟩

/-- In id order, but for the row at an index, which comes last. -/
def Scan.lastly (i : Nat) : Scan where
  order rows := rows.eraseIdx i ++ rows[i]?.toList
  perm rows := by
    cases h : rows[i]? with
    | none => simp [List.eraseIdx_of_length_le (List.getElem?_eq_none_iff.mp h)]
    | some r =>
      obtain ⟨hi, rfl⟩ := List.getElem?_eq_some_iff.mp h
      exact List.perm_append_singleton _ _ |>.trans (List.getElem_cons_eraseIdx_perm hi)

theorem exists_scan_last {rows : List α} {r : α} (hr : r ∈ rows) :
    ∃ scan : Scan, ∃ others, scan.order rows = others ++ [r] ∧ (others ++ [r]).Perm rows := by
  obtain ⟨i, hi⟩ := List.mem_iff_getElem?.mp hr
  refine ⟨.lastly i, rows.eraseIdx i, ?_, ?_⟩
  · simp [Scan.lastly, hi]
  · have := (Scan.lastly i).perm rows
    simpa [Scan.lastly, hi] using this

theorem max?_key_eq_some {p : α → Bool} {key : α → Int} {rows : List α} {t : Int} :
    ((rows.filter p).map key).max? = some t ↔
      (∃ r ∈ rows, p r = true ∧ key r = t) ∧ ∀ r ∈ rows, p r = true → key r ≤ t := by
  rw [List.max?_eq_some_iff]
  simp only [List.mem_map, List.mem_filter, and_assoc]
  refine and_congr_right fun _ => ⟨fun h r hr hp => h _ ⟨r, hr, hp, rfl⟩, ?_⟩
  rintro h _ ⟨r, hr, hp, rfl⟩
  exact h r hr hp

/-- `ORDER BY key`, ascending. -/
def orderBy (key : α → Int) (rows : List α) : List α :=
  rows.insertionSort fun a b => key a ≤ key b

theorem orderBy_perm (key : α → Int) (rows : List α) : (orderBy key rows).Perm rows :=
  List.perm_insertionSort _ rows

theorem orderBy_pairwise (key : α → Int) (rows : List α) :
    (orderBy key rows).Pairwise fun a b => key a ≤ key b := by
  have : Std.Total fun a b : α => key a ≤ key b := ⟨fun a b => Int.le_total _ _⟩
  have : IsTrans α fun a b : α => key a ≤ key b := ⟨fun _ _ _ => Int.le_trans⟩
  exact List.pairwise_insertionSort _ rows

@[simp] theorem mem_orderBy {key : α → Int} {rows : List α} {a : α} :
    a ∈ orderBy key rows ↔ a ∈ rows := (orderBy_perm key rows).mem_iff

/-- `ORDER BY key DESC LIMIT 1`: the first scanned row of the greatest key. -/
def topBy (key : α → Int) : List α → Option α
  | [] => none
  | a :: rows => match topBy key rows with
    | none => some a
    | some b => if key b ≤ key a then some a else some b

theorem topBy_eq_none {key : α → Int} {rows : List α} : topBy key rows = none ↔ rows = [] := by
  cases rows with
  | nil => simp [topBy]
  | cons a rows =>
    simp only [topBy, reduceCtorEq, iff_false]
    split
    · nofun
    · split <;> nofun

theorem topBy_spec {key : α → Int} {rows : List α} {a : α} (h : topBy key rows = some a) :
    a ∈ rows ∧ ∀ b ∈ rows, key b ≤ key a := by
  induction rows generalizing a with
  | nil => cases h
  | cons c rows ih =>
    simp only [topBy] at h
    split at h
    · next hn =>
      cases h
      rw [topBy_eq_none] at hn
      subst hn
      simp
    · next b hb =>
      obtain ⟨hm, hle⟩ := ih hb
      split at h
      · next hbc =>
        cases h
        refine ⟨List.mem_cons_self, fun x hx => ?_⟩
        rcases List.mem_cons.mp hx with rfl | hx
        · exact Int.le_refl _
        · exact Int.le_trans (hle x hx) hbc
      · next hbc =>
        cases h
        refine ⟨List.mem_cons_of_mem _ hm, fun x hx => ?_⟩
        rcases List.mem_cons.mp hx with rfl | hx
        · omega
        · exact hle x hx

/-- With distinct keys the pick is determined. -/
theorem topBy_eq_some_iff {key : α → Int} {rows : List α} {a : α}
    (hinj : ∀ b ∈ rows, ∀ c ∈ rows, key b = key c → b = c) :
    topBy key rows = some a ↔ a ∈ rows ∧ ∀ b ∈ rows, key b ≤ key a := by
  refine ⟨topBy_spec, fun ⟨hm, hle⟩ => ?_⟩
  cases hb : topBy key rows with
  | none => rw [topBy_eq_none] at hb; subst hb; cases hm
  | some b =>
    obtain ⟨hbm, hble⟩ := topBy_spec hb
    rw [hinj b hbm a hm (Int.le_antisymm (hle b hbm) (hble a hm))]

/-! ## Orders of permuted rows -/

/-- Rows of distinct keys have one order. -/
theorem orderBy_eq_of_perm {key : α → Int} {rows rows' : List α} (h : rows.Perm rows')
    (hinj : ∀ a ∈ rows, ∀ b ∈ rows, key a = key b → a = b) :
    orderBy key rows = orderBy key rows' := by
  apply List.Perm.eq_of_pairwise _ (orderBy_pairwise key rows) (orderBy_pairwise key rows')
  · exact (orderBy_perm key rows).trans (h.trans (orderBy_perm key rows').symm)
  · intro a b ha hb hab hba
    rw [mem_orderBy] at ha hb
    exact hinj a ha b (h.mem_iff.mpr hb) (Int.le_antisymm hab hba)

theorem map_orderBy {β : Type} (f : β → α) (key : α → Int) (rows : List β) :
    (orderBy (fun b => key (f b)) rows).map f = orderBy key (rows.map f) :=
  List.map_insertionSort _ _ f rows fun _ _ _ _ => Iff.rfl

theorem topBy_map {β : Type} (f : β → α) (key : α → Int) (rows : List β) :
    (topBy (fun b => key (f b)) rows).map f = topBy key (rows.map f) := by
  induction rows with
  | nil => rfl
  | cons a rows ih =>
    rw [List.map_cons, topBy, topBy, ← ih]
    cases topBy (fun b => key (f b)) rows with
    | none => rfl
    | some b =>
      dsimp only [Option.map_some]
      split <;> rfl

theorem topBy_eq_of_perm {key : α → Int} {rows rows' : List α} (h : rows.Perm rows')
    (hinj : ∀ a ∈ rows, ∀ b ∈ rows, key a = key b → a = b) :
    topBy key rows = topBy key rows' := by
  have hinj' : ∀ a ∈ rows', ∀ b ∈ rows', key a = key b → a = b := fun a ha b hb =>
    hinj a (h.mem_iff.mpr ha) b (h.mem_iff.mpr hb)
  apply Option.ext
  intro a
  rw [topBy_eq_some_iff hinj, topBy_eq_some_iff hinj', h.mem_iff]
  simp only [h.mem_iff]

theorem orderBy_snoc {key : α → Int} {rows : List α} {a : α} (h : ∀ b ∈ rows, key b ≤ key a) :
    orderBy key (rows ++ [a]) = orderBy key rows ++ [a] := by
  have hinsert : ∀ (l : List α) (b : α), key b ≤ key a →
      List.orderedInsert (fun a b => key a ≤ key b) b (l ++ [a]) =
        List.orderedInsert (fun a b => key a ≤ key b) b l ++ [a] := by
    intro l b hb
    induction l with
    | nil => simp [List.orderedInsert, hb]
    | cons c l ih =>
      rw [List.cons_append, List.orderedInsert_cons, List.orderedInsert_cons]
      split
      · rfl
      · rw [ih, List.cons_append]
  unfold orderBy
  induction rows with
  | nil => rfl
  | cons b rows ih =>
    rw [List.cons_append, List.insertionSort_cons, List.insertionSort_cons,
      ih fun c hc => h c (List.mem_cons_of_mem b hc)]
    exact hinsert _ b (h b List.mem_cons_self)

theorem filter_orderBy (key : α → Int) (p : α → Bool) (rows : List α) :
    (orderBy key rows).filter p = orderBy key (rows.filter p) := by
  have hinsert : ∀ (l : List α) (b : α), l.Pairwise (fun a b => key a ≤ key b) →
      (List.orderedInsert (fun a b => key a ≤ key b) b l).filter p =
        if p b then List.orderedInsert (fun a b => key a ≤ key b) b (l.filter p)
        else l.filter p := by
    intro l b hl
    induction l with
    | nil => by_cases hp : p b <;> simp [hp]
    | cons c l ih =>
      obtain ⟨hc, hl⟩ := List.pairwise_cons.mp hl
      rw [List.orderedInsert_cons]
      by_cases hbc : key b ≤ key c
      · rw [if_pos hbc]
        have hfront : List.orderedInsert (fun a b => key a ≤ key b) b ((c :: l).filter p) =
            b :: (c :: l).filter p := by
          have hle : ∀ x ∈ (c :: l).filter p, key b ≤ key x := by
            intro x hx
            rcases List.mem_cons.mp (List.mem_of_mem_filter hx) with rfl | hx
            · exact hbc
            · exact Int.le_trans hbc (hc x hx)
          cases hf : (c :: l).filter p with
          | nil => rfl
          | cons x m => rw [List.orderedInsert_cons, if_pos (hle x (hf ▸ List.mem_cons_self))]
        rw [hfront, List.filter_cons]
      · rw [if_neg hbc, List.filter_cons, List.filter_cons, ih hl]
        by_cases hpc : p c
        · rw [if_pos hpc, if_pos hpc, List.orderedInsert_cons, if_neg hbc]
          split <;> rfl
        · rw [if_neg hpc, if_neg hpc]
  induction rows with
  | nil => rfl
  | cons b rows ih =>
    have hcons : orderBy key (b :: rows) =
        List.orderedInsert (fun a b => key a ≤ key b) b (orderBy key rows) := rfl
    rw [hcons, hinsert _ b (orderBy_pairwise key rows), ih, List.filter_cons]
    split <;> rfl

theorem getLast?_orderBy {key : α → Int} {rows : List α} {a : α}
    (h : (orderBy key rows).getLast? = some a) : a ∈ rows ∧ ∀ b ∈ rows, key b ≤ key a := by
  obtain ⟨l, hl⟩ := List.getLast?_eq_some_iff.mp h
  have hsorted := orderBy_pairwise key rows
  rw [hl, List.pairwise_append] at hsorted
  have hmem : ∀ b, b ∈ rows ↔ b ∈ l ∨ b = a := by
    intro b
    have hperm := (orderBy_perm key rows).mem_iff (a := b)
    rw [← hperm, hl, List.mem_append, List.mem_singleton]
  refine ⟨(hmem a).mpr (.inr rfl), fun b hb => ?_⟩
  rcases (hmem b).mp hb with hb | rfl
  · exact hsorted.2.2 b hb a List.mem_cons_self
  · exact Int.le_refl _

/-! ## Some scan picks any of the greatest rows -/

theorem topBy_cons_of_le {key : α → Int} {rows : List α} {a : α} (h : ∀ b ∈ rows, key b ≤ key a) :
    topBy key (a :: rows) = some a := by
  rw [topBy]
  split
  · rfl
  · next b hb => rw [if_pos (h b (topBy_spec hb).1)]

/-- `ORDER BY key DESC LIMIT 1` may return it. -/
theorem exists_topBy (key : α → Int) {rows : List α} {p : α → Bool} {a : α} (ha : a ∈ rows)
    (hp : p a = true) (h : ∀ b ∈ rows, p b = true → key b ≤ key a) :
    ∃ scan : List α, scan.Perm rows ∧ topBy key (scan.filter p) = some a := by
  obtain ⟨l, r, rfl⟩ := List.append_of_mem ha
  refine ⟨a :: (l ++ r), List.perm_middle.symm, ?_⟩
  rw [List.filter_cons_of_pos hp]
  apply topBy_cons_of_le
  intro b hb
  obtain ⟨hb, hpb⟩ := List.mem_filter.mp hb
  exact h b (List.perm_middle.mem_iff.mpr (List.mem_cons_of_mem a hb)) hpb

theorem exists_orderBy_getLast? (key : α → Int) {rows : List α} {p : α → Bool} {a : α}
    (ha : a ∈ rows) (hp : p a = true) (h : ∀ b ∈ rows, p b = true → key b ≤ key a) :
    ∃ scan : List α, scan.Perm rows ∧ (orderBy key (scan.filter p)).getLast? = some a := by
  obtain ⟨l, r, rfl⟩ := List.append_of_mem ha
  have hperm : (l ++ r ++ [a]).Perm (l ++ a :: r) :=
    (List.perm_append_singleton a (l ++ r)).trans List.perm_middle.symm
  refine ⟨l ++ r ++ [a], hperm, ?_⟩
  rw [List.filter_append, List.filter_cons_of_pos hp, List.filter_nil, orderBy_snoc,
    List.getLast?_concat]
  intro b hb
  obtain ⟨hb, hpb⟩ := List.mem_filter.mp hb
  exact h b (hperm.mem_iff.mp (List.mem_append_left _ hb)) hpb

/-! ## Folds over ordered rows -/

theorem foldl_lastSome {β σ : Type} {step : σ → α → σ} (field : σ → Option β)
    (value : α → Option β) (hstep : ∀ s a, field (step s a) = (value a).or (field s))
    (rows : List α) (s : σ) :
    field (rows.foldl step s) =
      ((rows.filter fun a => (value a).isSome).getLast?.bind value).or (field s) := by
  induction rows using List.reverseRecOn with
  | nil => rfl
  | append_singleton rows a ih =>
    rw [List.foldl_append, List.foldl_cons, List.foldl_nil, hstep, List.filter_append, ih]
    cases ha : value a <;> simp [ha]

end Taskowl.Lib
