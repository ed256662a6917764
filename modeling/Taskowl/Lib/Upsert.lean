import Mathlib.Data.List.Pairwise
import Mathlib.Data.List.Perm.Basic
import Taskowl.Lib.Expiry

/-!
# Transactions on a unique key

Transactions insert values with a nullable unique key, `ON CONFLICT DO
NOTHING`, into a heap of versions: a version belongs to its writer until that
one commits, and is gone when it aborts. An insertion that finds its key held
by an open transaction waits for that one. What is committed is then what the
same insertions leave that were done one after the other, each at its commit,
or where it found its key committed already (`committed_commit`,
`upsert_of_committed`).
-/

namespace Taskowl.Lib

universe u v

variable {α : Type u} {κ : Type v}

/-- A value in the heap, with its transaction while that one is open. -/
structure Version (α : Type u) where
  val : α
  writer : Option Nat := none
  deriving DecidableEq, Repr

/-! ## One after the other -/

section Sequential

variable [DecidableEq κ]

/-- An operation on the committed values; an insertion of a key that is there does nothing. -/
def LogOp.upsert (key : α → Option κ) (log : List α) : LogOp α → List α
  | .add a => if (key a).isSome ∧ key a ∈ log.map key then log else log ++ [a]
  | .expire dead => log.filter fun a => !dead a
  | .skip => log

theorem upsert_perm {key : α → Option κ} {log log' : List α} (h : log.Perm log') (op : LogOp α) :
    (op.upsert key log).Perm (op.upsert key log') := by
  cases op with
  | add a =>
    have hkeys : key a ∈ log.map key ↔ key a ∈ log'.map key := (h.map key).mem_iff
    unfold LogOp.upsert
    simp only [hkeys]
    split
    · exact h
    · exact h.append_right [a]
  | expire dead => exact h.filter _
  | skip => exact h

end Sequential

namespace Version

/-! ## The heap -/

def committed (h : List (Version α)) : List α := (h.filter (·.writer.isNone)).map (·.val)

def writtenBy (h : List (Version α)) (i : Nat) : List α :=
  (h.filter (·.writer == some i)).map (·.val)

def commit (h : List (Version α)) (i : Nat) : List (Version α) :=
  h.map fun v => if v.writer = some i then { v with writer := none } else v

def abort (h : List (Version α)) (i : Nat) : List (Version α) := h.filter (·.writer != some i)

def expire (h : List (Version α)) (dead : α → Bool) : List (Version α) :=
  h.filter fun v => !(v.writer.isNone && dead v.val)

def holder [DecidableEq κ] (key : α → Option κ) (h : List (Version α)) (a : α) :
    Option (Version α) :=
  (key a).bind fun k => h.find? fun v => key v.val = some k

/-- No two versions have one key. -/
def Unique (key : α → Option κ) (h : List (Version α)) : Prop :=
  h.Pairwise fun v w => ∀ k, key v.val = some k → key w.val ≠ some k

section Heap

variable {key : α → Option κ} {h : List (Version α)} {i : Nat} {a : α}

theorem mem_committed : a ∈ committed h ↔ ⟨a, none⟩ ∈ h := by
  simp only [committed, List.mem_map, List.mem_filter, Option.isNone_iff_eq_none]
  constructor
  · rintro ⟨⟨b, writer⟩, ⟨hv, rfl⟩, rfl⟩
    exact hv
  · intro hv
    exact ⟨⟨a, none⟩, ⟨hv, rfl⟩, rfl⟩

theorem mem_writtenBy : a ∈ writtenBy h i ↔ ⟨a, some i⟩ ∈ h := by
  simp only [writtenBy, List.mem_map, List.mem_filter, beq_iff_eq]
  constructor
  · rintro ⟨⟨b, writer⟩, ⟨hv, rfl⟩, rfl⟩
    exact hv
  · intro hv
    exact ⟨⟨a, some i⟩, ⟨hv, rfl⟩, rfl⟩

/-! ## What an operation commits -/

theorem committed_insert : committed (h ++ [⟨a, some i⟩]) = committed h := by
  simp [committed]

theorem committed_abort : committed (abort h i) = committed h := by
  unfold committed abort
  rw [List.filter_filter]
  refine congrArg _ (List.filter_congr fun v _ => ?_)
  cases v.writer <;> simp

theorem committed_expire (dead : α → Bool) :
    committed (expire h dead) = (committed h).filter fun a => !dead a := by
  unfold committed expire
  rw [List.filter_map, List.filter_filter, List.filter_filter]
  refine congrArg _ (List.filter_congr fun v _ => ?_)
  cases v.writer <;> simp

theorem committed_commit : (committed (commit h i)).Perm (committed h ++ writtenBy h i) := by
  induction h with
  | nil => exact .refl _
  | cons v h ih =>
    cases hw : v.writer with
    | none =>
      have hleft : committed (commit (v :: h) i) = v.val :: committed (commit h i) := by
        simp [committed, commit, hw]
      have hright : committed (v :: h) ++ writtenBy (v :: h) i =
          v.val :: (committed h ++ writtenBy h i) := by
        simp [committed, writtenBy, hw]
      rw [hleft, hright]
      exact ih.cons _
    | some j =>
      by_cases hj : j = i
      · subst hj
        have hleft : committed (commit (v :: h) j) = v.val :: committed (commit h j) := by
          simp [committed, commit, hw]
        have hright : committed (v :: h) ++ writtenBy (v :: h) j =
            committed h ++ v.val :: writtenBy h j := by
          simp [committed, writtenBy, hw]
        rw [hleft, hright]
        exact (ih.cons _).trans List.perm_middle.symm
      · have hleft : committed (commit (v :: h) i) = committed (commit h i) := by
          simp [committed, commit, hw, hj]
        have hright : committed (v :: h) ++ writtenBy (v :: h) i =
            committed h ++ writtenBy h i := by
          simp [committed, writtenBy, hw, hj]
        rw [hleft, hright]
        exact ih

/-! ## What an operation leaves of the open transactions -/

theorem writtenBy_insert (j : Nat) :
    writtenBy (h ++ [⟨a, some i⟩]) j = if j = i then writtenBy h j ++ [a] else writtenBy h j := by
  by_cases hj : j = i
  · simp [writtenBy, hj]
  · simp [writtenBy, hj, Ne.symm hj]

theorem writtenBy_commit (j : Nat) :
    writtenBy (commit h i) j = if j = i then [] else writtenBy h j := by
  induction h with
  | nil => simp [writtenBy, commit]
  | cons v h ih =>
    have hcons : commit (v :: h) i =
        (if v.writer = some i then { v with writer := none } else v) :: commit h i := rfl
    rw [hcons]
    unfold writtenBy at ih ⊢
    rw [List.filter_cons, List.filter_cons]
    by_cases hv : v.writer = some i
    · by_cases hj : j = i
      · simp [hv, hj, hj ▸ ih]
      · have hne : i ≠ j := Ne.symm hj
        simpa [hv, hj, hne] using ih
    · by_cases hj : j = i
      · subst hj
        simpa [hv] using ih
      · by_cases hvj : v.writer = some j <;> simp_all

theorem writtenBy_abort (j : Nat) :
    writtenBy (abort h i) j = if j = i then [] else writtenBy h j := by
  unfold writtenBy abort
  rw [List.filter_filter]
  split
  · next hj =>
    subst hj
    rw [List.filter_eq_nil_iff.mpr (by simp), List.map_nil]
  · next hj =>
    refine congrArg _ (List.filter_congr fun v _ => ?_)
    by_cases hv : v.writer = some j <;> simp [hv, hj]

theorem writtenBy_expire (dead : α → Bool) (j : Nat) :
    writtenBy (expire h dead) j = writtenBy h j := by
  unfold writtenBy expire
  rw [List.filter_filter]
  refine congrArg _ (List.filter_congr fun v _ => ?_)
  by_cases hv : v.writer = some j <;> simp [hv]

/-! ## One version for a key -/

theorem unique_insert (hu : Unique key h)
    (hfree : ∀ k, key a = some k → ∀ v ∈ h, key v.val ≠ some k) (writer : Option Nat) :
    Unique key (h ++ [⟨a, writer⟩]) := by
  refine List.pairwise_append.mpr ⟨hu, List.pairwise_singleton .., fun v hv w hw k hk hk' => ?_⟩
  rw [List.mem_singleton.mp hw] at hk'
  exact hfree k hk' v hv hk

theorem unique_commit (hu : Unique key h) : Unique key (commit h i) := by
  unfold Unique commit
  rw [List.pairwise_map]
  refine hu.imp fun {v w} hvw => ?_
  split <;> split <;> exact hvw

theorem unique_eq (hu : Unique key h) {v w : Version α} (hv : v ∈ h) (hw : w ∈ h) {k : κ}
    (hvk : key v.val = some k) (hwk : key w.val = some k) : v = w := by
  have : Std.Symm fun v w : Version α => ∀ k, key v.val = some k → key w.val ≠ some k :=
    ⟨fun _ _ hvw k hk hk' => hvw k hk' hk⟩
  by_contra hne
  exact List.Pairwise.forall hu hv hw hne k hvk hwk

theorem nodup_keys (hu : Unique key h) : ((committed h).filterMap key).Nodup := by
  have hpairwise : (committed h).Pairwise fun a b => ∀ k, key a = some k → key b ≠ some k :=
    List.pairwise_map.mpr (hu.filter _)
  refine List.pairwise_filterMap.mpr (hpairwise.imp fun {a b} hab k hk k' hk' heq => ?_)
  subst heq
  exact hab k hk hk'

end Heap

/-! ## Where an insertion takes effect -/

section Holder

variable [DecidableEq κ] {key : α → Option κ} {h : List (Version α)} {i : Nat} {a : α}

theorem holder_eq_none (hholder : holder key h a = none) {k : κ} (hk : key a = some k) :
    ∀ v ∈ h, key v.val ≠ some k := by
  intro v hv
  rw [holder, hk, Option.bind_some, List.find?_eq_none] at hholder
  simpa using hholder v hv

theorem holder_eq_some {v : Version α} (hholder : holder key h a = some v) :
    ∃ k, key a = some k ∧ v ∈ h ∧ key v.val = some k := by
  obtain ⟨k, hk, hfind⟩ := Option.bind_eq_some_iff.mp hholder
  exact ⟨k, hk, List.mem_of_find?_eq_some hfind, by simpa using List.find?_some hfind⟩

theorem upsert_of_written (hu : Unique key h) (ha : ⟨a, some i⟩ ∈ h) :
    (LogOp.add a).upsert key (committed h) = committed h ++ [a] := by
  refine if_neg fun hkey => ?_
  obtain ⟨k, hk⟩ := Option.isSome_iff_exists.mp hkey.1
  obtain ⟨b, hb, hbk⟩ := List.mem_map.mp hkey.2
  have heq := unique_eq hu (mem_committed.mp hb) ha (hbk.trans hk) hk
  cases heq

/-- An insertion that finds its key committed does nothing. -/
theorem upsert_of_committed {v : Version α} (hholder : holder key h a = some v)
    (hw : v.writer = none) : (LogOp.add a).upsert key (committed h) = committed h := by
  obtain ⟨k, hk, hv, hvk⟩ := holder_eq_some hholder
  refine if_pos ⟨by rw [hk]; rfl, List.mem_map.mpr ⟨v.val, mem_committed.mpr ?_, hvk.trans hk.symm⟩⟩
  rw [← hw]
  exact hv

end Holder

end Version

end Taskowl.Lib
