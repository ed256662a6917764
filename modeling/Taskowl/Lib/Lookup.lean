import Mathlib.Data.List.Range
import Taskowl.Lib.Table

/-!
# A table as a finite map

What a lookup by id finds after each operation on a table, and the rows of a
table as the lookups of the ids in order.
-/

namespace Taskowl.Lib.Table

variable {α : Type} {t : Table α} {i : Nat}

theorem get?_eq_none : t.get? i = none ↔ ∀ r ∈ t.rows, r.id ≠ i := by
  unfold get?
  rw [List.find?_eq_none]
  simp only [beq_iff_eq]

theorem get?_of_bound (h : t.nextId ≤ i) : t.get? i = none :=
  get?_eq_none.mpr fun r hr heq => absurd (t.bound r hr) (by omega)

@[simp] theorem get?_empty (i : Nat) : (empty : Table α).get? i = none := rfl

theorem get?_insert (t : Table α) (now : Int) (v : α) (i : Nat) :
    (t.insert now v).get? i = if i = t.nextId then some ⟨t.nextId, now, v⟩ else t.get? i := by
  have hnew : (t.insert now v).get? i =
      (t.get? i).or (List.find? (·.id == i) [⟨t.nextId, now, v⟩]) := List.find?_append
  rw [hnew]
  split
  · next h =>
    rw [h, get?_of_bound (Nat.le_refl _)]
    simp
  · next h =>
    have hne : (t.nextId == i) = false := beq_false_of_ne fun heq => h heq.symm
    rw [List.find?_cons_of_neg (by rw [hne]; exact Bool.false_ne_true), List.find?_nil,
      Option.or_none]

theorem get?_modify (t : Table α) (j : Nat) (f : α → α) (i : Nat) :
    (t.modify j f).get? i =
      (t.get? i).map fun r => if i = j then { r with val := f r.val } else r := by
  cases h : t.get? i with
  | none =>
    refine get?_eq_none.mpr fun r hr => ?_
    obtain ⟨s, hs, rfl⟩ := List.mem_map.mp hr
    have hne := get?_eq_none.mp h s hs
    split
    · exact hne
    · exact hne
  | some r =>
    obtain ⟨hr, rfl⟩ := get?_eq_some.mp h
    refine get?_eq_some.mpr ⟨List.mem_map.mpr ⟨r, hr, rfl⟩, ?_⟩
    split
    · rfl
    · rfl

theorem get?_deleteWhere_id (t : Table α) (j i : Nat) :
    (t.deleteWhere (·.id == j)).get? i = if i = j then none else t.get? i := by
  split
  · next h =>
    refine get?_eq_none.mpr fun r hr heq => ?_
    have hne := (List.mem_filter.mp hr).2
    simp [heq, h] at hne
  · next h =>
    cases hi : t.get? i with
    | none =>
      exact get?_eq_none.mpr fun r hr => get?_eq_none.mp hi r (List.mem_of_mem_filter hr)
    | some r =>
      obtain ⟨hr, rfl⟩ := get?_eq_some.mp hi
      exact get?_eq_some.mpr ⟨List.mem_filter.mpr ⟨hr, by simpa using h⟩, rfl⟩

theorem ids_pairwise (t : Table α) : (t.rows.map (·.id)).Pairwise (· < ·) :=
  List.pairwise_map.mpr t.sorted

/-- Looking the ids of the rows up in order gives the rows. -/
theorem filterMap_get? (t : Table α) : (t.rows.map (·.id)).filterMap t.get? = t.rows := by
  rw [List.filterMap_map]
  have hself : ∀ r ∈ t.rows, (t.get? ∘ (·.id)) r = some r :=
    fun r hr => get?_eq_some.mpr ⟨hr, rfl⟩
  rw [List.filterMap_congr hself, List.filterMap_some]

end Taskowl.Lib.Table
