import Mathlib.Data.List.Dedup
import Taskowl.Lib.Order
import Taskowl.Lib.Table

/-!
# Window ranks

`rowNumber` is `ROW_NUMBER()` over a partition, ordered by a time and then by
id: the rows of rank one are a table's latest, or first, row per subject. A
partition has one row of rank one, and where its rows have distinct times the
ids play no part.
-/

namespace Taskowl.Lib

variable {α : Type}

section Ranks

variable {β κ : Type}

/-- No two rows of a partition share a key. -/
def Apart (part : β → κ) (key : β → Int) (vs : List β) : Prop :=
  vs.Nodup ∧ ∀ u ∈ vs, ∀ v ∈ vs, part u = part v → key u = key v → u = v

theorem Apart.perm {part : β → κ} {key : β → Int} {vs vs' : List β} (h : Apart part key vs)
    (hp : vs.Perm vs') : Apart part key vs' :=
  ⟨hp.nodup_iff.mp h.1, fun u hu v hv =>
    h.2 u (hp.mem_iff.mpr hu) v (hp.mem_iff.mpr hv)⟩

theorem Apart.sublist {part : β → κ} {key : β → Int} {vs vs' : List β} (h : Apart part key vs)
    (hs : vs'.Sublist vs) : Apart part key vs' :=
  ⟨hs.nodup h.1, fun u hu v hv => h.2 u (hs.subset hu) v (hs.subset hv)⟩

variable [DecidableEq κ]

/-- `ROW_NUMBER() OVER (PARTITION BY part ORDER BY ..)` of a row, in an order `before` without
ties. -/
def rowNumber (part : α → κ) (before : α → α → Bool) (rows : List α) (r : α) : Nat :=
  (rows.filter fun s => decide (part s = part r) && before s r).length + 1

/-- `ORDER BY key DESC, id DESC`. -/
def newer (key : β → Int) (s r : Row β) : Bool :=
  decide (key r.val < key s.val) || (decide (key s.val = key r.val) && decide (r.id < s.id))

/-- `ORDER BY key ASC, id ASC`. -/
def older (key : β → Int) (s r : Row β) : Bool := newer key r s

/-- The rows of `ROW_NUMBER() = 1`, newest first. -/
def latestRows (part : β → κ) (key : β → Int) (rows : List (Row β)) : List (Row β) :=
  rows.filter fun r => rowNumber (fun r => part r.val) (newer key) rows r == 1

/-- The rows of `ROW_NUMBER() = 1`, oldest first. -/
def firstRows (part : β → κ) (key : β → Int) (rows : List (Row β)) : List (Row β) :=
  rows.filter fun r => rowNumber (fun r => part r.val) (older key) rows r == 1

theorem rowNumber_eq_one {part : α → κ} {before : α → α → Bool} {rows : List α} {r : α} :
    rowNumber part before rows r = 1 ↔ ∀ s ∈ rows, part s = part r → before s r = false := by
  unfold rowNumber
  rw [Nat.add_eq_right, List.length_eq_zero_iff, List.filter_eq_nil_iff]
  simp

/-- Rows in an order without cycles have a first one. -/
theorem exists_first {before : α → α → Bool}
    (htrans : ∀ a b c, before a b = true → before b c = true → before a c = true)
    (hasymm : ∀ a b, before a b = true → before b a = false) {rows : List α} (h : rows ≠ []) :
    ∃ r ∈ rows, ∀ s ∈ rows, before s r = false := by
  have hirrefl : ∀ a, before a a = false := by
    intro a
    by_contra hne
    have htrue : before a a = true := by simpa using hne
    exact absurd (hasymm a a htrue) (by rw [htrue]; decide)
  induction rows with
  | nil => exact absurd rfl h
  | cons a rows ih =>
    by_cases hnil : rows = []
    · subst hnil
      exact ⟨a, List.mem_cons_self, fun s hs => by rw [List.mem_singleton.mp hs]; exact hirrefl a⟩
    · obtain ⟨m, hm, hfirst⟩ := ih hnil
      cases ham : before a m with
      | false =>
        refine ⟨m, List.mem_cons_of_mem a hm, fun s hs => ?_⟩
        rcases List.mem_cons.mp hs with rfl | hs
        · exact ham
        · exact hfirst s hs
      | true =>
        refine ⟨a, List.mem_cons_self, fun s hs => ?_⟩
        rcases List.mem_cons.mp hs with rfl | hs
        · exact hirrefl s
        · by_contra hne
          have hsa : before s a = true := by simpa using hne
          exact absurd (htrans s a m hsa ham) (by rw [hfirst s hs]; decide)

/-- A partition has a row of rank one. -/
theorem exists_rowNumber_one (part : α → κ) {before : α → α → Bool}
    (htrans : ∀ a b c, before a b = true → before b c = true → before a c = true)
    (hasymm : ∀ a b, before a b = true → before b a = false) {rows : List α} {r : α}
    (hr : r ∈ rows) : ∃ s ∈ rows, part s = part r ∧ rowNumber part before rows s = 1 := by
  have hne : rows.filter (fun s => part s = part r) ≠ [] :=
    List.ne_nil_of_mem (List.mem_filter.mpr ⟨hr, by simp⟩)
  obtain ⟨s, hs, hfirst⟩ := exists_first htrans hasymm hne
  simp only [List.mem_filter, decide_eq_true_eq] at hs hfirst
  refine ⟨s, hs.1, hs.2, rowNumber_eq_one.mpr fun u hu hpart => hfirst u ⟨hu, ?_⟩⟩
  rw [hpart, hs.2]

theorem newer_trans {key : β → Int} (a b c : Row β) (hab : newer key a b = true)
    (hbc : newer key b c = true) : newer key a c = true := by
  simp only [newer, Bool.or_eq_true, Bool.and_eq_true, decide_eq_true_eq] at *
  omega

theorem newer_asymm {key : β → Int} (a b : Row β) (hab : newer key a b = true) :
    newer key b a = false := by
  simp only [newer, Bool.or_eq_true, Bool.and_eq_true, decide_eq_true_eq, Bool.or_eq_false_iff,
    Bool.and_eq_false_iff, decide_eq_false_iff_not] at *
  omega

theorem exists_latestRow (part : β → κ) (key : β → Int) {rows : List (Row β)} {r : Row β}
    (hr : r ∈ rows) : ∃ s ∈ latestRows part key rows, part s.val = part r.val := by
  obtain ⟨s, hs, hpart, hone⟩ := exists_rowNumber_one (fun r : Row β => part r.val)
    newer_trans newer_asymm hr
  exact ⟨s, List.mem_filter.mpr ⟨hs, beq_iff_eq.mpr hone⟩, hpart⟩

theorem exists_firstRow (part : β → κ) (key : β → Int) {rows : List (Row β)} {r : Row β}
    (hr : r ∈ rows) : ∃ s ∈ firstRows part key rows, part s.val = part r.val := by
  obtain ⟨s, hs, hpart, hone⟩ := exists_rowNumber_one (fun r : Row β => part r.val)
    (fun a b c hab hbc => newer_trans c b a hbc hab) (fun a b => newer_asymm b a) hr
  exact ⟨s, List.mem_filter.mpr ⟨hs, beq_iff_eq.mpr hone⟩, hpart⟩

theorem rowNumber_one_unique {part : α → κ} {before : α → α → Bool} {rows : List α} {r s : α}
    (htotal : before r s = false → before s r = false → r = s) (hr : r ∈ rows) (hs : s ∈ rows)
    (hr1 : rowNumber part before rows r = 1) (hs1 : rowNumber part before rows s = 1)
    (hp : part r = part s) : r = s :=
  htotal (rowNumber_eq_one.mp hs1 r hr hp) (rowNumber_eq_one.mp hr1 s hs hp.symm)

theorem newer_total {key : β → Int} {rows : List (Row β)} (hids : (rows.map (·.id)).Nodup)
    {r s : Row β} (hr : r ∈ rows) (hs : s ∈ rows) (hrs : newer key r s = false)
    (hsr : newer key s r = false) : r = s := by
  simp only [newer, Bool.or_eq_false_iff, Bool.and_eq_false_iff, decide_eq_false_iff_not] at hrs hsr
  exact List.inj_on_of_nodup_map hids hr hs (by omega)

theorem latestRows_unique {part : β → κ} {key : β → Int} {rows : List (Row β)}
    (hids : (rows.map (·.id)).Nodup) {r s : Row β} (hr : r ∈ latestRows part key rows)
    (hs : s ∈ latestRows part key rows) (hp : part r.val = part s.val) : r = s := by
  obtain ⟨hrm, hr1⟩ := List.mem_filter.mp hr
  obtain ⟨hsm, hs1⟩ := List.mem_filter.mp hs
  exact rowNumber_one_unique (newer_total hids hrm hsm) hrm hsm (beq_iff_eq.mp hr1)
    (beq_iff_eq.mp hs1) hp

theorem firstRows_unique {part : β → κ} {key : β → Int} {rows : List (Row β)}
    (hids : (rows.map (·.id)).Nodup) {r s : Row β} (hr : r ∈ firstRows part key rows)
    (hs : s ∈ firstRows part key rows) (hp : part r.val = part s.val) : r = s := by
  obtain ⟨hrm, hr1⟩ := List.mem_filter.mp hr
  obtain ⟨hsm, hs1⟩ := List.mem_filter.mp hs
  exact rowNumber_one_unique (fun hrs hsr => newer_total hids hrm hsm hsr hrs) hrm hsm
    (beq_iff_eq.mp hr1) (beq_iff_eq.mp hs1) hp

/-- The newest row of its partition, by key and then by id. -/
theorem mem_latestRows {part : β → κ} {key : β → Int} {rows : List (Row β)} {r : Row β} :
    r ∈ latestRows part key rows ↔ r ∈ rows ∧ ∀ s ∈ rows, part s.val = part r.val →
      key s.val ≤ key r.val ∧ (key s.val = key r.val → s.id ≤ r.id) := by
  unfold latestRows
  rw [List.mem_filter, beq_iff_eq, rowNumber_eq_one]
  refine and_congr_right fun _ => forall₂_congr fun s _ => imp_congr_right fun _ => ?_
  simp only [newer, Bool.or_eq_false_iff, Bool.and_eq_false_iff, decide_eq_false_iff_not]
  omega

theorem rowNumber_perm {part : α → κ} {before : α → α → Bool} {rows rows' : List α}
    (h : rows.Perm rows') : rowNumber part before rows = rowNumber part before rows' := by
  funext r
  unfold rowNumber
  rw [(h.filter _).length_eq]

/-- The newest rows are those of the table, in any scan. -/
theorem latestRows_perm {part : β → κ} {key : β → Int} {rows rows' : List (Row β)}
    (h : rows.Perm rows') : (latestRows part key rows).Perm (latestRows part key rows') := by
  unfold latestRows
  rw [rowNumber_perm h]
  exact h.filter _

theorem latestRows_front (part : β → κ) (key : β → Int) (p : Row β → Bool) (rows : List (Row β)) :
    latestRows part key (rows.filter p ++ rows.filter fun r => !p r) =
      (latestRows part key rows).filter p ++ (latestRows part key rows).filter fun r => !p r := by
  unfold latestRows
  rw [rowNumber_perm (List.filter_append_perm p rows), List.filter_append, List.filter_comm,
    List.filter_comm (p := fun r => !p r)]

/-- What a select of the greater keys leaves of the newest rows. -/
theorem latestRows_filter_ge (part : β → κ) (key : β → Int) (rows : List (Row β)) (k : Int) :
    latestRows part key (rows.filter fun r => decide (k ≤ key r.val)) =
      (latestRows part key rows).filter fun r => decide (k ≤ key r.val) := by
  unfold latestRows
  conv_rhs => rw [List.filter_comm]
  apply List.filter_congr
  intro r hr
  have hk : k ≤ key r.val := by simpa using (List.mem_filter.mp hr).2
  rw [Bool.eq_iff_iff, beq_iff_eq, beq_iff_eq, rowNumber_eq_one, rowNumber_eq_one]
  refine ⟨fun h s hs hpart => ?_, fun h s hs => h s (List.mem_of_mem_filter hs)⟩
  by_cases hsk : k ≤ key s.val
  · exact h s (List.mem_filter.mpr ⟨hs, by simpa using hsk⟩) hpart
  · simp only [newer, Bool.or_eq_false_iff, Bool.and_eq_false_iff, decide_eq_false_iff_not]
    omega

/-- A select of whole partitions comes before or after the ranking. -/
theorem latestRows_filter_part (part : β → κ) (key : β → Int) (rows : List (Row β)) (p : κ → Bool) :
    latestRows part key (rows.filter fun r => p (part r.val)) =
      (latestRows part key rows).filter fun r => p (part r.val) := by
  unfold latestRows
  conv_rhs => rw [List.filter_comm]
  apply List.filter_congr
  intro r hr
  have hp : p (part r.val) = true := (List.mem_filter.mp hr).2
  rw [Bool.eq_iff_iff, beq_iff_eq, beq_iff_eq, rowNumber_eq_one, rowNumber_eq_one]
  refine ⟨fun h s hs hpart => ?_, fun h s hs => h s (List.mem_of_mem_filter hs)⟩
  exact h s (List.mem_filter.mpr ⟨hs, by rw [hpart]; exact hp⟩) hpart

theorem le_key_latestRow_iff {part : β → κ} {key : β → Int} {rows : List (Row β)} {r : Row β}
    (hr : r ∈ latestRows part key rows) (k : Int) :
    k ≤ key r.val ↔ ∃ s ∈ rows, part s.val = part r.val ∧ k ≤ key s.val := by
  obtain ⟨hmem, hnewest⟩ := mem_latestRows.mp hr
  constructor
  · exact fun hk => ⟨r, hmem, rfl, hk⟩
  · rintro ⟨s, hs, hpart, hk⟩
    exact hk.trans (hnewest s hs hpart).1

theorem nodup_parts_latestRows {part : β → κ} {key : β → Int} {rows : List (Row β)}
    (hids : (rows.map (·.id)).Nodup) : ((latestRows part key rows).map fun r => part r.val).Nodup :=
  List.Nodup.map_on (fun _ hr _ hs => latestRows_unique hids hr hs)
    ((List.Nodup.of_map _ hids).filter _)

/-- Values of which no other of its partition has a greater key. -/
def newestOf (part : β → κ) (key : β → Int) (vs : List β) : List β :=
  vs.filter fun v => vs.all fun u => decide (part u = part v → key u ≤ key v)

theorem map_latestRows {part : β → κ} {key : β → Int} {rows : List (Row β)}
    (h : Apart part key (rows.map (·.val))) :
    (latestRows part key rows).map (·.val) = newestOf part key (rows.map (·.val)) := by
  unfold newestOf
  rw [List.filter_map]
  unfold latestRows
  congr 1
  apply List.filter_congr
  intro r hr
  rw [Bool.eq_iff_iff, beq_iff_eq, rowNumber_eq_one]
  simp only [Function.comp_apply, List.all_map, List.all_eq_true, decide_eq_true_eq]
  refine forall₂_congr fun s hs => imp_congr_right fun hpart => ?_
  simp only [newer, Bool.or_eq_false_iff, Bool.and_eq_false_iff, decide_eq_false_iff_not,
    Int.not_lt]
  refine ⟨And.left, fun hle => ⟨hle, ?_⟩⟩
  by_cases hk : key s.val = key r.val
  · have hval := h.2 _ (List.mem_map_of_mem hs) _ (List.mem_map_of_mem hr) hpart hk
    have hsr : s = r := List.inj_on_of_nodup_map h.1 hs hr hval
    exact .inr (by rw [hsr]; exact Nat.lt_irrefl _)
  · exact .inl hk

/-- Without ties the newest row is one of greatest key. -/
theorem mem_latestRows_of_apart {part : β → κ} {key : β → Int} {rows : List (Row β)}
    (h : Apart part key (rows.map (·.val))) {r : Row β} : r ∈ latestRows part key rows ↔
      r ∈ rows ∧ ∀ s ∈ rows, part s.val = part r.val → key s.val ≤ key r.val := by
  rw [mem_latestRows]
  refine and_congr_right fun hr => forall₂_congr fun s hs => imp_congr_right fun hpart => ?_
  refine ⟨And.left, fun hle => ⟨hle, fun hk => ?_⟩⟩
  have hval := h.2 _ (List.mem_map_of_mem hs) _ (List.mem_map_of_mem hr) hpart hk
  rw [List.inj_on_of_nodup_map h.1 hs hr hval]

theorem newestOf_perm {part : β → κ} {key : β → Int} {vs vs' : List β} (h : vs.Perm vs') :
    (newestOf part key vs).Perm (newestOf part key vs') := by
  unfold newestOf
  have hall : ∀ v, (vs.all fun u => decide (part u = part v → key u ≤ key v)) =
      vs'.all fun u => decide (part u = part v → key u ≤ key v) := fun v => h.all_eq
  simp only [hall]
  exact h.filter _

theorem newestOf_inj {part : β → κ} {key : β → Int} {vs : List β} (h : Apart part key vs) {u v : β}
    (hu : u ∈ newestOf part key vs) (hv : v ∈ newestOf part key vs) (hp : part u = part v) :
    u = v := by
  unfold newestOf at hu hv
  simp only [List.mem_filter, List.all_eq_true, decide_eq_true_eq] at hu hv
  exact h.2 u hu.1 v hv.1 hp (Int.le_antisymm (hv.2 u hu.1 hp) (hu.2 v hv.1 hp.symm))

theorem nodup_newestOf {part : β → κ} {key : β → Int} {vs : List β} (h : Apart part key vs) :
    ((newestOf part key vs).map part).Nodup :=
  List.Nodup.map_on (fun _ hu _ hv => newestOf_inj h hu hv) (h.1.filter _)

theorem nodup_latestRows {part : β → κ} {key : β → Int} {rows : List (Row β)}
    (h : Apart part key (rows.map (·.val))) :
    ((latestRows part key rows).map fun r => part r.val).Nodup := by
  have hparts := nodup_newestOf h
  rw [← map_latestRows h, List.map_map] at hparts
  exact hparts

end Ranks

/-! ## Lookups in keyed rows -/

section Lookups

variable {β : Type}

theorem lookup_eq_some_iff [DecidableEq α] {xs : List (α × β)} (hn : (xs.map (·.1)).Nodup) {k : α}
    {v : β} : xs.lookup k = some v ↔ (k, v) ∈ xs := by
  induction xs with
  | nil => simp
  | cons x xs ih =>
    obtain ⟨hx, hn⟩ := List.nodup_cons.mp hn
    rw [List.lookup_cons]
    by_cases hk : k = x.1
    · subst hk
      have hnot : (x.1, v) ∉ xs := fun hm => hx (List.mem_map.mpr ⟨_, hm, rfl⟩)
      simp only [beq_self_eq_true, Option.some.injEq, List.mem_cons, hnot, or_false]
      exact ⟨fun h => by rw [← h], fun h => by rw [← h]⟩
    · have hne : (k == x.1) = false := by simpa using hk
      rw [hne]
      dsimp only
      rw [ih hn, List.mem_cons]
      exact ⟨.inr, fun h => h.elim (fun heq => absurd (congrArg Prod.fst heq) hk) id⟩

theorem lookup_eq_of_perm [DecidableEq α] {xs ys : List (α × β)} (h : xs.Perm ys)
    (hn : (xs.map (·.1)).Nodup) (k : α) : xs.lookup k = ys.lookup k := by
  apply Option.ext
  intro v
  rw [lookup_eq_some_iff hn, lookup_eq_some_iff ((h.map _).nodup_iff.mp hn), h.mem_iff]

end Lookups

end Taskowl.Lib
