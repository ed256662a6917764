import Mathlib.Data.List.Sort

/-!
# Pages

A list read by pages, each taken by `LIMIT` and `OFFSET` from an answer of its
own: the same elements in an order of their own. The pages make up the list,
whatever the answers, exactly when the answers agree on what comes before each
page; for answers that are sorted, where no page starts between two tied
elements.
-/

namespace Taskowl.Lib

variable {α : Type}

/-- `LIMIT n OFFSET k * n`. -/
def page (n k : Nat) (l : List α) : List α := (l.drop (k * n)).take n

section Pages

variable {n k K : Nat} {l : List α}

theorem take_succ_pages (n k : Nat) (l : List α) :
    l.take ((k + 1) * n) = l.take (k * n) ++ page n k l := by
  rw [Nat.succ_mul, List.take_add]
  rfl

theorem page_eq_nil (hn : 0 < n) : page n k l = [] ↔ l.length ≤ k * n := by
  unfold page
  rw [List.take_eq_nil_iff, List.drop_eq_nil_iff]
  omega

theorem flatMap_pages (n K : Nat) (l : List α) :
    (List.range K).flatMap (fun k => page n k l) = l.take (K * n) := by
  induction K with
  | zero => simp
  | succ K ih =>
    rw [List.range_succ, List.flatMap_append, ih, take_succ_pages, List.flatMap_singleton]

/-- The first `k` pages of one answer, then pages of another. -/
theorem flatMap_pages_switch (n k j : Nat) (l l' : List α) :
    (List.range (k + j)).flatMap (fun i => page n i (if i < k then l else l')) =
      l.take (k * n) ++ (l'.drop (k * n)).take (j * n) := by
  induction j with
  | zero =>
    rw [Nat.add_zero, Nat.zero_mul, List.take_zero, List.append_nil, ← flatMap_pages]
    refine List.flatMap_congr fun i hi => ?_
    rw [if_pos (List.mem_range.mp hi)]
  | succ j ih =>
    rw [← Nat.add_assoc, List.range_succ, List.flatMap_append, ih, List.flatMap_singleton,
      if_neg (by omega), List.append_assoc, Nat.succ_mul, List.take_add, List.drop_drop,
      ← Nat.add_mul]
    rfl

end Pages

section Answers

variable {ω : Type} {n : Nat} {answer : ω → List α}

/-- Whatever the answers, the pages up to the first empty one make up any of them. -/
def PagesMakeUp (n : Nat) (answer : ω → List α) : Prop :=
  ∀ (asked : Nat → ω) (reference : ω), ∃ K, page n K (answer (asked K)) = [] ∧
    (∀ k < K, page n k (answer (asked k)) ≠ []) ∧
    ((List.range K).flatMap fun k => page n k (answer (asked k))).Perm (answer reference)

/-- The answers agree on what comes before each page. -/
def PrefixesAgree (n : Nat) (answer : ω → List α) : Prop :=
  ∀ k o o', ((answer o).take (k * n)).Perm ((answer o').take (k * n))

theorem PrefixesAgree.perm (hn : 0 < n) (h : PrefixesAgree n answer) (o o' : ω) :
    (answer o).Perm (answer o') := by
  have hlong := Nat.le_mul_of_pos_right ((answer o).length + (answer o').length) hn
  have hp := h ((answer o).length + (answer o').length) o o'
  rwa [List.take_of_length_le (by omega), List.take_of_length_le (by omega)] at hp

theorem PagesMakeUp.perm (hn : 0 < n) (h : PagesMakeUp n answer) (o o' : ω) :
    (answer o).Perm (answer o') := by
  obtain ⟨K, hempty, -, hp⟩ := h (fun _ => o) o'
  rw [flatMap_pages, List.take_of_length_le ((page_eq_nil hn).mp hempty)] at hp
  exact hp

theorem PagesMakeUp.prefixesAgree (hn : 0 < n) (h : PagesMakeUp n answer) :
    PrefixesAgree n answer := by
  intro k o o'
  have hsame := h.perm hn o o'
  by_cases hk : (answer o).length ≤ k * n
  · rwa [List.take_of_length_le hk, List.take_of_length_le (hsame.length_eq ▸ hk)]
  -- The pages before the boundary from one answer, the others from the other.
  obtain ⟨K, hempty, -, hp⟩ := h (fun i => if i < k then o else o') o'
  have hlen : (answer o').length ≤ K * n := by
    have hle := (page_eq_nil hn).mp hempty
    by_cases hK : K < k
    · rw [if_pos hK, hsame.length_eq] at hle
      exact hle
    · rw [if_neg hK] at hle
      exact hle
  have hkK : k < K := by
    by_contra hge
    have := Nat.mul_le_mul_right n (Nat.le_of_not_lt hge)
    have := hsame.length_eq
    omega
  obtain ⟨j, rfl⟩ := Nat.exists_eq_add_of_le hkK.le
  simp only [apply_ite answer] at hp
  have hrest : ((answer o').drop (k * n)).length ≤ j * n := by
    rw [Nat.add_mul] at hlen
    rw [List.length_drop]
    omega
  rw [flatMap_pages_switch, List.take_of_length_le hrest] at hp
  have hcut : (answer o').Perm ((answer o').take (k * n) ++ (answer o').drop (k * n)) := by
    rw [List.take_append_drop]
  exact (List.perm_append_right_iff _).mp (hp.trans hcut)

theorem PrefixesAgree.flatMap_pages (h : PrefixesAgree n answer) (asked : Nat → ω) (reference : ω)
    (K : Nat) : ((List.range K).flatMap fun k => page n k (answer (asked k))).Perm
      ((answer reference).take (K * n)) := by
  induction K with
  | zero => simp
  | succ K ih =>
    rw [List.range_succ, List.flatMap_append, List.flatMap_singleton]
    have hlast := (ih.trans (h K reference (asked K))).append_right (page n K (answer (asked K)))
    rw [← take_succ_pages] at hlast
    exact hlast.trans (h (K + 1) (asked K) reference)

theorem pagesMakeUp_iff (hn : 0 < n) : PagesMakeUp n answer ↔ PrefixesAgree n answer := by
  refine ⟨fun h => h.prefixesAgree hn, fun h asked reference => ?_⟩
  have hends : ∃ K, (answer reference).length ≤ K * n :=
    ⟨_, Nat.le_mul_of_pos_right (answer reference).length hn⟩
  have hlen : ∀ o, (answer o).length = (answer reference).length :=
    fun o => (h.perm hn o reference).length_eq
  refine ⟨Nat.find hends, ?_, fun k hk => ?_, ?_⟩
  · rw [page_eq_nil hn, hlen]
    exact Nat.find_spec hends
  · rw [Ne, page_eq_nil hn, hlen]
    exact Nat.find_min hends hk
  · have hp := h.flatMap_pages asked reference (Nat.find hends)
    rwa [List.take_of_length_le (Nat.find_spec hends)] at hp

end Answers

/-! ## Growing answers -/

section Growing

variable {n K : Nat} {x : α}

theorem mem_page {k : Nat} {before after : List α} (hlow : k * n ≤ before.length)
    (hhigh : before.length < (k + 1) * n) : x ∈ page n k (before ++ x :: after) := by
  unfold page
  rw [Nat.succ_mul] at hhigh
  rw [List.drop_append_of_le_length hlow, List.take_append, List.length_drop]
  refine List.mem_append_right _ ?_
  obtain ⟨m, hm⟩ : ∃ m, n - (before.length - k * n) = m + 1 :=
    ⟨n - (before.length - k * n) - 1, by omega⟩
  rw [hm, List.take_succ_cons]
  exact List.mem_cons_self

/-- An element before which ever more comes is on a page before the first empty one. -/
theorem exists_mem_page (hn : 0 < n) {answer before after : Nat → List α}
    (hsplit : ∀ k, answer k = before k ++ x :: after k)
    (hgrows : ∀ k, (before k).length ≤ (before (k + 1)).length)
    (hempty : page n K (answer K) = []) : ∃ k < K, x ∈ page n k (answer k) := by
  have hlast : (before K).length < K * n := by
    have hlen := (page_eq_nil hn).mp hempty
    rw [hsplit, List.length_append, List.length_cons] at hlen
    omega
  have hreached : ∃ k, (before k).length < (k + 1) * n :=
    ⟨K, hlast.trans_le (Nat.mul_le_mul_right n (Nat.le_succ K))⟩
  have hfirst := Nat.find_spec hreached
  refine ⟨Nat.find hreached, ?_, ?_⟩
  · cases K with
    | zero => omega
    | succ K => exact Nat.lt_succ_of_le (Nat.find_min' hreached ((hgrows K).trans_lt hlast))
  · rw [hsplit]
    refine mem_page ?_ hfirst
    cases hk : Nat.find hreached with
    | zero => omega
    | succ k =>
      have hbefore : ¬ (before k).length < (k + 1) * n :=
        Nat.find_min hreached (hk ▸ Nat.lt_succ_self k)
      exact (Nat.le_of_not_lt hbefore).trans (hgrows k)

end Growing

/-! ## Sorted answers -/

section Sorted

variable {le : α → α → Prop}

theorem take_perm_of_before {l s : List α} (hsorted : l.Pairwise le) (hnodup : l.Nodup)
    (hs : s.Nodup) (hsub : s ⊆ l) (hbefore : ∀ x ∈ s, ∀ y ∈ l, y ∉ s → ¬ le y x) :
    (l.take s.length).Perm s := by
  have hlen : s.length ≤ l.length := (List.subperm_of_subset hs hsub).length_le
  have hfirst : l.take s.length ⊆ s := by
    intro y hy
    by_contra hys
    have hrest : ∃ x ∈ s, x ∉ l.take s.length := by
      by_contra hall
      have hmore : (y :: s).Subperm (l.take s.length) := by
        refine List.subperm_of_subset (List.nodup_cons.mpr ⟨hys, hs⟩)
          (List.cons_subset.mpr ⟨hy, fun x hx => ?_⟩)
        by_contra hxt
        exact hall ⟨x, hx, hxt⟩
      have := hmore.length_le
      rw [List.length_cons, List.length_take] at this
      omega
    obtain ⟨x, hx, hxt⟩ := hrest
    have hxd : x ∈ l.drop s.length := by
      have := hsub hx
      rw [← List.take_append_drop s.length l] at this
      exact (List.mem_append.mp this).resolve_left hxt
    rw [← List.take_append_drop s.length l] at hsorted
    exact hbefore x hx y (List.mem_of_mem_take hy) hys
      ((List.pairwise_append.mp hsorted).2.2 y hy x hxd)
  refine (List.subperm_of_subset (hnodup.sublist (List.take_sublist _ _)) hfirst).perm_of_length_le
    ?_
  rw [List.length_take]
  omega

variable [DecidableRel le]

/-- An element inserted before those it may come before is among the first where one of them is. -/
theorem mem_take_orderedInsert {w x : α} (hwx : le w x) {l : List α} {m : Nat}
    (hx : x ∈ (l.orderedInsert le w).take m) : w ∈ (l.orderedInsert le w).take m := by
  induction l generalizing m with
  | nil =>
    cases m with
    | zero => cases hx
    | succ m => simp
  | cons b l ih =>
    cases m with
    | zero => cases hx
    | succ m =>
      rw [List.orderedInsert_cons] at hx ⊢
      by_cases hwb : le w b
      · rw [if_pos hwb]
        exact List.mem_cons_self
      · rw [if_neg hwb, List.take_succ_cons] at hx ⊢
        rcases List.mem_cons.mp hx with rfl | hx
        · exact absurd hwx hwb
        · exact List.mem_cons_of_mem b (ih hx)

end Sorted

end Taskowl.Lib
