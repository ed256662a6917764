import Mathlib.Data.List.Infix
import Mathlib.Data.List.Chain

/-!
# Words in a text

A scan goes through a text from left to right; where a word stands it takes
the word, elsewhere it passes one symbol over. Words are opened by a symbol
that does not occur in them again, so no two of them overlap: there is one
way to cut a text into words and stretches without words, and the scan finds
it (`split_eq_iff`).
-/

namespace Taskowl.Lib

variable {α β : Type}

/-- Words over the symbols `α`, named by `β`, and a function that finds a word at the head of a
text. -/
structure Words (α β : Type) where
  valid : β → Prop
  spell : β → List α
  find : List α → Option β
  find_eq_some : ∀ {cs b}, find cs = some b ↔ valid b ∧ spell b <+: cs
  opening : α
  opens : ∀ {b}, valid b → ∃ t, spell b = opening :: t ∧ opening ∉ t

/-- A part of a text: a stretch between words, or a word. -/
inductive Piece (α β : Type) where
  | plain (cs : List α)
  | word (b : β)
  deriving DecidableEq, Repr

def Piece.text (spell : β → List α) : Piece α β → List α
  | .plain cs => cs
  | .word b => spell b

def Piece.isWord : Piece α β → Bool
  | .plain _ => false
  | .word _ => true

/-- One more symbol in front: it joins a stretch, or makes one. -/
def consPlain (c : α) : List (Piece α β) → List (Piece α β)
  | .plain cs :: ps => .plain (c :: cs) :: ps
  | ps => .plain [c] :: ps

namespace Words

/-- The scan; `skip` symbols of a word are still to be passed over. -/
def split (W : Words α β) : Nat → List α → List (Piece α β)
  | _, [] => []
  | skip + 1, _ :: cs => split W skip cs
  | 0, c :: cs => match W.find (c :: cs) with
    | some b => .word b :: split W ((W.spell b).length - 1) cs
    | none => consPlain c (split W 0 cs)

/-- No word occurs in the text. -/
def Clear (W : Words α β) (cs : List α) : Prop := ∀ b, W.valid b → ¬ W.spell b <:+: cs

/-- A text cut into words and the whole stretches between them. -/
structure Splits (W : Words α β) (cs : List α) (ps : List (Piece α β)) : Prop where
  join : ps.flatMap (Piece.text W.spell) = cs
  plain : ∀ t, .plain t ∈ ps → t ≠ [] ∧ W.Clear t
  word : ∀ b, .word b ∈ ps → W.valid b
  whole : ps.IsChain fun p q => p.isWord = true ∨ q.isWord = true

section Scan

variable {W : Words α β} {cs t rest : List α} {ps : List (Piece α β)} {b : β} {c : α} {n : Nat}

theorem spell_ne_nil (hb : W.valid b) : W.spell b ≠ [] := by
  obtain ⟨t, ht, -⟩ := W.opens hb
  rw [ht]
  exact List.cons_ne_nil _ _

theorem spell_append_drop (h : W.find (c :: cs) = some b) :
    W.spell b ++ cs.drop ((W.spell b).length - 1) = c :: cs := by
  obtain ⟨hb, rest, hrest⟩ := W.find_eq_some.mp h
  obtain ⟨t, ht, -⟩ := W.opens hb
  rw [ht] at hrest ⊢
  obtain ⟨rfl, rfl⟩ := List.cons.inj hrest
  simp

theorem split_of_some (h : W.find (c :: cs) = some b) :
    W.split 0 (c :: cs) = .word b :: W.split ((W.spell b).length - 1) cs := by
  rw [split, h]

theorem split_of_none (h : W.find (c :: cs) = none) :
    W.split 0 (c :: cs) = consPlain c (W.split 0 cs) := by
  rw [split, h]

theorem split_drop (W : Words α β) (n : Nat) (cs : List α) :
    W.split n cs = W.split 0 (cs.drop n) := by
  induction cs generalizing n with
  | nil => cases n <;> rfl
  | cons c cs ih =>
    cases n with
    | zero => rfl
    | succ n => exact ih n

theorem Clear.tail (h : W.Clear (c :: t)) : W.Clear t := fun b hb hin =>
  h b hb (hin.trans (List.suffix_cons c t).isInfix)

/-! ## The scan cuts the text -/

theorem flatMap_consPlain (spell : β → List α) (c : α) (ps : List (Piece α β)) :
    (consPlain c ps).flatMap (Piece.text spell) = c :: ps.flatMap (Piece.text spell) := by
  cases ps with
  | nil => rfl
  | cons p ps => cases p <;> rfl

theorem Clear.cons (ht : W.Clear t) (hpre : t <+: cs) (hnone : W.find (c :: cs) = none) :
    W.Clear (c :: t) := by
  intro b hb hin
  obtain hpre' | hin := List.infix_cons_iff.mp hin
  · have hfind := W.find_eq_some.mpr ⟨hb, hpre'.trans ((List.prefix_cons_inj c).mpr hpre)⟩
    rw [hnone] at hfind
    cases hfind
  · exact ht b hb hin

theorem clear_nil : W.Clear [] := fun _ hb hin => spell_ne_nil hb (List.eq_nil_of_infix_nil hin)

theorem Splits.consPlain (hnone : W.find (c :: cs) = none) (h : W.Splits cs ps) :
    W.Splits (c :: cs) (consPlain c ps) := by
  have hjoin : (Lib.consPlain c ps).flatMap (Piece.text W.spell) = c :: cs := by
    rw [flatMap_consPlain, h.join]
  match ps, h, hjoin with
  | .plain t :: ps, h, hjoin =>
    obtain ⟨-, ht⟩ := h.plain t List.mem_cons_self
    have hpre : t <+: cs := ⟨_, h.join⟩
    refine ⟨hjoin, fun s hs => ?_, fun b hb => ?_, h.whole.imp_head ?_⟩
    · obtain heq | hs := List.mem_cons.mp hs
      · cases heq
        exact ⟨List.cons_ne_nil _ _, ht.cons hpre hnone⟩
      · exact h.plain s (List.mem_cons_of_mem _ hs)
    · obtain heq | hb := List.mem_cons.mp hb
      · cases heq
      · exact h.word b (List.mem_cons_of_mem _ hb)
    · exact fun hq => hq
  | [], h, hjoin =>
    refine ⟨hjoin, fun s hs => ?_, fun b hb => ?_, List.isChain_singleton _⟩
    · cases List.mem_singleton.mp hs
      exact ⟨List.cons_ne_nil _ _, clear_nil.cons List.nil_prefix hnone⟩
    · cases List.mem_singleton.mp hb
  | .word b :: ps, h, hjoin =>
    refine ⟨hjoin, fun s hs => ?_, fun b' hb => ?_, List.isChain_cons_cons.mpr ⟨.inr rfl, h.whole⟩⟩
    · obtain heq | hs := List.mem_cons.mp hs
      · cases heq
        exact ⟨List.cons_ne_nil _ _, clear_nil.cons List.nil_prefix hnone⟩
      · exact h.plain s hs
    · obtain heq | hb := List.mem_cons.mp hb
      · cases heq
      · exact h.word b' hb

theorem Splits.consWord (hb : W.valid b) (h : W.Splits cs ps) :
    W.Splits (W.spell b ++ cs) (.word b :: ps) := by
  refine ⟨by rw [List.flatMap_cons, h.join]; rfl, fun s hs => ?_, fun b' hb' => ?_, ?_⟩
  · obtain heq | hs := List.mem_cons.mp hs
    · cases heq
    · exact h.plain s hs
  · obtain heq | hb' := List.mem_cons.mp hb'
    · cases heq
      exact hb
    · exact h.word b' hb'
  · exact h.whole.cons fun q _ => .inl rfl

theorem splits_split (W : Words α β) (n : Nat) (cs : List α) :
    W.Splits (cs.drop n) (W.split n cs) := by
  fun_induction split W n cs with
  | case1 n =>
    rw [List.drop_nil]
    exact ⟨rfl, fun _ h => (nomatch h), fun _ h => (nomatch h), List.isChain_nil⟩
  | case2 n c cs ih => exact ih
  | case3 c cs b hb ih =>
    have hcut := ih.consWord (W.find_eq_some.mp hb).1
    rwa [spell_append_drop hb] at hcut
  | case4 c cs hnone ih => exact ih.consPlain hnone

/-! ## There is no other way to cut it -/

theorem Splits.tail {p : Piece α β} (h : W.Splits cs (p :: ps)) :
    W.Splits (ps.flatMap (Piece.text W.spell)) ps :=
  ⟨rfl, fun t ht => h.plain t (List.mem_cons_of_mem _ ht),
    fun b hb => h.word b (List.mem_cons_of_mem _ hb), h.whole.tail⟩

/-- A word does not reach over a stretch without words into the next word. -/
theorem find_of_clear (ht : W.Clear (c :: t)) (hrest : ∀ d ∈ rest.head?, d = W.opening) :
    W.find (c :: (t ++ rest)) = none := by
  cases hfind : W.find (c :: (t ++ rest)) with
  | none => rfl
  | some b =>
    exfalso
    obtain ⟨hb, hpre⟩ := W.find_eq_some.mp hfind
    obtain ⟨u, hu, hopening⟩ := W.opens hb
    obtain hlt | hle := Nat.lt_or_ge (c :: t).length (W.spell b).length
    · -- it has the symbol that opens the next word
      have hover : (c :: t) <+: W.spell b :=
        List.prefix_of_prefix_length_le (List.prefix_append (c :: t) rest) hpre (Nat.le_of_lt hlt)
      obtain ⟨v, hv⟩ := hover
      cases v with
      | nil =>
        rw [List.append_nil] at hv
        rw [hv] at hlt
        exact absurd hlt (Nat.lt_irrefl _)
      | cons d v =>
        rw [← hv] at hpre
        have hd : d :: v <+: rest := (List.prefix_append_right_inj (c :: t)).mp hpre
        have hhead : d = W.opening := hrest d (by
          obtain ⟨s, rfl⟩ := hd
          exact rfl)
        rw [hu] at hv
        obtain ⟨-, rfl⟩ := List.cons.inj hv
        exact hopening (hhead ▸ List.mem_append_right _ List.mem_cons_self)
    · -- it lies in the stretch
      exact ht b hb (List.prefix_of_prefix_length_le hpre (List.prefix_append (c :: t) rest)
        hle).isInfix

theorem split_plain (hne : t ≠ []) (ht : W.Clear t) (hrest : ∀ d ∈ rest.head?, d = W.opening)
    (hps : W.split 0 rest = ps) (hword : ∀ p ∈ ps.head?, p.isWord = true) :
    W.split 0 (t ++ rest) = .plain t :: ps := by
  induction t with
  | nil => exact absurd rfl hne
  | cons c t ih =>
    rw [List.cons_append, split_of_none (find_of_clear ht hrest)]
    cases t with
    | nil =>
      rw [List.nil_append, hps]
      cases ps with
      | nil => rfl
      | cons p ps =>
        cases p with
        | plain s => exact absurd (hword _ rfl) Bool.false_ne_true
        | word b => rfl
    | cons d t =>
      rw [ih (List.cons_ne_nil _ _) ht.tail]
      rfl

theorem Splits.head_opening (h : W.Splits cs (.plain t :: ps)) :
    (∀ p ∈ ps.head?, p.isWord = true) ∧
      ∀ d ∈ (ps.flatMap (Piece.text W.spell)).head?, d = W.opening := by
  cases ps with
  | nil => exact ⟨fun _ h => (nomatch h), fun _ h => (nomatch h)⟩
  | cons p ps =>
    cases p with
    | plain s =>
      have := (List.isChain_cons_cons.mp h.whole).1
      simp [Piece.isWord] at this
    | word b =>
      refine ⟨fun p hp => by cases hp; rfl, fun d hd => ?_⟩
      obtain ⟨u, hu, -⟩ := W.opens (h.word b (List.mem_cons_of_mem _ List.mem_cons_self))
      rw [List.flatMap_cons, Piece.text, hu] at hd
      exact (Option.some.inj hd).symm

theorem Splits.split_eq (h : W.Splits cs ps) : W.split 0 cs = ps := by
  induction ps generalizing cs with
  | nil =>
    obtain rfl : [] = cs := h.join
    rfl
  | cons p ps ih =>
    have hps := ih h.tail
    have hjoin := h.join
    rw [List.flatMap_cons] at hjoin
    cases p with
    | plain t =>
      obtain ⟨hne, ht⟩ := h.plain t List.mem_cons_self
      obtain ⟨hword, hrest⟩ := h.head_opening
      rw [← hjoin]
      exact split_plain hne ht hrest hps hword
    | word b =>
      have hb := h.word b List.mem_cons_self
      obtain ⟨u, hu, -⟩ := W.opens hb
      have hfind : W.find cs = some b := W.find_eq_some.mpr ⟨hb, _, hjoin⟩
      rw [Piece.text, hu, List.cons_append] at hjoin
      subst hjoin
      rw [split_of_some hfind, split_drop, hu, List.length_cons, Nat.add_sub_cancel,
        List.drop_left, hps]

/-- **The scan cuts a text in the only way there is.** -/
theorem split_eq_iff : W.split 0 cs = ps ↔ W.Splits cs ps :=
  ⟨fun h => h ▸ splits_split W 0 cs, Splits.split_eq⟩

end Scan

end Words

end Taskowl.Lib
