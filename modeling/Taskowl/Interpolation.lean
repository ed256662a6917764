import Taskowl.Dispatch
import Taskowl.Lib.Words

/-!
# Interpolation

The references `{event.path}` are words that a brace opens, so a text is in one way
made of references and of stretches between them, and the substitution goes
over the text once: what it puts in is not looked at again.
-/

namespace Taskowl

open Lib Py

/-! ## References in a text -/

/-- A path: word characters and dots. -/
def IsPath (lib : PyLib) (path : List Char) : Prop := path ≠ [] ∧ ∀ c ∈ path, pathChar lib c = true

def reference (path : List Char) : List Char := "\x7bevent.".toList ++ path ++ ['\x7d']

section References

variable {lib : PyLib} {cs path : List Char}

theorem pathChar_of_ascii (lib : PyLib) {c : Char} (h : (c.isAlphanum || c == '_' || c == '.' ||
    decide (128 ≤ c.toNat)) = false) : pathChar lib c = false := by
  simp only [Bool.or_eq_false_iff] at h
  simp [pathChar, h]

theorem reference_append (path rest : List Char) :
    reference path ++ rest = "\x7bevent.".toList ++ (path ++ '\x7d' :: rest) := by
  unfold reference
  generalize "\x7bevent.".toList = pre
  simp

theorem length_reference (path : List Char) : (reference path).length = path.length + 8 := by
  have hpre : "\x7bevent.".toList.length = 7 := by decide
  unfold reference
  generalize "\x7bevent.".toList = pre at hpre ⊢
  simp only [List.length_append, List.length_singleton]
  omega

theorem placeholder_eq_some :
    placeholder lib cs = some path ↔ IsPath lib path ∧ reference path <+: cs := by
  constructor
  · intro h
    unfold placeholder at h
    dsimp only at h
    split at h
    · next hmatch =>
      cases h
      simp only [Bool.and_eq_true, Bool.not_eq_true', List.isEmpty_eq_false_iff,
        beq_iff_eq] at hmatch
      obtain ⟨⟨hpre, hne⟩, hclose⟩ := hmatch
      obtain ⟨rest, rfl⟩ := List.isPrefixOf_iff_prefix.mp hpre
      rw [List.drop_left] at hne hclose ⊢
      refine ⟨⟨hne, fun c hc => List.all_eq_true.mp List.all_takeWhile c hc⟩, ?_⟩
      have hrest := List.prefix_iff_eq_append.mp
        (List.takeWhile_prefix (l := rest) (pathChar lib))
      obtain ⟨more, hmore⟩ := List.head?_eq_some_iff.mp hclose
      rw [hmore] at hrest
      refine ⟨more, ?_⟩
      rw [reference_append, hrest]
    · cases h
  · rintro ⟨⟨hne, hpath⟩, rest, rfl⟩
    have htake : (path ++ '\x7d' :: rest).takeWhile (pathChar lib) = path := by
      rw [List.takeWhile_append_of_pos hpath, List.takeWhile_cons_of_neg, List.append_nil]
      rw [pathChar_of_ascii lib (by decide)]
      exact Bool.false_ne_true
    have hpre : "\x7bevent.".toList.isPrefixOf
        ("\x7bevent.".toList ++ (path ++ '\x7d' :: rest)) = true :=
      List.isPrefixOf_iff_prefix.mpr (List.prefix_append _ _)
    have hne' : path.isEmpty = false := List.isEmpty_eq_false_iff.mpr hne
    unfold placeholder
    dsimp only
    rw [reference_append, hpre, List.drop_left, htake, List.drop_left, hne']
    rfl

theorem reference_opens (h : IsPath lib path) :
    ∃ t, reference path = '\x7b' :: t ∧ '\x7b' ∉ t := by
  refine ⟨"event.".toList ++ path ++ ['\x7d'], rfl, fun hmem => ?_⟩
  simp only [List.mem_append, List.mem_singleton] at hmem
  obtain (hmem | hmem) | hmem := hmem
  · exact absurd hmem (by decide)
  · have hpath := h.2 _ hmem
    rw [pathChar_of_ascii lib (by decide)] at hpath
    cases hpath
  · cases hmem

end References

/-- The references that `_interpolate` looks for. -/
def references (lib : PyLib) : Words Char (List Char) where
  valid := IsPath lib
  spell := reference
  find := placeholder lib
  find_eq_some := placeholder_eq_some
  opening := '\x7b'
  opens := reference_opens

/-- The substitution goes over the pieces of the text. -/
theorem interpolateChars_eq (lib : PyLib) (event : Dict) (n : Nat) (cs : List Char) :
    interpolateChars lib event n cs =
      ((references lib).split n cs).flatMap (Piece.text (substitute lib event)) := by
  fun_induction interpolateChars lib event n cs with
  | case1 n => rfl
  | case2 n c cs ih => exact ih
  | case3 c cs path hpath ih =>
    have hsplit : (references lib).split 0 (c :: cs) =
        .word path :: (references lib).split ((reference path).length - 1) cs :=
      Words.split_of_some hpath
    rw [hsplit, length_reference, List.flatMap_cons, ih]
    rfl
  | case4 c cs hnone ih =>
    have hsplit : (references lib).split 0 (c :: cs) =
        consPlain c ((references lib).split 0 cs) := Words.split_of_none hnone
    rw [hsplit, Words.flatMap_consPlain, ih]

/-- What a piece becomes: a stretch stays, and a reference gives way to the string form of the value
at its path, or stays if there is none. -/
inductive PieceReplaced (lib : PyLib) (event : Dict) : Piece Char (List Char) → List Char → Prop
  | plain (cs : List Char) : PieceReplaced lib event (.plain cs) cs
  | resolved {path : List Char} {v : Json} (hv : resolveField event (String.ofList path) = v)
      (hsome : v ≠ .null) : PieceReplaced lib event (.word path) (v.toStr lib).toList
  | unresolved {path : List Char} (hnone : resolveField event (String.ofList path) = .null) :
    PieceReplaced lib event (.word path) (reference path)

/-- `t` is the text `s` with the references replaced, cut into pieces in the only way there is. -/
def Replaced (lib : PyLib) (event : Dict) (s t : String) : Prop :=
  ∃ ps parts, (∀ qs, (references lib).Splits s.toList qs ↔ qs = ps) ∧
    List.Forall₂ (PieceReplaced lib event) ps parts ∧ t.toList = parts.flatten

theorem pieceReplaced_iff {lib : PyLib} {event : Dict} {p : Piece Char (List Char)}
    {cs : List Char} :
    PieceReplaced lib event p cs ↔ cs = p.text (substitute lib event) := by
  constructor
  · intro h
    cases h with
    | plain => rfl
    | resolved hv hsome =>
      unfold Piece.text substitute
      dsimp only
      rw [hv]
      split
      · exact absurd rfl hsome
      · rfl
    | unresolved hnone =>
      unfold Piece.text substitute
      dsimp only
      rw [hnone]
      rfl
  · rintro rfl
    cases p with
    | plain cs => exact .plain cs
    | word path =>
      unfold Piece.text substitute
      dsimp only
      split
      · next hnone => exact .unresolved hnone
      · next hsome => exact .resolved rfl hsome

theorem forall₂_pieceReplaced_iff {lib : PyLib} {event : Dict}
    {ps : List (Piece Char (List Char))} {parts : List (List Char)} :
    List.Forall₂ (PieceReplaced lib event) ps parts ↔
      parts = ps.map (Piece.text (substitute lib event)) := by
  rw [eq_comm, ← List.forall₂_eq_eq_eq, List.forall₂_map_left_iff]
  constructor <;> refine fun h => h.imp fun p cs hp => ?_
  · exact (pieceReplaced_iff.mp hp).symm
  · exact pieceReplaced_iff.mpr hp.symm

theorem replaced_interpolateStr (lib : PyLib) (event : Dict) (s : String) :
    Replaced lib event s (interpolateStr lib event s) := by
  refine ⟨(references lib).split 0 s.toList, _, fun qs => ?_, forall₂_pieceReplaced_iff.mpr rfl, ?_⟩
  · rw [← Words.split_eq_iff]
    exact eq_comm
  · unfold interpolateStr
    rw [String.toList_ofList, interpolateChars_eq, List.flatMap_def]

theorem replaced_iff {lib : PyLib} {event : Dict} {s t : String} :
    Replaced lib event s t ↔ t = interpolateStr lib event s := by
  constructor
  · rintro ⟨ps, parts, hps, hparts, ht⟩
    obtain ⟨qs, parts', hqs, hparts', hint⟩ := replaced_interpolateStr lib event s
    have heq : ps = qs := (hqs ps).mp ((hps ps).mpr rfl)
    rw [forall₂_pieceReplaced_iff] at hparts hparts'
    rw [hparts, heq, ← hparts', ← hint] at ht
    exact String.toList_injective ht
  · rintro rfl
    exact replaced_interpolateStr lib event s

/-! ## Templates -/

mutual

/-- A value of the template's shape, with its keys and its leaves; a string is in the relation
with the string it comes from. -/
def Shaped (R : String → String → Prop) : Json → Json → Prop
  | .str s, value => ∃ t, value = .str t ∧ R s t
  | .arr xs, value => ∃ ys, value = .arr ys ∧ ShapedList R xs ys
  | .obj kvs, value => ∃ items, value = .obj items ∧ ShapedObj R kvs items
  | .null, value => value = .null
  | .bool b, value => value = .bool b
  | .int i, value => value = .int i
  | .float f, value => value = .float f
termination_by structural v => v

def ShapedList (R : String → String → Prop) : List Json → List Json → Prop
  | [], values => values = []
  | x :: xs, values => ∃ y ys, values = y :: ys ∧ Shaped R x y ∧ ShapedList R xs ys
termination_by structural xs => xs

def ShapedObj (R : String → String → Prop) :
    List (String × Json) → List (String × Json) → Prop
  | [], items => items = []
  | (k, x) :: kvs, items =>
    ∃ y us, items = (k, y) :: us ∧ Shaped R x y ∧ ShapedObj R kvs us
termination_by structural kvs => kvs

end

section Templates

variable {lib : PyLib} {event : Dict} {R : String → String → Prop}

mutual

theorem shaped_interpolate (h : ∀ s, R s (interpolateStr lib event s)) (v : Json) :
    Shaped R v (interpolate lib event v) := by
  cases v with
  | str s => exact ⟨_, rfl, h s⟩
  | arr xs => exact ⟨_, rfl, shaped_interpolateList h xs⟩
  | obj kvs => exact ⟨_, rfl, shaped_interpolateObj h kvs⟩
  | _ => rfl

theorem shaped_interpolateList (h : ∀ s, R s (interpolateStr lib event s)) (xs : List Json) :
    ShapedList R xs (interpolateList lib event xs) := by
  cases xs with
  | nil => rfl
  | cons x xs => exact ⟨_, _, rfl, shaped_interpolate h x, shaped_interpolateList h xs⟩

theorem shaped_interpolateObj (h : ∀ s, R s (interpolateStr lib event s))
    (kvs : List (String × Json)) : ShapedObj R kvs (interpolateObj lib event kvs) := by
  cases kvs with
  | nil => rfl
  | cons kv kvs => exact ⟨_, _, rfl, shaped_interpolate h kv.2, shaped_interpolateObj h kvs⟩

end

end Templates

/-- A template keeps its shape, and each of its strings has its references replaced, in one pass. -/
theorem interpolation_hygienic (lib : PyLib) (event : Dict) (template : Json) :
    Shaped (Replaced lib event) template (interpolate lib event template) :=
  shaped_interpolate (replaced_interpolateStr lib event) template

/-- An event with a value that looks like a reference itself. -/
def bracedEvent : Dict := [("a", .str "\x7bevent.b\x7d"), ("b", .int 1)]

/-- References to the value, inside a brace, and to nothing; what was put in stays as it is. -/
theorem interpolation_hygienic_bracedEvent :
    Shaped (Replaced (Env.idle 0).lib bracedEvent)
      (.arr [.str "\x7bevent.\x7bevent.a\x7d \x7bevent.c\x7d", .str "\x7bevent.b\x7d", .int 2])
      (.arr [.str "\x7bevent.\x7bevent.b\x7d \x7bevent.c\x7d", .str "1", .int 2]) := by
  have h := interpolation_hygienic (Env.idle 0).lib bracedEvent
    (.arr [.str "\x7bevent.\x7bevent.a\x7d \x7bevent.c\x7d", .str "\x7bevent.b\x7d", .int 2])
  have htext : interpolate (Env.idle 0).lib bracedEvent
      (.arr [.str "\x7bevent.\x7bevent.a\x7d \x7bevent.c\x7d", .str "\x7bevent.b\x7d", .int 2]) =
        .arr [.str "\x7bevent.\x7bevent.b\x7d \x7bevent.c\x7d", .str "1", .int 2] := by
    decide +kernel
  rwa [htext] at h

end Taskowl
