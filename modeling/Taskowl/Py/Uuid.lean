import Taskowl.Py.Digits
import Taskowl.Py.Ops

/-!
# `uuid.UUID`

A UUID is a 128-bit number. `parse` reads the spellings `uuid.UUID` accepts:
any `urn:`, `uuid:` and hyphens are dropped, braces are stripped, and the 32
characters left go to `int(hex, 16)`. `str` prints the canonical
8-4-4-4-12 form, the only one of all spellings that is (`canonical_iff`).
-/

namespace Taskowl.Py

structure Uuid where
  val : Nat
  lt : val < 2 ^ 128
  deriving DecidableEq, Repr

namespace Uuid

/-- `s.replace(pat, "")`; `skip` characters of a match are still to be dropped. -/
def dropAll (pat : List Char) : Nat → List Char → List Char
  | _, [] => []
  | skip + 1, _ :: cs => dropAll pat skip cs
  | 0, c :: cs =>
    if pat.isPrefixOf (c :: cs) then dropAll pat (pat.length - 1) cs else c :: dropAll pat 0 cs

/-- `s.strip(chars)`. -/
def strip (p : Char → Bool) (cs : List Char) : List Char :=
  ((cs.dropWhile p).reverse.dropWhile p).reverse

/-- The zeros of the decimal digits after ASCII; the other nine digits follow each. -/
def digitZeros : List Nat :=
  [0x660, 0x6f0, 0x7c0, 0x966, 0x9e6, 0xa66, 0xae6, 0xb66, 0xbe6, 0xc66, 0xce6, 0xd66, 0xde6, 0xe50,
    0xed0, 0xf20, 0x1040, 0x1090, 0x17e0, 0x1810, 0x1946, 0x19d0, 0x1a80, 0x1a90, 0x1b50, 0x1bb0,
    0x1c40, 0x1c50, 0xa620, 0xa8d0, 0xa900, 0xa9d0, 0xa9f0, 0xaa50, 0xabf0, 0xff10, 0x104a0,
    0x10d30, 0x10d40, 0x11066, 0x110f0, 0x11136, 0x111d0, 0x112f0, 0x11450, 0x114d0, 0x11650,
    0x116c0, 0x116d0, 0x116da, 0x11730, 0x118e0, 0x11950, 0x11bf0, 0x11c50, 0x11d50, 0x11da0,
    0x11f50, 0x16130, 0x16a60, 0x16ac0, 0x16b50, 0x16d70, 0x1ccf0, 0x1d7ce, 0x1d7d8, 0x1d7e2,
    0x1d7ec, 0x1d7f6, 0x1e140, 0x1e2f0, 0x1e4f0, 0x1e5f1, 0x1e950, 0x1fbf0]

/-- The spaces after ASCII. -/
def otherSpaces : List Nat :=
  [0x85, 0xa0, 0x1680, 0x2000, 0x2001, 0x2002, 0x2003, 0x2004, 0x2005, 0x2006, 0x2007, 0x2008,
    0x2009, 0x200a, 0x2028, 0x2029, 0x202f, 0x205f, 0x3000]

/-- `int` reads a decimal digit of any script as that digit, and any space as a space. -/
def toAscii (c : Char) : Char :=
  if c.toNat < 127 then c
  else if c.toNat ∈ otherSpaces then ' '
  else match digitZeros.find? fun n => decide (n ≤ c.toNat ∧ c.toNat < n + 10) with
    | some n => Nat.digitChar (c.toNat - n)
    | none => '?'

def hexVal (c : Char) : Option Nat :=
  if '0' ≤ c ∧ c ≤ '9' then some (c.toNat - 48)
  else if 'a' ≤ c ∧ c ≤ 'f' then some (c.toNat - 87)
  else if 'A' ≤ c ∧ c ≤ 'F' then some (c.toNat - 55)
  else none

/-- Hex digits with single underscores between them; `prev` says an underscore may come next. -/
def hexDigits : List Char → Bool → Nat → Option Nat
  | [], prev, acc => if prev then some acc else none
  | c :: cs, prev, acc =>
    if c = '_' then if prev then hexDigits cs false acc else none
    else match hexVal c with
      | some d => hexDigits cs true (acc * 16 + d)
      | none => none

def isSpace (c : Char) : Bool := c.isWhitespace || c == '\x0b' || c == '\x0c'

def signOf : List Char → Bool × List Char
  | '-' :: cs => (true, cs)
  | '+' :: cs => (false, cs)
  | cs => (false, cs)

def magnitude : List Char → Option Nat
  | '0' :: 'x' :: c :: cs | '0' :: 'X' :: c :: cs => hexDigits (c :: cs) true 0
  | cs => hexDigits cs false 0

/-- `int(hex, 16)`: surrounding spaces, a sign and a `0x` are allowed. -/
def int16 (cs : List Char) : Option Int :=
  let (neg, cs) := signOf (strip isSpace (cs.map toAscii))
  (magnitude cs).map fun n : Nat => if neg then -(n : Int) else (n : Int)

/-- `uuid.UUID(s)`, `none` when it raises `ValueError`. -/
def parse (s : String) : Option Uuid :=
  let hex := dropAll "uuid:".toList 0 (dropAll "urn:".toList 0 s.toList)
  let hex := dropAll ['-'] 0 (strip (fun c => c == '\x7b' || c == '\x7d') hex)
  if hex.length = 32 then
    match int16 hex with
    | some (.ofNat n) => if h : n < 2 ^ 128 then some ⟨n, h⟩ else none
    | _ => none
  else none

/-- `uuid.UUID(v)`. -/
def ofJson : Json → Except PyErr Uuid
  | .str s => match parse s with
    | some u => .ok u
    | none => .error ⟨.valueError, "badly formed hexadecimal UUID string"⟩
  | .null => .error ⟨.typeError,
      "one of the hex, bytes, bytes_le, fields, or int arguments must be given"⟩
  | v => .error (attributeError v "replace")

def chars (u : Uuid) : List Char :=
  let hex := pad 16 32 u.val
  hex.take 8 ++ '-' :: (hex.drop 8).take 4 ++ '-' :: (hex.drop 12).take 4 ++
    '-' :: (hex.drop 16).take 4 ++ '-' :: hex.drop 20

/-- `str(u)`. -/
def str (u : Uuid) : String := String.ofList u.chars

example : (parse "\x7b12345678-1234-5678-1234-56781234567A\x7d").map str =
    some "12345678-1234-5678-1234-56781234567a" := by decide

theorem blocks (l : List Char) : l.take 8 ++ ((l.drop 8).take 4 ++ ((l.drop 12).take 4 ++
    ((l.drop 16).take 4 ++ l.drop 20))) = l := by
  rw [show l.drop 20 = (l.drop 16).drop 4 by simp, List.take_append_drop,
    show l.drop 16 = (l.drop 12).drop 4 by simp, List.take_append_drop,
    show l.drop 12 = (l.drop 8).drop 4 by simp, List.take_append_drop, List.take_append_drop]

def groups (hex : List Char) : List (List Char) :=
  [hex.take 8, (hex.drop 8).take 4, (hex.drop 12).take 4, (hex.drop 16).take 4, hex.drop 20]

theorem flatten_groups (hex : List Char) : (groups hex).flatten = hex := by
  simpa [groups] using blocks hex

theorem chars_eq_intercalate (u : Uuid) :
    u.chars = ['-'].intercalate (groups (pad 16 32 u.val)) := by
  unfold chars groups
  generalize pad 16 32 u.val = hex
  simp [List.intercalate]

theorem splitOn_chars (u : Uuid) : u.chars.splitOn '-' = groups (pad 16 32 u.val) := by
  have hhyphen : '-' ∉ pad 16 32 u.val := notMem_pad (by decide) (by decide) (by decide)
  rw [chars_eq_intercalate]
  generalize pad 16 32 u.val = hex at hhyphen
  refine List.splitOn_intercalate '-' (fun l hl h => hhyphen ?_) (List.cons_ne_nil _ _)
  rw [← flatten_groups hex]
  exact List.mem_flatten_of_mem hl h

theorem chars_inj {u v : Uuid} (h : u.chars = v.chars) : u = v := by
  have key : pad 16 32 u.val = pad 16 32 v.val := by
    rw [← flatten_groups (pad 16 32 u.val), ← splitOn_chars, h, splitOn_chars, flatten_groups]
  cases u
  cases v
  simpa using pad_inj (by decide) (by decide) (by assumption) (by assumption) key

theorem str_inj {u v : Uuid} (h : u.str = v.str) : u = v :=
  chars_inj (String.ofList_injective h)

/-! ## Reading the canonical form -/

theorem dropAll_of_notMem {c : Char} {cs l : List Char} (h : c ∉ l) :
    dropAll (c :: cs) 0 l = l := by
  induction l with
  | nil => rfl
  | cons a l ih =>
    have ha : (c == a) = false := by
      simp only [beq_eq_false_iff_ne]
      exact fun heq => h (heq ▸ List.mem_cons_self)
    have hpre : (c :: cs).isPrefixOf (a :: l) = false := by
      rw [List.isPrefixOf_cons_cons, ha, Bool.false_and]
    rw [dropAll, hpre, if_neg Bool.false_ne_true, ih fun hm => h (List.mem_cons_of_mem _ hm)]

theorem dropAll_single (c : Char) (l : List Char) : dropAll [c] 0 l = l.filter (· != c) := by
  induction l with
  | nil => rfl
  | cons a l ih =>
    have hpre : [c].isPrefixOf (a :: l) = (c == a) := by
      rw [List.isPrefixOf_cons_cons, List.isPrefixOf_nil_left, Bool.and_true]
    rw [dropAll, hpre]
    show (if _ then dropAll [c] 0 l else a :: dropAll [c] 0 l) = _
    rw [ih]
    by_cases h : c = a
    · subst h
      simp
    · have hne : a ≠ c := fun heq => h heq.symm
      simp [h, hne]

theorem strip_eq_self {p : Char → Bool} {l : List Char} (h : ∀ c ∈ l, p c = false) :
    strip p l = l := by
  have hdrop : ∀ l : List Char, (∀ c ∈ l, p c = false) → l.dropWhile p = l := by
    intro l hl
    cases l with
    | nil => rfl
    | cons a l => rw [List.dropWhile_cons_of_neg]; simp [hl a List.mem_cons_self]
  unfold strip
  rw [hdrop l h, hdrop l.reverse fun c hc => h c (List.mem_reverse.mp hc), List.reverse_reverse]

theorem hexVal_digitChar {d : Nat} (h : d < 16) : hexVal (Nat.digitChar d) = some d := by
  have key : ∀ d < 16, hexVal (Nat.digitChar d) = some d := by decide
  exact key d h

theorem hexDigits_pad {w n : Nat} (h : n < 16 ^ w) (rest : List Char) (prev : Bool) (acc : Nat) :
    hexDigits (pad 16 w n ++ rest) prev acc =
      hexDigits rest (prev || decide (0 < w)) (acc * 16 ^ w + n) := by
  induction w generalizing n rest with
  | zero =>
    simp only [Nat.pow_zero] at h
    have hn : n = 0 := by omega
    simp [pad, hn]
  | succ w ih =>
    rw [Nat.pow_succ] at h
    have hd : n % 16 < 16 := Nat.mod_lt _ (by decide)
    have hne : Nat.digitChar (n % 16) ≠ '_' := by
      have key : ∀ d < 16, Nat.digitChar d ≠ '_' := by decide
      exact key _ hd
    rw [pad, List.append_assoc, ih (by omega), List.singleton_append, hexDigits, if_neg hne,
      hexVal_digitChar hd, Nat.pow_succ]
    have hval : (acc * 16 ^ w + n / 16) * 16 + n % 16 = acc * (16 ^ w * 16) + n := by
      rw [Nat.add_mul, Nat.mul_assoc]
      omega
    simp [hval]

theorem toAscii_hex {c : Char} (h : c ∈ "0123456789abcdef".toList) : toAscii c = c := by
  have key : ("0123456789abcdef".toList.all fun c => toAscii c == c) = true := by decide
  simpa using List.all_eq_true.mp key c h

theorem isSpace_hex {c : Char} (h : c ∈ "0123456789abcdef".toList) : isSpace c = false := by
  have key : ("0123456789abcdef".toList.all fun c => !isSpace c) = true := by decide
  simpa using List.all_eq_true.mp key c h

theorem int16_pad {w n : Nat} (h : n < 16 ^ (w + 2)) :
    int16 (pad 16 (w + 2) n) = some (n : Int) := by
  have hhex : ∀ c ∈ pad 16 (w + 2) n, c ∈ "0123456789abcdef".toList := fun c hc =>
    mem_pad (by decide) (by decide) hc
  have hval : hexDigits (pad 16 (w + 2) n) false 0 = some n := by
    have := hexDigits_pad h [] false 0
    rw [List.append_nil] at this
    rw [this]
    simp [hexDigits]
  have hascii : (pad 16 (w + 2) n).map toAscii = pad 16 (w + 2) n :=
    (List.map_congr_left fun c hc => toAscii_hex (hhex c hc)).trans (List.map_id' _)
  unfold int16
  rw [hascii, strip_eq_self fun c hc => isSpace_hex (hhex c hc)]
  have hlen := length_pad 16 (w + 2) n
  generalize pad 16 (w + 2) n = l at hhex hval hlen
  match l, hlen with
  | a :: b :: l, _ =>
    have ha := hhex a List.mem_cons_self
    have hb := hhex b (List.mem_cons_of_mem _ List.mem_cons_self)
    have hsign : signOf (a :: b :: l) = (false, a :: b :: l) := by
      unfold signOf
      split
      · next heq =>
        cases heq
        exact absurd ha (by decide)
      · next heq =>
        cases heq
        exact absurd ha (by decide)
      · rfl
    have hdigits : magnitude (a :: b :: l) = some n := by
      unfold magnitude
      split
      · next heq =>
        cases heq
        exact absurd hb (by decide)
      · next heq =>
        cases heq
        exact absurd hb (by decide)
      · exact hval
    rw [hsign]
    dsimp only
    rw [hdigits]
    rfl

theorem mem_chars {u : Uuid} {c : Char} (h : c ∈ u.chars) :
    c ∈ "0123456789abcdef".toList ∨ c = '-' := by
  have hhex : ∀ c ∈ pad 16 32 u.val, c ∈ "0123456789abcdef".toList := fun c hc =>
    mem_pad (by decide) (by decide) hc
  have htake : ∀ m n, c ∈ ((pad 16 32 u.val).drop m).take n → c ∈ pad 16 32 u.val :=
    fun m n hc => List.mem_of_mem_drop (List.mem_of_mem_take hc)
  unfold chars at h
  simp only [List.mem_append, List.mem_cons] at h
  rcases h with (((h | rfl | h) | rfl | h) | rfl | h) | rfl | h
  · exact .inl (hhex c (List.mem_of_mem_take h))
  · exact .inr rfl
  · exact .inl (hhex c (htake _ _ h))
  · exact .inr rfl
  · exact .inl (hhex c (htake _ _ h))
  · exact .inr rfl
  · exact .inl (hhex c (htake _ _ h))
  · exact .inr rfl
  · exact .inl (hhex c (List.mem_of_mem_drop h))

theorem bar_notMem_str (u : Uuid) : '|' ∉ u.str.toList := by
  rw [str, String.toList_ofList]
  intro h
  obtain h | h := mem_chars h
  · exact absurd h (by decide)
  · cases h

theorem filter_chars (u : Uuid) : u.chars.filter (· != '-') = pad 16 32 u.val := by
  have hhex : ∀ c ∈ pad 16 32 u.val, (c != '-') = true := by
    intro c hc
    have key : ("0123456789abcdef".toList.all fun c => c != '-') = true := by decide
    exact List.all_eq_true.mp key c (mem_pad (by decide) (by decide) hc)
  have hkeep : ∀ l : List Char, l ⊆ pad 16 32 u.val → l.filter (· != '-') = l := fun l hl =>
    List.filter_eq_self.mpr fun c hc => hhex c (hl hc)
  have hblock : ∀ m n, ((pad 16 32 u.val).drop m).take n ⊆ pad 16 32 u.val := fun m n _ hc =>
    List.mem_of_mem_drop (List.mem_of_mem_take hc)
  have hhyphen : ('-' != '-') = false := by decide
  unfold chars
  simp only [List.filter_append, List.filter_cons, hhyphen, Bool.false_eq_true, if_false]
  rw [hkeep _ (hblock 8 4), hkeep _ (hblock 12 4), hkeep _ (hblock 16 4),
    hkeep _ (List.take_subset 8 _), hkeep _ (List.drop_subset 20 _)]
  simp only [List.append_assoc]
  exact blocks _

/-- The canonical form is read back. -/
theorem parse_str (u : Uuid) : parse u.str = some u := by
  have hnot : ∀ c ∈ u.chars, c ∉ ['u', '\x7b', '\x7d'] := by
    intro c hc
    rcases mem_chars hc with h | rfl
    · have key : ("0123456789abcdef".toList.all
          fun c => decide (c ∉ ['u', '\x7b', '\x7d'])) = true := by decide
      simpa using List.all_eq_true.mp key c h
    · decide
  have hu : 'u' ∉ u.chars := fun h => hnot 'u' h (by decide)
  have hstrip : strip (fun c => c == '\x7b' || c == '\x7d') u.chars = u.chars := by
    apply strip_eq_self
    intro c hc
    have := hnot c hc
    simp only [List.mem_cons, List.not_mem_nil, or_false, not_or] at this
    simp [this.2.1, this.2.2]
  have hint : int16 (pad 16 32 u.val) = some (u.val : Int) := int16_pad (w := 30) u.lt
  have hurn : dropAll "urn:".toList 0 u.chars = u.chars := dropAll_of_notMem hu
  have huuid : dropAll "uuid:".toList 0 u.chars = u.chars := dropAll_of_notMem hu
  have hlist : u.str.toList = u.chars := String.toList_ofList
  unfold parse
  rw [hlist, hurn, huuid]
  dsimp only
  rw [hstrip, dropAll_single, filter_chars, if_pos (length_pad 16 32 u.val), hint]
  show (if h : u.val < 2 ^ 128 then some (⟨u.val, h⟩ : Uuid) else none) = some u
  rw [dif_pos u.lt]

/-! ## The canonical form -/

theorem groups_flatten {gs : List (List Char)} (h : gs.map List.length = [8, 4, 4, 4, 12]) :
    groups gs.flatten = gs := by
  obtain ⟨a, gs, rfl, ha, h⟩ := List.map_eq_cons_iff.mp h
  obtain ⟨b, gs, rfl, hb, h⟩ := List.map_eq_cons_iff.mp h
  obtain ⟨c, gs, rfl, hc, h⟩ := List.map_eq_cons_iff.mp h
  obtain ⟨d, gs, rfl, hd, h⟩ := List.map_eq_cons_iff.mp h
  obtain ⟨e, gs, rfl, he, h⟩ := List.map_eq_cons_iff.mp h
  obtain rfl := List.map_eq_nil_iff.mp h
  have hflat : [a, b, c, d, e].flatten = a ++ (b ++ (c ++ (d ++ e))) := by simp
  have h8 : (a ++ (b ++ (c ++ (d ++ e)))).drop 8 = b ++ (c ++ (d ++ e)) := List.drop_left' ha
  have h12 : (a ++ (b ++ (c ++ (d ++ e)))).drop 12 = c ++ (d ++ e) := by
    rw [show 12 = 8 + 4 from rfl, ← List.drop_drop, h8, List.drop_left' hb]
  have h16 : (a ++ (b ++ (c ++ (d ++ e)))).drop 16 = d ++ e := by
    rw [show 16 = 12 + 4 from rfl, ← List.drop_drop, h12, List.drop_left' hc]
  have h20 : (a ++ (b ++ (c ++ (d ++ e)))).drop 20 = e := by
    rw [show 20 = 16 + 4 from rfl, ← List.drop_drop, h16, List.drop_left' hd]
  rw [hflat, groups, h8, h12, h16, h20, List.take_left' ha, List.take_left' hb, List.take_left' hc,
    List.take_left' hd]

/-- 32 lower-case hex digits, with hyphens between blocks of 8, 4, 4, 4 and 12. -/
def Canonical (s : String) : Prop :=
  (s.toList.splitOn '-').map List.length = [8, 4, 4, 4, 12] ∧
    ∀ c ∈ (s.toList.splitOn '-').flatten, c ∈ "0123456789abcdef".toList

instance (s : String) : Decidable (Canonical s) := inferInstanceAs (Decidable (_ ∧ _))

/-- The texts of that shape are those `str` prints. -/
theorem canonical_iff (s : String) : Canonical s ↔ ∃ u : Uuid, u.str = s := by
  constructor
  · rintro ⟨hlengths, hhex⟩
    have hjoin : ['-'].intercalate (s.toList.splitOn '-') = s.toList :=
      List.intercalate_splitOn '-'
    have hgroups := groups_flatten hlengths
    generalize s.toList.splitOn '-' = gs at hlengths hhex hjoin hgroups
    obtain ⟨n, hn, hpad⟩ := exists_pad hhex
    have hlen : gs.flatten.length = 32 := by
      rw [List.length_flatten, hlengths]
      rfl
    rw [hlen] at hn hpad
    refine ⟨⟨n, hn⟩, String.toList_injective ?_⟩
    rw [str, String.toList_ofList, chars_eq_intercalate, hpad, hgroups, hjoin]
  · rintro ⟨u, rfl⟩
    have hlen := length_pad 16 32 u.val
    have hmem : ∀ c ∈ pad 16 32 u.val, c ∈ "0123456789abcdef".toList := fun c hc =>
      mem_pad (by decide) (by decide) hc
    unfold Canonical
    rw [str, String.toList_ofList, splitOn_chars, flatten_groups]
    refine ⟨?_, hmem⟩
    generalize pad 16 32 u.val = hex at hlen
    simp [groups, hlen]

theorem canonical_iff_of_parse {s : String} {u : Uuid} (h : parse s = some u) :
    Canonical s ↔ u.str = s := by
  rw [canonical_iff]
  constructor
  · rintro ⟨v, rfl⟩
    rw [parse_str] at h
    rw [Option.some.inj h]
  · exact fun h => ⟨u, h⟩

end Uuid

end Taskowl.Py
