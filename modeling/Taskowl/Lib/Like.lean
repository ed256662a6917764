import Mathlib.Data.List.Infix

/-!
# Patterns with wildcards

SQL's `LIKE` over any alphabet: one symbol stands for any string, one for any
symbol, and one takes the symbol after it for itself. A search that puts a
text between two wildcards finds the texts that contain it, for every text,
exactly when it has none of the three symbols (`finds_iff_plain`).
-/

namespace Taskowl.Lib

variable {α : Type}

/-- The three symbols: `%`, `_` and the escape character. -/
structure Wildcards (α : Type) where
  many : α
  one : α
  escape : α
  many_ne_one : many ≠ one
  many_ne_escape : many ≠ escape
  one_ne_escape : one ≠ escape

/-- What a pattern is made of. -/
inductive Token (α : Type) where
  | many
  | one
  | symbol (c : α)
  deriving DecidableEq, Repr

def Token.map (f : α → α) : Token α → Token α
  | .many => .many
  | .one => .one
  | .symbol c => .symbol (f c)

/-- A text matches: any string for `many`, any symbol for `one`. -/
def matchTokens [DecidableEq α] : List (Token α) → List α → Bool
  | [], text => text.isEmpty
  | .many :: ts, text => text.tails.any (matchTokens ts)
  | .one :: ts, text => match text with
    | [] => false
    | _ :: text => matchTokens ts text
  | .symbol c :: ts, text => match text with
    | [] => false
    | d :: text => d = c && matchTokens ts text

namespace Wildcards

def token [DecidableEq α] (W : Wildcards α) (c : α) : Token α :=
  if c = W.many then .many else if c = W.one then .one else .symbol c

/-- The tokens of a pattern; `escaped` says that the symbol before was the escape character. A
pattern that ends in an escape character is an error. -/
def tokens [DecidableEq α] (W : Wildcards α) : Bool → List α → Option (List (Token α))
  | false, [] => some []
  | true, [] => none
  | false, c :: pattern =>
    if c = W.escape then tokens W true pattern
    else (tokens W false pattern).map (W.token c :: ·)
  | true, c :: pattern => (tokens W false pattern).map (.symbol c :: ·)

/-- `text LIKE pattern`: the pattern, then the text. -/
def like [DecidableEq α] (W : Wildcards α) (pattern text : List α) : Bool :=
  (W.tokens false pattern).any fun ts => matchTokens ts text

/-- The texts with `s` between two wildcards. -/
def finds [DecidableEq α] (W : Wildcards α) (s text : List α) : Bool :=
  W.like (W.many :: (s ++ [W.many])) text

def Special (W : Wildcards α) (c : α) : Prop := c = W.many ∨ c = W.one ∨ c = W.escape

def Plain (W : Wildcards α) (s : List α) : Prop := ∀ c ∈ s, ¬ W.Special c

/-- A function on symbols, such as one that drops letter case, that keeps the three symbols and
makes no other symbol one of them. -/
structure Keeps (W : Wildcards α) (f : α → α) : Prop where
  fixes : ∀ c, W.Special c → f c = c
  reflects : ∀ c, W.Special (f c) → W.Special c

instance [DecidableEq α] (W : Wildcards α) (c : α) : Decidable (W.Special c) :=
  inferInstanceAs (Decidable (_ ∨ _ ∨ _))

instance [DecidableEq α] (W : Wildcards α) (s : List α) : Decidable (W.Plain s) :=
  inferInstanceAs (Decidable (∀ c ∈ s, _))

section Matching

variable [DecidableEq α] {W : Wildcards α} {s text : List α} {ts : List (Token α)} {c : α}

theorem matchTokens_many :
    matchTokens (.many :: ts) text = true ↔ ∃ t, t <:+ text ∧ matchTokens ts t = true := by
  rw [matchTokens, List.any_eq_true]
  simp only [List.mem_tails]

theorem matchTokens_symbols (s : List α) :
    matchTokens (s.map .symbol ++ ts) text = true ↔
      ∃ t, text = s ++ t ∧ matchTokens ts t = true := by
  induction s generalizing text with
  | nil => simp
  | cons c s ih =>
    rw [List.map_cons, List.cons_append]
    cases text with
    | nil => simp [matchTokens]
    | cons d text =>
      simp only [matchTokens, Bool.and_eq_true, decide_eq_true_eq, List.cons_append,
        List.cons.injEq, ih]
      constructor
      · rintro ⟨rfl, t, rfl, ht⟩
        exact ⟨t, ⟨rfl, rfl⟩, ht⟩
      · rintro ⟨t, ⟨rfl, rfl⟩, ht⟩
        exact ⟨rfl, t, rfl, ht⟩

theorem token_of_plain (hc : ¬ W.Special c) : c ≠ W.escape ∧ W.token c = .symbol c := by
  unfold Special at hc
  simp only [not_or] at hc
  exact ⟨hc.2.2, by rw [token, if_neg hc.1, if_neg hc.2.1]⟩

theorem tokens_plain_append (hs : W.Plain s) (rest : List α) :
    W.tokens false (s ++ rest) = (W.tokens false rest).map (s.map .symbol ++ ·) := by
  induction s with
  | nil => simp
  | cons c s ih =>
    obtain ⟨hne, htoken⟩ := token_of_plain (hs c List.mem_cons_self)
    rw [List.cons_append, tokens, if_neg hne, htoken,
      ih fun d hd => hs d (List.mem_cons_of_mem c hd), Option.map_map]
    rfl

theorem tokens_many (W : Wildcards α) (pattern : List α) :
    W.tokens false (W.many :: pattern) = (W.tokens false pattern).map (.many :: ·) := by
  rw [tokens, if_neg W.many_ne_escape, token, if_pos rfl]

/-- A text without wildcards finds the texts that contain it. -/
theorem finds_of_plain (hs : W.Plain s) : W.finds s text = true ↔ s <:+: text := by
  have hall : ∀ t : List α, matchTokens [.many] t = true := fun t =>
    matchTokens_many.mpr ⟨[], List.nil_suffix, rfl⟩
  have htokens : W.tokens false (W.many :: (s ++ [W.many])) =
      some (.many :: (s.map .symbol ++ [.many])) := by
    rw [tokens_many, tokens_plain_append hs, tokens_many]
    rfl
  unfold finds like
  rw [htokens, Option.any_some, matchTokens_many]
  simp only [matchTokens_symbols, hall, and_true]
  constructor
  · rintro ⟨t, ⟨u, rfl⟩, v, rfl⟩
    exact ⟨u, v, by rw [List.append_assoc]⟩
  · rintro ⟨u, v, rfl⟩
    exact ⟨s ++ v, ⟨u, by rw [List.append_assoc]⟩, v, rfl⟩

end Matching

/-! ## A text that is found and does not contain -/

/-- A text that matches: no string for `many`, that symbol for `one`. -/
def specimen (W : Wildcards α) : List (Token α) → List α
  | [] => []
  | .many :: ts => specimen W ts
  | .one :: ts => W.many :: specimen W ts
  | .symbol c :: ts => c :: specimen W ts

section Specimens

variable {W : Wildcards α} {f : α → α}

theorem matchTokens_specimen [DecidableEq α] (W : Wildcards α) (ts : List (Token α)) :
    matchTokens ts (W.specimen ts) = true := by
  induction ts with
  | nil => rfl
  | cons t ts ih =>
    cases t with
    | many => exact matchTokens_many.mpr ⟨_, List.suffix_rfl, ih⟩
    | one => exact ih
    | symbol c => simpa [specimen, matchTokens] using ih

/-- The specimen of a search is no longer than the text searched for, and it is that text only for
a plain one; after an escape character, it is not the text with that character. -/
theorem specimen_search [DecidableEq α] (W : Wildcards α) (s : List α) (escaped : Bool) :
    ∃ ts, W.tokens escaped (s ++ [W.many]) = some ts ∧
      match escaped with
      | false => (W.specimen ts).length ≤ s.length ∧ (W.specimen ts = s → W.Plain s)
      | true => (W.specimen ts).length ≤ s.length + 1 ∧ W.specimen ts ≠ W.escape :: s := by
  induction s generalizing escaped with
  | nil =>
    cases escaped with
    | false =>
      refine ⟨[.many], tokens_many W [], Nat.le_refl _, fun _ c hc => ?_⟩
      cases hc
    | true =>
      refine ⟨[.symbol W.many], rfl, Nat.le_refl _, fun h => ?_⟩
      exact W.many_ne_escape (List.cons.inj h).1
  | cons c s ih =>
    obtain ⟨ts, hts, hlen, hself⟩ := ih false
    cases escaped with
    | true =>
      refine ⟨.symbol c :: ts, by rw [List.cons_append, tokens, hts]; rfl, ?_, fun h => ?_⟩
      · simp only [specimen, List.length_cons]
        omega
      · have := congrArg List.length h
        simp only [specimen, List.length_cons] at this
        omega
    | false =>
      by_cases hescape : c = W.escape
      · obtain ⟨ts', hts', hlen', hne⟩ := ih true
        refine ⟨ts', by rw [List.cons_append, tokens, if_pos hescape, hts'], hlen', fun h => ?_⟩
        rw [hescape] at h
        exact absurd h hne
      · have htokens : W.tokens false (c :: s ++ [W.many]) = some (W.token c :: ts) := by
          rw [List.cons_append, tokens, if_neg hescape, hts]
          rfl
        by_cases hmany : c = W.many
        · have htoken : W.token c = .many := if_pos hmany
          rw [htoken] at htokens
          refine ⟨_, htokens, Nat.le_succ_of_le hlen, fun h => ?_⟩
          have := congrArg List.length h
          simp only [specimen, List.length_cons] at this
          omega
        · by_cases hone : c = W.one
          · have htoken : W.token c = .one := (if_neg hmany).trans (if_pos hone)
            rw [htoken] at htokens
            refine ⟨_, htokens, Nat.succ_le_succ hlen, fun h => ?_⟩
            exact absurd ((List.cons.inj h).1.trans hone) W.many_ne_one
          · have htoken : W.token c = .symbol c := (if_neg hmany).trans (if_neg hone)
            rw [htoken] at htokens
            refine ⟨_, htokens, Nat.succ_le_succ hlen, fun h d hd => ?_⟩
            obtain rfl | hd := List.mem_cons.mp hd
            · rintro (h | h | h)
              · exact hmany h
              · exact hone h
              · exact hescape h
            · exact hself (List.cons.inj h).2 d hd

/-! ## Without letter case -/

theorem Keeps.special_iff (hf : W.Keeps f) (c : α) : W.Special (f c) ↔ W.Special c :=
  ⟨hf.reflects c, fun h => (hf.fixes c h).symm ▸ h⟩

theorem Keeps.eq_iff (hf : W.Keeps f) {k : α} (hk : W.Special k) (c : α) : f c = k ↔ c = k := by
  constructor
  · intro h
    rw [← h] at hk
    exact (hf.fixes c (hf.reflects c hk)).symm.trans h
  · rintro rfl
    exact hf.fixes c hk

theorem Keeps.specimen_map (hf : W.Keeps f) (ts : List (Token α)) :
    W.specimen (ts.map (Token.map f)) = (W.specimen ts).map f := by
  induction ts with
  | nil => rfl
  | cons t ts ih =>
    cases t with
    | many => exact ih
    | one =>
      rw [List.map_cons, Token.map, specimen, specimen, List.map_cons, ih,
        hf.fixes _ (.inl rfl)]
    | symbol c => rw [List.map_cons, Token.map, specimen, specimen, List.map_cons, ih]

theorem Keeps.plain_map_iff (hf : W.Keeps f) (s : List α) : W.Plain (s.map f) ↔ W.Plain s := by
  unfold Plain
  simp only [List.forall_mem_map, hf.special_iff]

variable [DecidableEq α]

theorem Keeps.tokens_map (hf : W.Keeps f) (escaped : Bool) (pattern : List α) :
    W.tokens escaped (pattern.map f) = (W.tokens escaped pattern).map (List.map (Token.map f)) := by
  have htoken : ∀ c, W.token (f c) = (W.token c).map f := by
    intro c
    unfold token
    simp only [hf.eq_iff (.inl rfl), hf.eq_iff (.inr (.inl rfl))]
    split
    · rfl
    · split <;> rfl
  induction pattern generalizing escaped with
  | nil => cases escaped <;> rfl
  | cons c pattern ih =>
    cases escaped with
    | true =>
      rw [List.map_cons, tokens, tokens, ih, Option.map_map, Option.map_map]
      rfl
    | false =>
      rw [List.map_cons, tokens, tokens]
      simp only [hf.eq_iff (.inr (.inr rfl)), htoken, ih]
      split
      · rfl
      · rw [Option.map_map, Option.map_map]
        rfl

/-- **A search finds the texts that contain it, whatever the text, exactly if it is plain.** -/
theorem Keeps.finds_iff_plain (hf : W.Keeps f) (s : List α) :
    (∀ text : List α, W.finds (s.map f) (text.map f) = true ↔ s.map f <:+: text.map f) ↔
      W.Plain s := by
  constructor
  · intro h
    obtain ⟨ts, hts, hlen, hself⟩ := specimen_search W (s.map f) false
    obtain ⟨ts', hts', -⟩ := specimen_search W s false
    have hfolded : ts = ts'.map (Token.map f) := by
      have hmap := hf.tokens_map false (s ++ [W.many])
      rw [hts', List.map_append, List.map_singleton, hf.fixes _ (.inl rfl), hts] at hmap
      exact Option.some.inj hmap
    have hfound : W.finds (s.map f) ((W.specimen ts').map f) = true := by
      unfold finds like
      rw [tokens_many, hts, ← hf.specimen_map, ← hfolded]
      exact matchTokens_many.mpr ⟨_, List.suffix_rfl, matchTokens_specimen W ts⟩
    have hin := (h (W.specimen ts')).mp hfound
    rw [← hf.specimen_map, ← hfolded] at hin
    have hsame := hin.eq_of_length_le hlen
    exact (hf.plain_map_iff s).mp (hself hsame.symm)
  · intro h text
    exact finds_of_plain ((hf.plain_map_iff s).mpr h)

end Specimens

end Wildcards

end Taskowl.Lib
