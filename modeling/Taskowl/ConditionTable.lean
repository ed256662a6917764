import Taskowl.Conditions
import Taskowl.World

/-!
# The table of conditions

What a condition should answer, for every value in it: false where it is
malformed or its values do not compare. `evaluate_condition` answers so except
on the values that it raises on, and on a `matches` over a field that is zero,
false or empty, which it reads as the empty string.
-/

namespace Taskowl

open Py

namespace Py.Json

mutual

/-- Two numbers, two strings, or two lists whose first unequal items compare. -/
def comparable : Json → Json → Bool
  | .arr xs, w => match w with
    | .arr ys => comparableList xs ys
    | _ => false
  | .str _, w => match w with
    | .str _ => true
    | _ => false
  | v, w => v.num?.isSome && w.num?.isSome
termination_by structural v => v

def comparableList : List Json → List Json → Bool
  | [], _ => true
  | x :: xs, ys => match ys with
    | [] => true
    | y :: ys => if x.pyEq y then comparableList xs ys else comparable x y
termination_by structural xs => xs

end

mutual

/-- The order comparisons answer on comparable values and raise on others. -/
theorem isOk_compare (op : CmpOp) (v w : Json) :
    (Json.compare op v w).isOk = comparable v w := by
  cases v with
  | arr xs =>
    cases w with
    | arr ys => exact isOk_compareList op xs ys
    | _ => rfl
  | str s => cases w <;> rfl
  | _ => cases w <;> rfl

theorem isOk_compareList (op : CmpOp) (xs ys : List Json) :
    (Json.compareList op xs ys).isOk = comparableList xs ys := by
  cases xs with
  | nil => rfl
  | cons x xs =>
    cases ys with
    | nil => rfl
    | cons y ys =>
      unfold Json.compareList comparableList
      dsimp only
      split
      · exact isOk_compareList op xs ys
      · exact isOk_compare op x y

end

end Py.Json

/-! ## The table -/

def ordered (op : CmpOp) (v w : Json) : Bool :=
  match Json.compare op v w with
  | .ok holds => holds
  | .error _ => false

def finds (lib : PyLib) (pattern text : String) : Bool :=
  match lib.reSearch pattern text with
  | .ok found => found
  | .error _ => false

/-- The string form of a field; of a null, the empty string. -/
def fieldText (lib : PyLib) : Json → String
  | .null => ""
  | v => v.toStr lib

def tableOp (lib : PyLib) (op : Op) (actual value : Json) : Bool :=
  match op with
  | .exists => actual != .null
  | .eq => actual.pyEq value
  | .neq => !actual.pyEq value
  | .gt => ordered .gt actual value
  | .gte => ordered .ge actual value
  | .lt => ordered .lt actual value
  | .lte => ordered .le actual value
  | .contains => match actual, value with
    | .str hay, .str needle => Json.strIn needle hay
    | .arr items, value => items.any value.pyEq
    | .obj fields, value => fields.any fun kv => value.pyEq (.str kv.1)
    | _, _ => false
  | .matches => match value with
    | .str pattern => finds lib pattern (fieldText lib actual)
    | _ => false
  | .isIn => match value with
    | .arr items => items.any actual.pyEq
    | _ => false

/-- What a condition answers by the table; a malformed one, false. -/
def tableSays (lib : PyLib) (event : Dict) (condition : Json) : Bool :=
  match condition with
  | .obj c => match Dict.get c "field", Op.ofJson? (Dict.get c "op") with
    | .str field, some op =>
      field != "" && tableOp lib op (resolveField event field) (Dict.get c "value")
    | _, _ => false
  | _ => false

/-! ## Where the evaluator follows it -/

/-- No pair of dicts, nor of lists whose first unequal items do not compare. -/
def OrderSafe : Json → Json → Prop
  | .obj _, .obj _ => False
  | .arr xs, .arr ys => Json.comparableList xs ys = true
  | _, _ => True

def ContainsSafe : Json → Json → Prop
  | .obj _, .arr _ | .obj _, .obj _ => False
  | _, _ => True

/-- The pattern is valid; in a field that is zero, false or empty it occurs exactly when it does
in the empty string. -/
def MatchesSafe (lib : PyLib) (actual : Json) : Json → Prop
  | .str pattern =>
    if actual = .null ∨ actual.truthy = true then
      ∃ found, lib.reSearch pattern (fieldText lib actual) = .ok found
    else lib.reSearch pattern "" = .ok (finds lib pattern (fieldText lib actual))
  | _ => True

def OpSafe (lib : PyLib) (actual value : Json) : Op → Prop
  | .gt | .gte | .lt | .lte => OrderSafe actual value
  | .contains => ContainsSafe actual value
  | .matches => MatchesSafe lib actual value
  | .eq | .neq | .isIn | .exists => True

/-- A dict; where its operator is supported and its field is not falsy, the field is a string and
the operator is safe on the two values. -/
def ConditionSafe (lib : PyLib) (event : Dict) : Json → Prop
  | .obj c => ∀ op, Op.ofJson? (Dict.get c "op") = some op → (Dict.get c "field").truthy = true →
    ∃ field, Dict.get c "field" = .str field ∧
      OpSafe lib (resolveField event field) (Dict.get c "value") op
  | _ => False

section Operators

variable {lib : PyLib} {actual value : Json}

theorem orderSafe_iff : OrderSafe actual value ↔
    (safeCompare actual value = true → Json.comparable actual value = true) := by
  cases actual <;> cases value <;>
    simp [OrderSafe, safeCompare, Json.comparable, Json.num?, Json.typeName]

theorem safeCompare_of_comparable (h : Json.comparable actual value = true) :
    safeCompare actual value = true := by
  revert h
  cases actual <;> cases value <;> simp [safeCompare, Json.comparable, Json.num?, Json.typeName]

theorem safeOrder_iff (op : CmpOp) :
    safeOrder op actual value = .ok (ordered op actual value) ↔ OrderSafe actual value := by
  have hok := Json.isOk_compare op actual value
  rw [orderSafe_iff]
  unfold safeOrder ordered
  cases hc : Json.compare op actual value with
  | ok holds =>
    rw [hc] at hok
    have hcomparable : Json.comparable actual value = true := hok.symm
    rw [if_pos (safeCompare_of_comparable hcomparable)]
    exact iff_of_true rfl fun _ => hcomparable
  | error e =>
    rw [hc] at hok
    have hnot : Json.comparable actual value = false := hok.symm
    rw [hnot]
    cases safeCompare actual value <;> simp

theorem contains_iff : applyOp lib .contains actual value =
    .ok (tableOp lib .contains actual value) ↔ ContainsSafe actual value := by
  cases actual <;> cases value <;>
    simp [applyOp, tableOp, ContainsSafe, Json.isIn, Json.unhashable]

theorem matches_iff : applyOp lib .matches actual value =
    .ok (tableOp lib .matches actual value) ↔ MatchesSafe lib actual value := by
  cases value with
  | str pattern =>
    show lib.reSearch pattern ((actual.or (.str "")).toStr lib) =
      .ok (finds lib pattern (fieldText lib actual)) ↔ _
    unfold MatchesSafe
    dsimp only
    by_cases hread : actual = .null ∨ actual.truthy = true
    · have htext : (actual.or (.str "")).toStr lib = fieldText lib actual := by
        rcases hread with rfl | htruthy
        · rfl
        · unfold Json.or
          rw [if_pos htruthy]
          cases actual <;> first | rfl | cases htruthy
      rw [if_pos hread, htext]
      unfold finds
      cases lib.reSearch pattern (fieldText lib actual) <;> simp
    · have htext : (actual.or (.str "")).toStr lib = "" := by
        unfold Json.or
        rw [if_neg fun h => hread (.inr h)]
        rfl
      rw [if_neg hread, htext]
  | _ => exact iff_of_true rfl trivial

theorem applyOp_iff (op : Op) :
    applyOp lib op actual value = .ok (tableOp lib op actual value) ↔
      OpSafe lib actual value op := by
  cases op with
  | gt => exact safeOrder_iff .gt
  | gte => exact safeOrder_iff .ge
  | lt => exact safeOrder_iff .lt
  | lte => exact safeOrder_iff .le
  | contains => exact contains_iff
  | «matches» => exact matches_iff
  | eq => exact iff_of_true rfl trivial
  | neq => exact iff_of_true rfl trivial
  | «exists» => exact iff_of_true rfl trivial
  | isIn => exact iff_of_true (by cases value <;> rfl) trivial

end Operators

/-- A condition answers by the table exactly where it is safe. -/
theorem condition_follows_table_iff (lib : PyLib) (event : Dict) (condition : Json) :
    evaluateCondition lib event condition = .ok (tableSays lib event condition) ↔
      ConditionSafe lib event condition := by
  cases condition with
  | obj c =>
    unfold evaluateCondition tableSays ConditionSafe
    dsimp only
    cases hop : Op.ofJson? (Dict.get c "op") with
    | none =>
      refine iff_of_true ?_ fun op hsome => nomatch hsome
      cases Dict.get c "field" <;> simp
    | some op =>
      generalize Dict.get c "field" = field
      cases htruthy : field.truthy with
      | false =>
        refine iff_of_true ?_ fun _ _ => nofun
        cases field with
        | str path =>
          have hempty : path = "" := by simpa [Json.truthy] using htruthy
          subst hempty
          rfl
        | _ => rfl
      | true =>
        cases field with
        | str path =>
          have hne : (path != "") = true := htruthy
          dsimp only
          rw [hne, Bool.true_and]
          refine (applyOp_iff op).trans ⟨fun h op' hop' _ => ?_, fun h => ?_⟩
          · cases hop'
            exact ⟨path, rfl, h⟩
          · obtain ⟨path', heq, hsafe⟩ := h op rfl rfl
            cases heq
            exact hsafe
        | _ =>
          refine iff_of_false nofun fun h => ?_
          obtain ⟨path, heq, -⟩ := h op rfl rfl
          cases heq
  | _ => exact iff_of_false nofun id

def retriesMatch (pattern : String) : Json :=
  .obj [("field", .str "retries"), ("op", .str "matches"), ("value", .str pattern)]

/-- No retry is not read as `0`. -/
theorem table_not_followed : ¬ ∀ event condition,
    evaluateCondition (Env.idle 0).lib event condition =
      .ok (tableSays (Env.idle 0).lib event condition) := by
  intro h
  have hzero := h [("retries", .int 0)] (retriesMatch "0")
  revert hzero
  decide

end Taskowl
