import Taskowl.Models

/-!
# Conditions

`evaluate_condition` and the fields it resolves (`workflow.py`). A condition
is any JSON value: what is not a dict, a field that is not a string, two dicts
or two mixed lists under an order comparison, a list looked up in a dict and
an invalid pattern all raise.
-/

namespace Taskowl

open Py

/-- `_SUPPORTED_OPS`. -/
inductive Op where
  | eq
  | neq
  | gt
  | gte
  | lt
  | lte
  | contains
  | matches
  | isIn
  | exists
  deriving DecidableEq, Repr

/-- The operator a condition names; `none` when it is not one of `_SUPPORTED_OPS`. -/
def Op.ofJson? : Json → Option Op
  | .str "eq" => some .eq
  | .str "neq" => some .neq
  | .str "gt" => some .gt
  | .str "gte" => some .gte
  | .str "lt" => some .lt
  | .str "lte" => some .lte
  | .str "contains" => some .contains
  | .str "matches" => some .matches
  | .str "in" => some .isIn
  | .str "exists" => some .exists
  | _ => none

/-- The loop of `_resolve_field`: one dict lookup a path part. -/
def resolveParts : List String → Json → Json
  | [], value => value
  | part :: parts, value => match value with
    | .obj d => resolveParts parts (Dict.get d part)
    | _ => .null

/-- `_resolve_field(event, field)` for a string field. -/
def resolveField (event : Dict) (field : String) : Json :=
  resolveParts (Json.splitDots field) (.obj event)

/-- `_safe_compare(actual, value)`. -/
def safeCompare (actual value : Json) : Bool :=
  if actual = .null ∨ value = .null then false
  else if actual.num?.isSome && value.num?.isSome then true
  else actual.typeName == value.typeName

/-- `_safe_compare(actual, value) and actual op value`. -/
def safeOrder (op : CmpOp) (actual value : Json) : Except PyErr Bool :=
  if safeCompare actual value then Json.compare op actual value else .ok false

/-- The branches of `evaluate_condition` after the field is resolved. -/
def applyOp (lib : PyLib) (op : Op) (actual value : Json) : Except PyErr Bool :=
  match op with
  | .exists => .ok (actual != .null)
  | .eq => .ok (actual.pyEq value)
  | .neq => .ok (!actual.pyEq value)
  | .gt => safeOrder .gt actual value
  | .gte => safeOrder .ge actual value
  | .lt => safeOrder .lt actual value
  | .lte => safeOrder .le actual value
  | .contains => match actual, value with
    | .str hay, .str needle => .ok (Json.strIn needle hay)
    | .arr _, value | .obj _, value => Json.isIn value actual
    | _, _ => .ok false
  | .matches => match value with
    | .str pattern => lib.reSearch pattern ((actual.or (.str "")).toStr lib)
    | _ => .ok false
  | .isIn => match value with
    | .arr _ => Json.isIn actual value
    | _ => .ok false

/-- `evaluate_condition(event, condition)`. -/
def evaluateCondition (lib : PyLib) (event : Dict) (condition : Json) : Except PyErr Bool :=
  match condition with
  | .obj c =>
    let field := Dict.get c "field"
    if !field.truthy then .ok false
    else match Op.ofJson? (Dict.get c "op") with
      | none => .ok false
      | some op => match field with
        | .str path => applyOp lib op (resolveField event path) (Dict.get c "value")
        | f => .error (attributeError f "split")
  | c => .error (attributeError c "get")

/-- `all(evaluate_condition(event, c) for c in conditions)`: stops at the first false one. -/
def allConditions (lib : PyLib) (event : Dict) : List Json → Except PyErr Bool
  | [] => .ok true
  | c :: cs => match evaluateCondition lib event c with
    | .error e => .error e
    | .ok false => .ok false
    | .ok true => allConditions lib event cs

def conditionsPassed (lib : PyLib) (event : Dict) (automation : Automation) : Except PyErr Bool :=
  match (automation.conditions.read.or (.arr [])).iter with
  | .error e => .error e
  | .ok cs => allConditions lib event cs

end Taskowl
