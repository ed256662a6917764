import Mathlib.Data.Rat.Floor
import Taskowl.Py.Json

/-!
# Operators of Python on JSON values

Truth value, `==`, the four order comparisons, `in`, iteration, attribute
access and `str`. `PyLib` holds what the standard library decides by tables or
by a search this development does not repeat: `re.search`, the shortest
representation of a float, `repr` of a string, letter case and the letters
outside ASCII.
-/

namespace Taskowl.Py

/-- Standard-library functions taken as parameters. -/
structure PyLib where
  /-- `bool(re.search(pattern, text))`, which raises on an invalid pattern. -/
  reSearch : String → String → Except PyErr Bool
  /-- `str(f)` of a float. -/
  floatStr : PyFloat → String
  /-- `repr(s)` of a string. -/
  reprStr : String → String
  /-- `s.upper()`. -/
  upper : String → String
  /-- `s.lower()`. -/
  lower : String → String
  /-- Whether a non-ASCII character matches `\w`. -/
  isWordExt : Char → Bool

namespace Json

/-- `bool(v)`. -/
def truthy : Json → Bool
  | .null => false
  | .bool b => b
  | .int i => i != 0
  | .float f => f != .fin 0
  | .str s => s != ""
  | .arr xs => !xs.isEmpty
  | .obj kvs => !kvs.isEmpty

/-- `v or w`. -/
def or (v w : Json) : Json := if v.truthy then v else w

/-- The numeric value of a `bool`, `int` or `float`. -/
def num? : Json → Option PyFloat
  | .bool b => some (.fin (if b then 1 else 0))
  | .int i => some (.fin (i : Rat))
  | .float f => some f
  | _ => none

end Json

/-! ## Comparison -/

namespace PyFloat

def eq : PyFloat → PyFloat → Bool
  | .fin a, .fin b => a == b
  | .inf, .inf | .negInf, .negInf => true
  | _, _ => false

def lt : PyFloat → PyFloat → Bool
  | .fin a, .fin b => decide (a < b)
  | .fin _, .inf | .negInf, .fin _ | .negInf, .inf => true
  | _, _ => false

end PyFloat

inductive CmpOp where
  | gt
  | ge
  | lt
  | le
  deriving DecidableEq, Repr

namespace CmpOp

def symbol : CmpOp → String
  | gt => ">"
  | ge => ">="
  | lt => "<"
  | le => "<="

def num : CmpOp → PyFloat → PyFloat → Bool
  | gt, a, b => b.lt a
  | ge, a, b => b.lt a || a.eq b
  | lt, a, b => a.lt b
  | le, a, b => a.lt b || a.eq b

/-- The comparison of two strings, by code points. -/
def str : CmpOp → String → String → Bool
  | gt, a, b => decide (b < a)
  | ge, a, b => decide (b < a) || a == b
  | lt, a, b => decide (a < b)
  | le, a, b => decide (a < b) || a == b

def len : CmpOp → Nat → Nat → Bool
  | gt, a, b => decide (b < a)
  | ge, a, b => decide (b ≤ a)
  | lt, a, b => decide (a < b)
  | le, a, b => decide (a ≤ b)

end CmpOp

namespace Json

mutual

/-- `v == w`: numbers by value, lists item by item, dicts as key-value sets. -/
def pyEq : Json → Json → Bool
  | .null, w => w == .null
  | .str s, w => w == .str s
  | .arr xs, w => match w with
    | .arr ys => pyEqList xs ys
    | _ => false
  | .obj xs, w => match w with
    | .obj ys => xs.length == ys.length && pyEqObj xs ys
    | _ => false
  | .bool b, w => match w.num? with
    | some y => PyFloat.eq (.fin (if b then 1 else 0)) y
    | none => false
  | .int i, w => match w.num? with
    | some y => PyFloat.eq (.fin (i : Rat)) y
    | none => false
  | .float x, w => match w.num? with
    | some y => x.eq y
    | none => false
termination_by structural v => v

def pyEqList : List Json → List Json → Bool
  | [], ys => ys.isEmpty
  | x :: xs, ys => match ys with
    | [] => false
    | y :: ys => pyEq x y && pyEqList xs ys
termination_by structural xs => xs

def pyEqObj : List (String × Json) → Dict → Bool
  | [], _ => true
  | (k, x) :: xs, ys => match ys.lookup k with
    | some y => pyEq x y && pyEqObj xs ys
    | none => false
termination_by structural xs => xs

end

def notSupported (op : CmpOp) (v w : Json) : PyErr :=
  let types := s!"'{v.typeName}' and '{w.typeName}'"
  ⟨.typeError, s!"'{op.symbol}' not supported between instances of {types}"⟩

mutual

/-- `v op w` for the four order comparisons: numbers, strings and lists compare, the rest raises. -/
def compare (op : CmpOp) : Json → Json → Except PyErr Bool
  | .arr xs, w => match w with
    | .arr ys => compareList op xs ys
    | _ => .error (notSupported op (.arr xs) w)
  | .str a, w => match w with
    | .str b => .ok (op.str a b)
    | _ => .error (notSupported op (.str a) w)
  | v, w => match v.num?, w.num? with
    | some a, some b => .ok (op.num a b)
    | _, _ => .error (notSupported op v w)
termination_by structural v => v

/-- Lists compare at their first unequal items, or by length. -/
def compareList (op : CmpOp) : List Json → List Json → Except PyErr Bool
  | [], ys => .ok (op.len 0 ys.length)
  | x :: xs, ys => match ys with
    | [] => .ok (op.len (xs.length + 1) 0)
    | y :: ys => if pyEq x y then compareList op xs ys else compare op x y
termination_by structural xs => xs

end

theorem compare_int (op : CmpOp) (n : Int) (w : Json) :
    compare op (.int n) w = match w.num? with
      | some b => .ok (op.num (.fin n) b)
      | none => .error (notSupported op (.int n) w) := by
  cases w <;> rfl

theorem compare_ge_fin {w : Json} {q : Rat} (h : w.num? = some (.fin q)) (n : Int) :
    compare .ge (.int n) w = .ok (decide (q ≤ n)) := by
  have hge : CmpOp.num .ge (.fin n) (.fin q) = decide (q ≤ n) := by
    rw [Bool.eq_iff_iff, decide_eq_true_eq, le_iff_lt_or_eq, eq_comm (a := q)]
    simp only [CmpOp.num, PyFloat.lt, PyFloat.eq, Bool.or_eq_true, decide_eq_true_eq, beq_iff_eq]
  rw [compare_int, h, ← hge]

/-- `hash(v)` raises. -/
def unhashable : Json → Bool
  | .arr _ | .obj _ => true
  | _ => false

/-- `needle in hay` on strings. -/
def strIn (needle hay : String) : Bool := hay.toList.tails.any needle.toList.isPrefixOf

/-- `v in w` for a list or dict `w`. -/
def isIn (v w : Json) : Except PyErr Bool :=
  match w with
  | .arr ys => .ok (ys.any v.pyEq)
  | .obj ys =>
    if v.unhashable then .error ⟨.typeError, s!"unhashable type: '{v.typeName}'"⟩
    else .ok (ys.any fun kv => v.pyEq (.str kv.1))
  | _ => .error ⟨.typeError, s!"argument of type '{w.typeName}' is not iterable"⟩

/-! ## Access and iteration -/

/-- `for x in v`. -/
def iter : Json → Except PyErr (List Json)
  | .arr xs => .ok xs
  | .obj kvs => .ok (kvs.map fun kv => .str kv.1)
  | .str s => .ok (s.toList.map fun c => .str (String.ofList [c]))
  | v => .error ⟨.typeError, s!"'{v.typeName}' object is not iterable"⟩

/-- `v.get(k)`. -/
def getAttr (v : Json) (k : String) : Except PyErr Json :=
  match v with
  | .obj d => .ok (Dict.get d k)
  | v => .error (attributeError v "get")

/-- `s.split(".")`. -/
def splitDots (s : String) : List String := (s.toList.splitOn '.').map String.ofList

/-! ## Text -/

mutual

/-- `repr(v)`. -/
def repr (lib : PyLib) : Json → String
  | .null => "None"
  | .bool b => if b then "True" else "False"
  | .int i => toString i
  | .float f => lib.floatStr f
  | .str s => lib.reprStr s
  | .arr xs => "[" ++ ", ".intercalate (reprList lib xs) ++ "]"
  | .obj kvs => "\x7b" ++ ", ".intercalate (reprObj lib kvs) ++ "\x7d"
termination_by structural v => v

def reprList (lib : PyLib) : List Json → List String
  | [] => []
  | x :: xs => repr lib x :: reprList lib xs
termination_by structural xs => xs

def reprObj (lib : PyLib) : List (String × Json) → List String
  | [] => []
  | (k, x) :: xs => (lib.reprStr k ++ ": " ++ repr lib x) :: reprObj lib xs
termination_by structural xs => xs

end

/-- `str(v)`. -/
def toStr (lib : PyLib) : Json → String
  | .str s => s
  | v => v.repr lib

end Json

end Taskowl.Py
