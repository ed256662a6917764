import Mathlib.Data.List.Nodup
import Mathlib.Data.Rat.Defs

/-!
# Python values of JSON shape

`Json` is what `json.loads` returns and what a `JSON` column reads back:
`None`, booleans, integers, floats, strings, lists and string-keyed dicts. A
finite float is the rational it stands for. `Dict` is a dict, looked up first
match; `JsonCell` is a `JSON` column, which tells SQL NULL from the stored
text `null`. `PyErr` is a raised exception.
-/

namespace Taskowl.Py

/-- A float: a finite one is its exact value. -/
inductive PyFloat where
  | fin (q : Rat)
  | inf
  | negInf
  | nan
  deriving DecidableEq, Repr

inductive Json where
  | null
  | bool (b : Bool)
  | int (i : Int)
  | float (f : PyFloat)
  | str (s : String)
  | arr (xs : List Json)
  | obj (kvs : List (String × Json))
  deriving Repr

namespace Json

mutual

def decEq : (a b : Json) → Decidable (a = b)
  | .null, b => match b with
    | .null => isTrue rfl
    | .bool _ | .int _ | .float _ | .str _ | .arr _ | .obj _ => isFalse nofun
  | .bool x, b => match b with
    | .bool y => decidable_of_iff (x = y) (by simp)
    | .null | .int _ | .float _ | .str _ | .arr _ | .obj _ => isFalse nofun
  | .int x, b => match b with
    | .int y => decidable_of_iff (x = y) (by simp)
    | .null | .bool _ | .float _ | .str _ | .arr _ | .obj _ => isFalse nofun
  | .float x, b => match b with
    | .float y => decidable_of_iff (x = y) (by simp)
    | .null | .bool _ | .int _ | .str _ | .arr _ | .obj _ => isFalse nofun
  | .str x, b => match b with
    | .str y => decidable_of_iff (x = y) (by simp)
    | .null | .bool _ | .int _ | .float _ | .arr _ | .obj _ => isFalse nofun
  | .arr xs, b => match b with
    | .arr ys => have := decEqList xs ys; decidable_of_iff (xs = ys) (by simp)
    | .null | .bool _ | .int _ | .float _ | .str _ | .obj _ => isFalse nofun
  | .obj xs, b => match b with
    | .obj ys => have := decEqObj xs ys; decidable_of_iff (xs = ys) (by simp)
    | .null | .bool _ | .int _ | .float _ | .str _ | .arr _ => isFalse nofun
termination_by structural a => a

def decEqList : (xs ys : List Json) → Decidable (xs = ys)
  | [], ys => match ys with
    | [] => isTrue rfl
    | _ :: _ => isFalse nofun
  | x :: xs, ys => match ys with
    | [] => isFalse nofun
    | y :: ys =>
      have := decEq x y
      have := decEqList xs ys
      decidable_of_iff (x = y ∧ xs = ys) (by simp)
termination_by structural xs => xs

def decEqObj : (xs ys : List (String × Json)) → Decidable (xs = ys)
  | [], ys => match ys with
    | [] => isTrue rfl
    | _ :: _ => isFalse nofun
  | (k, x) :: xs, ys => match ys with
    | [] => isFalse nofun
    | (l, y) :: ys =>
      have := decEq x y
      have := decEqObj xs ys
      decidable_of_iff ((k = l ∧ x = y) ∧ xs = ys) (by simp)
termination_by structural xs => xs

end

instance : DecidableEq Json := decEq

end Json

abbrev Dict := List (String × Json)

/-- `d.get(k)`: `None` when the key is missing. -/
def Dict.get (d : Dict) (k : String) : Json := (d.lookup k).getD .null

/-- `k in d`. -/
def Dict.has (d : Dict) (k : String) : Bool := (d.lookup k).isSome

/-- `{**d, **e}` and `d[k] = v`: the keys of `e` replace or extend those of `d`. -/
def Dict.set (d : Dict) (k : String) (v : Json) : Dict :=
  if d.has k then d.map fun kv => if kv.1 = k then (k, v) else kv else d ++ [(k, v)]

def Dict.merge (d e : Dict) : Dict := e.foldl (fun acc kv => acc.set kv.1 kv.2) d

namespace Dict

theorem lookup_replace (d : Dict) (k : String) (v : Json) (key : String) :
    (d.map fun kv => if kv.1 = k then (k, v) else kv).lookup key =
      if key = k then (d.lookup k).map fun _ => v else d.lookup key := by
  induction d with
  | nil => simp
  | cons x d ih =>
    obtain ⟨y, u⟩ := x
    rw [List.map_cons]
    by_cases hy : y = k
    · subst hy
      rw [if_pos rfl, List.lookup_cons, List.lookup_cons, List.lookup_cons, ih]
      by_cases hkey : key = y
      · simp [hkey]
      · simp [hkey, beq_false_of_ne hkey]
    · rw [if_neg hy, List.lookup_cons, List.lookup_cons, List.lookup_cons, ih]
      by_cases hkey : key = k
      · subst hkey
        simp [beq_false_of_ne (Ne.symm hy)]
      · simp [hkey]

theorem lookup_set (d : Dict) (k : String) (v : Json) (key : String) :
    (d.set k v).lookup key = if key = k then some v else d.lookup key := by
  unfold set has
  split
  · next hk =>
    rw [lookup_replace]
    obtain ⟨u, hu⟩ := Option.isSome_iff_exists.mp hk
    rw [hu, Option.map_some]
  · next hk =>
    have hnone : d.lookup k = none := Option.not_isSome_iff_eq_none.mp hk
    rw [List.lookup_append]
    by_cases hkey : key = k
    · subst hkey
      simp [hnone]
    · simp [hkey, List.lookup_cons, beq_false_of_ne hkey]

theorem nodup_set {d : Dict} (h : (d.map (·.1)).Nodup) (k : String) (v : Json) :
    ((d.set k v).map (·.1)).Nodup := by
  unfold set has
  split
  · have hkeys : (d.map fun kv => if kv.1 = k then (k, v) else kv).map (·.1) = d.map (·.1) := by
      rw [List.map_map]
      apply List.map_congr_left
      intro kv _
      by_cases hk : kv.1 = k
      · simp [hk]
      · simp [hk]
    rw [hkeys]
    exact h
  · next hk =>
    rw [List.map_append, List.nodup_append]
    refine ⟨h, List.nodup_singleton _, ?_⟩
    rintro x hx y hy rfl
    obtain ⟨kv, hkv, rfl⟩ := List.mem_map.mp hx
    have hnone : d.lookup k = none := Option.not_isSome_iff_eq_none.mp hk
    have hne := List.lookup_eq_none_iff.mp hnone kv hkv
    rw [List.mem_singleton.mp hy] at hne
    simp at hne

theorem nodup_merge {d : Dict} (h : (d.map (·.1)).Nodup) (e : Dict) :
    ((d.merge e).map (·.1)).Nodup := by
  induction e generalizing d with
  | nil => exact h
  | cons kv e ih => exact ih (nodup_set h kv.1 kv.2)

theorem lookup_merge (d : Dict) {e : Dict} (h : (e.map (·.1)).Nodup) (key : String) :
    (d.merge e).lookup key = (e.lookup key).or (d.lookup key) := by
  induction e generalizing d with
  | nil => rfl
  | cons kv e ih =>
    obtain ⟨hnotin, h⟩ := List.nodup_cons.mp h
    show (merge (d.set kv.1 kv.2) e).lookup key = _
    rw [ih _ h, lookup_set, List.lookup_cons]
    by_cases hkey : key = kv.1
    · subst hkey
      have hnone : e.lookup kv.1 = none := by
        rw [List.lookup_eq_none_iff]
        intro x hx
        exact bne_iff_ne.mpr fun heq => hnotin (List.mem_map.mpr ⟨x, hx, heq.symm⟩)
      simp [hnone]
    · rw [if_neg hkey, beq_false_of_ne hkey]

end Dict

/-- A nullable `JSON` column. -/
inductive JsonCell where
  | sqlNull
  | json (v : Json)
  deriving DecidableEq, Repr

namespace JsonCell

/-- The cell the ORM writes for an attribute set to `v` (`none_as_null=False`: `None` is the JSON
text `null`, not SQL NULL). -/
def store (v : Json) : JsonCell := .json v

/-- The attribute the ORM reads back. -/
def read : JsonCell → Json
  | .sqlNull => .null
  | .json v => v

/-- SQL `IS NOT NULL`, which is what `.isnot(None)` compiles to. -/
def isnotNone : JsonCell → Bool
  | .sqlNull => false
  | .json _ => true

@[simp] theorem read_store (v : Json) : (store v).read = v := rfl

@[simp] theorem isnotNone_store (v : Json) : (store v).isnotNone = true := rfl

end JsonCell

/-! ## Exceptions -/

inductive ErrKind where
  | attributeError
  | typeError
  | valueError
  | keyError
  | overflowError
  | reError
  | dataError
  | integrityError
  | brokerError
  deriving DecidableEq, Repr

structure PyErr where
  kind : ErrKind
  msg : String
  deriving DecidableEq, Repr

/-- `type(v).__name__`. -/
def Json.typeName : Json → String
  | .null => "NoneType"
  | .bool _ => "bool"
  | .int _ => "int"
  | .float _ => "float"
  | .str _ => "str"
  | .arr _ => "list"
  | .obj _ => "dict"

def attributeError (v : Json) (attr : String) : PyErr :=
  ⟨.attributeError, s!"'{v.typeName}' object has no attribute '{attr}'"⟩

end Taskowl.Py
