import Nanogate.Python.Dict

/-!
# JSON values

The values that `json.loads` returns and `json.dumps` accepts. Requests, events,
tenant configurations and stored records are all such values, so serialising and
parsing again gives the value back and the model passes the value itself. A float is
kept as its `repr`: no modelled function computes with one, they are only tested for
being zero.

## Main definitions

* `Json` — null, booleans, numbers, strings, arrays and objects
* `Json.truthy` — Python's truth value of the parsed object
* `Json.get`, `Json.set` — `d.get(k)` and `d[k] = v` on an object
* `FileText` — the text of a file that may hold JSON
-/

namespace Nanogate.Python

/-- A JSON value; the entries of an object are kept in insertion order. -/
inductive Json where
  | null
  | bool (b : Bool)
  | num (n : Int)
  | float (repr : String)
  | str (s : String)
  | arr (xs : List Json)
  | obj (entries : List (String × Json))
  deriving Repr

namespace Json

mutual

/-- Equality of values is decided along their structure. -/
def decEq : (a b : Json) → Decidable (a = b)
  | .null, b => match b with
    | .null => isTrue rfl
    | .bool _ | .num _ | .float _ | .str _ | .arr _ | .obj _ => isFalse (by simp)
  | .bool x, b => match b with
    | .bool y => decidable_of_iff (x = y) (by simp)
    | .null | .num _ | .float _ | .str _ | .arr _ | .obj _ => isFalse (by simp)
  | .num x, b => match b with
    | .num y => decidable_of_iff (x = y) (by simp)
    | .null | .bool _ | .float _ | .str _ | .arr _ | .obj _ => isFalse (by simp)
  | .float x, b => match b with
    | .float y => decidable_of_iff (x = y) (by simp)
    | .null | .bool _ | .num _ | .str _ | .arr _ | .obj _ => isFalse (by simp)
  | .str x, b => match b with
    | .str y => decidable_of_iff (x = y) (by simp)
    | .null | .bool _ | .num _ | .float _ | .arr _ | .obj _ => isFalse (by simp)
  | .arr xs, b => match b with
    | .arr ys => have := decEqList xs ys; decidable_of_iff (xs = ys) (by simp)
    | .null | .bool _ | .num _ | .float _ | .str _ | .obj _ => isFalse (by simp)
  | .obj xs, b => match b with
    | .obj ys => have := decEqEntries xs ys; decidable_of_iff (xs = ys) (by simp)
    | .null | .bool _ | .num _ | .float _ | .str _ | .arr _ => isFalse (by simp)

/-- Equality of array elements. -/
def decEqList : (xs ys : List Json) → Decidable (xs = ys)
  | [], [] => isTrue rfl
  | [], _ :: _ | _ :: _, [] => isFalse (by simp)
  | x :: xs, y :: ys =>
    have := decEq x y
    have := decEqList xs ys
    decidable_of_iff (x = y ∧ xs = ys) (by simp)

/-- Equality of object entries. -/
def decEqEntries : (xs ys : List (String × Json)) → Decidable (xs = ys)
  | [], [] => isTrue rfl
  | [], _ :: _ | _ :: _, [] => isFalse (by simp)
  | (k, x) :: xs, (k', y) :: ys =>
    have := decEq x y
    have := decEqEntries xs ys
    decidable_of_iff ((k = k' ∧ x = y) ∧ xs = ys) (by simp)

end

instance : DecidableEq Json := decEq

/-- `bool(v)` -/
def truthy : Json → Bool
  | null => false
  | bool b => b
  | num n => n ≠ 0
  | float r => r ≠ "0.0" && r ≠ "-0.0"
  | str s => s ≠ ""
  | arr xs => xs ≠ []
  | obj kvs => kvs ≠ []

/-- `isinstance(v, dict)` -/
def isObj : Json → Bool
  | obj _ => true
  | _ => false

/-- The entries of an object; other values have none. -/
def entries : Json → List (String × Json)
  | obj kvs => kvs
  | _ => []

/-- `v.get(k)` on an object. -/
def get (v : Json) (k : String) : Option Json := Entries.get v.entries k

/-- `v[k] = x` on an object. -/
def set (v : Json) (k : String) (x : Json) : Json := obj (Entries.set v.entries k x)

/-- `v.pop(k, None)` on an object, the object that is left. -/
def erase (v : Json) (k : String) : Json := obj (Entries.erase v.entries k)

/-- `v.get(k)`, with `None` for a missing key. -/
def getD (v : Json) (k : String) : Json := (v.get k).getD null

/-- The string held by a value, as tested by `isinstance(v, str)`. -/
def str? : Json → Option String
  | str s => some s
  | _ => none

/-- `a or b` -/
def or (a b : Json) : Json := if a.truthy then a else b

variable {v x y : Json} {k k' : String}

@[simp] theorem truthy_null : null.truthy = false := rfl

@[simp] theorem truthy_obj_nil : (obj []).truthy = false := rfl

@[simp] theorem entries_obj (kvs : List (String × Json)) : (obj kvs).entries = kvs := rfl

@[simp] theorem isObj_set : (v.set k x).isObj = true := rfl

@[simp] theorem get_set_self : (v.set k x).get k = some x := Entries.get_set_self

theorem get_set_of_ne (h : k' ≠ k) : (v.set k x).get k' = v.get k' := Entries.get_set_of_ne h

theorem set_of_get (h : v.get k = some x) : v.set k x = v := by
  cases v with
  | obj kvs => exact congrArg obj (Entries.set_of_get h)
  | null | bool | num | float | str | arr => simp [get, entries] at h

@[simp] theorem getD_set_self : (v.set k x).getD k = x := by simp [getD]

theorem getD_set_of_ne (h : k' ≠ k) : (v.set k x).getD k' = v.getD k' := by
  rw [getD, getD, get_set_of_ne h]

theorem truthy_set : (v.set k x).truthy = true := by
  cases hv : v.entries with
  | nil => simp [set, hv, Entries.set, truthy]
  | cons e d => simp only [set, hv, Entries.set]; split_ifs <;> simp [truthy]

theorem isObj_of_get (h : v.get k = some x) : v.isObj = true := by
  cases v <;> first | rfl | simp [get, entries] at h

theorem isObj_of_getD (h : (v.getD k).truthy = true) : v.isObj = true := by
  cases hget : v.get k with
  | none => simp [getD, hget] at h
  | some x => exact isObj_of_get hget

/-- An object with an entry is not `{}`. -/
theorem truthy_of_get (h : v.get k = some x) : v.truthy = true := by
  cases v with
  | obj kvs => cases kvs <;> simp_all [get, truthy]
  | null | bool | num | float | str | arr => simp [get, entries] at h

end Json

/-! ### Texts -/

/-- The text of a file, represented by what `json.loads` makes of it: the value when it is JSON,
the text itself when it is not. How a value is laid out in the text is not kept. -/
inductive FileText where
  | json (v : Json)
  | text (s : String)
  deriving DecidableEq, Repr

/-- The text `s` of a file, where `loads` is `json.loads`, `none` standing for
`JSONDecodeError`. -/
def FileText.ofString (loads : String → Option Json) (s : String) : FileText :=
  match loads s with
  | some v => .json v
  | none => .text s

end Nanogate.Python
