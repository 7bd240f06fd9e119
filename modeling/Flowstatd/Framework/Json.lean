import Mathlib.Data.List.Basic

/-!
# JSON values

A parsed JSON text. Integers are 64 bits wide; the members of an object have different keys.
-/

namespace Flowstatd.Framework

inductive Json where
  | null
  | bool (b : Bool)
  | integer (n : BitVec 64)
  | real
  | string (s : String)
  | array (elements : List Json)
  | object (members : List (String × Json))

namespace Json

/-- The member of an object; other values have none. -/
def member? : Json → String → Option Json
  | .object members, key => (members.find? fun m => m.1 = key).map Prod.snd
  | _, _ => none

def elements? : Json → Option (List Json)
  | .array elements => some elements
  | _ => none

def string? : Json → Option String
  | .string s => some s
  | _ => none

def integer? : Json → Option (BitVec 64)
  | .integer n => some n
  | _ => none

def isObject : Json → Bool
  | .object _ => true
  | _ => false

@[simp] theorem string?_eq_some_iff {j : Json} {s : String} : j.string? = some s ↔ j = .string s := by
  cases j <;> simp [string?]

@[simp] theorem integer?_eq_some_iff {j : Json} {n : BitVec 64} :
    j.integer? = some n ↔ j = .integer n := by
  cases j <;> simp [integer?]

@[simp] theorem elements?_eq_some_iff {j : Json} {es : List Json} :
    j.elements? = some es ↔ j = .array es := by
  cases j <;> simp [elements?]

end Json

end Flowstatd.Framework
