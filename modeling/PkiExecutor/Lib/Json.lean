/-
# `PkiExecutor.Lib.Json` — JSON values

A parsed JSON value.  An object keeps its members as written, so a repeated key
is visible: looking a key up finds the last one, which is what decoding into a
map leaves, while a strict decoder can still see that it came twice.  An integer
is its value, any other number its literal.
-/
import Mathlib.Tactic.Common

namespace PkiExecutor

/-- A JSON value; the members of an object are in their order. -/
inductive Json
  | null
  | bool (b : Bool)
  | int (n : Int)
  | float (literal : String)
  | str (s : String)
  | arr (items : List Json)
  | obj (members : List (String × Json))
  deriving Repr, Inhabited

namespace Json

/-- `value["key"]`: `null` where the value is no object or lacks the key. -/
def get (v : Json) (key : String) : Json :=
  match v with
  | .obj ms => (ms.reverse.lookup key).getD .null
  | _ => .null

def isObject : Json → Bool
  | .obj _ => true
  | _ => false

def asStr : Json → Option String
  | .str s => some s
  | _ => none

def asArray : Json → Option (List Json)
  | .arr xs => some xs
  | _ => none

/-- `value == true`. -/
def isTrue : Json → Bool
  | .bool b => b
  | _ => false

/-- A string, or `null` for `none`. -/
def ofOption : Option String → Json
  | some s => .str s
  | none => .null

/-- A string, or `null` for the empty one. -/
def nullIfEmpty (s : String) : Json := if s.isEmpty then .null else .str s

/-- An array of strings. -/
def strings (xs : List String) : Json := .arr (xs.map .str)

/-! ## Strict decoding

A record type decodes from an object in which each of its fields stands exactly
once, other members being passed over, or from an array of its fields in order. -/

/-- The values standing under a key, in order. -/
def under (members : List (String × Json)) (key : String) : List Json :=
  (members.filter (·.1 == key)).map Prod.snd

/-- The one value under a key. -/
def field (members : List (String × Json)) (key : String) : Option Json :=
  match under members key with
  | [v] => some v
  | _ => none

/-- The fields of a record, in order. -/
def record (keys : List String) : Json → Option (List Json)
  | .obj members => keys.mapM (field members)
  | .arr items => if items.length = keys.length then some items else none
  | _ => none

end Json

end PkiExecutor
