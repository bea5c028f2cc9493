import TypeOrigins.Number.Binary64

/-! # Documents

A document is what a data file holds, whatever its notation. Integers and floats stay apart, and an
object lists its fields in the order of their first appearance, each key once. Some notations have
dates and times, and keys that are not names. -/

namespace TypeOrigins
set_option autoImplicit false

/-- The key of a field: a name, or a value of another kind, of which only the wording is kept. -/
inductive Key where
  | name (s : String)
  | other (wording : String)
deriving DecidableEq, Repr, Inhabited

instance : Coe String Key := ⟨Key.name⟩

/-- The wording of a key. -/
def Key.wording : Key → String
  | .name s => s
  | .other w => w

/-- A decoded value. A date or a time is kept as such, without the moment it says. -/
inductive Document where
  | null
  | bool (b : Bool)
  | int (n : Int)
  | float (x : Binary64)
  | text (s : String)
  | list (items : List Document)
  | object (fields : List (Key × Document))
  | moment
deriving Repr, Inhabited

namespace Document

/-- The fields of an object. -/
abbrev Fields := List (Key × Document)

/-- The value of the field with a name. -/
def Fields.get? (fields : Fields) (name : String) : Option Document :=
  (fields.find? fun f => f.1 == .name name).map (·.2)

/-- The fields after `key` has been given a value: a new key comes last, a key that is present keeps
its place. -/
def Fields.put (fields : Fields) (key : Key) (value : Document) : Fields :=
  match fields with
  | [] => [(key, value)]
  | f :: rest => if f.1 == key then (key, value) :: rest else f :: Fields.put rest key value

/-- The fields of one object, then those of another put over them. -/
def Fields.update (fields others : Fields) : Fields :=
  others.foldl (fun acc f => acc.put f.1 f.2) fields

/-- Whether a value counts as nothing: null, false, zero, or empty. -/
def isEmpty : Document → Bool
  | .null => true
  | .bool b => !b
  | .int n => n == 0
  | .float x => x.whole? == some 0
  | .text s => s.isEmpty
  | .list items => items.isEmpty
  | .object fields => fields.isEmpty
  | .moment => false

end Document

end TypeOrigins
