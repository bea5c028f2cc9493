import TypeOrigins.Document.Basic
import TypeOrigins.Text.Numeral

/-! # Checking the shape of documents

A check reads a value of some type off a document or reports every issue it meets, each with the
path to the offending part. Number, truth and text fields accept some values of other kinds, as the
doc comments say.

This stands for a library of checks, whose text is not part of this development: what it accepts and
which issues it reports, with their codes and paths, is taken from its documentation and from how it
answers. Its wording of an issue is left out, and so are documents with binary values or with texts
that hold half of a surrogate pair, which no document here has. -/

namespace TypeOrigins
set_option autoImplicit false

/-- What is wrong with a part of a document. -/
inductive IssueKind where
  | missing
  | extraForbidden
  | invalidKey
  | stringType
  | stringTooShort
  | listType
  | tooShort
  | modelType
  | modelAttributesType
  | tagNotFound
  | tagInvalid
  | literalMismatch
  | intType
  | intParsing
  | intFromFloat
  | intParsingSize
  | finiteNumber
  | belowMinimum
  | boolType
  | boolParsing
  | nestingTooDeep
deriving DecidableEq, Repr

/-- The code of an issue. -/
def IssueKind.code : IssueKind → String
  | .missing => "missing"
  | .extraForbidden => "extra_forbidden"
  | .invalidKey => "invalid_key"
  | .stringType => "string_type"
  | .stringTooShort => "string_too_short"
  | .listType => "list_type"
  | .tooShort => "too_short"
  | .modelType => "model_type"
  | .modelAttributesType => "model_attributes_type"
  | .tagNotFound => "union_tag_not_found"
  | .tagInvalid => "union_tag_invalid"
  | .literalMismatch => "literal_error"
  | .intType => "int_type"
  | .intParsing => "int_parsing"
  | .intFromFloat => "int_from_float"
  | .intParsingSize => "int_parsing_size"
  | .finiteNumber => "finite_number"
  | .belowMinimum => "greater_than_equal"
  | .boolType => "bool_type"
  | .boolParsing => "bool_parsing"
  | .nestingTooDeep => "recursion_depth_exceeded"

/-- Something wrong, and the path to it from the whole document. -/
structure Issue where
  path : List String
  kind : IssueKind
deriving DecidableEq, Repr

/-- A value, or all that is wrong. -/
inductive Checked (α : Type) where
  | valid (a : α)
  | invalid (issues : List Issue)
deriving DecidableEq, Repr

namespace Checked

/-- One issue, at the part that is being checked. -/
def issue {α : Type} (kind : IssueKind) : Checked α := .invalid [⟨[], kind⟩]

/-- A check of the part that `step` leads to. -/
def under {α : Type} (step : String) : Checked α → Checked α
  | .valid a => .valid a
  | .invalid is => .invalid (is.map fun i => { i with path := step :: i.path })

/-- A function applied to a value; the issues of both are reported. -/
def ap {α β : Type} : Checked (α → β) → Checked α → Checked β
  | .valid f, .valid a => .valid (f a)
  | .valid _, .invalid is => .invalid is
  | .invalid is, .valid _ => .invalid is
  | .invalid is, .invalid js => .invalid (is ++ js)

instance : Applicative Checked where
  pure := valid
  seq f x := ap f (x ())

/-- A check on the value of another. -/
def andThen {α β : Type} (x : Checked α) (f : α → Checked β) : Checked β :=
  match x with
  | .valid a => f a
  | .invalid is => .invalid is

/-- The items of a list from index `i` on, each checked under its index. -/
def items {α : Type} (check : Document → Checked α) (i : Nat) : List Document → Checked (List α)
  | [] => .valid []
  | d :: rest => List.cons <$> under (toString i) (check d) <*> items check (i + 1) rest

end Checked

open Checked

/-! ## Scalars -/

/-- A text. -/
def checkText : Document → Checked String
  | .text s => .valid s
  | _ => issue .stringType

/-- A text that is not empty. -/
def checkNonEmptyText (d : Document) : Checked String :=
  (checkText d).andThen fun s => if s.isEmpty then issue .stringTooShort else .valid s

/-- Whether an integer is one of the signed 64-bit integers. -/
def fitsWord (n : Int) : Bool := -(Int.pow 2 63) ≤ n && n < Int.pow 2 63

/-- The integer a float is, if it is whole and strictly between the ends of the signed 64-bit range.
-/
def wordOfFloat? (x : Binary64) : Option Int :=
  x.whole?.filter fun n => fitsWord n && n != -(Int.pow 2 63)

/-- An integer: also a truth value, a whole float of less than 64 bits, and a text that spells one.
-/
def checkAnyInt : Document → Checked Int
  | .int n => .valid n
  | .bool b => .valid (if b then 1 else 0)
  | .float x =>
      if !x.isFinite then issue .finiteNumber
      else if x.whole?.isNone then issue .intFromFloat
      else
        match wordOfFloat? x with
        | some n => .valid n
        | none => issue .intParsingSize
  | .text s =>
      match Text.readWhole s.toList with
      | .ok n => .valid n
      | .error .malformed => issue .intParsing
      | .error .tooLong => issue .intParsingSize
  | _ => issue .intType

/-- An integer that is not below a minimum. -/
def checkIntFrom (minimum : Int) (d : Document) : Checked Int :=
  (checkAnyInt d).andThen fun n => if n < minimum then issue .belowMinimum else .valid n

/-- A natural number that is not below a minimum. -/
def checkNat (minimum : Nat) (d : Document) : Checked Nat :=
  Int.toNat <$> checkIntFrom minimum d

/-- The words for true and false. -/
def truthWord? (s : String) : Option Bool :=
  let word := String.ofList (s.toList.map Char.toLower)
  if ["1", "on", "t", "true", "y", "yes"].contains word then some true
  else if ["0", "off", "f", "false", "n", "no"].contains word then some false
  else none

/-- A truth value: also the numbers zero and one, and some words. A number of more than 64 bits is
of the wrong kind. -/
def checkBool : Document → Checked Bool
  | .bool b => .valid b
  | .int n =>
      if n = 0 then .valid false
      else if n = 1 then .valid true
      else if fitsWord n then issue .boolParsing
      else issue .boolType
  | .float x =>
      match wordOfFloat? x with
      | none => issue .boolType
      | some n => if n = 0 then .valid false else if n = 1 then .valid true else issue .boolParsing
  | .text s =>
      match truthWord? s with
      | some b => .valid b
      | none => issue .boolParsing
  | _ => issue .boolType

/-! ## Lists and objects -/

/-- A list whose items pass a check. -/
def checkList {α : Type} (check : Document → Checked α) : Document → Checked (List α)
  | .list ds => items check 0 ds
  | _ => issue .listType

/-- Null, or a value that passes a check. -/
def checkNullable {α : Type} (check : Document → Checked α) : Document → Checked (Option α)
  | .null => .valid none
  | d => some <$> check d

/-- The fields of an object, read further. -/
def checkObject {α : Type} (body : Document.Fields → Checked α) : Document → Checked α
  | .object fields => body fields
  | _ => issue .modelType

/-- A field that must be present. -/
def requiredField {α : Type} (fields : Document.Fields) (name : String)
    (check : Document → Checked α) : Checked α :=
  match fields.get? name with
  | none => under name (issue .missing)
  | some d => under name (check d)

/-- A field that has a value of its own when it is absent. -/
def optionalField {α : Type} (fields : Document.Fields) (name : String) (default : α)
    (check : Document → Checked α) : Checked α :=
  match fields.get? name with
  | none => .valid default
  | some d => under name (check d)

/-- Of two names for one field, the one that an object uses: the first if it is there, the second if
only that is there, else the first. -/
def fieldName (fields : Document.Fields) (first second : String) : String :=
  if (fields.get? first).isSome then first
  else if (fields.get? second).isSome then second
  else first

/-- What is wrong with a key where only some names are known. -/
def strayKey? (known : List String) : Key → Option Issue
  | .name s => if known.contains s then none else some ⟨[s], .extraForbidden⟩
  | .other w => some ⟨[w], .invalidKey⟩

/-- No field but those that are known. -/
def noExtras (fields : Document.Fields) (known : List String) : Checked Unit :=
  match fields.filterMap fun f => strayKey? known f.1 with
  | [] => .valid ()
  | is => .invalid is

/-- An object whose field `kind` tells how to read it. The tag becomes a part of the path. -/
def checkTagged {α : Type} (tags : List String) (body : String → Document.Fields → Checked α) :
    Document → Checked α
  | .object fields =>
      match Document.Fields.get? fields "kind" with
      | none => issue .tagNotFound
      | some (.text tag) =>
          if tags.contains tag then under tag (body tag fields) else issue .tagInvalid
      | some _ => issue .tagInvalid
  | _ => issue .modelAttributesType

/-- The first line of what is said about issues. -/
def issuesMessage (model : String) (issues : List Issue) : String :=
  toString issues.length ++
    (if issues.length = 1 then " validation error for " else " validation errors for ") ++ model

end TypeOrigins
