import TypeOrigins.Text.Blank
import TypeOrigins.Text.Quoted

/-! # Instantiation APIs

A method that builds an object of a type it is told: its declaring type and name, and where a call
passes the type, as a type argument or as a value. A negative position counts from the end. -/

namespace TypeOrigins
set_option autoImplicit false

/-- A method whose calls the analysis starts from. -/
structure Api where
  declaringType : String
  methodName : String
  typeArgumentIndex : Int := 0
  valueArgumentIndex : Int := 0
deriving DecidableEq, Repr

namespace Api

/-- The text of an API. -/
def display (a : Api) : String := a.declaringType ++ "." ++ a.methodName

/-- The API that is sought when none is named. -/
def activator : Api := { declaringType := "System.Activator", methodName := "CreateInstance" }

/-- The texts before and after the last dot. -/
def splitLastDot (cs : List Char) : Option (List Char × List Char) :=
  let name := (cs.reverse.takeWhile (· != '.')).reverse
  match cs.reverse.dropWhile (· != '.') with
  | [] => none
  | _ :: before => some (before.reverse, name)

/-- The API that a type and a method with a dot between them name. Blanks around it do not count. -/
def parse? (s : String) : Option Api :=
  match splitLastDot (Text.trim Text.isBlank s.toList) with
  | none => none
  | some (before, name) =>
      if before.isEmpty || name.isEmpty then none
      else some { declaringType := String.ofList before, methodName := String.ofList name }

/-- What is said of a text that names no API. -/
def parseMessage (s : String) : String :=
  "expected Namespace.Type.Method, got " ++ Text.quoted s

end Api

end TypeOrigins
