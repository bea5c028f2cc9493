import TypeOrigins.Program.Expression
import TypeOrigins.Text.Numeral

/-! # Programs

A program as its front end saw it: the methods it declares, their local variables, and every call
with its bound target. Identifiers are looked up by the last declaration that has them, and the
declarations are listed in the order in which their identifiers first appear. -/

namespace TypeOrigins
set_option autoImplicit false

/-- A position in a source file. -/
structure Location where
  path : String
  line : Int
  column : Int := 0
deriving DecidableEq, Repr

/-- The text of a position. -/
def Location.display (l : Location) : String :=
  l.path ++ ":" ++ toString l.line ++ ":" ++ toString l.column

/-- Whether a position can be written: its numbers have no more digits than a numeral may have. -/
def Location.isWritable (l : Location) : Bool := !Text.isLong l.line && !Text.isLong l.column

/-- A declared method with the names of its parameters and type parameters. -/
structure Method where
  id : String
  declaringType : String
  name : String
  parameters : List String := []
  typeParameters : List String := []
  location : Option Location := none
deriving DecidableEq, Repr

/-- The text of a method. -/
def Method.display (m : Method) : String := m.declaringType ++ "." ++ m.name

/-- A local variable with the expression it starts with and those assigned to it later. -/
structure LocalVariable where
  id : String
  name : String
  methodId : String
  initializer : Option Expression := none
  assignments : List Expression := []
deriving DecidableEq, Repr

/-- The method a call is bound to. -/
structure Target where
  methodId : String
  declaringType : String
  name : String
deriving DecidableEq, Repr

/-- The text of a target. -/
def Target.display (t : Target) : String := t.declaringType ++ "." ++ t.name

/-- A call: where it stands, what it is bound to, and what it passes. A call outside all methods has
no enclosing method. -/
structure CallSite where
  id : String
  location : Location
  target : Target
  enclosingMethod : Option String := none
  typeArguments : List TypeSymbol := []
  arguments : List Expression := []
deriving DecidableEq, Repr

/-- Whether a call passes type arguments. -/
def CallSite.isGeneric (c : CallSite) : Bool := !c.typeArguments.isEmpty

/-- A program. -/
structure Program where
  assembly : String := ""
  methods : List Method := []
  locals : List LocalVariable := []
  callSites : List CallSite := []
deriving DecidableEq, Repr

/-- The entries of a table that reads `entries` in order: one entry for each key, at the place of
the first entry with the key, and equal to the last one. -/
def tableOf {α : Type} (key : α → String) (entries : List α) : List α :=
  entries.foldl (fun table a =>
    if table.any fun b => key b == key a then table.map fun b => if key b == key a then a else b
    else table ++ [a]) []

namespace Program

/-- The method with an identifier: the last that is declared with it. -/
def method? (p : Program) (id : String) : Option Method :=
  p.methods.reverse.find? fun m => m.id == id

/-- The local variable with an identifier: the last that is declared with it. -/
def local? (p : Program) (id : String) : Option LocalVariable :=
  p.locals.reverse.find? fun l => l.id == id

/-- The methods, each identifier once. -/
def methodTable (p : Program) : List Method := tableOf Method.id p.methods

/-- The local variables, each identifier once. -/
def localTable (p : Program) : List LocalVariable := tableOf LocalVariable.id p.locals

/-- The call site with an identifier: the first that has it. -/
def callSite? (p : Program) (id : String) : Option CallSite :=
  p.callSites.find? fun c => c.id == id

end Program

end TypeOrigins
