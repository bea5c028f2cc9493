import TypeOrigins.Program.TypeSymbol

/-! # Expressions

The expressions that calls pass as arguments and that locals start with. Four shapes carry a type
value that can be traced: a type literal, the run-time type of a receiver, a local and a parameter.
All other shapes are kept by name only. -/

namespace TypeOrigins
set_option autoImplicit false

/-- What the front end says of any expression: its source text and its static type, if known. -/
structure Annotation where
  text : String := ""
  staticType : Option TypeSymbol := none
deriving DecidableEq, Repr

/-- The shapes through which no type value is traced. -/
inductive UntracedKind where
  | objectCreation
  | invocation
  | elementAccess
  | memberAccess
  | literal
  | other
deriving DecidableEq, Repr

/-- The word for an untraced shape in documents. -/
def UntracedKind.word : UntracedKind → String
  | .objectCreation => "object_creation"
  | .invocation => "invocation"
  | .elementAccess => "element_access"
  | .memberAccess => "member_access"
  | .literal => "literal"
  | .other => "other"

/-- An expression. -/
inductive Expression where
  | typeOf (note : Annotation) (operand : TypeSymbol)
  | getType (note : Annotation) (receiver : Expression)
  | localRef (note : Annotation) (localId : String)
  | parameterRef (note : Annotation) (methodId : String) (ordinal : Int)
  | untraced (note : Annotation) (kind : UntracedKind)
deriving DecidableEq, Repr

namespace Expression

/-- What the front end says of the expression. -/
def note : Expression → Annotation
  | typeOf note _ => note
  | getType note _ => note
  | localRef note _ => note
  | parameterRef note _ _ => note
  | untraced note _ => note

/-- The word for the shape in documents and messages. -/
def kind : Expression → String
  | typeOf _ _ => "typeof"
  | getType _ _ => "get_type"
  | localRef _ _ => "local"
  | parameterRef _ _ _ => "parameter"
  | untraced _ k => k.word

/-- The static type, if known. -/
def staticType (e : Expression) : Option TypeSymbol := e.note.staticType

/-- The source text, or the shape between angle brackets if there is none. -/
def describe (e : Expression) : String :=
  if e.note.text.isEmpty then "<" ++ e.kind ++ ">" else e.note.text

end Expression

end TypeOrigins
