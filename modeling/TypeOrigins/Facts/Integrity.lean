import TypeOrigins.Program.Basic
import TypeOrigins.Sorting

/-! # The integrity of programs

A program is sound if its identifiers are distinct and everything it refers to is declared: methods,
locals, parameters and the type parameters of methods, wherever they are mentioned.
`integrityFault?` gives the first fault, in a fixed order. -/

namespace TypeOrigins.Facts
set_option autoImplicit false

/-- The kinds of declarations with identifiers. -/
inductive EntryKind where
  | method
  | localVariable
  | callSite
deriving DecidableEq, Repr

/-- The words for a kind of declaration. -/
def EntryKind.words : EntryKind → String
  | .method => "method"
  | .localVariable => "local"
  | .callSite => "call site"

/-- The local or the call that an expression or a type stands in. -/
inductive Owner where
  | localVariable (id : String)
  | callSite (id : String)
deriving DecidableEq, Repr

/-- The text of an owner. -/
def Owner.display : Owner → String
  | .localVariable id => "local " ++ id
  | .callSite id => "call site " ++ id

/-- What is wrong with a program. -/
inductive IntegrityFault where
  | duplicateIds (kind : EntryKind) (ids : List String)
  | localMethodUnknown (localId methodId : String)
  | enclosingMethodUnknown (siteId methodId : String)
  | localUnknown (owner : Owner) (localId : String)
  | parameterMethodUnknown (owner : Owner) (methodId : String)
  | parameterUndeclared (owner : Owner) (ordinal : Int) (methodId : String) (declared : Nat)
  | typeParameterMethodUnknown (owner : Owner) (name methodId : String)
  | typeParameterUndeclared (owner : Owner) (ordinal : Int) (methodId : String)
deriving DecidableEq, Repr

/-- Whether a fault can be written: the number it names has no more digits than a numeral may have.
-/
def IntegrityFault.isWritable : IntegrityFault → Bool
  | .parameterUndeclared _ k _ _ | .typeParameterUndeclared _ k _ => !Text.isLong k
  | _ => true

/-- The wording of a fault. -/
def IntegrityFault.message : IntegrityFault → String
  | .duplicateIds kind ids => "duplicate " ++ kind.words ++ " id(s): " ++ ", ".intercalate ids
  | .localMethodUnknown l m => "local " ++ l ++ " references unknown method " ++ m
  | .enclosingMethodUnknown c m => "call site " ++ c ++ " has unknown enclosing method " ++ m
  | .localUnknown owner l => owner.display ++ " references unknown local " ++ l
  | .parameterMethodUnknown owner m =>
      owner.display ++ " references parameter of unknown method " ++ m
  | .parameterUndeclared owner k m n =>
      owner.display ++ " references parameter " ++ toString k ++ " of " ++ m ++
        ", which declares " ++ toString n
  | .typeParameterMethodUnknown owner name m =>
      owner.display ++ " uses type parameter " ++ name ++ " of unknown method " ++ m
  | .typeParameterUndeclared owner k m =>
      owner.display ++ " uses type parameter ordinal " ++ toString k ++ " beyond " ++ m

/-! ## What a program mentions -/

/-- An expression, then its receiver, then the receiver of that, and so on. -/
def receivers : Expression → List Expression
  | .getType note e => .getType note e :: receivers e
  | e => [e]

/-- The expressions of a local. -/
def localExpressions (l : LocalVariable) : List Expression :=
  (l.initializer.toList ++ l.assignments).flatMap receivers

/-- All expressions of a program, each with its owner. -/
def ownedExpressions (p : Program) : List (Owner × Expression) :=
  (p.locals.flatMap fun l => (localExpressions l).map (Owner.localVariable l.id, ·)) ++
    p.callSites.flatMap fun c => (c.arguments.flatMap receivers).map (Owner.callSite c.id, ·)

mutual

/-- A type and all that occurs in it, the last type argument first. -/
def typeParts : TypeSymbol → List TypeSymbol
  | .named n a arguments => .named n a arguments :: typePartsAll arguments
  | .parameter t => [.parameter t]

/-- All that occurs in types, the last type first. -/
def typePartsAll : List TypeSymbol → List TypeSymbol
  | [] => []
  | t :: rest => typePartsAll rest ++ typeParts t

end

/-- The types an expression mentions itself. -/
def expressionTypes (e : Expression) : List TypeSymbol :=
  (match e with
    | .typeOf _ operand => [operand]
    | _ => []) ++ e.staticType.toList

/-- All types of a program, each with its owner. -/
def ownedTypes (p : Program) : List (Owner × TypeSymbol) :=
  let roots := (p.callSites.flatMap fun c => c.typeArguments.map (Owner.callSite c.id, ·)) ++
    (ownedExpressions p).flatMap fun oe => (expressionTypes oe.2).map (oe.1, ·)
  roots.flatMap fun ot => (typeParts ot.2).map (ot.1, ·)

/-! ## The checks -/

/-- The identifiers that occur more than once, in order. -/
def repeatedIds (ids : List String) : List String :=
  sortTexts (ids.eraseDups.filter fun id => 1 < ids.count id)

/-- The fault of identifiers that are not distinct. -/
def duplicateFault? (kind : EntryKind) (ids : List String) : Option IntegrityFault :=
  match repeatedIds ids with
  | [] => none
  | first :: more => some (.duplicateIds kind (first :: more))

/-- The fault of a local in a method that is not declared. -/
def localFault? (p : Program) (l : LocalVariable) : Option IntegrityFault :=
  if (p.method? l.methodId).isSome then none else some (.localMethodUnknown l.id l.methodId)

/-- The fault of a call in a method that is not declared. -/
def enclosingFault? (p : Program) (c : CallSite) : Option IntegrityFault :=
  match c.enclosingMethod with
  | none => none
  | some m => if (p.method? m).isSome then none else some (.enclosingMethodUnknown c.id m)

/-- The fault of an expression that refers to what is not declared. -/
def expressionFault? (p : Program) (oe : Owner × Expression) : Option IntegrityFault :=
  match oe.2 with
  | .localRef _ id => if (p.local? id).isSome then none else some (.localUnknown oe.1 id)
  | .parameterRef _ methodId ordinal =>
      match p.method? methodId with
      | none => some (.parameterMethodUnknown oe.1 methodId)
      | some m =>
          if ordinal < m.parameters.length then none
          else some (.parameterUndeclared oe.1 ordinal methodId m.parameters.length)
  | _ => none

/-- The fault of a type parameter that is not declared. -/
def typeFault? (p : Program) (ot : Owner × TypeSymbol) : Option IntegrityFault :=
  match ot.2 with
  | .parameter t =>
      match t.ownerKind with
      | .type => none
      | .method =>
          match p.method? t.ownerId with
          | none => some (.typeParameterMethodUnknown ot.1 t.name t.ownerId)
          | some m =>
              if t.ordinal < m.typeParameters.length then none
              else some (.typeParameterUndeclared ot.1 t.ordinal t.ownerId)
  | .named _ _ _ => none

/-- The first fault of a program. -/
def integrityFault? (p : Program) : Option IntegrityFault :=
  (duplicateFault? .method (p.methods.map Method.id)) <|>
  (duplicateFault? .localVariable (p.locals.map LocalVariable.id)) <|>
  (duplicateFault? .callSite (p.callSites.map CallSite.id)) <|>
  (p.locals.findSome? (localFault? p)) <|>
  (p.callSites.findSome? (enclosingFault? p)) <|>
  ((ownedExpressions p).findSome? (expressionFault? p)) <|>
  ((ownedTypes p).findSome? (typeFault? p))

end TypeOrigins.Facts
