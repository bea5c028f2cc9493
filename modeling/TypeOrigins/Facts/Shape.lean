import TypeOrigins.Document.Check
import TypeOrigins.Program.Basic

/-! # The shape of facts documents

How a document describes a program: the fields of each part, their defaults, and the tags of type
symbols and expressions. Type symbols and expressions may be nested `nestingLimit` deep, counted
along one chain of both. -/

namespace TypeOrigins.Facts
set_option autoImplicit false

open Checked

/-- How many tagged objects may stand around another. -/
def nestingLimit : Nat := 255

/-- A position in a source file. -/
def checkLocation : Document → Checked Location :=
  checkObject fun fields =>
    Location.mk <$> requiredField fields "path" checkText
      <*> requiredField fields "line" (checkIntFrom 0)
      <*> optionalField fields "column" 0 (checkIntFrom 0)
      <* noExtras fields ["path", "line", "column"]

/-- What declares a type parameter. -/
def checkOwnerKind : Document → Checked OwnerKind
  | .text s =>
      if s = "method" then .valid .method
      else if s = "type" then .valid .type
      else issue .literalMismatch
  | _ => issue .literalMismatch

/-- The fields of a type parameter. -/
def checkTypeParameter (fields : Document.Fields) : Checked TypeParameter :=
  TypeParameter.mk <$> requiredField fields "name" checkText
    <*> requiredField fields "owner_id" checkText
    <*> optionalField fields "owner_kind" OwnerKind.method checkOwnerKind
    <*> requiredField fields "ordinal" (checkIntFrom 0)
    <* noExtras fields ["kind", "name", "owner_id", "owner_kind", "ordinal"]

/-- The fields of a named type, where `inner` checks its type arguments. -/
def checkNamedType (inner : Document → Checked TypeSymbol) (fields : Document.Fields) :
    Checked TypeSymbol :=
  TypeSymbol.named <$> requiredField fields "full_name" checkText
    <*> requiredField fields "assembly" checkText
    <*> optionalField fields "type_arguments" [] (checkList inner)
    <* noExtras fields ["kind", "full_name", "assembly", "type_arguments"]

/-- A type symbol that `room` more tagged objects may be nested in. -/
def checkType : (room : Nat) → Document → Checked TypeSymbol
  | 0 => checkTagged ["named", "type_parameter"] fun _ _ => issue .nestingTooDeep
  | room + 1 => checkTagged ["named", "type_parameter"] fun tag fields =>
      if tag = "named" then checkNamedType (checkType room) fields
      else TypeSymbol.parameter <$> checkTypeParameter fields

/-- The fields that all expressions have. -/
def checkAnnotation (room : Nat) (fields : Document.Fields) : Checked Annotation :=
  Annotation.mk <$> optionalField fields "text" "" checkText
    <*> optionalField fields "static_type" none (checkNullable (checkType room))

/-- The untraced shapes. -/
def untracedKinds : List UntracedKind :=
  [.objectCreation, .invocation, .elementAccess, .memberAccess, .literal, .other]

/-- The untraced shape with a tag. -/
def untracedKind (tag : String) : UntracedKind :=
  (untracedKinds.find? fun k => k.word == tag).getD .other

/-- The tags of expressions. -/
def expressionTags : List String :=
  ["typeof", "get_type", "local", "parameter"] ++ untracedKinds.map UntracedKind.word

/-- The fields of an expression with a tag; `inner` checks a receiver. -/
def checkExpressionFields (room : Nat) (inner : Document → Checked Expression) (tag : String)
    (fields : Document.Fields) : Checked Expression :=
  let annotation := checkAnnotation room fields
  if tag = "typeof" then
    let name := fieldName fields "type" "operand"
    Expression.typeOf <$> annotation <*> requiredField fields name (checkType room)
      <* noExtras fields ["kind", "text", "static_type", name]
  else if tag = "get_type" then
    Expression.getType <$> annotation <*> requiredField fields "receiver" inner
      <* noExtras fields ["kind", "text", "static_type", "receiver"]
  else if tag = "local" then
    Expression.localRef <$> annotation <*> requiredField fields "local_id" checkText
      <* noExtras fields ["kind", "text", "static_type", "local_id"]
  else if tag = "parameter" then
    Expression.parameterRef <$> annotation <*> requiredField fields "method_id" checkText
      <*> requiredField fields "ordinal" (checkIntFrom 0)
      <* noExtras fields ["kind", "text", "static_type", "method_id", "ordinal"]
  else
    (fun note => Expression.untraced note (untracedKind tag)) <$> annotation
      <* noExtras fields ["kind", "text", "static_type"]

/-- An expression that `room` more tagged objects may be nested in. -/
def checkExpression : (room : Nat) → Document → Checked Expression
  | 0 => checkTagged expressionTags fun _ _ => issue .nestingTooDeep
  | room + 1 => checkTagged expressionTags (checkExpressionFields room (checkExpression room))

/-- The name of a declared parameter. -/
def checkParameter : Document → Checked String :=
  checkObject fun fields => requiredField fields "name" checkText <* noExtras fields ["name"]

/-- A method. -/
def checkMethod : Document → Checked Method :=
  checkObject fun fields =>
    Method.mk <$> requiredField fields "id" checkText
      <*> requiredField fields "declaring_type" checkText
      <*> requiredField fields "name" checkText
      <*> optionalField fields "parameters" [] (checkList checkParameter)
      <*> optionalField fields "type_parameters" [] (checkList checkParameter)
      <*> optionalField fields "location" none (checkNullable checkLocation)
      <* noExtras fields
        ["id", "declaring_type", "name", "parameters", "type_parameters", "location"]

/-- A local variable. -/
def checkLocal : Document → Checked LocalVariable :=
  checkObject fun fields =>
    LocalVariable.mk <$> requiredField fields "id" checkText
      <*> requiredField fields "name" checkText
      <*> requiredField fields "method_id" checkText
      <*> optionalField fields "initializer" none (checkNullable (checkExpression nestingLimit))
      <*> optionalField fields "assignments" [] (checkList (checkExpression nestingLimit))
      <* noExtras fields ["id", "name", "method_id", "initializer", "assignments"]

/-- The target of a call. -/
def checkTarget : Document → Checked Target :=
  checkObject fun fields =>
    Target.mk <$> requiredField fields "method_id" checkText
      <*> requiredField fields "declaring_type" checkText
      <*> requiredField fields "name" checkText
      <* noExtras fields ["method_id", "declaring_type", "name"]

/-- A call. -/
def checkCallSite : Document → Checked CallSite :=
  checkObject fun fields =>
    CallSite.mk <$> requiredField fields "id" checkText
      <*> requiredField fields "location" checkLocation
      <*> requiredField fields "target" checkTarget
      <*> optionalField fields "enclosing_method" none (checkNullable checkText)
      <*> optionalField fields "type_arguments" [] (checkList (checkType nestingLimit))
      <*> optionalField fields "arguments" [] (checkList (checkExpression nestingLimit))
      <* noExtras fields
        ["id", "location", "enclosing_method", "target", "type_arguments", "arguments"]

/-- The version of the format: the number one, as an integer, a float or a truth value. -/
def checkVersion : Document → Checked Unit
  | .int n =>
      if n = 1 then .valid ()
      else if fitsWord n then issue .literalMismatch
      else issue .intParsingSize
  | .bool b => if b then .valid () else issue .literalMismatch
  | .float x => if x.whole? = some 1 then .valid () else issue .literalMismatch
  | _ => issue .literalMismatch

/-- A program, from the fields of a facts document. -/
def checkProgram (fields : Document.Fields) : Checked Program :=
  let locals := fieldName fields "locals" "local_variables"
  Program.mk <$> optionalField fields "assembly" "" checkText
    <*> optionalField fields "methods" [] (checkList checkMethod)
    <*> optionalField fields locals [] (checkList checkLocal)
    <*> optionalField fields "call_sites" [] (checkList checkCallSite)
    <* requiredField fields "schema_version" checkVersion
    <* noExtras fields ["schema_version", "assembly", "methods", locals, "call_sites"]

end TypeOrigins.Facts
