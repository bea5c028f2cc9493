import TypeOrigins.Report.Problem

/-! # Failures to trace a type

Why the types of a call cannot be found: the cause, the call site at which the tracing stopped, the
construct there, and the call whose types were sought. Not every failure is reported as such: a
position before the first, and a text with a number that is too long to be written, surface as
errors of their own kind. -/

namespace TypeOrigins
set_option autoImplicit false

/-- Why the tracing stopped. -/
inductive Cause where
  | noTypeArgument (position : Int)
  | noArgument (position : Int)
  | positionOutOfRange
  | noOperand
  | receiverTypeUnknown
  | untracedShape (kind : String)
  | openType (symbol : TypeSymbol)
  | assemblyUnknown (symbol : TypeSymbol)
  | enclosingTypeParameter
  | methodUnknown (id : String)
  | typeParameterUnbound (name : String)
  | localUndeclared (id : String)
  | localUninitialized
  | localReassigned (times : Nat)
  | genericCaller (parameter : String)
  | argumentMissing (parameter : String)
  | parameterUnnamed
  | depthExceeded (limit : Int)
deriving DecidableEq, Repr

namespace Cause

/-- The kind of failure a cause is. -/
def category : Cause → Problem.Category
  | receiverTypeUnknown => .missingInfo
  | assemblyUnknown _ => .missingInfo
  | methodUnknown _ => .missingInfo
  | localUndeclared _ => .missingInfo
  | depthExceeded _ => .depthLimit
  | positionOutOfRange => .general
  | parameterUnnamed => .general
  | _ => .unsupported

/-- The wording of a cause. -/
def reason : Cause → String
  | noTypeArgument i => "call has no type argument at position " ++ toString i
  | noArgument i => "call has no argument at position " ++ toString i
  | positionOutOfRange => "position before the first argument"
  | noOperand => "call has neither a type argument nor a type value argument"
  | receiverTypeUnknown => "static type of the receiver is unknown"
  | untracedShape kind => "cannot trace a type through a " ++ kind ++ " expression"
  | openType t => "type " ++ t.display ++ " is not closed"
  | assemblyUnknown t => "declaring assembly of " ++ t.display ++ " is unknown"
  | enclosingTypeParameter =>
      "type parameter of an enclosing type cannot be traced to a call site"
  | methodUnknown id => "declaring method " ++ id ++ " is unknown"
  | typeParameterUnbound name => "call does not bind type parameter " ++ name
  | localUndeclared id => "local " ++ id ++ " is not declared"
  | localUninitialized => "local variable has no initializer"
  | localReassigned times => "local variable is assigned " ++ toString times ++ " times"
  | genericCaller name =>
      "generic call passes parameter " ++ name ++ "; only non-generic callers can be traced"
  | argumentMissing name => "no argument supplied for parameter " ++ name
  | parameterUnnamed => "number of the parameter has too many digits"
  | depthExceeded limit => "propagation exceeded " ++ toString limit ++ " inter-procedural steps"

/-- Whether the wording of a cause can be written: the numbers in it can be. -/
def isWritable : Cause → Bool
  | noTypeArgument i => !Text.isLong i
  | noArgument i => !Text.isLong i
  | depthExceeded limit => !Text.isLong limit
  | parameterUnnamed => false
  | _ => true

end Cause

/-- Errors that are no failures to trace a type: a position before the first of a list, and a number
too long to be written. -/
inductive Stray where
  | positionOutOfRange
  | longInteger
deriving DecidableEq, Repr

/-- The wording of such an error. -/
def Stray.message : Stray → String
  | .positionOutOfRange => "tuple index out of range"
  | .longInteger => Text.longIntegerMessage

/-- A failure to trace a type. -/
structure Failure where
  site : CallSite
  construct : String
  cause : Cause
  origin : Option CallSite := none
deriving DecidableEq, Repr

namespace Failure

/-- The failure as it is reported. -/
def problem (f : Failure) : Problem :=
  Problem.atSite f.cause.category f.site f.construct f.cause.reason f.origin

/-- Whether a failure can be written: its cause and the positions it names can be. -/
def isWritable (f : Failure) : Bool :=
  f.cause.isWritable && f.site.location.isWritable &&
    f.origin.all fun o => o.id == f.site.id || o.location.isWritable

/-- What a failure surfaces as: a problem of a category, or an error of another kind. -/
def raised (f : Failure) : Except Stray Problem.Category :=
  if f.cause = .positionOutOfRange then .error .positionOutOfRange
  else if f.isWritable then .ok f.cause.category
  else .error .longInteger

/-- Whether a failure is reported as one. -/
def isReported (f : Failure) : Bool := f.raised.toBool

/-- The failure in one line. -/
def message (f : Failure) : String := f.problem.detail

end Failure

end TypeOrigins
