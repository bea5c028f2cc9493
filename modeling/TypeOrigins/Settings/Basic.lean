import TypeOrigins.Analysis
import TypeOrigins.Document.Check

/-! # Settings

The settings of the analysis as users give them: in a mapping, over defaults, and with overrides on
top. A setting is checked whenever it is given; the number of workers may be left to the
environment. -/

namespace TypeOrigins
set_option autoImplicit false

/-- Settings. Without a number of workers the environment decides. -/
structure Settings where
  apis : List Api := [Api.activator]
  maxDepth : Nat := 64
  workers : Option Nat := none
  collectFailures : Bool := false
deriving DecidableEq, Repr

/-- Why settings cannot be used. -/
inductive SettingsFault where
  | notTable
  | invalid (issues : List Issue)
  | badApi (text : String)
  | unreadable (message : String)
  | unsupportedFormat (suffix : String)
  | unparsable
  | notMapping
deriving DecidableEq, Repr

namespace SettingsFault

/-- The wording of a fault. -/
def message : SettingsFault → String
  | notTable => "[linkerkeep] must be a table"
  | invalid issues => issuesMessage "AnalysisSettings" issues
  | badApi text => Api.parseMessage text
  | unreadable m => "cannot read settings: " ++ m
  | unsupportedFormat suffix =>
      "unsupported settings format " ++ (if suffix.isEmpty then "<none>" else suffix)
  | unparsable => "cannot parse settings"
  | notMapping => "settings file must contain a mapping"

/-- The issues a fault lists. -/
def issues? : SettingsFault → Option (List Issue)
  | invalid issues => some issues
  | _ => none

end SettingsFault

namespace Settings

open Checked

/-! ## Reading settings -/

/-- The settings of one API. -/
def checkApi : Document → Checked Api :=
  checkObject fun fields =>
    Api.mk <$> requiredField fields "declaring_type" checkNonEmptyText
      <*> requiredField fields "method_name" checkNonEmptyText
      <*> optionalField fields "type_argument_index" 0 (checkIntFrom 0)
      <*> optionalField fields "value_argument_index" 0 (checkIntFrom 0)
      <* noExtras fields
        ["declaring_type", "method_name", "type_argument_index", "value_argument_index"]

/-- At least one API. -/
def checkApis (d : Document) : Checked (List Api) :=
  (checkList checkApi d).andThen fun apis =>
    if apis.isEmpty then issue .tooShort else .valid apis

/-- The names of the settings. -/
def names : List String := ["apis", "max_depth", "workers", "collect_failures"]

/-- Settings, from the fields of a mapping. -/
def check (fields : Document.Fields) : Checked Settings :=
  Settings.mk <$> optionalField fields "apis" [Api.activator] checkApis
    <*> optionalField fields "max_depth" 64 (checkNat 1)
    <*> optionalField fields "workers" none (checkNullable (checkNat 1))
    <*> optionalField fields "collect_failures" false checkBool
    <* noExtras fields names

/-- Settings that are valid, or the fault of listing issues. -/
def ofFields (fields : Document.Fields) : Except SettingsFault Settings :=
  match check fields with
  | .valid s => .ok s
  | .invalid is => .error (.invalid is)

/-- Settings from a mapping: from its table `linkerkeep` if it has one, or else from itself. -/
def ofMapping (fields : Document.Fields) : Except SettingsFault Settings :=
  match fields.get? "linkerkeep" with
  | none => ofFields fields
  | some (.object table) => ofFields table
  | some _ => .error .notTable

/-! ## Overrides -/

/-- One API as a document. -/
def apiDocument (a : Api) : Document :=
  .object [("declaring_type", .text a.declaringType), ("method_name", .text a.methodName),
    ("type_argument_index", .int a.typeArgumentIndex),
    ("value_argument_index", .int a.valueArgumentIndex)]

/-- Settings as the fields of a mapping. -/
def fields (s : Settings) : Document.Fields :=
  [("apis", .list (s.apis.map apiDocument)), ("max_depth", .int s.maxDepth),
    ("workers", (s.workers.map fun n => Document.int n).getD .null),
    ("collect_failures", .bool s.collectFailures)]

/-- Whether a document is null. -/
def isNull : Document → Bool
  | .null => true
  | _ => false

/-- The settings with overrides: a null one does not count, and all others replace the settings of
their names. -/
def override (s : Settings) (overrides : Document.Fields) : Except SettingsFault Settings :=
  match overrides.filter fun f => !isNull f.2 with
  | [] => .ok s
  | f :: more => ofFields (Document.Fields.update s.fields (f :: more))

/-! ## The configuration of an analysis -/

/-- The number of workers: the one that is set, or else a positive one that the environment gives,
or else one. -/
def workerCount {ε : Type} (workers : Option Int) (environment : Option String) : Logged ε Int :=
  let fromEnvironment : Logged ε Int :=
    match environment with
    | none => .ok 1
    | some value =>
        if value.isEmpty then .ok 1
        else
          match (Text.readInt? value.toList).filter (0 < ·) with
          | some n => .ok n
          | none => do
              Logged.say (.workersIgnored value)
              return 1
  match workers.filter (0 < ·) with
  | some n => .ok n
  | none => fromEnvironment

/-- The configuration that settings give. -/
def config {ε : Type} (s : Settings) (environment : Option String) : Logged ε Config := do
  let workers ← workerCount (s.workers.map fun n => (n : Int)) environment
  return { apis := s.apis, maxDepth := s.maxDepth, workers := workers,
           collectFailures := s.collectFailures }

end Settings

end TypeOrigins
