import TypeOrigins.Document.Basic
import TypeOrigins.Program.Basic

/-! # Problems

A problem tells a failure to tools: what kind of failure it is, a title, the detail, an identifier
of this occurrence, and further facts. Whoever writes a problem down chooses the identifier of an
occurrence that has none yet, through a naming of problems. -/

namespace TypeOrigins
set_option autoImplicit false

/-- A failure as it is reported. -/
structure Problem where
  type : String
  title : String
  detail : String
  occurrence : Option String := none
  code : Option String := none
  extras : Document.Fields := []

namespace Problem

/-- The identifiers given to problems that have none. -/
abbrev Naming := Problem → String

/-- The type of the problems with a code. -/
def typeOfCode (code : String) : String := "https://problems.linkerkeep.dev/" ++ code

/-- A text that counts only if it is not empty. -/
def nonEmpty? (s : Option String) : Option String :=
  s.filter fun t => !t.isEmpty

/-- A problem with a code. Its type is that of the code unless another is given. -/
def ofCode (code title detail : String) (extras : Document.Fields)
    (occurrence type : Option String) : Problem where
  type := (nonEmpty? type).getD (typeOfCode code)
  title := title
  detail := detail
  occurrence := nonEmpty? occurrence
  code := some code
  extras := extras

/-- A problem as a document. -/
def document (naming : Naming) (p : Problem) : Document :=
  let head : Document.Fields :=
    [("type", .text p.type), ("title", .text p.title), ("detail", .text p.detail),
      ("instance", .text (p.occurrence.getD (naming p)))]
  let code : Document.Fields :=
    match p.code with
    | some c => [("code", .text c)]
    | none => []
  let extras : Document.Fields :=
    if p.extras.isEmpty then [] else [("extras", .object p.extras)]
  .object (head ++ code ++ extras)

/-! ## The kinds of problems -/

/-- The source of a document, if it is known. -/
def sourceExtras (source : Option String) : Document.Fields :=
  match nonEmpty? source with
  | some s => [("source", .text s)]
  | none => []

/-- A facts document that is no program. -/
def invalidFacts (message : String) (source : Option String) : Problem :=
  ofCode "facts.invalid" "Invalid program facts document" message (sourceExtras source) none none

/-- Settings that cannot be used. -/
def invalidSettings (message : String) (source : Option String) : Problem :=
  ofCode "config.invalid" "Invalid analysis settings" message (sourceExtras source) none none

/-- A command that stopped for a reason outside the analysis. -/
def commandFailure (command message : String) : Problem :=
  ofCode "cli.failure" "CLI command failed" message [("command", .text command)] none none

/-- The kinds of failures to trace a type. -/
inductive Category where
  | general
  | unsupported
  | missingInfo
  | depthLimit
deriving DecidableEq, Repr

/-- The code of a kind. -/
def Category.code : Category → String
  | .general => "resolution.failed"
  | .unsupported => "resolution.unsupported_pattern"
  | .missingInfo => "resolution.missing_type_info"
  | .depthLimit => "resolution.recursion_limit"

/-- The title of a kind. -/
def Category.title : Category → String
  | .general => "Type origin resolution failed"
  | .unsupported => "Unsupported dynamic-instantiation pattern"
  | .missingInfo => "Missing static type information"
  | .depthLimit => "Resolution depth limit exceeded"

/-- A failure at a call site. The call site whose types were sought is named if it is another one.
-/
def atSite (category : Category) (site : CallSite) (construct reason : String)
    (origin : Option CallSite) : Problem :=
  let place := site.location.display
  let siteExtras : Document.Fields :=
    [("call_site", .text site.id), ("location", .text place), ("construct", .text construct)]
  let originExtras : Document.Fields :=
    match origin with
    | some o =>
        if o.id = site.id then []
        else [("origin_call_site", .text o.id), ("origin_location", .text o.location.display)]
    | none => []
  ofCode category.code category.title (place ++ ": " ++ reason ++ ": " ++ construct)
    (siteExtras ++ originExtras) none none

/-- All the failures of an analysis together. -/
def ofFailures (naming : Naming) (failures : List Problem) : Problem :=
  ofCode "analysis.failed" "Keep-list analysis failed"
    (toString failures.length ++ " call site(s) could not be resolved")
    [("failures", .list (failures.map (document naming)))] none none

end Problem

end TypeOrigins
