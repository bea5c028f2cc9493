import TypeOrigins.KeepList.Descriptor
import TypeOrigins.Origin.Search

/-! # The analysis of a program

Every call of the configured APIs is an entry. The analysis finds the types of all entries, one
after another or in a pool, and gathers them in a keep list. If an entry fails there is no result:
the first failure is the error, or all of them together if failures are collected. -/

namespace TypeOrigins
set_option autoImplicit false

/-- The settings of one analysis. -/
structure Config where
  apis : List Api := [Api.activator]
  maxDepth : Int := 64
  workers : Int := 1
  collectFailures : Bool := false
deriving DecidableEq, Repr

/-- A call whose types are sought, and the API it calls. -/
structure Entry where
  site : CallSite
  api : Api
deriving DecidableEq, Repr

/-- What an analysis finds: the types to keep, the entries, and the types of each by its
identifier. -/
structure Analysis where
  keepList : KeepList
  entries : List Entry
  resolved : List (String × List TypeReference)
deriving DecidableEq

/-- The descriptor of what was found. -/
def Analysis.render (a : Analysis) : String := Descriptor.render a.keepList

/-- Why an analysis has no result. -/
inductive AnalysisError where
  | failed (failure : Failure)
  | collected (failures : List Failure)
deriving DecidableEq, Repr

/-- The error as it is reported. -/
def AnalysisError.trouble : AnalysisError → Trouble
  | .failed f => .resolution f
  | .collected fs => .analysis fs

/-! ## Entries -/

/-- The entries with the calls of an API that are not among them yet. -/
def addEntries (api : Api) (entries : List Entry) : List CallSite → List Entry
  | [] => entries
  | c :: rest =>
      if entries.any fun e => e.site.id == c.id then addEntries api entries rest
      else addEntries api (entries ++ [⟨c, api⟩]) rest

/-- The entries of several APIs, after some that are found already. -/
def scanEntries {ε : Type} (p : Program) (entries : List Entry) : List Api → Logged ε (List Entry)
  | [] => .ok entries
  | api :: rest => do
      let sites := p.findCallSites api.declaringType api.methodName none
      Logged.say (.callSitesScanned api.declaringType api.methodName none sites.length)
      scanEntries p (addEntries api entries sites) rest

/-- The entries of a program, in the order of the APIs and then of the program. A call of several
APIs is an entry of the first. -/
def discover {ε : Type} (p : Program) (apis : List Api) : Logged ε (List Entry) := do
  let entries ← scanEntries p [] apis
  Logged.say (.entriesFound (apis.map Api.display) entries.length)
  return entries

/-! ## Resolution of all entries -/

/-- What became of one entry. -/
abbrev Outcome := Except Failure (List TypeReference)

/-- The types of an entry. A failure is an outcome if failures are collected, and an error if not. One
that surfaces as an error of another kind is never collected. -/
def resolveEntry (p : Program) (config : Config) (e : Entry) : Logged Failure Outcome :=
  let r := resolve p config.maxDepth e.site (some e.api)
  match r.result with
  | .ok refs => ⟨r.events, .ok (.ok refs)⟩
  | .error f =>
      if config.collectFailures && f.isReported then
        ⟨r.events ++ [.entryFailed e.site.id f.message], .ok (.error f)⟩
      else ⟨r.events, .error f⟩

/-- Tasks one after another, up to the first error. -/
def inTurn {ε α : Type} : List (Logged ε α) → Logged ε (List α)
  | [] => .ok []
  | t :: rest => do
      let a ← t
      let more ← inTurn rest
      .ok (a :: more)

/-- The values of results, or the first error among them. -/
def valuesOf {ε α : Type} : List (Except ε α) → Except ε (List α)
  | [] => .ok []
  | .ok a :: rest => (valuesOf rest).map (a :: ·)
  | .error e :: _ => .error e

/-- Tasks in a pool: all of them run, and their results are taken in the order of the tasks. -/
def inPool {ε α : Type} (tasks : List (Logged ε α)) : Logged ε (List α) :=
  ⟨tasks.flatMap (·.events), valuesOf (tasks.map (·.result))⟩

/-- The outcomes of all entries, in their order. -/
def resolveEntries (p : Program) (config : Config) (entries : List Entry) :
    Logged Failure (List Outcome) :=
  let tasks := entries.map (resolveEntry p config)
  if 1 < config.workers ∧ 1 < entries.length then do
    Logged.say (.poolStarted config.workers entries.length)
    inPool tasks
  else inTurn tasks

/-- The failures among outcomes. -/
def failuresOf (outcomes : List Outcome) : List Failure :=
  outcomes.filterMap fun o =>
    match o with
    | .ok _ => none
    | .error f => some f

/-- The types of the outcomes, entry by entry. -/
def resolvedOf (entries : List Entry) (outcomes : List Outcome) :
    List (String × List TypeReference) :=
  (entries.zip outcomes).filterMap fun eo =>
    match eo.2 with
    | .ok refs => some (eo.1.site.id, refs)
    | .error _ => none

/-- The keep list of all that was found. -/
def keepListOf (resolved : List (String × List TypeReference)) : KeepList :=
  resolved.foldl (fun k r => k.merge (KeepList.ofList r.2)) KeepList.empty

/-- What the outcomes of the entries come to. -/
def conclude (entries : List Entry) (outcomes : List Outcome) : Logged AnalysisError Analysis :=
  match failuresOf outcomes with
  | f :: fs => .fail (.collected (f :: fs))
  | [] => do
      let resolved := resolvedOf entries outcomes
      let keepList := keepListOf resolved
      Logged.say (.analysisDone entries.length keepList.assemblies.length keepList.size)
      return { keepList := keepList, entries := entries, resolved := resolved }

/-- Analyses a program. -/
def analyze (p : Program) (config : Config) : Logged AnalysisError Analysis := do
  let entries ← discover p config.apis
  let outcomes ← (resolveEntries p config entries).mapError .failed
  conclude entries outcomes

end TypeOrigins
