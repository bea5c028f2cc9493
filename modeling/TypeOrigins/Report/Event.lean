import TypeOrigins.Document.Json
import TypeOrigins.Origin.Failure

/-! # Events

What the analysis says while it works. Each event has a level, the part of the analysis it comes
from, and a line of text. `Logged` is a computation that says such events and ends with a value or
an error; the events said before an error are kept. -/

namespace TypeOrigins
set_option autoImplicit false

/-- How grave an event is. -/
inductive Level where
  | debug
  | info
  | warning
  | error
deriving DecidableEq, Repr

namespace Level

/-- The word for a level. -/
def word : Level → String
  | debug => "DEBUG"
  | info => "INFO"
  | warning => "WARNING"
  | error => "ERROR"

/-- Levels in increasing order. -/
def rank : Level → Nat
  | debug => 0
  | info => 1
  | warning => 2
  | error => 3

end Level

/-- What stops a command, as it is reported. -/
inductive Trouble where
  | facts (message : String) (source : Option String)
  | settings (message : String) (source : Option String)
  | resolution (failure : Failure)
  | analysis (failures : List Failure)
  | command (name message : String)
deriving DecidableEq, Repr

/-- The trouble as a problem. -/
def Trouble.problem (naming : Problem.Naming) : Trouble → Problem
  | facts message source => Problem.invalidFacts message source
  | settings message source => Problem.invalidSettings message source
  | resolution f => f.problem
  | analysis fs => Problem.ofFailures naming (fs.map Failure.problem)
  | command name message => Problem.commandFailure name message

/-- Something the analysis says. -/
inductive Event where
  | workersIgnored (value : String)
  | factsLoaded (path : String) (methods callSites : Nat)
  | callSitesScanned (declaringType methodName : String) (methodId : Option String) (count : Nat)
  | entriesFound (apis : List String) (count : Nat)
  | poolStarted (workers : Int) (callSites : Nat)
  | entryFailed (callSite detail : String)
  | analysisDone (callSites assemblies types : Nat)
  | descriptorWritten (path : String) (bytes : Nat)
  | noTypeParameterCallers (method typeParameter origin : String)
  | noParameterCallers (method parameter origin : String)
  | typeParameterCycle (callSite typeParameter : String)
  | parameterCycle (callSite parameter : String)
  | localCycle (id : String)
  | resolved (id location : String) (types depth expanded : Nat)
  | analysisStarted (facts : String) (apis : List String) (maxDepth workers : Int)
      (collectFailures : Bool)
  | troubleReported (trouble : Trouble)
deriving DecidableEq, Repr

namespace Event

/-- The level of an event. -/
def level : Event → Level
  | workersIgnored _ => .warning
  | factsLoaded _ _ _ => .info
  | callSitesScanned _ _ _ _ => .debug
  | entriesFound _ _ => .info
  | poolStarted _ _ => .debug
  | entryFailed _ _ => .warning
  | analysisDone _ _ _ => .info
  | descriptorWritten _ _ => .info
  | noTypeParameterCallers _ _ _ => .warning
  | noParameterCallers _ _ _ => .warning
  | typeParameterCycle _ _ => .debug
  | parameterCycle _ _ => .debug
  | localCycle _ => .debug
  | resolved _ _ _ _ _ => .debug
  | analysisStarted _ _ _ _ _ => .info
  | troubleReported _ => .error

/-- The part of the analysis an event comes from. -/
def source : Event → String
  | workersIgnored _ => "linkerkeep.config.models"
  | factsLoaded _ _ _ => "linkerkeep.program.facts"
  | callSitesScanned _ _ _ _ => "linkerkeep.graphs.call_sites"
  | entriesFound _ _ => "linkerkeep.analysis"
  | poolStarted _ _ => "linkerkeep.analysis"
  | entryFailed _ _ => "linkerkeep.analysis"
  | analysisDone _ _ _ => "linkerkeep.analysis"
  | descriptorWritten _ _ => "linkerkeep.analysis"
  | noTypeParameterCallers _ _ _ => "linkerkeep.graphs.type_origin"
  | noParameterCallers _ _ _ => "linkerkeep.graphs.type_origin"
  | typeParameterCycle _ _ => "linkerkeep.graphs.type_origin"
  | parameterCycle _ _ => "linkerkeep.graphs.type_origin"
  | localCycle _ => "linkerkeep.graphs.type_origin"
  | resolved _ _ _ _ _ => "linkerkeep.graphs.type_origin"
  | analysisStarted _ _ _ _ _ => "linkerkeep.cli"
  | troubleReported _ => "linkerkeep.cli"

/-- The line of an event. -/
def message (naming : Problem.Naming) : Event → String
  | workersIgnored value => "Ignoring invalid LINKERKEEP_WORKERS=" ++ value
  | factsLoaded path methods sites =>
      "facts.loaded path=" ++ path ++ " methods=" ++ toString methods ++ " call_sites=" ++
        toString sites
  | callSitesScanned declaringType methodName methodId count =>
      "scan.call_sites target=" ++ declaringType ++ "." ++ methodName ++ " method_id=" ++
        methodId.getD "None" ++ " matches=" ++ toString count
  | entriesFound apis count =>
      "analysis.entries apis=" ++ ",".intercalate apis ++ " call_sites=" ++ toString count
  | poolStarted workers sites =>
      "analysis.parallel workers=" ++ toString workers ++ " call_sites=" ++ toString sites
  | entryFailed site detail =>
      "analysis.failure call_site=" ++ site ++ " detail=" ++ detail
  | analysisDone sites assemblies types =>
      "analysis.complete call_sites=" ++ toString sites ++ " assemblies=" ++ toString assemblies ++
        " types=" ++ toString types
  | descriptorWritten path bytes =>
      "analysis.written path=" ++ path ++ " bytes=" ++ toString bytes
  | noTypeParameterCallers method name origin =>
      "resolve.no_callers method=" ++ method ++ " type_parameter=" ++ name ++ " origin=" ++ origin
  | noParameterCallers method name origin =>
      "resolve.no_callers method=" ++ method ++ " parameter=" ++ name ++ " origin=" ++ origin
  | typeParameterCycle site name =>
      "resolve.cycle call_site=" ++ site ++ " type_parameter=" ++ name
  | parameterCycle site name => "resolve.cycle call_site=" ++ site ++ " parameter=" ++ name
  | localCycle id => "resolve.cycle local=" ++ id
  | resolved id location types depth expanded =>
      "resolve.call_site id=" ++ id ++ " location=" ++ location ++ " types=" ++ toString types ++
        " depth=" ++ toString depth ++ " expanded=" ++ toString expanded
  | analysisStarted facts apis maxDepth workers collect =>
      "cli.analyze facts=" ++ facts ++ " apis=" ++ ",".intercalate apis ++ " max_depth=" ++
        toString maxDepth ++ " workers=" ++ toString workers ++ " collect_failures=" ++
        (if collect then "True" else "False")
  | troubleReported t => Json.write ((t.problem naming).document naming)

end Event

/-- A computation that says events and ends with a value or an error. -/
structure Logged (ε α : Type) where
  events : List Event
  result : Except ε α

namespace Logged

/-- A value, and nothing said. -/
def ok {ε α : Type} (a : α) : Logged ε α := ⟨[], .ok a⟩

/-- An error, and nothing said. -/
def fail {ε α : Type} (e : ε) : Logged ε α := ⟨[], .error e⟩

/-- Says one event. -/
def say {ε : Type} (e : Event) : Logged ε Unit := ⟨[e], .ok ()⟩

/-- One computation, then another on its value. -/
def bind {ε α β : Type} (x : Logged ε α) (f : α → Logged ε β) : Logged ε β :=
  match x.result with
  | .ok a => ⟨x.events ++ (f a).events, (f a).result⟩
  | .error e => ⟨x.events, .error e⟩

instance {ε : Type} : Monad (Logged ε) where
  pure := ok
  bind := bind

/-- The value of an `Except`, with nothing said. -/
def lift {ε α : Type} (r : Except ε α) : Logged ε α := ⟨[], r⟩

/-- The same computation with its error read as another. -/
def mapError {ε δ α : Type} (f : ε → δ) (x : Logged ε α) : Logged δ α :=
  ⟨x.events, x.result.mapError f⟩

end Logged

end TypeOrigins
