import TypeOrigins.KeepList.Basic
import TypeOrigins.Program.CallGraph
import TypeOrigins.Report.Event
import TypeOrigins.Settings.Api

/-! # The search for the origins of a type

From a call that builds an object of a type it is told, the search goes back to every type that can
be told: through type parameters and parameters to all callers, through locals to what they start
with, until it meets closed types. Work waits in a queue in the order of its depth, the number of
steps from a method to its callers; each place is expanded once, at the first and so the least depth
it is met at.

No path comes back to a place on it. The test for that is a parameter of every step, and the search
is the one with the test on the path. -/

namespace TypeOrigins
set_option autoImplicit false

/-! ## Places and paths -/

/-- What stands at a position of a list, where a negative one counts from the end. -/
def at? {α : Type} (items : List α) (position : Int) : Option α :=
  if 0 ≤ position then items[position.toNat]?
  else if 0 ≤ position + items.length then items[(position + items.length).toNat]?
  else none

/-- The kinds of places that hold a type. -/
inductive PlaceKind where
  | typeArgument
  | argument
  | localVariable
deriving DecidableEq, Repr

/-- The word for a kind of place. -/
def PlaceKind.word : PlaceKind → String
  | .typeArgument => "type_argument"
  | .argument => "argument"
  | .localVariable => "local"

/-- A place: a position of a call's type arguments or arguments, or a local variable. A position
that counts from the end is another place than the same one counted from the start. -/
structure Place where
  kind : PlaceKind
  id : String
  position : Int
deriving DecidableEq, Repr

/-- The path that led to a piece of work: the call it began at, the places on it, and how many steps
to callers it took. -/
structure Context where
  origin : CallSite
  visited : List Place := []
  depth : Nat := 0
deriving DecidableEq, Repr

namespace Context

/-- Whether a place is on the path. -/
def contains (c : Context) (p : Place) : Bool := c.visited.contains p

/-- The places with one more. -/
def visit (c : Context) (p : Place) : List Place :=
  if c.visited.contains p then c.visited else p :: c.visited

/-- The path on to a place of the same method. -/
def enter (c : Context) (p : Place) : Context := { c with visited := c.visit p }

/-- The path on to a place of a caller. -/
def descend (c : Context) (p : Place) : Context :=
  { c with visited := c.visit p, depth := c.depth + 1 }

end Context

/-- A test whether a path leaves a place out. -/
abbrev Guard := Context → Place → Bool

/-- What stands at a place: a type argument, a value, or nothing, if the place is before the first.
-/
inductive Subject where
  | symbol (t : TypeSymbol)
  | value (e : Expression)
  | nothing
deriving DecidableEq, Repr

/-- What stands at a position of a call's type arguments. -/
def CallSite.typeArgumentAt (c : CallSite) (position : Int) : Subject :=
  ((at? c.typeArguments position).map .symbol).getD .nothing

/-- A place to look at: what stands there, the call it belongs to, and the path to it. -/
structure Work where
  place : Place
  site : CallSite
  subject : Subject
  context : Context
deriving DecidableEq, Repr

/-! ## One step -/

/-- What looking at a place gives: more places to look at, or a type. -/
structure Expansion where
  successors : List Work := []
  found : Option TypeReference := none
deriving DecidableEq, Repr

/-- A failure on the way from an origin. -/
def failureAt {α : Type} (c : Context) (site : CallSite) (construct : String) (cause : Cause) :
    Logged Failure α :=
  .fail { site := site, construct := construct, cause := cause, origin := some c.origin }

/-- How the callers of a method bind a parameter of it: the kind and the position of their places,
how many such places a call has, what is wrong with one that has too few, what stands at the place,
and what is said of a place that is left out. -/
structure Binding where
  kind : PlaceKind
  position : Int
  count : CallSite → Nat
  missing : Cause
  subject : CallSite → Option Subject
  cycle : CallSite → Event

/-- The place of a caller. -/
def Binding.place (b : Binding) (caller : CallSite) : Place := ⟨b.kind, caller.id, b.position⟩

/-- The work at the callers of a method, without the places that the guard leaves out. A caller with
too few places is met before the guard, a place before the first after it. -/
def spread (g : Guard) (c : Context) (construct : String) (b : Binding) :
    List CallSite → Logged Failure (List Work)
  | [] => .ok []
  | caller :: rest =>
      if (b.count caller : Int) ≤ b.position then failureAt c caller construct b.missing
      else if g c (b.place caller) then do
        Logged.say (b.cycle caller)
        spread g c construct b rest
      else
        match b.subject caller with
        | none => failureAt c caller construct .positionOutOfRange
        | some subject => do
            let works ← spread g c construct b rest
            .ok (⟨b.place caller, caller, subject, c.descend (b.place caller)⟩ :: works)

/-- How callers bind a type parameter. What stands before the first type argument is nothing, and
found out only there. -/
def TypeParameter.binding (t : TypeParameter) : Binding where
  kind := .typeArgument
  position := t.ordinal
  count caller := caller.typeArguments.length
  missing := .typeParameterUnbound t.name
  subject caller := some (caller.typeArgumentAt t.ordinal)
  cycle caller := .typeParameterCycle caller.id t.name

/-- A type parameter: the type arguments that the callers of its method bind it to. -/
def traceTypeParameter (g : Guard) (p : Program) (site : CallSite) (t : TypeParameter)
    (c : Context) : Logged Failure Expansion :=
  match t.ownerKind with
  | .type => failureAt c site t.name .enclosingTypeParameter
  | .method =>
      match p.method? t.ownerId with
      | none => failureAt c site t.name (.methodUnknown t.ownerId)
      | some m => do
          let callers := p.callersOfMethod m
          if callers.isEmpty then
            Logged.say (.noTypeParameterCallers m.display t.name c.origin.location.display)
          let works ← spread g c m.display t.binding callers
          return { successors := works }

/-- A type: a closed one is an origin, a type parameter is traced further. -/
def traceSymbol (g : Guard) (p : Program) (site : CallSite) (symbol : TypeSymbol)
    (construct : String) (c : Context) : Logged Failure Expansion :=
  match symbol with
  | .parameter t => traceTypeParameter g p site t c
  | .named fullName assembly arguments =>
      if !(TypeSymbol.named fullName assembly arguments).isClosed then
        failureAt c site construct (.openType symbol)
      else if assembly.isEmpty then failureAt c site construct (.assemblyUnknown symbol)
      else .ok { found := some ⟨assembly, fullName⟩ }

/-- A local: what it starts with, if it is never assigned again. -/
def traceLocal (g : Guard) (p : Program) (site : CallSite) (reference : Expression) (id : String)
    (c : Context) : Logged Failure Expansion :=
  match p.local? id with
  | none => failureAt c site reference.describe (.localUndeclared id)
  | some l =>
      match l.initializer with
      | none => failureAt c site l.name .localUninitialized
      | some e =>
          if !l.assignments.isEmpty then
            failureAt c site l.name (.localReassigned (l.assignments.length + 1))
          else
            let place : Place := ⟨.localVariable, l.id, 0⟩
            if g c place then do
              Logged.say (.localCycle l.id)
              return {}
            else .ok { successors := [⟨place, site, .value e, c.enter place⟩] }

/-- The name of a parameter, or its number if the method declares fewer. There is none before the
first, and none for a number that is too long to be written. -/
def Method.parameterName (m : Method) (ordinal : Int) : Except Cause String :=
  match at? m.parameters ordinal with
  | some name => .ok name
  | none =>
      if ordinal < 0 then .error .positionOutOfRange
      else if Text.isLong ordinal then .error .parameterUnnamed
      else .ok ("#" ++ toString ordinal)

/-- How callers bind the parameter `name` at a position. -/
def parameterBinding (ordinal : Int) (name : String) : Binding where
  kind := .argument
  position := ordinal
  count caller := caller.arguments.length
  missing := .argumentMissing name
  subject caller := (at? caller.arguments ordinal).map .value
  cycle caller := .parameterCycle caller.id name

/-- A parameter: the arguments that the callers of its method pass for it. A generic caller cannot
be traced. -/
def traceParameter (g : Guard) (p : Program) (site : CallSite) (reference : Expression)
    (methodId : String) (ordinal : Int) (c : Context) : Logged Failure Expansion :=
  match p.method? methodId with
  | none => failureAt c site reference.describe (.methodUnknown methodId)
  | some m =>
      match m.parameterName ordinal with
      | .error cause => failureAt c site reference.describe cause
      | .ok name =>
          let callers := p.callersOfMethod m
          match callers.find? CallSite.isGeneric with
          | some caller => failureAt c caller m.display (.genericCaller name)
          | none => do
              if callers.isEmpty then
                Logged.say (.noParameterCallers m.display name c.origin.location.display)
              let works ← spread g c m.display (parameterBinding ordinal name) callers
              return { successors := works }

/-- A value: what its shape says about the type it holds. -/
def traceValue (g : Guard) (p : Program) (site : CallSite) (e : Expression) (c : Context) :
    Logged Failure Expansion :=
  match e with
  | .typeOf _ operand => traceSymbol g p site operand e.describe c
  | .getType _ receiver =>
      match receiver.staticType with
      | none => failureAt c site e.describe .receiverTypeUnknown
      | some t => traceSymbol g p site t e.describe c
  | .localRef _ id => traceLocal g p site e id c
  | .parameterRef _ methodId ordinal => traceParameter g p site e methodId ordinal c
  | .untraced _ kind => failureAt c site e.describe (.untracedShape kind.word)

/-- Looks at a place. -/
def Work.expandUnder (g : Guard) (p : Program) (w : Work) : Logged Failure Expansion :=
  match w.subject with
  | .symbol t => traceSymbol g p w.site t t.display w.context
  | .value e => traceValue g p w.site e w.context
  | .nothing => failureAt w.context w.site w.site.target.display .positionOutOfRange

/-- Looks at a place and goes on to those that are not on its path. -/
def Work.expand (p : Program) (w : Work) : Logged Failure Expansion :=
  w.expandUnder Context.contains p

/-! ## The search -/

/-- The place a call's type is sought at first. A position before the first type argument is looked
at when its turn comes, one before the first argument at once. -/
def seed (site : CallSite) (api : Option Api) : Except Failure Work :=
  let context : Context := { origin := site }
  let fault (cause : Cause) : Except Failure Work :=
    .error { site := site, construct := site.target.display, cause := cause }
  if site.isGeneric then
    let i := (api.map Api.typeArgumentIndex).getD 0
    let place : Place := ⟨.typeArgument, site.id, i⟩
    if (site.typeArguments.length : Int) ≤ i then fault (.noTypeArgument i)
    else .ok ⟨place, site, site.typeArgumentAt i, context.enter place⟩
  else if site.arguments.isEmpty then fault .noOperand
  else
    let i := (api.map Api.valueArgumentIndex).getD 0
    let place : Place := ⟨.argument, site.id, i⟩
    if (site.arguments.length : Int) ≤ i then fault (.noArgument i)
    else
      match at? site.arguments i with
      | some e => .ok ⟨place, site, .value e, context.enter place⟩
      | none => fault .positionOutOfRange

/-- The state of a search: the work that waits, the places looked at, the types found in the order
in which they were met, and the greatest depth so far. -/
structure Search where
  queue : List Work
  expanded : List Place := []
  found : List TypeReference := []
  deepest : Nat := 0
deriving DecidableEq, Repr

namespace Search

/-- The found types with one more, unless it was met before. -/
def addFound (found : List TypeReference) : Option TypeReference → List TypeReference
  | none => found
  | some r => if found.contains r then found else found ++ [r]

/-- The queue after a place at `depth` has been looked at: work at the same depth goes to the front,
deeper work to the back. -/
def enqueue (depth : Nat) (successors queue : List Work) : List Work :=
  (successors.filter fun w => w.context.depth == depth) ++ queue ++
    (successors.filter fun w => depth < w.context.depth)

/-- The state after `w` has been looked at. -/
def grow (s : Search) (w : Work) (rest : List Work) (x : Expansion) : Search where
  queue := enqueue w.context.depth x.successors rest
  expanded := w.place :: s.expanded
  found := addFound s.found x.found
  deepest := max s.deepest w.context.depth

/-- Takes `w` from the queue and looks at its place, unless it was looked at before. -/
def advanceUnder (g : Guard) (p : Program) (limit : Int) (s : Search) (w : Work)
    (rest : List Work) : Logged Failure Search :=
  if s.expanded.contains w.place then .ok { s with queue := rest }
  else if limit < (w.context.depth : Int) then
    failureAt w.context w.site w.site.target.display (.depthExceeded limit)
  else do
    let x ← w.expandUnder g p
    return s.grow w rest x

/-- Goes on until the queue is empty. The fuel bounds the number of pieces of work. -/
def runUnder (g : Guard) (p : Program) (limit : Int) : (fuel : Nat) → Search →
    Logged Failure Search
  | 0, s => .ok s
  | fuel + 1, s =>
      match s.queue with
      | [] => .ok s
      | w :: rest => do
          let s' ← s.advanceUnder g p limit w rest
          runUnder g p limit fuel s'

/-- One step of the search. -/
def advance (p : Program) (limit : Int) (s : Search) (w : Work) (rest : List Work) :
    Logged Failure Search :=
  s.advanceUnder Context.contains p limit w rest

/-- The search, until the queue is empty or the fuel is used up. -/
def run (p : Program) (limit : Int) (fuel : Nat) (s : Search) : Logged Failure Search :=
  runUnder Context.contains p limit fuel s

end Search

/-- How many places a call has. -/
def CallSite.placeCount (c : CallSite) : Nat := c.typeArguments.length + c.arguments.length

/-- How many places a program has. -/
def Program.placeCount (p : Program) : Nat :=
  p.callSites.foldr (fun c n => c.placeCount + n) p.locals.length

/-- No search from a call takes more pieces of work from its queue: each place is expanded once, a
position counted from the start and from the end are two places, and each expansion puts at most one
piece of work there for each call of the program, or one for a local. -/
def Program.searchBound (p : Program) (site : CallSite) : Nat :=
  (2 * (p.placeCount + site.placeCount) + 1) * (p.callSites.length + 2) + 1

/-- The types that a call can build, in the order in which they are met, with no path of more than
`limit` steps to callers and none to a place that the guard leaves out. -/
def resolveUnder (g : Guard) (p : Program) (limit : Int) (site : CallSite) (api : Option Api) :
    Logged Failure (List TypeReference) := do
  let w ← Logged.lift (seed site api)
  let s ← Search.runUnder g p limit (p.searchBound site) { queue := [w] }
  Logged.say (.resolved site.id site.location.display s.found.length s.deepest s.expanded.length)
  return s.found

/-- The types that a call can build, in the order in which they are met, with no path of more than
`limit` steps to callers. -/
def resolve (p : Program) (limit : Int) (site : CallSite) (api : Option Api) :
    Logged Failure (List TypeReference) :=
  resolveUnder Context.contains p limit site api

end TypeOrigins
