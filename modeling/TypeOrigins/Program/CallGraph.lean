import TypeOrigins.Program.Basic
import TypeOrigins.Sorting

/-! # The call graph

One edge for each call, from the method it stands in to the method it is bound to, keyed by the
call's identifier. Calls outside all methods start at a node of their own. The callers of a method
are read off the graph and put into document order.

Nodes and edges are kept by a library of graphs, whose text is not part of this development. What is
supposed of it is `addNode` and `addEdge`: nodes and edges stay in the order in which they came in, a
node that is there is not added again, and an edge takes the place of one with the same ends and
key. -/

namespace TypeOrigins
set_option autoImplicit false

/-- The node that calls outside all methods start at. -/
def topLevelNode : String := "<top-level>"

/-- The node a call starts at. -/
def CallSite.callerNode (c : CallSite) : String :=
  match c.enclosingMethod with
  | some m => if m.isEmpty then topLevelNode else m
  | none => topLevelNode

/-- A call as an edge. -/
structure CallEdge where
  caller : String
  callee : String
  site : CallSite
deriving DecidableEq, Repr

/-- The edge of a call. -/
def CallSite.edge (c : CallSite) : CallEdge := ⟨c.callerNode, c.target.methodId, c⟩

/-- Whether two edges have the same ends and the same key. -/
def CallEdge.sameKey (e f : CallEdge) : Bool :=
  e.caller == f.caller && e.callee == f.callee && e.site.id == f.site.id

/-- Nodes and edges, both in the order in which they came in. -/
structure CallGraph where
  nodes : List String := []
  edges : List CallEdge := []
deriving DecidableEq, Repr

namespace CallGraph

/-- The graph with a node. -/
def addNode (g : CallGraph) (n : String) : CallGraph :=
  if g.nodes.contains n then g else { g with nodes := g.nodes ++ [n] }

/-- The edges with one more: it takes the place of an edge with the same ends and key. -/
def putEdge (e : CallEdge) : List CallEdge → List CallEdge
  | [] => [e]
  | f :: rest => if f.sameKey e then e :: rest else f :: putEdge e rest

/-- The graph with an edge and its two ends. -/
def addEdge (g : CallGraph) (e : CallEdge) : CallGraph :=
  let g' := (g.addNode e.caller).addNode e.callee
  { g' with edges := putEdge e g'.edges }

/-- The graph of a program: its methods, then its calls. -/
def ofProgram (p : Program) : CallGraph :=
  p.callSites.foldl (fun g c => g.addEdge c.edge)
    (p.methods.foldl (fun g m => g.addNode m.id) {})

/-- The first occurrence of each text. -/
def distinct (l : List String) : List String :=
  l.foldl (fun seen a => if seen.contains a then seen else seen ++ [a]) []

/-- The edges that end at a node: those of one caller together, the callers in the order in which
they came in. -/
def inEdges (g : CallGraph) (callee : String) : List CallEdge :=
  let ending := g.edges.filter fun e => e.callee == callee
  (distinct (ending.map (·.caller))).flatMap fun n => ending.filter fun e => e.caller == n

end CallGraph

namespace Program

/-- The place of a call site's identifier in document order: that of the last site with it. -/
def siteOrder (p : Program) (id : String) : Nat :=
  p.callSites.length - (p.callSites.reverse.findIdx fun c => c.id == id)

/-- The calls bound to a method identifier, in document order. -/
def callersOf (p : Program) (methodId : String) : List CallSite :=
  sortBy (fun a b => decide (p.siteOrder a.id ≤ p.siteOrder b.id))
    (((CallGraph.ofProgram p).inEdges methodId).map (·.site))

/-- The calls bound to a declaring type and a name, and to a method identifier if one is given. -/
def findCallSites (p : Program) (declaringType methodName : String) (methodId : Option String) :
    List CallSite :=
  p.callSites.filter fun c =>
    c.target.declaringType == declaringType && c.target.name == methodName &&
      match methodId with
      | none => true
      | some id => c.target.methodId == id

/-- The calls bound to a method: to its identifier, its declaring type and its name. -/
def callersOfMethod (p : Program) (m : Method) : List CallSite :=
  (p.callersOf m.id).filter fun c =>
    c.target.declaringType == m.declaringType && c.target.name == m.name

end Program

end TypeOrigins
