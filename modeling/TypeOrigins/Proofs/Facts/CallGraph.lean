import TypeOrigins.Proofs.Facts.Soundness

/-! # The call graph of an accepted document

The graph has one edge for each call, under the call's identifier, and the edge ends at the method the
call is bound to. It starts at the method the call stands in, with two exceptions: a method whose
identifier is empty has its calls start at the node for calls outside all methods, and a method whose
identifier is the name of that node shares the node. Without such methods the graph is a faithful
picture of the program. -/

namespace TypeOrigins
set_option autoImplicit false

/-! ## Nodes -/

namespace CallGraph

theorem mem_nodes_addNode (g : CallGraph) (n k : String) :
    k ∈ (g.addNode n).nodes ↔ k ∈ g.nodes ∨ k = n := by
  have hnodes : (g.addNode n).nodes = if g.nodes.contains n then g.nodes else g.nodes ++ [n] := by
    unfold addNode
    split <;> rfl
  rw [hnodes, mem_append_new]

theorem mem_nodes_addEdge (g : CallGraph) (e : CallEdge) (k : String) :
    k ∈ (g.addEdge e).nodes ↔ k ∈ g.nodes ∨ k = e.caller ∨ k = e.callee := by
  show k ∈ ((g.addNode e.caller).addNode e.callee).nodes ↔ _
  rw [mem_nodes_addNode, mem_nodes_addNode, or_assoc]

theorem mem_nodes_foldl_addNode (ms : List Method) (g : CallGraph) (k : String) :
    k ∈ (ms.foldl (fun g m => g.addNode m.id) g).nodes ↔ k ∈ g.nodes ∨ ∃ m ∈ ms, m.id = k := by
  induction ms generalizing g with
  | nil => simp
  | cons m rest ih =>
    rw [List.foldl_cons, ih, mem_nodes_addNode, or_assoc, eq_comm (a := k)]
    simp only [List.mem_cons, or_and_right, exists_or, exists_eq_left]

theorem mem_nodes_foldl_addEdge (cs : List CallSite) (g : CallGraph) (k : String) :
    k ∈ (cs.foldl (fun g c => g.addEdge c.edge) g).nodes ↔
      k ∈ g.nodes ∨ ∃ c ∈ cs, k = c.callerNode ∨ k = c.target.methodId := by
  induction cs generalizing g with
  | nil => simp
  | cons c rest ih =>
    rw [List.foldl_cons, ih, mem_nodes_addEdge, or_assoc]
    simp only [List.mem_cons, or_and_right, exists_or, exists_eq_left]
    rfl

theorem mem_nodes_ofProgram (p : Program) (k : String) :
    k ∈ (ofProgram p).nodes ↔
      (∃ m ∈ p.methods, m.id = k) ∨ ∃ c ∈ p.callSites, k = c.callerNode ∨ k = c.target.methodId := by
  unfold ofProgram
  rw [mem_nodes_foldl_addEdge, mem_nodes_foldl_addNode]
  simp

end CallGraph

/-! ## The ends of a call -/

theorem CallSite.callerNode_of_ne {c : CallSite} {m : String} (h : c.enclosingMethod = some m)
    (hm : m ≠ "") : c.callerNode = m := by
  simp [callerNode, h, hm]

theorem CallSite.callerNode_eq_topLevelNode {c : CallSite} : c.callerNode = topLevelNode ↔
    c.enclosingMethod = none ∨ c.enclosingMethod = some "" ∨ c.enclosingMethod = some topLevelNode := by
  unfold callerNode
  cases c.enclosingMethod with
  | none => simp
  | some m =>
    by_cases hm : m = ""
    · simp [hm]
    · simp [hm]

namespace CallGraph

/-- The graph is a faithful picture of the program: its edges are the calls, each under its own
identifier, from the method the call stands in to the method it is bound to, and those of the calls
outside all methods, and no others, start at the node for them. -/
structure Pictures (g : CallGraph) (p : Program) : Prop where
  sites : g.edges.map CallEdge.site = p.callSites
  keys : (g.edges.map fun e => e.site.id).Nodup
  callee : ∀ e ∈ g.edges, e.callee = e.site.target.methodId
  caller : ∀ e ∈ g.edges, ∀ m, e.site.enclosingMethod = some m → e.caller = m
  topLevel : ∀ e ∈ g.edges, e.caller = topLevelNode ↔ e.site.enclosingMethod = none

section Edges
variable {p : Program} (hp : (p.callSites.map CallSite.id).Nodup)
include hp

theorem map_site_edges : (ofProgram p).edges.map CallEdge.site = p.callSites := by
  rw [edges_ofProgram p hp, List.map_map]
  exact List.map_id _

theorem nodup_keys : ((ofProgram p).edges.map fun e => e.site.id).Nodup := by
  have hids := hp
  rw [← map_site_edges hp, List.map_map] at hids
  exact hids

omit hp in
theorem eq_edge_of_mem {e : CallEdge} (he : e ∈ (ofProgram p).edges) : e = e.site.edge := by
  obtain ⟨c, _, rfl⟩ := mem_edges_ofProgram p e he
  rfl

theorem edge_mem_edges {c : CallSite} (hc : c ∈ p.callSites) : c.edge ∈ (ofProgram p).edges := by
  rw [edges_ofProgram p hp]
  exact List.mem_map_of_mem hc

/-- The picture is faithful unless a call stands in a method that the graph has no node of its own
for. -/
theorem pictures_iff : (ofProgram p).Pictures p ↔ ∀ c ∈ p.callSites,
    c.enclosingMethod ≠ some "" ∧ c.enclosingMethod ≠ some topLevelNode := by
  constructor
  · intro h c hc
    have htop := h.topLevel c.edge (edge_mem_edges hp hc)
    constructor
    · intro hm
      have hnone := htop.mp (CallSite.callerNode_eq_topLevelNode.mpr (Or.inr (Or.inl hm)))
      exact absurd (hm.symm.trans hnone) (by simp)
    · intro hm
      have hnone := htop.mp (CallSite.callerNode_eq_topLevelNode.mpr (Or.inr (Or.inr hm)))
      exact absurd (hm.symm.trans hnone) (by simp)
  · intro h
    have hsite : ∀ e ∈ (ofProgram p).edges, e.site ∈ p.callSites := by
      intro e he
      rw [← map_site_edges hp]
      exact List.mem_map_of_mem he
    constructor
    case sites => exact map_site_edges hp
    case keys => exact nodup_keys hp
    case callee =>
      intro e he
      rw [eq_edge_of_mem he]
      rfl
    case caller =>
      intro e he m hm
      rw [eq_edge_of_mem he]
      refine CallSite.callerNode_of_ne hm ?_
      rintro rfl
      exact (h e.site (hsite e he)).1 hm
    case topLevel =>
      intro e he
      have hnot := h e.site (hsite e he)
      rw [eq_edge_of_mem he]
      show e.site.callerNode = topLevelNode ↔ e.site.enclosingMethod = none
      rw [CallSite.callerNode_eq_topLevelNode]
      simp [hnot.1, hnot.2]

end Edges

end CallGraph

/-! ## Accepted documents -/

/-- The call graph has one edge for each call, from the method that it stands in to the one it is bound
to. It pictures the program exactly if no call stands in a method that is named like nothing or like
the node of calls outside all methods. -/
theorem callGraph_pictures_iff (fields : Document.Fields) (p : Program)
    (h : Facts.parse fields = .ok p) :
    (CallGraph.ofProgram p).edges.map CallEdge.site = p.callSites ∧
      ((CallGraph.ofProgram p).edges.map fun e => e.site.id).Nodup ∧
      (∀ e ∈ (CallGraph.ofProgram p).edges, e.callee = e.site.target.methodId ∧
        (∀ m, e.site.enclosingMethod = some m → m ≠ "" → e.caller = m) ∧
        (e.caller = topLevelNode ↔ e.site.enclosingMethod = none ∨
          e.site.enclosingMethod = some "" ∨ e.site.enclosingMethod = some topLevelNode)) ∧
      (∀ k, k ∈ (CallGraph.ofProgram p).nodes ↔ (∃ m ∈ p.methods, m.id = k) ∨
        ∃ e ∈ (CallGraph.ofProgram p).edges, k = e.caller ∨ k = e.callee) ∧
      ((CallGraph.ofProgram p).Pictures p ↔ ∀ c ∈ p.callSites,
        c.enclosingMethod ≠ some "" ∧ c.enclosingMethod ≠ some topLevelNode) ∧
      ((∀ m ∈ p.methods, m.id ≠ "" ∧ m.id ≠ topLevelNode) → (CallGraph.ofProgram p).Pictures p) := by
  have hsound := (Facts.parse_eq_ok.mp h).2
  have hids := hsound.ids.callSites
  refine ⟨CallGraph.map_site_edges hids, CallGraph.nodup_keys hids, ?_, ?_, CallGraph.pictures_iff hids, ?_⟩
  · intro e he
    rw [CallGraph.eq_edge_of_mem he]
    exact ⟨rfl, fun m hm hne => CallSite.callerNode_of_ne hm hne, CallSite.callerNode_eq_topLevelNode⟩
  · intro k
    rw [CallGraph.mem_nodes_ofProgram, CallGraph.edges_ofProgram p hids]
    simp only [List.mem_map, exists_exists_and_eq_and]
    rfl
  · intro hmethods
    rw [CallGraph.pictures_iff hids]
    intro c hc
    -- the method that a call stands in is declared
    have hdeclared : ∀ id, c.enclosingMethod = some id → ∃ m ∈ p.methods, m.id = id := by
      intro id hid
      obtain ⟨m, hm⟩ := Option.isSome_iff_exists.mp (hsound.enclosingMethods c hc id hid)
      exact ⟨m, hsound.ids.method?_eq_some.mp hm⟩
    constructor
    · intro hid
      obtain ⟨m, hm, heq⟩ := hdeclared _ hid
      exact (hmethods m hm).1 heq
    · intro hid
      obtain ⟨m, hm, heq⟩ := hdeclared _ hid
      exact (hmethods m hm).2 heq

/-! ## A method with a call from within and a call from outside

The method may have any identifier. -/

namespace Outpost

def run (id : String) : Method where
  id := id
  declaringType := "App.Outpost"
  name := "Run"

def inner (id : String) : CallSite where
  id := "inner"
  location := ⟨"Outpost.cs", 3, 0⟩
  target := ⟨id, "App.Outpost", "Run"⟩
  enclosingMethod := some id

def outer (id : String) : CallSite where
  id := "outer"
  location := ⟨"Program.cs", 1, 0⟩
  target := ⟨id, "App.Outpost", "Run"⟩

def program (id : String) : Program where
  methods := [run id]
  callSites := [inner id, outer id]

def target (id : String) : Document :=
  .object [("method_id", .text id), ("declaring_type", .text "App.Outpost"), ("name", .text "Run")]

def fields (id : String) : Document.Fields :=
  [("schema_version", .int 1),
    ("methods", .list [.object [("id", .text id), ("declaring_type", .text "App.Outpost"),
      ("name", .text "Run")]]),
    ("call_sites", .list [
      .object [("id", .text "inner"), ("enclosing_method", .text id), ("target", target id),
        ("location", .object [("path", .text "Outpost.cs"), ("line", .int 3)])],
      .object [("id", .text "outer"), ("target", target id),
        ("location", .object [("path", .text "Program.cs"), ("line", .int 1)])]])]

theorem parse_fields (id : String) : Facts.parse (fields id) = .ok (program id) := by
  rw [Facts.parse_eq_ok]
  refine ⟨rfl, ?_⟩
  constructor
  case ids =>
    have hcalls : ["inner", "outer"].Nodup := by decide
    exact ⟨List.nodup_singleton id, List.nodup_nil, hcalls⟩
  case localMethods =>
    intro l hl
    cases hl
  case enclosingMethods =>
    intro c hc m hm
    have hid : m = id := by
      rcases List.mem_cons.mp hc with rfl | hc
      · exact (Option.some.inj hm).symm
      · rw [List.mem_singleton.mp hc] at hm
        cases hm
    simp [Program.method?, program, run, hid]
  case expressions =>
    intro oe hoe
    cases hoe
  case types =>
    intro ot hot
    cases hot

end Outpost

open Outpost in
theorem callGraph_pictures_outpost :
    Facts.parse (fields "Run") = .ok (program "Run") ∧
      (CallGraph.ofProgram (program "Run")).edges =
        [⟨"Run", "Run", inner "Run"⟩, ⟨topLevelNode, "Run", outer "Run"⟩] ∧
      (CallGraph.ofProgram (program "Run")).Pictures (program "Run") := by
  obtain ⟨_, _, _, _, _, hpictures⟩ := callGraph_pictures_iff _ _ (parse_fields "Run")
  exact ⟨parse_fields "Run", by decide, hpictures (by decide)⟩

open Outpost in
theorem callGraph_confuses_empty_id :
    Facts.parse (fields "") = .ok (program "") ∧ (inner "").enclosingMethod = some "" ∧
      (outer "").enclosingMethod = none ∧
      (CallGraph.ofProgram (program "")).edges =
        [⟨topLevelNode, "", inner ""⟩, ⟨topLevelNode, "", outer ""⟩] ∧
      ¬ (CallGraph.ofProgram (program "")).Pictures (program "") ∧
      Facts.parse (fields topLevelNode) = .ok (program topLevelNode) ∧
      ¬ (CallGraph.ofProgram (program topLevelNode)).Pictures (program topLevelNode) := by
  refine ⟨parse_fields _, rfl, rfl, by decide, ?_, parse_fields _, ?_⟩
  · rw [CallGraph.pictures_iff (by decide)]
    intro h
    exact (h (inner "") List.mem_cons_self).1 rfl
  · rw [CallGraph.pictures_iff (by decide)]
    intro h
    exact (h (inner topLevelNode) List.mem_cons_self).2 rfl

end TypeOrigins
