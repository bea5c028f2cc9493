import TypeOrigins.Proofs.Program.DocumentOrder
import TypeOrigins.Proofs.Table

/-! # The index of callers

The edges of the call graph as nested tables hold them: by the method that is called, then by the
caller, then by the identifier of the call, where a call with the same ends and the same identifier
takes the place of another. Read off these tables, the edges that end at a method come in the order of
the graph. Sorted, they are what a plain scan of the calls finds. -/

namespace TypeOrigins
set_option autoImplicit false

/-! ## Nested tables -/

/-- Calls by their identifiers. -/
abbrev KeyedSites := List (String × CallSite)

/-- Calls by the methods they are bound to, by their callers and by their identifiers. -/
abbrev CallIndex := List (String × List (String × KeyedSites))

namespace CallIndex

/-- The calls of each caller with one more. -/
def addCaller (e : CallEdge) (callers : List (String × KeyedSites)) : List (String × KeyedSites) :=
  Table.alter e.caller (fun sites => Table.alter e.site.id (fun _ => e.site) (sites.getD [])) callers

def addEdge (index : CallIndex) (e : CallEdge) : CallIndex :=
  Table.alter e.callee (fun callers => addCaller e (callers.getD [])) index

def ofSites (sites : List CallSite) : CallIndex :=
  sites.foldl (fun index c => index.addEdge c.edge) []

/-- The callers of a method with their calls. -/
def callers (index : CallIndex) (callee : String) : List (String × KeyedSites) :=
  (index.lookup callee).getD []

def sitesInto (index : CallIndex) (callee : String) : List CallSite :=
  (index.callers callee).flatMap fun caller => caller.2.map Prod.snd

theorem callers_addEdge (index : CallIndex) (e : CallEdge) (callee : String) :
    (index.addEdge e).callers callee =
      if callee = e.callee then addCaller e (index.callers callee) else index.callers callee := by
  unfold callers addEdge
  rw [Table.lookup_alter]
  by_cases h : callee = e.callee
  · subst h
    simp
  · simp [h]

end CallIndex

/-! ## Edges grouped by their callers -/

namespace CallGraph

/-- The calls of one caller, among edges that end at one method. -/
def sitesFrom (caller : String) (l : List CallEdge) : KeyedSites :=
  (l.filter fun e => e.caller == caller).map fun e => (e.site.id, e.site)

/-- Edges that end at one method, by their callers. -/
def byCaller (l : List CallEdge) : List (String × KeyedSites) :=
  (distinct (l.map (·.caller))).map fun n => (n, sitesFrom n l)

theorem distinct_append_singleton (l : List String) (a : String) :
    distinct (l ++ [a]) = if a ∈ l then distinct l else distinct l ++ [a] := by
  have hsnoc : distinct (l ++ [a]) =
      if (distinct l).contains a then distinct l else distinct l ++ [a] := by
    unfold distinct
    rw [List.foldl_append]
    rfl
  rw [hsnoc]
  simp only [List.contains_iff_mem, mem_distinct]

variable (e : CallEdge)

theorem sameKey_iff {f : CallEdge} : f.sameKey e = true ↔
    f.caller = e.caller ∧ f.callee = e.callee ∧ f.site.id = e.site.id := by
  simp [CallEdge.sameKey, and_assoc]

theorem putEdge_cons (f : CallEdge) (rest : List CallEdge) :
    putEdge e (f :: rest) = if f.sameKey e then e :: rest else f :: putEdge e rest := rfl

theorem filter_putEdge (l : List CallEdge) (callee : String) :
    (putEdge e l).filter (fun f => f.callee == callee) =
      if callee = e.callee then putEdge e (l.filter fun f => f.callee == callee)
      else l.filter fun f => f.callee == callee := by
  induction l with
  | nil =>
    by_cases h : callee = e.callee
    · simp [putEdge, h]
    · simp [putEdge, h, Ne.symm h]
  | cons f rest ih =>
    rw [putEdge_cons]
    by_cases hkey : f.sameKey e = true
    · have hcallee := ((sameKey_iff e).mp hkey).2.1
      by_cases h : callee = e.callee
      · simp [h, hcallee, putEdge_cons, hkey]
      · simp [h, hcallee, hkey, Ne.symm h]
    · rw [if_neg hkey]
      by_cases hf : f.callee = callee
      · rw [List.filter_cons_of_pos (by simpa using hf), List.filter_cons_of_pos (by simpa using hf), ih,
          putEdge_cons, if_neg hkey]
        split <;> rfl
      · rw [List.filter_cons_of_neg (by simpa using hf), List.filter_cons_of_neg (by simpa using hf), ih]

theorem map_caller_putEdge (l : List CallEdge) :
    ((putEdge e l).map (·.caller) = l.map (·.caller) ∧ e.caller ∈ l.map (·.caller)) ∨
      (putEdge e l).map (·.caller) = l.map (·.caller) ++ [e.caller] := by
  induction l with
  | nil => exact Or.inr rfl
  | cons f rest ih =>
    rw [putEdge_cons]
    by_cases hkey : f.sameKey e = true
    · have hcaller := ((sameKey_iff e).mp hkey).1
      exact Or.inl (by simp [hkey, hcaller])
    · rw [if_neg hkey, List.map_cons, List.map_cons]
      rcases ih with ⟨hsame, hin⟩ | hnew
      · exact Or.inl ⟨by rw [hsame], List.mem_cons_of_mem _ hin⟩
      · exact Or.inr (by rw [hnew, List.cons_append])

theorem distinct_map_caller_putEdge (l : List CallEdge) :
    distinct ((putEdge e l).map (·.caller)) =
      if e.caller ∈ l.map (·.caller) then distinct (l.map (·.caller))
      else distinct (l.map (·.caller)) ++ [e.caller] := by
  rcases map_caller_putEdge e l with ⟨hsame, hin⟩ | hnew
  · rw [hsame, if_pos hin]
  · rw [hnew, distinct_append_singleton]

theorem sitesFrom_cons (caller : String) (f : CallEdge) (rest : List CallEdge) :
    sitesFrom caller (f :: rest) =
      if f.caller = caller then (f.site.id, f.site) :: sitesFrom caller rest else sitesFrom caller rest := by
  unfold sitesFrom
  by_cases h : f.caller = caller
  · simp [h]
  · simp [h]

variable {l : List CallEdge} (hl : ∀ f ∈ l, f.callee = e.callee)
include hl

theorem sitesFrom_putEdge (caller : String) : sitesFrom caller (putEdge e l) =
    if caller = e.caller then Table.alter e.site.id (fun _ => e.site) (sitesFrom caller l)
    else sitesFrom caller l := by
  induction l with
  | nil =>
    by_cases h : caller = e.caller
    · simp [putEdge, sitesFrom, Table.alter, h]
    · simp [putEdge, sitesFrom, h, Ne.symm h]
  | cons f rest ih =>
    have hrest := ih fun g hg => hl g (List.mem_cons_of_mem f hg)
    have hcallee := hl f List.mem_cons_self
    rw [putEdge_cons]
    by_cases hkey : f.sameKey e = true
    · obtain ⟨hcaller, _, hid⟩ := (sameKey_iff e).mp hkey
      rw [if_pos hkey, sitesFrom_cons, sitesFrom_cons, hcaller]
      by_cases h : e.caller = caller
      · simp [h, Table.alter, hid]
      · simp [h, Ne.symm h]
    · rw [if_neg hkey, sitesFrom_cons, sitesFrom_cons, hrest]
      by_cases hf : f.caller = caller
      · by_cases h : caller = e.caller
        · have hid : ¬ f.site.id = e.site.id := fun hid =>
            hkey ((sameKey_iff e).mpr ⟨hf.trans h, hcallee, hid⟩)
          simp [hf, h, Table.alter, hid]
        · simp [hf, h]
      · simp [hf]

theorem byCaller_putEdge : byCaller (putEdge e l) = CallIndex.addCaller e (byCaller l) := by
  unfold byCaller CallIndex.addCaller
  rw [Table.alter_map _ _ (nodup_distinct _), distinct_map_caller_putEdge]
  simp only [mem_distinct, sitesFrom_putEdge e hl]
  by_cases hin : e.caller ∈ l.map (·.caller)
  · rw [if_pos hin, if_pos hin]
    refine List.map_congr_left fun n _ => ?_
    by_cases h : n = e.caller
    · simp [h]
    · simp [h]
  · -- a caller that is new has no calls yet
    have hnone : sitesFrom e.caller l = [] := by
      unfold sitesFrom
      rw [List.map_eq_nil_iff, List.filter_eq_nil_iff]
      intro f hf h
      exact hin (List.mem_map.mpr ⟨f, hf, by simpa using h⟩)
    rw [if_neg hin, if_neg hin, List.map_append, List.map_singleton, hnone]
    congr 1
    · refine List.map_congr_left fun n hn => ?_
      have hne : n ≠ e.caller := by
        rintro rfl
        exact hin ((mem_distinct _ _).mp hn)
      rw [if_neg hne]
    · simp

end CallGraph

/-! ## The graph and the tables -/

namespace CallIndex

/-- The invariant of adding edges: for each method the table holds the edges that end at it, grouped
by their callers. -/
theorem callers_foldl_addEdge (sites : List CallSite) (index : CallIndex) (g : CallGraph)
    (h : ∀ callee, index.callers callee = CallGraph.byCaller (g.edges.filter fun e => e.callee == callee))
    (callee : String) :
    (sites.foldl (fun index c => index.addEdge c.edge) index).callers callee =
      CallGraph.byCaller
        ((sites.foldl (fun g c => g.addEdge c.edge) g).edges.filter fun e => e.callee == callee) := by
  induction sites generalizing index g with
  | nil => exact h callee
  | cons c rest ih =>
    refine ih _ _ fun callee => ?_
    rw [callers_addEdge, CallGraph.edges_addEdge, CallGraph.filter_putEdge, h]
    split
    · next heq =>
      rw [CallGraph.byCaller_putEdge]
      intro f hf
      have hf' : f.callee = callee := by simpa using (List.mem_filter.mp hf).2
      exact hf'.trans heq
    · rfl

/-- Repeated identifiers included, the tables give the calls of a method in the order of the graph. -/
theorem sitesInto_ofSites (p : Program) (callee : String) :
    (ofSites p.callSites).sitesInto callee = ((CallGraph.ofProgram p).inEdges callee).map (·.site) := by
  have hcallers := callers_foldl_addEdge p.callSites []
    (p.methods.foldl (fun g m => g.addNode m.id) {}) (fun callee => by
      rw [CallGraph.edges_foldl_addNode]
      rfl) callee
  unfold sitesInto ofSites CallGraph.inEdges
  rw [hcallers]
  simp only [CallGraph.byCaller, CallGraph.sitesFrom, List.flatMap_map, List.map_flatMap, List.map_map]
  rfl

end CallIndex

/-! ## Index and scan -/

/-- The callers of a method that the index of calls gives are those that a scan of all calls finds, in
the order of the program. -/
theorem callersOf_agrees_with_scan (p : Program) (hp : (p.callSites.map CallSite.id).Nodup) :
    (∀ m, p.callersOf m = p.callSites.filter fun c => c.target.methodId == m) ∧
      (∀ m, p.callersOf m = sortBy (fun c d => decide (p.siteOrder c.id ≤ p.siteOrder d.id))
        ((CallIndex.ofSites p.callSites).sitesInto m)) ∧
      ∀ s : Method, p.callersOfMethod s = p.findCallSites s.declaringType s.name (some s.id) := by
  refine ⟨Program.callersOf_eq_filter hp, fun m => ?_, fun s => ?_⟩
  · rw [CallIndex.sitesInto_ofSites]
    rfl
  · unfold Program.callersOfMethod Program.findCallSites
    rw [Program.callersOf_eq_filter hp, List.filter_filter]

/-! ## A line that is called from everywhere

Calls outside all methods stand between calls of a method; one of them is bound to the method under
another name, and one call is bound to a method that is not declared. -/

namespace Switchboard

def dial : Method where
  id := "Dial"
  declaringType := "App.Line"
  name := "Dial"

def call (id : String) (enclosing : Option String) (target : Target) : CallSite where
  id := id
  location := ⟨"Line.cs", 1, 0⟩
  target := target
  enclosingMethod := enclosing

def early : CallSite := call "early" none ⟨"Dial", "App.Line", "Dial"⟩

def inner : CallSite := call "inner" (some "Dial") ⟨"Dial", "App.Line", "Dial"⟩

def ghost : CallSite := call "ghost" (some "Dial") ⟨"Ghost", "App.Line", "Dial"⟩

def late : CallSite := call "late" none ⟨"Dial", "App.Line", "Dial"⟩

def renamed : CallSite := call "renamed" (some "") ⟨"Dial", "App.Line", "Hang"⟩

def program : Program where
  methods := [dial]
  callSites := [early, inner, ghost, late, renamed]

end Switchboard

open Switchboard in
theorem callersOf_agrees_with_scan_switchboard :
    (program.callSites.map CallSite.id).Nodup ∧
      (CallIndex.ofSites program.callSites).sitesInto "Dial" = [early, late, renamed, inner] ∧
      program.callersOf "Dial" = [early, inner, late, renamed] ∧
      program.callersOf "Ghost" = [ghost] ∧ program.callersOf "Nowhere" = [] ∧
      program.callersOfMethod dial = [early, inner, late] := by
  have hids : (program.callSites.map CallSite.id).Nodup := by decide
  obtain ⟨hfilter, _, hscan⟩ := callersOf_agrees_with_scan program hids
  refine ⟨hids, by decide, ?_, ?_, ?_, ?_⟩
  · exact (hfilter "Dial").trans (by decide)
  · exact (hfilter "Ghost").trans (by decide)
  · exact (hfilter "Nowhere").trans (by decide)
  · exact (hscan dial).trans (by decide)

end TypeOrigins
