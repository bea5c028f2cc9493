import Mathlib.Data.List.Sort
import TypeOrigins.Program.CallGraph

/-! # The callers of a method

The call graph holds the calls of a program and no others, at most one edge for each call, and
grouping its edges by caller and sorting them loses and repeats none. So the callers of a method are
calls of the program bound to it, and if the identifiers of the calls are distinct they are all of
these. -/

namespace TypeOrigins
set_option autoImplicit false

/-! ## Sorting -/

theorem insertBy_eq_orderedInsert {α : Type} (le : α → α → Bool) (a : α) (l : List α) :
    insertBy le a l = l.orderedInsert (fun x y => le x y = true) a := by
  induction l with
  | nil => rfl
  | cons b rest ih =>
    rw [insertBy, List.orderedInsert_cons, ih]

theorem sortBy_eq_insertionSort {α : Type} (le : α → α → Bool) (l : List α) :
    sortBy le l = l.insertionSort (fun x y => le x y = true) := by
  induction l with
  | nil => rfl
  | cons a rest ih =>
    rw [List.insertionSort_cons, ← ih, ← insertBy_eq_orderedInsert]
    rfl

theorem perm_sortBy {α : Type} (le : α → α → Bool) (l : List α) : (sortBy le l).Perm l := by
  rw [sortBy_eq_insertionSort]
  exact List.perm_insertionSort _ l

theorem pairwise_sortBy {α : Type} {le : α → α → Bool} (htotal : ∀ a b, le a b = true ∨ le b a = true)
    (htrans : ∀ a b c, le a b = true → le b c = true → le a c = true) (l : List α) :
    (sortBy le l).Pairwise fun a b => le a b = true := by
  rw [sortBy_eq_insertionSort]
  have : Std.Total fun a b => le a b = true := ⟨htotal⟩
  have : IsTrans α fun a b => le a b = true := ⟨htrans⟩
  exact List.pairwise_insertionSort _ l

/-! ## First occurrences -/

theorem mem_append_new {α : Type} [BEq α] [LawfulBEq α] (l : List α) (a b : α) :
    b ∈ (if l.contains a then l else l ++ [a]) ↔ b ∈ l ∨ b = a := by
  split
  · next h =>
    have ha : a ∈ l := List.contains_iff_mem.mp h
    constructor
    · exact Or.inl
    · rintro (hb | rfl)
      · exact hb
      · exact ha
  · rw [List.mem_append, List.mem_singleton]

theorem nodup_append_new {α : Type} [BEq α] [LawfulBEq α] {l : List α} (hl : l.Nodup) (a : α) :
    (if l.contains a then l else l ++ [a]).Nodup := by
  split
  · exact hl
  · next hc =>
    have ha : a ∉ l := fun hm => hc (List.contains_iff_mem.mpr hm)
    rw [List.nodup_append]
    refine ⟨hl, List.nodup_singleton a, ?_⟩
    intro x hx y hy
    rw [List.mem_singleton] at hy
    rintro rfl
    exact ha (hy ▸ hx)

namespace CallGraph

theorem foldl_distinct (l seen : List String) (h : seen.Nodup) :
    (l.foldl (fun seen a => if seen.contains a then seen else seen ++ [a]) seen).Nodup ∧
      ∀ b, b ∈ l.foldl (fun seen a => if seen.contains a then seen else seen ++ [a]) seen ↔
        b ∈ seen ∨ b ∈ l := by
  induction l generalizing seen with
  | nil => exact ⟨h, fun b => by simp⟩
  | cons a rest ih =>
    obtain ⟨hn, hm⟩ := ih _ (nodup_append_new h a)
    refine ⟨hn, fun b => ?_⟩
    rw [List.foldl_cons, hm, mem_append_new, List.mem_cons, or_assoc]

theorem nodup_distinct (l : List String) : (distinct l).Nodup :=
  (foldl_distinct l [] List.nodup_nil).1

theorem mem_distinct (l : List String) (b : String) : b ∈ distinct l ↔ b ∈ l := by
  have h := (foldl_distinct l [] List.nodup_nil).2 b
  rw [List.mem_nil_iff, false_or] at h
  exact h

/-! ## Grouping by callers -/

/-- An edge comes in once, in the group of its caller. -/
theorem flatMap_group_cons (keys : List String) (hk : keys.Nodup) (e : CallEdge)
    (he : e.caller ∈ keys) (l : List CallEdge) :
    (keys.flatMap fun n => (e :: l).filter fun f => f.caller == n).Perm
      (e :: keys.flatMap fun n => l.filter fun f => f.caller == n) := by
  induction keys with
  | nil => exact absurd he List.not_mem_nil
  | cons n rest ih =>
    rw [List.nodup_cons] at hk
    rw [List.flatMap_cons, List.flatMap_cons]
    by_cases hn : e.caller = n
    · subst hn
      have hrest : (rest.flatMap fun n => (e :: l).filter fun f => f.caller == n) =
          rest.flatMap fun n => l.filter fun f => f.caller == n := by
        apply List.flatMap_congr
        intro n' hn'
        have hne : ¬ e.caller = n' := fun h => hk.1 (h ▸ hn')
        rw [List.filter_cons_of_neg (by simpa using hne)]
      rw [hrest, List.filter_cons_of_pos (by simp), List.cons_append]
    · have hrest := ih hk.2 ((List.mem_cons.mp he).resolve_left hn)
      rw [List.filter_cons_of_neg (by simpa using hn)]
      exact (hrest.append_left _).trans List.perm_middle

theorem flatMap_group_perm (keys : List String) (hk : keys.Nodup) (l : List CallEdge)
    (hl : ∀ e ∈ l, e.caller ∈ keys) :
    (keys.flatMap fun n => l.filter fun f => f.caller == n).Perm l := by
  induction l with
  | nil => simp
  | cons e rest ih =>
    have hr := ih fun f hf => hl f (List.mem_cons_of_mem e hf)
    exact (flatMap_group_cons keys hk e (hl e List.mem_cons_self) rest).trans (hr.cons e)

theorem inEdges_perm (g : CallGraph) (callee : String) :
    (g.inEdges callee).Perm (g.edges.filter fun e => e.callee == callee) := by
  apply flatMap_group_perm _ (nodup_distinct _)
  intro e he
  rw [mem_distinct]
  exact List.mem_map_of_mem he

/-! ## The edges of a program -/

theorem edges_addNode (g : CallGraph) (n : String) : (g.addNode n).edges = g.edges := by
  unfold addNode
  split <;> rfl

theorem edges_addEdge (g : CallGraph) (e : CallEdge) : (g.addEdge e).edges = putEdge e g.edges := by
  unfold addEdge
  simp only [edges_addNode]

theorem mem_putEdge (e f : CallEdge) (l : List CallEdge) (h : f ∈ putEdge e l) : f = e ∨ f ∈ l := by
  induction l with
  | nil => exact Or.inl (List.mem_singleton.mp h)
  | cons a rest ih =>
    unfold putEdge at h
    split at h
    · rcases List.mem_cons.mp h with h | h
      · exact Or.inl h
      · exact Or.inr (List.mem_cons_of_mem a h)
    · rcases List.mem_cons.mp h with h | h
      · exact Or.inr (h ▸ List.mem_cons_self)
      · exact (ih h).imp id (List.mem_cons_of_mem a)

theorem length_putEdge_le (e : CallEdge) (l : List CallEdge) :
    (putEdge e l).length ≤ l.length + 1 := by
  induction l with
  | nil => simp [putEdge]
  | cons a rest ih =>
    unfold putEdge
    split
    · simp
    · rw [List.length_cons, List.length_cons]
      omega

theorem putEdge_of_new (e : CallEdge) (l : List CallEdge) (h : ∀ f ∈ l, f.site.id ≠ e.site.id) :
    putEdge e l = l ++ [e] := by
  induction l with
  | nil => rfl
  | cons a rest ih =>
    have ha : a.sameKey e = false := by
      have hne := h a List.mem_cons_self
      simp [CallEdge.sameKey, hne]
    unfold putEdge
    rw [ha, ih fun f hf => h f (List.mem_cons_of_mem a hf)]
    rfl

theorem edges_foldl_addNode (ms : List Method) (g : CallGraph) :
    (ms.foldl (fun g m => g.addNode m.id) g).edges = g.edges := by
  induction ms generalizing g with
  | nil => rfl
  | cons m rest ih => rw [List.foldl_cons, ih, edges_addNode]

theorem foldl_addEdge_bounds (cs : List CallSite) (g : CallGraph) :
    (cs.foldl (fun g c => g.addEdge c.edge) g).edges.length ≤ g.edges.length + cs.length ∧
      ∀ e ∈ (cs.foldl (fun g c => g.addEdge c.edge) g).edges,
        e ∈ g.edges ∨ ∃ c ∈ cs, e = c.edge := by
  induction cs generalizing g with
  | nil => exact ⟨Nat.le_refl _, fun e he => Or.inl he⟩
  | cons c rest ih =>
    obtain ⟨hlen, hmem⟩ := ih (g.addEdge c.edge)
    rw [edges_addEdge] at hlen hmem
    have hput := length_putEdge_le c.edge g.edges
    refine ⟨by rw [List.foldl_cons, List.length_cons]; omega, fun e he => ?_⟩
    rcases hmem e he with h | ⟨c', hc', rfl⟩
    · rcases mem_putEdge c.edge e g.edges h with rfl | h
      · exact Or.inr ⟨c, List.mem_cons_self, rfl⟩
      · exact Or.inl h
    · exact Or.inr ⟨c', List.mem_cons_of_mem c hc', rfl⟩

theorem edges_foldl_addEdge (cs : List CallSite) (g : CallGraph) (hcs : (cs.map CallSite.id).Nodup)
    (hg : ∀ e ∈ g.edges, ∀ c ∈ cs, e.site.id ≠ c.id) :
    (cs.foldl (fun g c => g.addEdge c.edge) g).edges = g.edges ++ cs.map CallSite.edge := by
  induction cs generalizing g with
  | nil => simp
  | cons c rest ih =>
    rw [List.map_cons, List.nodup_cons] at hcs
    have hput : (g.addEdge c.edge).edges = g.edges ++ [c.edge] := by
      rw [edges_addEdge]
      exact putEdge_of_new _ _ fun f hf => hg f hf c List.mem_cons_self
    rw [List.foldl_cons, ih _ hcs.2, hput, List.map_cons, List.append_assoc, List.singleton_append]
    intro e he c' hc'
    rw [hput, List.mem_append, List.mem_singleton] at he
    rcases he with he | rfl
    · exact hg e he c' (List.mem_cons_of_mem c hc')
    · intro heq
      exact hcs.1 (heq ▸ List.mem_map_of_mem hc')

theorem mem_edges_ofProgram (p : Program) (e : CallEdge) (he : e ∈ (ofProgram p).edges) :
    ∃ c ∈ p.callSites, e = c.edge := by
  unfold ofProgram at he
  have h := (foldl_addEdge_bounds p.callSites _).2 e he
  rw [edges_foldl_addNode] at h
  exact h.resolve_left List.not_mem_nil

theorem length_edges_ofProgram_le (p : Program) :
    (ofProgram p).edges.length ≤ p.callSites.length := by
  have h := (foldl_addEdge_bounds p.callSites (p.methods.foldl (fun g m => g.addNode m.id) {})).1
  rw [edges_foldl_addNode, List.length_nil, Nat.zero_add] at h
  exact h

/-- With distinct identifiers each call has its edge. -/
theorem edges_ofProgram (p : Program) (hp : (p.callSites.map CallSite.id).Nodup) :
    (ofProgram p).edges = p.callSites.map CallSite.edge := by
  unfold ofProgram
  rw [edges_foldl_addEdge p.callSites _ hp, edges_foldl_addNode]
  · rfl
  · intro e he
    rw [edges_foldl_addNode] at he
    exact absurd he List.not_mem_nil

end CallGraph

/-! ## The callers -/

namespace Program

theorem callersOf_perm (p : Program) (methodId : String) :
    (p.callersOf methodId).Perm
      (((CallGraph.ofProgram p).edges.filter fun e => e.callee == methodId).map (·.site)) := by
  unfold callersOf
  exact (perm_sortBy _ _).trans ((CallGraph.inEdges_perm _ _).map _)

theorem length_callersOfMethod_le (p : Program) (m : Method) :
    (p.callersOfMethod m).length ≤ p.callSites.length := by
  unfold callersOfMethod
  calc ((p.callersOf m.id).filter _).length ≤ (p.callersOf m.id).length := List.length_filter_le _ _
    _ = ((CallGraph.ofProgram p).edges.filter fun e => e.callee == m.id).length := by
        rw [(p.callersOf_perm m.id).length_eq, List.length_map]
    _ ≤ (CallGraph.ofProgram p).edges.length := List.length_filter_le _ _
    _ ≤ p.callSites.length := CallGraph.length_edges_ofProgram_le p

theorem mem_callSites_of_mem_callersOfMethod {p : Program} {m : Method} {c : CallSite}
    (h : c ∈ p.callersOfMethod m) : c ∈ p.callSites := by
  unfold callersOfMethod at h
  have h' := (p.callersOf_perm m.id).mem_iff.mp (List.mem_filter.mp h).1
  obtain ⟨e, he, rfl⟩ := List.mem_map.mp h'
  obtain ⟨c, hc, rfl⟩ := CallGraph.mem_edges_ofProgram p e (List.mem_filter.mp he).1
  exact hc

theorem mem_callersOfMethod {p : Program} (hp : (p.callSites.map CallSite.id).Nodup) {m : Method}
    {c : CallSite} :
    c ∈ p.callersOfMethod m ↔ c ∈ p.callSites ∧ c.target = ⟨m.id, m.declaringType, m.name⟩ := by
  have hof : c ∈ p.callersOf m.id ↔ c ∈ p.callSites ∧ c.target.methodId = m.id := by
    rw [(p.callersOf_perm m.id).mem_iff, CallGraph.edges_ofProgram p hp, List.filter_map,
      List.map_map, List.mem_map]
    constructor
    · rintro ⟨c', hc', rfl⟩
      have h := List.mem_filter.mp hc'
      exact ⟨h.1, by simpa [CallSite.edge] using h.2⟩
    · rintro ⟨hc, ht⟩
      exact ⟨c, List.mem_filter.mpr ⟨hc, by simpa [CallSite.edge] using ht⟩, rfl⟩
  unfold callersOfMethod
  rw [List.mem_filter, hof]
  cases ht : c.target with
  | mk methodId declaringType name =>
    simp [and_assoc]

theorem callSite?_of_mem {p : Program} (hp : (p.callSites.map CallSite.id).Nodup) {c : CallSite}
    (hc : c ∈ p.callSites) : p.callSite? c.id = some c := by
  unfold callSite?
  cases h : p.callSites.find? (fun d => d.id == c.id) with
  | none =>
    have := List.find?_eq_none.mp h c hc
    simp at this
  | some d =>
    have hid : d.id = c.id := by simpa using List.find?_some h
    have hd := List.mem_of_find?_eq_some h
    rw [List.inj_on_of_nodup_map hp hd hc hid]

theorem id_of_local? {p : Program} {id : String} {l : LocalVariable} (h : p.local? id = some l) :
    l.id = id := by
  unfold local? at h
  simpa using List.find?_some h

theorem mem_locals_of_local? {p : Program} {id : String} {l : LocalVariable}
    (h : p.local? id = some l) : l ∈ p.locals := by
  unfold local? at h
  exact List.mem_reverse.mp (List.mem_of_find?_eq_some h)

end Program

end TypeOrigins
