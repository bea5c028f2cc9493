import TypeOrigins.Proofs.Origin.Frontier

/-! # The search with further calls

A further call gives a method one more caller: the flow graph gets new places and edges, and keeps
those that it has. A place that fails goes on to fail, though perhaps for another reason. So where a
search succeeds with the further calls it finds at least what it finds without them, and without
them it can fail only because the ways are longer. -/

namespace TypeOrigins
set_option autoImplicit false

/-! ## Larger flow graphs -/

namespace Flow

/-- The flow graph of the first program is a part of that of the second. -/
structure Subgraph (p q : Program) : Prop where
  methods : ∀ id, p.method? id = q.method? id
  locals : ∀ id, p.local? id = q.local? id
  callers : ∀ m c, c ∈ p.callersOfMethod m → c ∈ q.callersOfMethod m

namespace Subgraph
variable {p q : Program} (h : Subgraph p q)
include h

theorem edge {s t : Subject} {via : Option CallSite} {y : Place} (e : Edge p s via y t) :
    Edge q s via y t := by
  cases e with
  | initializer hl hi ha => exact .initializer (h.locals _ ▸ hl) hi ha
  | argument hm hc he => exact .argument (h.methods _ ▸ hm) (h.callers _ _ hc) he
  | typeArgument hs ho hm hc ht =>
    exact .typeArgument hs ho (h.methods _ ▸ hm) (h.callers _ _ hc) ht

/-- If the same stands at the start, a walk stays a walk and leads to the same. -/
theorem walk (hp : (p.callSites.map CallSite.id).Nodup) (hq : (q.callSites.map CallSite.id).Nodup)
    {origin c : CallSite} {start y : Place} {k : ℕ} (hs : p.subjectAt start = q.subjectAt start)
    (w : Walk p origin start k c y) : Walk q origin start k c y ∧ p.subjectAt y = q.subjectAt y := by
  induction w with
  | start => exact ⟨.start, hs⟩
  | within _ e ih =>
    have e' := h.edge e
    exact ⟨ih.1.within (ih.2 ▸ e'), (e.subjectAt_eq hp).trans (e'.subjectAt_eq hq).symm⟩
  | caller _ e ih =>
    have e' := h.edge e
    exact ⟨ih.1.caller (ih.2 ▸ e'), (e.subjectAt_eq hp).trans (e'.subjectAt_eq hq).symm⟩

theorem exists_find?_callers {m : Method} {test : CallSite → Bool} {d : CallSite}
    (hd : (p.callersOfMethod m).find? test = some d) :
    ∃ d', (q.callersOfMethod m).find? test = some d' := by
  have hmem := h.callers m d (List.mem_of_find?_eq_some hd)
  exact Option.isSome_iff_exists.mp (List.find?_isSome.mpr ⟨d, hmem, List.find?_some hd⟩)

theorem fault {site d : CallSite} {s : Subject} {construct : String} {cause : Cause}
    (hf : Fault p site s d construct cause) :
    ∃ d' construct' cause', Fault q site s d' construct' cause' := by
  cases hf with
  | nothing => exact ⟨_, _, _, .nothing⟩
  | untraced note kind => exact ⟨_, _, _, .untraced note kind⟩
  | receiverType hr => exact ⟨_, _, _, .receiverType hr⟩
  | openType hs ho => exact ⟨_, _, _, .openType hs ho⟩
  | assembly hs hc ha => exact ⟨_, _, _, .assembly hs hc ha⟩
  | enclosingType hs ho => exact ⟨_, _, _, .enclosingType hs ho⟩
  | typeParameterMethod hs ho hm => exact ⟨_, _, _, .typeParameterMethod hs ho (h.methods _ ▸ hm)⟩
  | unbound hs ho hm hd =>
    obtain ⟨d', hd'⟩ := h.exists_find?_callers hd
    exact ⟨d', _, _, .unbound hs ho (h.methods _ ▸ hm) hd'⟩
  | undeclared hl => exact ⟨_, _, _, .undeclared (h.locals _ ▸ hl)⟩
  | uninitialized hl hi => exact ⟨_, _, _, .uninitialized (h.locals _ ▸ hl) hi⟩
  | reassigned hl hi ha => exact ⟨_, _, _, .reassigned (h.locals _ ▸ hl) hi ha⟩
  | parameterMethod hm => exact ⟨_, _, _, .parameterMethod (h.methods _ ▸ hm)⟩
  | parameterName hm hname => exact ⟨_, _, _, .parameterName (h.methods _ ▸ hm) hname⟩
  | genericCaller hm hname hd =>
    obtain ⟨d', hd'⟩ := h.exists_find?_callers hd
    exact ⟨d', _, _, .genericCaller (h.methods _ ▸ hm) hname hd'⟩
  -- a generic caller among the new ones is reported first
  | @argumentMissing note methodId k m name d hm hname hg hd =>
    obtain ⟨d', hd'⟩ := h.exists_find?_callers hd
    cases hg' : (q.callersOfMethod m).find? CallSite.isGeneric with
    | none => exact ⟨d', _, _, .argumentMissing (h.methods _ ▸ hm) hname hg' hd'⟩
    | some g => exact ⟨g, _, _, .genericCaller (h.methods _ ▸ hm) hname hg'⟩
  | @argumentBefore note methodId k m name d hm hname hg hk hd =>
    obtain ⟨d', hd'⟩ := h.exists_find?_callers hd
    cases hg' : (q.callersOfMethod m).find? CallSite.isGeneric with
    | none => exact ⟨d', _, _, .argumentBefore (h.methods _ ▸ hm) hname hg' hk hd'⟩
    | some g => exact ⟨g, _, _, .genericCaller (h.methods _ ▸ hm) hname hg'⟩

theorem fails {y : Place} (hs : p.subjectAt y = q.subjectAt y) (hf : Fails p y) : Fails q y := by
  obtain ⟨site, d, construct, cause, hfault⟩ := fails_iff.mp hf
  obtain ⟨d', construct', cause', hfault'⟩ := h.fault hfault
  exact fails_iff.mpr ⟨site, d', construct', cause', hs ▸ hfault'⟩

end Subgraph

end Flow

/-! ## Further calls -/

/-- The second program has further calls, anywhere among those of the first. -/
structure Program.Extended (p q : Program) : Prop where
  methods : p.methods = q.methods
  locals : p.locals = q.locals
  callSites : p.callSites.Sublist q.callSites

namespace Program.Extended
variable {p q : Program} (h : p.Extended q) (hq : (q.callSites.map CallSite.id).Nodup)
include h hq

theorem nodup : (p.callSites.map CallSite.id).Nodup := hq.sublist (h.callSites.map _)

theorem subgraph : Flow.Subgraph p q := by
  constructor
  · intro id
    unfold method?
    rw [h.methods]
  · intro id
    unfold local?
    rw [h.locals]
  · intro m c hc
    obtain ⟨hin, ht⟩ := (mem_callersOfMethod (h.nodup hq)).mp hc
    exact (mem_callersOfMethod hq).mpr ⟨h.callSites.subset hin, ht⟩

theorem resolve_cases {site : CallSite} (hsite : site ∈ p.callSites) {limit : Int} {api : Option Api}
    {refs' : List TypeReference} (hr' : (resolve q limit site api).result = .ok refs') :
    (∃ refs, (resolve p limit site api).result = .ok refs ∧ ∀ r ∈ refs, r ∈ refs') ∨
      ∃ f, (resolve p limit site api).result = .error f ∧ f.cause = .depthExceeded limit := by
  cases hw : seed site api with
  | error f =>
    rw [resolve_eq_error_of_seed hw] at hr'
    cases hr'
  | ok w =>
    have hp := h.nodup hq
    have hstart : p.subjectAt w.place = q.subjectAt w.place :=
      (seed_subject hp hsite hw).symm.trans (seed_subject hq (h.callSites.subset hsite) hw)
    have hreach : ∀ y, Flow.Reachable p site w.place y →
        Flow.Reachable q site w.place y ∧ p.subjectAt y = q.subjectAt y := by
      rintro y ⟨k, c, hwalk⟩
      obtain ⟨hwalk', hy⟩ := (h.subgraph hq).walk hp hq hstart hwalk
      exact ⟨⟨k, c, hwalk'⟩, hy⟩
    have hv := resolve_verdict hp limit hsite hw
    have hv' := resolve_verdict hq limit (h.callSites.subset hsite) hw
    rw [hr'] at hv'
    cases hv' with
    | complete _ _ within mem_iff' =>
      generalize (resolve p limit site api).result = result at hv ⊢
      cases hv with
      | complete refs _ _ mem_iff =>
        refine Or.inl ⟨refs, rfl, fun r hr => ?_⟩
        obtain ⟨y, hy, hnames⟩ := (mem_iff r).mp hr
        obtain ⟨hy', hsub⟩ := hreach y hy
        exact (mem_iff' r).mpr ⟨y, hy', hsub ▸ hnames⟩
      | failed v f located distance _ error _ =>
        obtain ⟨hy', hsub⟩ := hreach v.place distance.reachable
        have hfails := (h.subgraph hq).fails hsub ⟨v, f, rfl, located.subject_eq, error⟩
        exact absurd hfails (within v.place hy').1
      | tooFar => exact Or.inr ⟨_, rfl, rfl⟩

end Program.Extended

end TypeOrigins
