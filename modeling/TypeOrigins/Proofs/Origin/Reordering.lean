import TypeOrigins.Proofs.Origin.DepthLimit
import TypeOrigins.Proofs.Origin.Extension
import TypeOrigins.Proofs.Program.Reordering

/-! # The search in another order

The flow graph of a program does not depend on the order of its declarations: in each order it is a
part of what it is in the other, so that walks, distances and failing places stay. Hence the search
ends in the same of its three ways, with the same types if it succeeds; only which of the nearest
failures, or of the nearest calls beyond the limit, it reports may change. -/

namespace TypeOrigins
set_option autoImplicit false

namespace Program.Reordered
variable {p q : Program} (h : p.Reordered q) (hp : p.DistinctIds)
include h hp

/-! ## The flow graph -/

theorem subjectAt_eq (x : Place) : p.subjectAt x = q.subjectAt x := by
  unfold Program.subjectAt
  rw [h.callSite?_eq hp, h.local?_eq hp]

theorem subgraph : Flow.Subgraph p q :=
  ⟨h.method?_eq hp, h.local?_eq hp, fun _ _ => (h.mem_callersOfMethod_iff hp).mp⟩

theorem walk {origin c : CallSite} {start y : Place} {k : ℕ} (w : Flow.Walk p origin start k c y) :
    Flow.Walk q origin start k c y :=
  ((h.subgraph hp).walk hp.callSites (h.distinctIds hp).callSites (h.subjectAt_eq hp start) w).1

theorem walk_iff {origin c : CallSite} {start y : Place} {k : ℕ} :
    Flow.Walk p origin start k c y ↔ Flow.Walk q origin start k c y :=
  ⟨h.walk hp, h.symm.walk (h.distinctIds hp)⟩

theorem distance_iff {origin : CallSite} {start y : Place} {k : ℕ} :
    Flow.Distance p origin start y k ↔ Flow.Distance q origin start y k := by
  simp only [Flow.Distance, h.walk_iff hp]

theorem reachable_iff {origin : CallSite} {start y : Place} :
    Flow.Reachable p origin start y ↔ Flow.Reachable q origin start y := by
  simp only [Flow.Reachable, h.walk_iff hp]

theorem fails {y : Place} (hf : Flow.Fails p y) : Flow.Fails q y :=
  (h.subgraph hp).fails (h.subjectAt_eq hp y) hf

theorem fails_iff {y : Place} : Flow.Fails p y ↔ Flow.Fails q y :=
  ⟨h.fails hp, h.symm.fails (h.distinctIds hp)⟩

end Program.Reordered

/-! ## Verdicts -/

namespace Verdict
variable {p : Program} {limit : Int} {origin : CallSite} {start : Place}
  {result : Except Failure (List TypeReference)}

theorem exists_ok_iff (h : Verdict p limit origin start result) : (∃ refs, result = .ok refs) ↔
    ∀ y k, Flow.Distance p origin start y k → ¬ Flow.Fails p y ∧ (k : Int) ≤ limit := by
  cases h with
  | complete refs nodup within mem_iff =>
    refine ⟨fun _ y k hk => ?_, fun _ => ⟨refs, rfl⟩⟩
    obtain ⟨hf, j, hj, hle⟩ := within y hk.reachable
    rw [hk.unique hj]
    exact ⟨hf, hle⟩
  | failed w f located distance le_limit error nearest =>
    refine ⟨by simp, fun hall => ?_⟩
    exact absurd ⟨w, f, rfl, located.subject_eq, error⟩ (hall _ _ distance).1
  | tooFar w located distance beyond near within =>
    refine ⟨by simp, fun hall => ?_⟩
    have := (hall _ _ distance).2
    omega

theorem mem_iff_of_ok {refs : List TypeReference} (h : Verdict p limit origin start (.ok refs))
    (r : TypeReference) : r ∈ refs ↔ ∃ y, Flow.Reachable p origin start y ∧ (p.subjectAt y).Names r := by
  cases h with
  | complete _ nodup within mem_iff => exact mem_iff r

theorem depthLimit_iff (h : Verdict p limit origin start result) :
    (∃ f, result = .error f ∧ f.cause.category = .depthLimit) ↔
      (∀ y k, Flow.Distance p origin start y k → (k : Int) ≤ limit → ¬ Flow.Fails p y) ∧
        ∃ y k, Flow.Distance p origin start y k ∧ limit < (k : Int) := by
  cases h with
  | complete refs nodup within mem_iff =>
    refine ⟨by simp, ?_⟩
    rintro ⟨_, y, k, hk, hlt⟩
    obtain ⟨_, j, hj, hle⟩ := within y hk.reachable
    have := hk.unique hj
    omega
  | failed w f located distance le_limit error nearest =>
    constructor
    · rintro ⟨f', hf', hdeep⟩
      cases hf'
      exact absurd hdeep (Work.category_of_expand error)
    · rintro ⟨hno, _⟩
      exact absurd ⟨w, f, rfl, located.subject_eq, error⟩ (hno _ _ distance le_limit)
  | tooFar w located distance beyond near within =>
    exact ⟨fun _ => ⟨within, _, _, distance, beyond⟩, fun _ => ⟨_, rfl, rfl⟩⟩

end Verdict

/-! ## Searches -/

namespace Program.Reordered
variable {p q : Program} (h : p.Reordered q) (hp : p.DistinctIds) {site : CallSite}
  (hsite : site ∈ p.callSites) (limit : Int) (api : Option Api)
include h hp hsite

theorem resolve_verdicts {w : Work} (hw : seed site api = .ok w) :
    Verdict p limit site w.place (resolve p limit site api).result ∧
      Verdict q limit site w.place (resolve q limit site api).result :=
  ⟨resolve_verdict hp.callSites limit hsite hw,
    resolve_verdict (h.distinctIds hp).callSites limit (h.callSites.mem_iff.mp hsite) hw⟩

theorem resolve_exists_ok_iff : (∃ refs, (resolve p limit site api).result = .ok refs) ↔
    ∃ refs, (resolve q limit site api).result = .ok refs := by
  cases hw : seed site api with
  | error f => rw [resolve_eq_error_of_seed hw, resolve_eq_error_of_seed hw]
  | ok w =>
    obtain ⟨hv, hv'⟩ := h.resolve_verdicts hp hsite limit api hw
    rw [hv.exists_ok_iff, hv'.exists_ok_iff]
    simp only [h.distance_iff hp, h.fails_iff hp]

theorem resolve_mem_iff {refs refs' : List TypeReference}
    (hr : (resolve p limit site api).result = .ok refs)
    (hr' : (resolve q limit site api).result = .ok refs') (r : TypeReference) :
    r ∈ refs ↔ r ∈ refs' := by
  cases hw : seed site api with
  | error f =>
    rw [resolve_eq_error_of_seed hw] at hr
    cases hr
  | ok w =>
    obtain ⟨hv, hv'⟩ := h.resolve_verdicts hp hsite limit api hw
    rw [hr] at hv
    rw [hr'] at hv'
    rw [hv.mem_iff_of_ok, hv'.mem_iff_of_ok]
    simp only [h.reachable_iff hp, h.subjectAt_eq hp]

theorem resolve_depthLimit_iff :
    (∃ f, (resolve p limit site api).result = .error f ∧ f.cause.category = .depthLimit) ↔
      ∃ f, (resolve q limit site api).result = .error f ∧ f.cause.category = .depthLimit := by
  cases hw : seed site api with
  | error f => rw [resolve_eq_error_of_seed hw, resolve_eq_error_of_seed hw]
  | ok w =>
    obtain ⟨hv, hv'⟩ := h.resolve_verdicts hp hsite limit api hw
    rw [hv.depthLimit_iff, hv'.depthLimit_iff]
    simp only [h.distance_iff hp, h.fails_iff hp]

/-- If one search says that it met its limit, so does the other, unless the call at which it stops
stands at a position that is too long to be written. -/
theorem resolve_raised_depthLimit {f g : Failure} (hf : (resolve p limit site api).result = .error f)
    (hg : (resolve q limit site api).result = .error g) (hraised : f.raised = .ok .depthLimit) :
    g.raised = .ok .depthLimit ∨
      g.raised = .error .longInteger ∧ g.site.location.isWritable = false := by
  obtain ⟨hwritable, hc⟩ := Failure.raised_eq_ok hraised
  obtain ⟨g', hg', hc'⟩ := (h.resolve_depthLimit_iff hp hsite limit api).mp ⟨f, hf, hc⟩
  obtain rfl : g = g' := Except.error.inj (hg.symm.trans hg')
  obtain ⟨c, hmem, rfl⟩ := resolve_depthLimit hf hc
  obtain ⟨c', _, rfl⟩ := resolve_depthLimit hg hc'
  simp only [Failure.isWritable, Cause.isWritable, Option.all_some, Bool.and_eq_true, Bool.or_eq_true,
    Bool.not_eq_true', beq_iff_eq] at hwritable
  obtain ⟨⟨hlimit, hat⟩, horigin⟩ := hwritable
  have hwritten : site.location.isWritable = true := by
    rcases horigin with hid | hwritten
    · have hc : c ∈ p.callSites := (List.mem_cons.mp hmem).elim (fun he => he ▸ hsite) id
      rw [List.inj_on_of_nodup_map hp.callSites hsite hc hid]
      exact hat
    · exact hwritten
  rcases raised_of_depthExceeded (h.distinctIds hp).callSites (h.callSites.mem_iff.mp hsite) hg rfl with
    hok | ⟨hlong, hreason⟩
  · exact Or.inl hok
  · refine Or.inr ⟨hlong, ?_⟩
    simpa [hwritten, hlimit] using hreason

end Program.Reordered

end TypeOrigins
