import TypeOrigins.Proofs.Origin.Frontier

/-! # Which failure a search reports

A search reports a failure of a nearest place that fails, if one is within the limit, and the limit
only if none is. The report names the call that the walk to the place met last or one of the callers
that leave the place without a type, and the origin when it is another call. The failure surfaces in
its category unless a position counts back to before the first, or a number in the report is too
long to be written. -/

namespace TypeOrigins
set_option autoImplicit false

/-! ## Who is named -/

/-- A direct caller at which the type of a parameter, or of a type parameter, cannot be read. -/
inductive Flow.Blamed (p : Program) : Subject → CallSite → Prop
  | unbound {s : Subject} {t : TypeParameter} {m : Method} {d : CallSite}
      (hs : s.symbol? = some (.parameter t)) (ho : t.ownerKind = .method)
      (hm : p.method? t.ownerId = some m) (hd : d ∈ p.callersOfMethod m)
      (hn : (d.typeArguments.length : Int) ≤ t.ordinal) : Blamed p s d
  | missing {note : Annotation} {methodId : String} {k : Int} {m : Method} {d : CallSite}
      (hm : p.method? methodId = some m) (hd : d ∈ p.callersOfMethod m)
      (hn : at? d.arguments k = none) : Blamed p (.value (.parameterRef note methodId k)) d
  | generic {note : Annotation} {methodId : String} {k : Int} {m : Method} {d : CallSite}
      (hm : p.method? methodId = some m) (hd : d ∈ p.callersOfMethod m)
      (hg : d.isGeneric = true) : Blamed p (.value (.parameterRef note methodId k)) d

section Faults
variable {p : Program} {out : Place → Bool} {site d : CallSite} {s : Subject} {construct : String}
  {cause : Cause}

theorem Flow.Blamed.mem_callSites (h : Flow.Blamed p s d) : d ∈ p.callSites := by
  cases h with
  | unbound hs ho hm hd hn => exact Program.mem_callSites_of_mem_callersOfMethod hd
  | missing hm hd hn => exact Program.mem_callSites_of_mem_callersOfMethod hd
  | generic hm hd hg => exact Program.mem_callSites_of_mem_callersOfMethod hd

theorem FaultUnder.eq_or_blamed (h : FaultUnder p out site s d construct cause) :
    d = site ∨ Flow.Blamed p s d := by
  cases h with
  | unbound hs ho hm hd =>
    exact Or.inr (.unbound hs ho hm (List.mem_of_find?_eq_some hd) (by simpa using List.find?_some hd))
  | genericCaller hm hname hd =>
    exact Or.inr (.generic hm (List.mem_of_find?_eq_some hd) (List.find?_some hd))
  | @argumentMissing _ _ k _ _ _ hm hname hg hd =>
    have hle : (d.arguments.length : Int) ≤ k := by simpa using List.find?_some hd
    exact Or.inr (.missing hm (List.mem_of_find?_eq_some hd) (at?_eq_none_iff.mpr (Or.inl hle)))
  | argumentBefore hm hname hg hk hd =>
    have hboth := List.find?_some hd
    rw [Bool.and_eq_true] at hboth
    exact Or.inr (.missing hm (List.mem_of_find?_eq_some hd) (Option.isNone_iff_eq_none.mp hboth.2))
  | nothing | untraced | receiverType | openType | assembly | enclosingType | typeParameterMethod
  | undeclared | uninitialized | reassigned | parameterMethod | parameterName => exact Or.inl rfl

theorem Method.parameterName_eq_error {m : Method} {k : Int}
    (h : m.parameterName k = .error cause) :
    cause = .positionOutOfRange ∧ k < 0 ∨ cause = .parameterUnnamed ∧ Text.isLong k = true := by
  unfold parameterName at h
  split at h
  · cases h
  · split at h
    · next hk =>
      cases h
      exact Or.inl ⟨rfl, hk⟩
    · split at h
      · next hk =>
        cases h
        exact Or.inr ⟨rfl, hk⟩
      · cases h

/-- A fault is of an unsupported pattern or of missing information and told without a number, or a
position of its subject counts from the end or is too long to be written. -/
theorem FaultUnder.category (h : FaultUnder p out site s d construct cause) :
    (cause.category = .unsupported ∨ cause.category = .missingInfo) ∧ cause.isWritable = true ∨
      cause = .positionOutOfRange ∧ (s = .nothing ∨ ∃ k ∈ s.ordinal?, k < 0) ∨
      cause = .parameterUnnamed ∧ ∃ k ∈ s.ordinal?, Text.isLong k = true := by
  cases h with
  | nothing => exact Or.inr (Or.inl ⟨rfl, Or.inl rfl⟩)
  | @parameterName _ _ k _ _ hm hname =>
    rcases Method.parameterName_eq_error hname with ⟨hc, hk⟩ | ⟨hc, hk⟩
    · exact Or.inr (Or.inl ⟨hc, Or.inr ⟨k, rfl, hk⟩⟩)
    · exact Or.inr (Or.inr ⟨hc, k, rfl, hk⟩)
  | @argumentBefore _ _ k _ _ _ hm hname hg hk hd =>
    exact Or.inr (Or.inl ⟨rfl, Or.inr ⟨k, rfl, hk⟩⟩)
  | receiverType | assembly | typeParameterMethod | undeclared | parameterMethod =>
    exact Or.inl ⟨Or.inr rfl, rfl⟩
  | untraced | openType | enclosingType | unbound | uninitialized | reassigned | genericCaller
  | argumentMissing => exact Or.inl ⟨Or.inl rfl, rfl⟩

end Faults

/-- A step that fails within the limit fails for another reason. -/
theorem Work.category_of_expand {p : Program} {w : Work} {f : Failure}
    (h : (w.expand p).result = .error f) : f.cause.category ≠ .depthLimit := by
  obtain ⟨d, construct, cause, hfault, rfl⟩ := Work.expand_eq_error_iff.mp h
  change cause.category ≠ .depthLimit
  rcases hfault.category with ⟨hk | hk, _⟩ | ⟨rfl, _⟩ | ⟨rfl, _⟩
  · rw [hk]
    decide
  · rw [hk]
    decide
  · decide
  · decide

theorem Flow.Edge.mem_callSites {p : Program} {s s' : Subject} {c : CallSite} {y : Place}
    (h : Flow.Edge p s (some c) y s') : c ∈ p.callSites := by
  cases h with
  | argument hm hc he => exact Program.mem_callSites_of_mem_callersOfMethod hc
  | typeArgument hs ho hm hc ht => exact Program.mem_callSites_of_mem_callersOfMethod hc

section Walks
variable {p : Program} {origin c : CallSite} {start y : Place} {k : ℕ}

theorem Flow.Walk.mem_callSites (ho : origin ∈ p.callSites) (h : Flow.Walk p origin start k c y) :
    c ∈ p.callSites := by
  induction h with
  | start => exact ho
  | within _ _ ih => exact ih
  | caller _ e _ => exact e.mem_callSites

/-- Beyond the start nothing stands only where a position counts from the end. -/
theorem Flow.Walk.eq_start_of_nothing (hp : (p.callSites.map CallSite.id).Nodup)
    (h : Flow.Walk p origin start k c y) (hs : p.subjectAt y = .nothing) :
    y = start ∨ ∃ k ∈ p.ordinals, k < 0 := by
  have hedge : ∀ {x via s}, Flow.Edge p (p.subjectAt x) via y s → ∃ k ∈ p.ordinals, k < 0 := by
    intro x via s e
    have ht := e.subjectAt_eq hp
    rw [hs] at ht
    obtain ⟨k, hk, hneg⟩ := Edge.position_neg (ht ▸ e)
    exact ⟨k, Program.mem_ordinals_of_subjectAt hk, hneg⟩
  cases h with
  | start => exact Or.inl rfl
  | within _ e => exact Or.inr (hedge e)
  | caller _ e => exact Or.inr (hedge e)

end Walks

/-! ## How a search fails -/

section Seeds
variable {site : CallSite} {api : Option Api} {f : Failure}

theorem seed_nothing {w : Work} (h : seed site api = .ok w) (hs : w.subject = .nothing) :
    ∃ a, api = some a ∧ a.typeArgumentIndex + (site.typeArguments.length : Int) < 0 := by
  rcases seed_eq_ok h with ⟨i, hi, hlt, rfl⟩ | ⟨i, e, _, rfl⟩
  · have hbefore := at?_eq_none_iff.mp (CallSite.typeArgumentAt_eq_nothing_iff.mp hs)
    cases api with
    | none =>
      have : i = 0 := hi
      omega
    | some a =>
      have : i = a.typeArgumentIndex := hi
      exact ⟨a, rfl, by omega⟩
  · cases hs

/-- Why a search cannot begin at a call, which the failure then names alone. -/
theorem seed_eq_error (h : seed site api = .error f) : f.site = site ∧ f.origin = none ∧
    (f.cause = .noOperand ∨
      f.cause = .noTypeArgument ((api.map Api.typeArgumentIndex).getD 0) ∨
      f.cause = .noArgument ((api.map Api.valueArgumentIndex).getD 0) ∨
      f.cause = .positionOutOfRange ∧
        (api.map Api.valueArgumentIndex).getD 0 + (site.arguments.length : Int) < 0) := by
  unfold seed at h
  dsimp only at h
  split at h
  · split at h
    · cases h
      exact ⟨rfl, rfl, Or.inr (Or.inl rfl)⟩
    · cases h
  · split at h
    · cases h
      exact ⟨rfl, rfl, Or.inl rfl⟩
    · split at h
      · cases h
        exact ⟨rfl, rfl, Or.inr (Or.inr (Or.inl rfl))⟩
      · next hlt =>
        split at h
        · cases h
        · next hnone =>
          cases h
          have hbefore := at?_eq_none_iff.mp hnone
          exact ⟨rfl, rfl, Or.inr (Or.inr (Or.inr ⟨rfl, by omega⟩))⟩

theorem category_of_seed (h : seed site api = .error f) : f.cause.category ≠ .depthLimit := by
  rcases (seed_eq_error h).2.2 with h | h | h | ⟨h, _⟩
  all_goals
    rw [h]
    simp [Cause.category]

end Seeds

/-! ## What a report says -/

/-- The facts in a report of a failure at a call on the way from an origin. -/
def reportedFields (site origin : CallSite) (construct : String) : Document.Fields :=
  let siteFields : Document.Fields :=
    [("call_site", .text site.id), ("location", .text site.location.display),
      ("construct", .text construct)]
  let originFields : Document.Fields :=
    [("origin_call_site", .text origin.id), ("origin_location", .text origin.location.display)]
  if site = origin then siteFields else siteFields ++ originFields

theorem Failure.problem_extras {p : Program} (hp : (p.callSites.map CallSite.id).Nodup) {f : Failure}
    {origin : CallSite} (hf : f.site ∈ p.callSites) (ho : origin ∈ p.callSites)
    (h : f.origin = some origin) : f.problem.extras = reportedFields f.site origin f.construct := by
  have hid : origin.id = f.site.id ↔ f.site = origin := by
    constructor
    · intro he
      exact (List.inj_on_of_nodup_map hp ho hf he).symm
    · intro he
      rw [he]
  unfold problem Problem.atSite Problem.ofCode reportedFields
  rw [h]
  simp only [hid]
  split <;> rfl

/-- A failure that surfaces in a category can be written, and the category is that of its cause. -/
theorem Failure.raised_eq_ok {f : Failure} {k : Problem.Category} (h : f.raised = .ok k) :
    f.isWritable = true ∧ f.cause.category = k := by
  unfold raised at h
  split_ifs at h with hout hwritable
  exact ⟨hwritable, Except.ok.inj h⟩

/-! ## The failure of a search -/

namespace Verdict
variable {p : Program} {limit : Int} {origin : CallSite} {start : Place}
  {result : Except Failure (List TypeReference)}

theorem of_nearest (h : Verdict p limit origin start result) {y : Place} {d : ℕ}
    (hy : Flow.Distance p origin start y d) (hf : Flow.Fails p y)
    (hmin : ∀ z k, Flow.Distance p origin start z k → Flow.Fails p z → d ≤ k)
    (hd : (d : Int) ≤ limit) :
    ∃ (v : Work) (f : Failure), v.Located p origin start ∧ v.context.depth = d ∧
      Flow.Distance p origin start v.place d ∧ (v.expand p).result = .error f ∧ result = .error f := by
  cases h with
  | complete refs nodup within mem_iff => exact absurd hf (within y hy.reachable).1
  | failed v f located distance le_limit error nearest =>
    have hle := nearest y d hy hf
    have hge := hmin v.place v.context.depth distance ⟨v, f, rfl, located.subject_eq, error⟩
    have heq : v.context.depth = d := by omega
    exact ⟨v, f, located, heq, heq ▸ distance, error, rfl⟩
  | tooFar v located distance beyond near within => exact absurd hf (within y d hy hd)

theorem of_beyond (hl : 0 ≤ limit) (hs : start.BelongsTo origin) (ho : origin ∈ p.callSites)
    (h : Verdict p limit origin start result)
    (hno : ∀ y d, Flow.Distance p origin start y d → Flow.Fails p y → limit < (d : Int))
    {y : Place} {d : ℕ} (hy : Flow.Distance p origin start y d) (hd : limit < (d : Int)) :
    ∃ (c : CallSite) (x : Place) (k : ℕ), c ∈ p.callSites ∧ x.BelongsTo c ∧ Flow.Distance p origin start x k ∧
      (k : Int) = limit + 1 ∧
      result = .error ⟨c, c.target.display, .depthExceeded limit, some origin⟩ := by
  cases h with
  | complete refs nodup within mem_iff =>
    obtain ⟨_, k, hk, hle⟩ := within y hy.reachable
    have := hk.unique hy
    omega
  | failed v f located distance le_limit error nearest =>
    have := hno v.place v.context.depth distance ⟨v, f, rfl, located.subject_eq, error⟩
    omega
  | tooFar v located distance beyond near within =>
    -- The place may be a local; the position of the call before it is as far.
    obtain ⟨x, hx, hwalk, hon⟩ := located.walk.exists_position hs
    have hdist : Flow.Distance p origin start x v.context.depth :=
      ⟨⟨v.site, hwalk⟩, fun j c hj => distance.2 j c (hon j c hj)⟩
    exact ⟨v.site, x, v.context.depth, located.walk.mem_callSites ho, hx, hdist, by omega, rfl⟩

theorem mem_callSites_of_error (ho : origin ∈ p.callSites) {f : Failure}
    (h : Verdict p limit origin start (.error f)) : f.site ∈ p.callSites ∧ f.origin = some origin := by
  cases h with
  | failed v _ located distance le_limit error nearest =>
    obtain ⟨d, construct, cause, hfault, rfl⟩ := Work.expand_eq_error_iff.mp error
    refine ⟨?_, congrArg some located.origin_eq⟩
    rcases hfault.eq_or_blamed with rfl | hb
    · exact located.walk.mem_callSites ho
    · exact hb.mem_callSites
  | tooFar v located distance beyond near within => exact ⟨located.walk.mem_callSites ho, rfl⟩

end Verdict

section Searches
variable {p : Program} (hp : (p.callSites.map CallSite.id).Nodup) {limit : Int} {site : CallSite}
  (hsite : site ∈ p.callSites) {api : Option Api} {f : Failure}
  (h : (resolve p limit site api).result = .error f)
include hp hsite h

/-- A search that fails could not begin, went too far, or met a fault. -/
theorem resolve_error_cases :
    seed site api = .error f ∨ f.cause = .depthExceeded limit ∨
      ∃ w y c, seed site api = .ok w ∧ Flow.Reachable p site w.place y ∧
        Fault p c (p.subjectAt y) f.site f.construct f.cause := by
  cases hw : seed site api with
  | error f' =>
    rw [resolve_eq_error_of_seed hw] at h
    cases h
    exact Or.inl rfl
  | ok w =>
    have hv := resolve_verdict hp limit hsite hw
    rw [h] at hv
    cases hv with
    | failed v _ located distance _ error _ =>
      obtain ⟨d, construct, cause, hfault, rfl⟩ := located.exists_fault hp error
      exact Or.inr (Or.inr ⟨w, v.place, v.site, rfl, distance.reachable, hfault⟩)
    | tooFar => exact Or.inr (Or.inl rfl)

/-- The causes of the failures of a search that begins. -/
theorem cause_of_resolve {w : Work} (hw : seed site api = .ok w) :
    f.cause = .depthExceeded limit ∨
      (f.cause.category = .unsupported ∨ f.cause.category = .missingInfo) ∧
        f.cause.isWritable = true ∨
      f.cause = .positionOutOfRange ∧
        ((∃ a, api = some a ∧ a.typeArgumentIndex + (site.typeArguments.length : Int) < 0) ∨
          ∃ k ∈ p.ordinals, k < 0) ∨
      f.cause = .parameterUnnamed ∧ ∃ k ∈ p.ordinals, Text.isLong k = true := by
  rcases resolve_error_cases hp hsite h with hs | hd | ⟨w', y, c, hw', ⟨k, d, hy⟩, hfault⟩
  · rw [hw] at hs
    cases hs
  · exact Or.inl hd
  · rw [hw] at hw'
    cases hw'
    rcases hfault.category with hc | ⟨hc, hnothing | ⟨k, hk, hneg⟩⟩ | ⟨hc, k, hk, hlong⟩
    · exact Or.inr (Or.inl hc)
    · refine Or.inr (Or.inr (Or.inl ⟨hc, ?_⟩))
      refine (hy.eq_start_of_nothing hp hnothing).imp_left fun hstart => seed_nothing hw ?_
      rw [seed_subject hp hsite hw, ← hstart, hnothing]
    · exact Or.inr (Or.inr (Or.inl ⟨hc, Or.inr ⟨k, Program.mem_ordinals_of_subjectAt hk, hneg⟩⟩))
    · exact Or.inr (Or.inr (Or.inr ⟨hc, k, Program.mem_ordinals_of_subjectAt hk, hlong⟩))

/-- A failure names no positions but those of its call and of the origin. -/
theorem isWritable_of_resolve (hat : f.site.location.isWritable = true)
    (horigin : site.location.isWritable = true) : f.isWritable = f.cause.isWritable := by
  have horigins : f.origin = none ∨ f.origin = some site := by
    cases hw : seed site api with
    | error g =>
      rw [resolve_eq_error_of_seed hw] at h
      cases h
      exact Or.inl (seed_eq_error hw).2.1
    | ok w =>
      have hv := resolve_verdict hp limit hsite hw
      rw [h] at hv
      exact Or.inr (hv.mem_callSites_of_error hsite).2
  unfold Failure.isWritable
  rcases horigins with ho | ho <;> simp [ho, hat, horigin]

/-- A search that met its limit says so, unless a number in the report is too long to be written. -/
theorem raised_of_depthExceeded (hc : f.cause = .depthExceeded limit) :
    f.raised = .ok .depthLimit ∨ f.raised = .error .longInteger ∧
      (f.site.location.isWritable = false ∨ site.location.isWritable = false ∨
        Text.isLong limit = true) := by
  unfold Failure.raised
  rw [if_neg (by simp [hc])]
  cases hwritable : f.isWritable with
  | true => exact Or.inl (by rw [hc]; rfl)
  | false =>
    refine Or.inr ⟨rfl, ?_⟩
    by_contra hnone
    simp only [not_or, Bool.not_eq_false, Bool.not_eq_true] at hnone
    obtain ⟨hat, horigin, hlimit⟩ := hnone
    rw [isWritable_of_resolve hp hsite h hat horigin, hc] at hwritable
    simp [Cause.isWritable, hlimit] at hwritable

/-- What a failure surfaces as if it does not surface in its category. -/
theorem raised_of_resolve {w : Work} (hw : seed site api = .ok w) :
    f.raised = .ok f.cause.category ∨
      f.raised = .error .positionOutOfRange ∧
        ((∃ a, api = some a ∧ a.typeArgumentIndex + (site.typeArguments.length : Int) < 0) ∨
          ∃ k ∈ p.ordinals, k < 0) ∨
      f.raised = .error .longInteger ∧
        (f.site.location.isWritable = false ∨ site.location.isWritable = false ∨
          Text.isLong limit = true ∨ ∃ k ∈ p.ordinals, Text.isLong k = true) := by
  by_cases hout : f.cause = .positionOutOfRange
  · refine Or.inr (Or.inl ⟨if_pos hout, ?_⟩)
    rcases cause_of_resolve hp hsite h hw with hc | ⟨hc | hc, _⟩ | ⟨_, hreason⟩ | ⟨hc, _⟩
    all_goals first
      | exact hreason
      | (rw [hout] at hc; cases hc)
  · unfold Failure.raised
    rw [if_neg hout]
    cases hwritable : f.isWritable with
    | true => exact Or.inl rfl
    | false =>
      refine Or.inr (Or.inr ⟨rfl, ?_⟩)
      by_contra hnone
      simp only [not_or, Bool.not_eq_false, Bool.not_eq_true] at hnone
      obtain ⟨hat, horigin, hlimit, hordinals⟩ := hnone
      rw [isWritable_of_resolve hp hsite h hat horigin] at hwritable
      rcases cause_of_resolve hp hsite h hw with hc | ⟨_, hc⟩ | ⟨hc, _⟩ | ⟨_, hlong⟩
      · rw [hc] at hwritable
        simp [Cause.isWritable, hlimit] at hwritable
      · rw [hc] at hwritable
        cases hwritable
      · exact hout hc
      · exact hordinals hlong

end Searches

/-- A search reports the failure of a nearest place that fails, if it is within the limit, at the call
that the place belongs to or at a caller that gives it no type. If no place within the limit fails
and one lies beyond, it reports the limit, at a call one step beyond. The report names the call and,
if it is another one, the origin. It surfaces in its category, and what it surfaces as otherwise has
its reason in a position that counts back to before the first or in a number too long to be
written. -/
theorem resolve_reports_nearest_failure (p : Program) (hp : (p.callSites.map CallSite.id).Nodup)
    (limit : Int) (hl : 0 ≤ limit) (site : CallSite) (hsite : site ∈ p.callSites) (api : Option Api)
    (w : Work) (hw : seed site api = .ok w) :
    (∀ y d, Flow.Distance p site w.place y d → Flow.Fails p y →
      (∀ z k, Flow.Distance p site w.place z k → Flow.Fails p z → d ≤ k) → (d : Int) ≤ limit →
      ∃ (v : Work) (f : Failure), v.Located p site w.place ∧ v.context.depth = d ∧
        Flow.Distance p site w.place v.place d ∧ (v.expand p).result = .error f ∧
        (resolve p limit site api).result = .error f ∧
        (f.site = v.site ∨ Flow.Blamed p v.subject f.site) ∧
        (f.cause.category = .unsupported ∨ f.cause.category = .missingInfo ∨
          f.cause = .positionOutOfRange ∧
            ((∃ a, api = some a ∧ a.typeArgumentIndex + (site.typeArguments.length : Int) < 0) ∨
              ∃ k ∈ p.ordinals, k < 0) ∨
          f.cause = .parameterUnnamed ∧ ∃ k ∈ p.ordinals, Text.isLong k = true)) ∧
    ((∀ y d, Flow.Distance p site w.place y d → Flow.Fails p y → limit < (d : Int)) →
      (∃ y d, Flow.Distance p site w.place y d ∧ limit < (d : Int)) →
      ∃ (c : CallSite) (x : Place) (k : ℕ), c ∈ p.callSites ∧ x.BelongsTo c ∧ Flow.Distance p site w.place x k ∧
        (k : Int) = limit + 1 ∧ (resolve p limit site api).result =
          .error ⟨c, c.target.display, .depthExceeded limit, some site⟩) ∧
    ∀ f, (resolve p limit site api).result = .error f →
      f.site ∈ p.callSites ∧ f.problem.extras = reportedFields f.site site f.construct ∧
        (f.raised = .ok f.cause.category ∨
          f.raised = .error .positionOutOfRange ∧
            ((∃ a, api = some a ∧ a.typeArgumentIndex + (site.typeArguments.length : Int) < 0) ∨
              ∃ k ∈ p.ordinals, k < 0) ∨
          f.raised = .error .longInteger ∧
            (f.site.location.isWritable = false ∨ site.location.isWritable = false ∨
              Text.isLong limit = true ∨ ∃ k ∈ p.ordinals, Text.isLong k = true)) := by
  have hv := resolve_verdict hp limit hsite hw
  refine ⟨?_, ?_, ?_⟩
  · intro y d hy hf hmin hd
    obtain ⟨v, f, hloc, hdepth, hdist, herr, hres⟩ := hv.of_nearest hy hf hmin hd
    refine ⟨v, f, hloc, hdepth, hdist, herr, hres, ?_, ?_⟩
    · obtain ⟨c, construct, cause, hfault, rfl⟩ := Work.expand_eq_error_iff.mp herr
      exact hfault.eq_or_blamed
    · rcases cause_of_resolve hp hsite hres hw with hc | ⟨hc | hc, _⟩ | hc | hc
      · exact absurd (by rw [hc]; rfl) (Work.category_of_expand herr)
      · exact Or.inl hc
      · exact Or.inr (Or.inl hc)
      · exact Or.inr (Or.inr (Or.inl hc))
      · exact Or.inr (Or.inr (Or.inr hc))
  · rintro hno ⟨y, d, hy, hd⟩
    exact hv.of_beyond hl (seed_place hw).1 hsite hno hy hd
  · intro f hf
    have hraised := raised_of_resolve hp hsite hf hw
    rw [hf] at hv
    obtain ⟨hmem, horigin⟩ := hv.mem_callSites_of_error hsite
    exact ⟨hmem, f.problem_extras hp hmem hsite horigin, hraised⟩

/-! ## The factory with a type it cannot trace -/

namespace Factory

/-- A type from a call of which nothing is known. -/
def loaded : Expression := .untraced { text := "Load(name)" } .invocation

/-- Where the type of the created object is sought first. -/
def sought : Work where
  place := ⟨.argument, "create", 0⟩
  site := create
  subject := .value (.localRef { text := "kind" } "kind")
  context := ({ origin := create } : Context).enter ⟨.argument, "create", 0⟩

theorem place_of_walk_zero {c : CallSite} {y : Place} {k : ℕ}
    (h : Flow.Walk (program loaded) create sought.place k c y) (hk : k = 0) :
    y = sought.place ∨ y = ⟨.localVariable, "kind", 0⟩ := by
  induction h with
  | start => exact Or.inl rfl
  | within _ edge ih =>
    rcases ih hk with rfl | rfl
    · cases edge with
      | initializer hl hi ha => exact Or.inr rfl
    · cases edge
  | caller _ _ _ => cases hk

theorem not_fails_of_walk_zero {c : CallSite} {y : Place}
    (h : Flow.Walk (program loaded) create sought.place 0 c y) : ¬ Flow.Fails (program loaded) y := by
  rcases place_of_walk_zero h rfl with rfl | rfl
  · exact Flow.not_fails_of_ok (w := { sought with context := { origin := create } }) rfl (.never _ _) rfl
  · exact Flow.not_fails_of_ok (w := ⟨_, create, .value parameter, { origin := create }⟩) rfl (.never _ _)
      rfl

theorem fails_entry : Flow.Fails (program loaded) ⟨.argument, "entry", 0⟩ :=
  ⟨⟨_, entry loaded, .value loaded, { origin := create }⟩, _, rfl, rfl, rfl⟩

theorem distance_entry :
    Flow.Distance (program loaded) create sought.place ⟨.argument, "entry", 0⟩ 1 := by
  have hp : ((program loaded).callSites.map CallSite.id).Nodup := by decide
  have hkind : Flow.Edge (program loaded) ((program loaded).subjectAt sought.place) none
      ⟨.localVariable, "kind", 0⟩ (.value parameter) := .initializer (l := kind) rfl rfl rfl
  have hentry : Flow.Edge (program loaded) ((program loaded).subjectAt ⟨.localVariable, "kind", 0⟩)
      (some (entry loaded)) ⟨.argument, "entry", 0⟩ (.value loaded) :=
    .argument (m := make) rfl ((Program.mem_callersOfMethod hp).mpr ⟨by decide, rfl⟩) rfl
  refine ⟨⟨entry loaded, (Flow.Walk.start.within hkind).caller hentry⟩, fun j c hj => ?_⟩
  by_contra hlt
  obtain rfl : j = 0 := by omega
  exact not_fails_of_walk_zero hj fails_entry

theorem one_le_of_fails {y : Place} {k : ℕ}
    (hy : Flow.Distance (program loaded) create sought.place y k) (hf : Flow.Fails (program loaded) y) :
    1 ≤ k := by
  obtain ⟨c, hc⟩ := hy.1
  by_contra hlt
  obtain rfl : k = 0 := by omega
  exact not_fails_of_walk_zero hc hf

end Factory

open Factory in
theorem resolve_reports_loaded_type :
    ((program loaded).callSites.map CallSite.id).Nodup ∧ create ∈ (program loaded).callSites ∧
      seed create none = .ok sought ∧
      (∃ (v : Work) (f : Failure), v.Located (program loaded) create sought.place ∧
        Flow.Distance (program loaded) create sought.place v.place 1 ∧
        (resolve (program loaded) 1 create none).result = .error f ∧
        (f.site = v.site ∨ Flow.Blamed (program loaded) v.subject f.site)) ∧
      ∃ (c : CallSite) (x : Place), x.BelongsTo c ∧
        Flow.Distance (program loaded) create sought.place x 1 ∧
        (resolve (program loaded) 0 create none).result =
          .error ⟨c, c.target.display, .depthExceeded 0, some create⟩ := by
  have hp : ((program loaded).callSites.map CallSite.id).Nodup := by decide
  have hsite : create ∈ (program loaded).callSites := by decide
  have hw : seed create none = .ok sought := rfl
  obtain ⟨h₁, _, _⟩ := resolve_reports_nearest_failure (program loaded) hp 1 (by decide) create hsite
    none sought hw
  obtain ⟨v, f, hloc, _, hdist, _, hres, hsite', _⟩ :=
    h₁ _ 1 distance_entry fails_entry (fun z k hz hf => one_le_of_fails hz hf) (by decide)
  obtain ⟨_, h₂, _⟩ := resolve_reports_nearest_failure (program loaded) hp 0 (by decide) create hsite
    none sought hw
  obtain ⟨c, x, k, _, hx, hk, hk₁, hres₂⟩ :=
    h₂ (fun y d hy hf => by have := one_le_of_fails hy hf; omega) ⟨_, 1, distance_entry, by decide⟩
  obtain rfl : k = 1 := by omega
  exact ⟨hp, hsite, hw, ⟨v, f, hloc, hdist, hres, hsite'⟩, c, x, hx, hk, hres₂⟩

/-! ## Failures that surface as other errors

A position before the first, named by an API or by an ordinal, and a line too long to be written. -/

namespace Pair

/-- A call with two type arguments. -/
def create : CallSite where
  id := "pair"
  location := ⟨"Pair.cs", 1, 0⟩
  target := ⟨"CreateInstance", "System.Activator", "CreateInstance"⟩
  typeArguments := [.named "App.Left" "App" [], .named "App.Right" "App" []]

def program : Program where
  callSites := [create]

def beforeFirst : Api := { Api.activator with typeArgumentIndex := -3 }

/-- A call whose type argument is the last but one of the call around it. -/
def inner : CallSite := { create with typeArguments := [.parameter ⟨"T", "Make", .method, -2⟩] }

def outer : CallSite where
  id := "outer"
  location := ⟨"Pair.cs", 2, 0⟩
  target := ⟨"Make", "App.Pair", "Make"⟩
  typeArguments := [.named "App.Left" "App" []]

def nested : Program where
  methods := [⟨"Make", "App.Pair", "Make", [], ["T"], none⟩]
  callSites := [inner, outer]

/-- A call on a line with one digit too many, with an argument of which nothing is known. -/
def far : CallSite where
  id := "far"
  location := ⟨"Pair.cs", Nat.pow 10 Text.digitLimit, 0⟩
  target := create.target
  arguments := [.untraced {} .literal]

def remote : Program where
  callSites := [far]

end Pair

open Pair in
theorem resolve_before_first_type_argument :
    ((program.callSites.map CallSite.id).Nodup ∧ create ∈ program.callSites ∧
      ∃ w, seed create (some beforeFirst) = .ok w ∧
        Flow.Distance program create w.place w.place 0 ∧ Flow.Fails program w.place ∧
        ∃ f, (resolve program 0 create (some beforeFirst)).result = .error f ∧
          f.raised = .error .positionOutOfRange) ∧
      (∃ f, (resolve nested 1 inner none).result = .error f ∧
        f.raised = .error .positionOutOfRange) ∧
      ∃ f, (resolve remote 0 far none).result = .error f ∧ f.raised = .error .longInteger := by
  refine ⟨⟨by decide, by decide, _, rfl, ⟨⟨create, .start⟩, fun j _ _ => Nat.zero_le j⟩, ?_, _, rfl, rfl⟩,
    ⟨_, rfl, rfl⟩, ⟨far, "<literal>", .untracedShape "literal", some far⟩, ?_, ?_⟩
  · exact ⟨⟨_, create, .nothing, { origin := create }⟩, _, rfl, rfl, rfl⟩
  · decide +kernel
  · decide +kernel

end TypeOrigins
