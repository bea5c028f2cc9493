import TypeOrigins.Proofs.Facts.Ordinals
import TypeOrigins.Proofs.Origin.BoundCallers
import TypeOrigins.Proofs.Origin.Precision

/-! # Searches in accepted programs

All that a search meets in an accepted program is declared: the check has seen every expression and
every type at every place, also the static types of receivers. So the failures that speak of missing
declarations never happen, and a parameter is always named by its declaration. -/

namespace TypeOrigins
set_option autoImplicit false

open Facts (StandsIn Mentions WellFormed)

/-! ## What stands at a place was checked -/

section Subjects
variable {p : Program} {s : Subject}

theorem exists_standsIn_of_mem_subjects {e : Expression} (h : .value e ∈ p.subjects) :
    ∃ owner, StandsIn p owner e := by
  rcases Program.mem_subjects.mp h with ⟨c, hc, h⟩ | ⟨l, hl, e', he, h⟩
  · rcases CallSite.mem_subjects.mp h with ⟨t, _, h⟩ | ⟨e', he, h⟩ <;> cases h
    exact ⟨_, .argument hc he⟩
  · cases h
    exact ⟨_, .initializer hl he⟩

theorem exists_mentions_of_mem_subjects (h : s ∈ p.subjects) {t : TypeSymbol}
    (ht : s.symbol? = some t) : ∃ owner, Mentions p owner t := by
  cases s with
  | nothing => cases ht
  | symbol u =>
    cases ht
    rcases Program.mem_subjects.mp h with ⟨c, hc, h⟩ | ⟨l, hl, e, he, h⟩
    · rcases CallSite.mem_subjects.mp h with ⟨u, hu, h⟩ | ⟨e, _, h⟩ <;> cases h
      exact ⟨_, .typeArgument hc hu⟩
    · cases h
  | value e =>
    obtain ⟨owner, hin⟩ := exists_standsIn_of_mem_subjects h
    cases e with
    | typeOf note operand =>
      cases ht
      exact ⟨owner, .operand hin⟩
    | getType note receiver => exact ⟨owner, .staticType hin.receiver ht⟩
    | localRef note id => cases ht
    | parameterRef note m k => cases ht
    | untraced note kind => cases ht

/-- The callers of an accepted program are never asked for a position before the first. -/
theorem ordinals_nonneg {fields : Document.Fields} (h : Facts.parse fields = .ok p) :
    ∀ k ∈ p.ordinals, 0 ≤ k := by
  intro k hk
  obtain ⟨s, hs, hk⟩ := List.mem_filterMap.mp hk
  have hvalid := (Facts.parse_eq_ok.mp h).1
  have hsymbol : s.symbol?.bind TypeSymbol.ordinal? = some k → 0 ≤ k := by
    intro hbind
    obtain ⟨t, ht, hk⟩ := Option.bind_eq_some_iff.mp hbind
    obtain ⟨owner, hin⟩ := exists_mentions_of_mem_subjects hs ht
    cases t with
    | named n a ts => cases hk
    | parameter u =>
      cases hk
      exact (Facts.gives_of_mentions hvalid hin).1
  unfold Subject.ordinal? at hk
  split at hk
  · cases hk
    obtain ⟨owner, hin⟩ := exists_standsIn_of_mem_subjects hs
    exact (Facts.gives_of_standsIn hvalid hin List.mem_cons_self).1
  · exact hsymbol hk

variable {y : Place}

theorem exists_standsIn_of_subjectAt {e : Expression} (h : p.subjectAt y = .value e) :
    ∃ owner, StandsIn p owner e := by
  rcases subjectAt_cases p y with hs | hs <;> rw [h] at hs
  · cases hs
  · exact exists_standsIn_of_mem_subjects hs

theorem exists_mentions_of_subjectAt {t : TypeSymbol} (h : (p.subjectAt y).symbol? = some t) :
    ∃ owner, Mentions p owner t := by
  rcases subjectAt_cases p y with hs | hs
  · rw [hs] at h
    cases h
  · exact exists_mentions_of_mem_subjects hs h

end Subjects

/-! ## What the step at a place looks up is there -/

section Lookups
variable {p : Program} (hp : WellFormed p) {y : Place}
include hp

theorem exists_local_of_subjectAt {note : Annotation} {id : String}
    (h : p.subjectAt y = .value (.localRef note id)) : ∃ l, p.local? id = some l := by
  obtain ⟨owner, hin⟩ := exists_standsIn_of_subjectAt h
  obtain ⟨l, hl, hid⟩ := (hp.grounded owner).locals note id hin
  exact ⟨l, hp.ids.local?_eq_some.mpr ⟨hl, hid⟩⟩

theorem exists_parameter_of_subjectAt {note : Annotation} {methodId : String} {k : ℤ}
    (h : p.subjectAt y = .value (.parameterRef note methodId k)) :
    ∃ m, p.method? methodId = some m ∧ k < m.parameters.length := by
  obtain ⟨owner, hin⟩ := exists_standsIn_of_subjectAt h
  obtain ⟨m, hm, hid, hk⟩ := (hp.grounded owner).parameters note methodId k hin
  exact ⟨m, hp.ids.method?_eq_some.mpr ⟨hm, hid⟩, hk⟩

theorem exists_method_of_subjectAt {t : TypeParameter}
    (h : (p.subjectAt y).symbol? = some (.parameter t)) (ho : t.ownerKind = .method) :
    ∃ m, p.method? t.ownerId = some m := by
  obtain ⟨owner, hin⟩ := exists_mentions_of_subjectAt h
  obtain ⟨m, hm, hid, _⟩ := (hp.grounded owner).typeParameters t hin ho
  exact ⟨m, hp.ids.method?_eq_some.mpr ⟨hm, hid⟩⟩

end Lookups

theorem Method.parameterName_of_declared {m : Method} {k : ℤ} {name : String}
    (h : at? m.parameters k = some name) : m.parameterName k = .ok name := by
  unfold parameterName
  rw [h]

/-- A name that is given to a parameter before the last one is that of its declaration. -/
theorem Method.mem_parameters_of_parameterName {m : Method} {k : ℤ} {name : String}
    (hk : k < m.parameters.length) (h : m.parameterName k = .ok name) : name ∈ m.parameters := by
  cases hat : at? m.parameters k with
  | some name' =>
    rw [parameterName_of_declared hat] at h
    cases h
    exact mem_of_at? hat
  | none =>
    have hneg : k < 0 := by
      have := at?_eq_none_iff.mp hat
      omega
    unfold parameterName at h
    rw [hat] at h
    simp [hneg] at h

/-! ## Failures -/

/-- The facts leave a type open: a receiver has no static type, or a closed type no assembly. -/
inductive Subject.LacksType : Subject → Cause → Prop
  | receiver {note : Annotation} {receiver : Expression} (h : receiver.staticType = none) :
      LacksType (.value (.getType note receiver)) .receiverTypeUnknown
  | assembly {s : Subject} {n : String} {ts : List TypeSymbol} (hs : s.symbol? = some (.named n "" ts))
      (hc : (TypeSymbol.named n "" ts).isClosed = true) :
      LacksType s (.assemblyUnknown (.named n "" ts))

theorem Subject.LacksType.ne_undeclared {s : Subject} {cause : Cause} (h : s.LacksType cause)
    (id : String) : cause ≠ .localUndeclared id ∧ cause ≠ .methodUnknown id := by
  cases h <;> simp

section Faults
variable {p : Program} (hp : WellFormed p) {y : Place} {site d : CallSite} {construct : String}
  {cause : Cause} (h : Fault p site (p.subjectAt y) d construct cause)
include hp h

/-- Of the failures for want of information only those about types are left. -/
theorem Fault.lacksType_of_wellFormed (hc : cause.category = .missingInfo) :
    (p.subjectAt y).LacksType cause := by
  generalize hs : p.subjectAt y = s at h
  cases h with
  | receiverType hr => exact .receiver hr
  | assembly hsym hclosed ha =>
    subst ha
    exact .assembly hsym hclosed
  | typeParameterMethod hsym ho hm =>
    obtain ⟨m, hm'⟩ := exists_method_of_subjectAt hp (hs ▸ hsym) ho
    rw [hm] at hm'
    cases hm'
  | undeclared hl =>
    obtain ⟨l, hl'⟩ := exists_local_of_subjectAt hp hs
    rw [hl] at hl'
    cases hl'
  | parameterMethod hm =>
    obtain ⟨m, hm', _⟩ := exists_parameter_of_subjectAt hp hs
    rw [hm] at hm'
    cases hm'
  | parameterName hm hname =>
    rcases Method.parameterName_eq_error hname with ⟨rfl, _⟩ | ⟨rfl, _⟩ <;> cases hc
  | nothing | untraced | openType | enclosingType | unbound | uninitialized | reassigned
  | genericCaller | argumentMissing | argumentBefore => cases hc

/-- A parameter that a failure speaks of is declared under the name that is given. -/
theorem Fault.parameter_of_wellFormed {name : String}
    (hc : cause = .genericCaller name ∨ cause = .argumentMissing name) :
    ∃ m ∈ p.methods, construct = m.display ∧ name ∈ m.parameters := by
  generalize hs : p.subjectAt y = s at h
  have hdeclared : ∀ {note : Annotation} {methodId name : String} {k : ℤ} {m : Method},
      s = .value (.parameterRef note methodId k) → p.method? methodId = some m →
      m.parameterName k = .ok name → m ∈ p.methods ∧ name ∈ m.parameters := by
    intro note methodId name k m hsub hm hname
    obtain ⟨m', hm', hk⟩ := exists_parameter_of_subjectAt hp (hs.trans hsub)
    obtain rfl : m = m' := Option.some.inj (hm.symm.trans hm')
    exact ⟨(hp.ids.method?_eq_some.mp hm).1, Method.mem_parameters_of_parameterName hk hname⟩
  cases h with
  | genericCaller hm hname hd =>
    obtain ⟨hmem, hin⟩ := hdeclared rfl hm hname
    rcases hc with hc | hc <;> cases hc
    exact ⟨_, hmem, rfl, hin⟩
  | argumentMissing hm hname hg hd =>
    obtain ⟨hmem, hin⟩ := hdeclared rfl hm hname
    rcases hc with hc | hc <;> cases hc
    exact ⟨_, hmem, rfl, hin⟩
  | parameterName hm hname =>
    rcases Method.parameterName_eq_error hname with ⟨rfl, _⟩ | ⟨rfl, _⟩ <;> rcases hc with hc | hc <;> cases hc
  | nothing | untraced | receiverType | openType | assembly | enclosingType | typeParameterMethod
  | unbound | undeclared | uninitialized | reassigned | parameterMethod | argumentBefore =>
    rcases hc with hc | hc <;> cases hc

end Faults

/-! ## Searches -/

section Searches
variable {p : Program} {limit : Int} {site : CallSite} {api : Option Api} {f : Failure}

/-- A failure that speaks of a declaration or of missing facts comes from a place. -/
theorem exists_fault_of_resolve (hp : (p.callSites.map CallSite.id).Nodup)
    (hsite : site ∈ p.callSites) (h : (resolve p limit site api).result = .error f)
    (hc : f.cause.category = .missingInfo ∨
      ∃ name, f.cause = .genericCaller name ∨ f.cause = .argumentMissing name) :
    ∃ w y c, seed site api = .ok w ∧ Flow.Reachable p site w.place y ∧
      Fault p c (p.subjectAt y) f.site f.construct f.cause := by
  rcases resolve_error_cases hp hsite h with hs | hd | hfault
  · rcases (seed_eq_error hs).2.2 with hs | hs | hs | ⟨hs, _⟩ <;> simp [hs, Cause.category] at hc
  · simp [hd, Cause.category] at hc
  · exact hfault

end Searches

/-- In an accepted program a search finds every local, method and parameter it looks up. So it never
fails for want of a declaration, the parameters it names are declared ones, and what is missing is a
type that the facts leave open. -/
theorem resolve_meets_declared (fields : Document.Fields) (p : Program)
    (h : Facts.parse fields = .ok p) (site : CallSite) (hsite : site ∈ p.callSites)
    (api : Option Api) (limit : Int) :
    (∀ w, seed site api = .ok w → ∀ steps s,
      (Search.run p limit steps { queue := [w] }).result = .ok s → ∀ v ∈ s.queue,
        (∀ note id, v.subject = .value (.localRef note id) → ∃ l, p.local? id = some l) ∧
        (∀ note methodId k, v.subject = .value (.parameterRef note methodId k) →
          ∃ m name, p.method? methodId = some m ∧ 0 ≤ k ∧ at? m.parameters k = some name ∧
            m.parameterName k = .ok name) ∧
        ∀ t, v.subject.symbol? = some (.parameter t) → t.ownerKind = .method →
          ∃ m, p.method? t.ownerId = some m) ∧
    ∀ f, (resolve p limit site api).result = .error f →
      (∀ id, f.cause ≠ .localUndeclared id ∧ f.cause ≠ .methodUnknown id) ∧
      (∀ name, f.cause = .genericCaller name ∨ f.cause = .argumentMissing name →
        ∃ m ∈ p.methods, f.construct = m.display ∧ name ∈ m.parameters) ∧
      (f.cause.category = .missingInfo → ∃ w y, seed site api = .ok w ∧
        Flow.Reachable p site w.place y ∧ (p.subjectAt y).LacksType f.cause) := by
  have hp : WellFormed p := Facts.wellFormed_iff_sound.mpr (Facts.parse_eq_ok.mp h).2
  constructor
  · intro w hw steps s hs v hv
    have hinv : Frontier p limit site w.place s :=
      (Search.run_induction p limit (Frontier p limit site w.place) (Frontier.step hp.ids.callSites)
        steps (.initial hp.ids.callSites limit hsite hw)).1 s hs
    have hsubject := (hinv.located v hv).subject_eq
    refine ⟨?_, ?_, ?_⟩
    · intro note id hid
      exact exists_local_of_subjectAt hp (hsubject ▸ hid)
    · intro note methodId k hk
      rw [hsubject] at hk
      obtain ⟨m, hm, hlt⟩ := exists_parameter_of_subjectAt hp hk
      have hnonneg : 0 ≤ k := ordinals_nonneg h k (p.mem_ordinals_of_subjectAt (by rw [hk]; rfl))
      obtain ⟨name, hname⟩ := Option.isSome_iff_exists.mp (at?_isSome_iff.mpr ⟨hlt, by omega⟩)
      exact ⟨m, name, hm, hnonneg, hname, Method.parameterName_of_declared hname⟩
    · intro t ht ho
      exact exists_method_of_subjectAt hp (hsubject ▸ ht) ho
  · intro f hf
    have hmissing : f.cause.category = .missingInfo → ∃ w y, seed site api = .ok w ∧
        Flow.Reachable p site w.place y ∧ (p.subjectAt y).LacksType f.cause := by
      intro hc
      obtain ⟨w, y, c, hw, hy, hfault⟩ := exists_fault_of_resolve hp.ids.callSites hsite hf (Or.inl hc)
      exact ⟨w, y, hw, hy, hfault.lacksType_of_wellFormed hp hc⟩
    refine ⟨fun id => ⟨?_, ?_⟩, ?_, hmissing⟩
    · intro hc
      obtain ⟨w, y, _, _, hlacks⟩ := hmissing (by rw [hc]; rfl)
      exact (hlacks.ne_undeclared id).1 hc
    · intro hc
      obtain ⟨w, y, _, _, hlacks⟩ := hmissing (by rw [hc]; rfl)
      exact (hlacks.ne_undeclared id).2 hc
    · intro name hc
      obtain ⟨w, y, c, hw, hy, hfault⟩ :=
        exists_fault_of_resolve hp.ids.callSites hsite hf (Or.inr ⟨name, hc⟩)
      exact hfault.parameter_of_wellFormed hp hc

namespace Factory

/-- The run-time type of an object whose static type the facts leave out. -/
def bare : Expression := .getType { text := "x.GetType()" } (.untraced { text := "x" } .other)

def bareDocument : Document :=
  .object [("kind", .text "get_type"), ("text", .text "x.GetType()"),
    ("receiver", .object [("kind", .text "other"), ("text", .text "x")])]

theorem parse_bare : Facts.parse (fields [createDocument, callDocument again [parameterDocument],
    callDocument (entry bare) [bareDocument]]) = .ok (program bare) := by rfl

end Factory

open Factory in
theorem resolve_meets_bare_receiver :
    create ∈ (program bare).callSites ∧
      (resolve (program bare) 1 create none).result =
        .error ⟨entry bare, "x.GetType()", .receiverTypeUnknown, some create⟩ ∧
      ∃ w y, seed create none = .ok w ∧ Flow.Reachable (program bare) create w.place y ∧
        ((program bare).subjectAt y).LacksType .receiverTypeUnknown := by
  have hsite : create ∈ (program bare).callSites := by decide
  have hf : (resolve (program bare) 1 create none).result =
      .error ⟨entry bare, "x.GetType()", .receiverTypeUnknown, some create⟩ := by decide
  refine ⟨hsite, hf, ?_⟩
  exact ((resolve_meets_declared _ _ parse_bare create hsite none 1).2 _ hf).2.2 rfl

end TypeOrigins
