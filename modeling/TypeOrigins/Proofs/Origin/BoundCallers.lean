import TypeOrigins.Proofs.Facts.Soundness
import TypeOrigins.Proofs.Origin.Frontier

/-! # Bound callers

In a program that was accepted, the callers of a method are found wherever they stand. A search that
succeeds has followed the parameters and type parameters it met into every call that is bound to
their method, and what such a call passes is among the places whose types it answers with. -/

namespace TypeOrigins
set_option autoImplicit false

/-- The target of the calls bound to a method. -/
def Method.target (m : Method) : Target := ⟨m.id, m.declaringType, m.name⟩

section Flow
variable {p : Program} {m : Method} {c : CallSite} {y : Place}

theorem Flow.Fails.of_lacking_argument (hp : p.DistinctIds) (hm : m ∈ p.methods)
    (hc : c ∈ p.callersOfMethod m) {note : Annotation} {k : Int}
    (hy : p.subjectAt y = .value (.parameterRef note m.id k)) (hk : at? c.arguments k = none) :
    Flow.Fails p y := by
  have hlookup := hp.method?_eq_some.mpr ⟨hm, rfl⟩
  rw [Flow.fails_iff, hy]
  cases hname : m.parameterName k with
  | error cause => exact ⟨c, c, _, _, .parameterName hlookup hname⟩
  | ok name =>
    cases hg : (p.callersOfMethod m).find? CallSite.isGeneric with
    | some d => exact ⟨c, d, _, _, .genericCaller hlookup hname hg⟩
    | none =>
      by_cases hneg : k < 0
      · have hlacks : ((p.callersOfMethod m).find? fun d =>
            !false && (at? d.arguments k).isNone).isSome :=
          List.find?_isSome.mpr ⟨c, hc, by simp [hk]⟩
        obtain ⟨d, hd⟩ := Option.isSome_iff_exists.mp hlacks
        exact ⟨c, d, _, _, .argumentBefore hlookup hname hg hneg hd⟩
      · have hle : (c.arguments.length : Int) ≤ k := by
          have := at?_eq_none_iff.mp hk
          omega
        have hlacks : ((p.callersOfMethod m).find? fun d => (d.arguments.length : Int) ≤ k).isSome :=
          List.find?_isSome.mpr ⟨c, hc, by simpa using hle⟩
        obtain ⟨d, hd⟩ := Option.isSome_iff_exists.mp hlacks
        exact ⟨c, d, _, _, .argumentMissing hlookup hname hg hd⟩

theorem Flow.Fails.of_lacking_typeArgument (hp : p.DistinctIds) (hm : m ∈ p.methods)
    (hc : c ∈ p.callersOfMethod m) {t : TypeParameter}
    (hy : (p.subjectAt y).symbol? = some (.parameter t)) (ho : t.ownerKind = .method)
    (hid : t.ownerId = m.id) (hk : (c.typeArguments.length : Int) ≤ t.ordinal) : Flow.Fails p y := by
  have hlookup : p.method? t.ownerId = some m := hp.method?_eq_some.mpr ⟨hm, hid.symm⟩
  have hlacks : ((p.callersOfMethod m).find? fun d =>
      (d.typeArguments.length : Int) ≤ t.ordinal).isSome :=
    List.find?_isSome.mpr ⟨c, hc, by simpa using hk⟩
  obtain ⟨d, hd⟩ := Option.isSome_iff_exists.mp hlacks
  exact Flow.fails_iff.mpr ⟨c, d, _, _, .unbound hy ho hlookup hd⟩

variable {origin : CallSite} {start : Place}

theorem Flow.Reachable.argument (hp : p.DistinctIds) (hm : m ∈ p.methods)
    (hc : c ∈ p.callersOfMethod m) (hy : Flow.Reachable p origin start y) (hf : ¬ Flow.Fails p y)
    {note : Annotation} {k : Int} (hs : p.subjectAt y = .value (.parameterRef note m.id k)) :
    ∃ e, at? c.arguments k = some e ∧ Flow.Reachable p origin start ⟨.argument, c.id, k⟩ := by
  cases he : at? c.arguments k with
  | none => exact absurd (.of_lacking_argument hp hm hc hs he) hf
  | some e =>
    have hedge : Flow.Edge p (p.subjectAt y) (some c) ⟨.argument, c.id, k⟩ (.value e) := by
      rw [hs]
      exact .argument (hp.method?_eq_some.mpr ⟨hm, rfl⟩) hc he
    exact ⟨e, rfl, hy.step hedge⟩

/-- A call without the type argument makes the place fail, or the position of the call, where nothing
stands. -/
theorem Flow.Reachable.typeArgument (hp : p.DistinctIds) (hm : m ∈ p.methods)
    (hc : c ∈ p.callersOfMethod m) (hy : Flow.Reachable p origin start y)
    (hno : ∀ z, Flow.Reachable p origin start z → ¬ Flow.Fails p z)
    {t : TypeParameter} (hs : (p.subjectAt y).symbol? = some (.parameter t))
    (ho : t.ownerKind = .method) (hid : t.ownerId = m.id) :
    ∃ a, at? c.typeArguments t.ordinal = some a ∧
      Flow.Reachable p origin start ⟨.typeArgument, c.id, t.ordinal⟩ := by
  by_cases hlt : t.ordinal < c.typeArguments.length
  · have hedge := Flow.Edge.typeArgument hs ho (hp.method?_eq_some.mpr ⟨hm, hid.symm⟩) hc hlt
    have hreach := hy.step hedge
    cases ha : at? c.typeArguments t.ordinal with
    | some a => exact ⟨a, rfl, hreach⟩
    | none =>
      have hnothing := hedge.subjectAt_eq hp.callSites
      rw [CallSite.typeArgumentAt_eq_nothing_iff.mpr ha] at hnothing
      have hfails : Flow.Fails p ⟨.typeArgument, c.id, t.ordinal⟩ := by
        rw [Flow.fails_iff, hnothing]
        exact ⟨c, c, _, _, .nothing⟩
      exact absurd hfails (hno _ hreach)
  · exact absurd (.of_lacking_typeArgument hp hm hc hs ho hid (by omega)) (hno y hy)

end Flow

/-! ## The document of the factory

A call that names the factory by its identifier and another declaring type is accepted too. -/

namespace Factory

def callDocument (c : CallSite) (arguments : List Document) : Document :=
  .object [("id", .text c.id),
    ("location", .object [("path", .text c.location.path), ("line", .int c.location.line),
      ("column", .int c.location.column)]),
    ("target", .object [("method_id", .text c.target.methodId),
      ("declaring_type", .text c.target.declaringType), ("name", .text c.target.name)]),
    ("enclosing_method", (c.enclosingMethod.map Document.text).getD .null),
    ("arguments", .list arguments)]

def makeDocument : Document :=
  .object [("id", .text "Make"), ("declaring_type", .text "App.Factory"), ("name", .text "Make"),
    ("parameters", .list [.object [("name", .text "type")]])]

def parameterDocument : Document :=
  .object [("kind", .text "parameter"), ("text", .text "type"), ("method_id", .text "Make"),
    ("ordinal", .int 0)]

def kindDocument : Document :=
  .object [("id", .text "kind"), ("name", .text "kind"), ("method_id", .text "Make"),
    ("initializer", parameterDocument)]

def createDocument : Document :=
  callDocument create [.object [("kind", .text "local"), ("text", .text "kind"), ("local_id", .text "kind")]]

def typeOfDocument (text name : String) : Document :=
  .object [("kind", .text "typeof"), ("text", .text text),
    ("type", .object [("kind", .text "named"), ("full_name", .text name), ("assembly", .text "App")])]

def fields (calls : List Document) : Document.Fields :=
  [("schema_version", .int 1), ("methods", .list [makeDocument]), ("locals", .list [kindDocument]),
    ("call_sites", .list calls)]

/-- A call of the factory under the name of another type. -/
def renamed : CallSite where
  id := "other"
  location := ⟨"Program.cs", 12, 0⟩
  target := ⟨"Make", "App.OldFactory", "Make"⟩
  arguments := [.typeOf { text := "typeof(Gadget)" } (.named "App.Gadget" "App" [])]

def withRenamed : Program := { program widget with callSites := [create, again, entry widget, renamed] }

def callDocuments : List Document :=
  [createDocument, callDocument again [parameterDocument],
    callDocument (entry widget) [typeOfDocument "typeof(Widget)" "App.Widget"],
    callDocument renamed [typeOfDocument "typeof(Gadget)" "App.Gadget"]]

theorem parse_withRenamed : Facts.parse (fields callDocuments) = .ok withRenamed := by rfl

end Factory

/-! ## Accepted programs -/

/-- In an accepted program the callers of a method are the calls bound to it. A search that succeeds
follows its parameters and type parameters into all of them, and answers with every type that stands
at a place it can reach. -/
theorem parse_keeps_bound_callers (fields : Document.Fields) (p : Program)
    (h : Facts.parse fields = .ok p) (m : Method) (hm : m ∈ p.methods) :
    (∀ c ∈ p.callSites, c.target = m.target → c ∈ p.callersOfMethod m) ∧
      (∀ c ∈ p.callersOfMethod m, c ∈ p.callSites ∧ c.target.methodId = m.id) ∧
      ∀ (limit : Int) (api : Option Api) (refs : List TypeReference), ∀ site ∈ p.callSites,
        (resolve p limit site api).result = .ok refs → ∃ w, seed site api = .ok w ∧
          (∀ y r, Flow.Reachable p site w.place y → (p.subjectAt y).Names r → r ∈ refs) ∧
          ∀ c ∈ p.callSites, c.target = m.target → ∀ y, Flow.Reachable p site w.place y →
            (∀ note k, p.subjectAt y = .value (.parameterRef note m.id k) →
              ∃ e, at? c.arguments k = some e ∧ Flow.Reachable p site w.place ⟨.argument, c.id, k⟩) ∧
            ∀ t, (p.subjectAt y).symbol? = some (.parameter t) → t.ownerKind = .method →
              t.ownerId = m.id → ∃ a, at? c.typeArguments t.ordinal = some a ∧
                Flow.Reachable p site w.place ⟨.typeArgument, c.id, t.ordinal⟩ := by
  have hp := (Facts.parse_eq_ok.mp h).2.ids
  have hcallers : ∀ c ∈ p.callSites, c.target = m.target → c ∈ p.callersOfMethod m :=
    fun c hc ht => (Program.mem_callersOfMethod hp.callSites).mpr ⟨hc, ht⟩
  refine ⟨hcallers, ?_, ?_⟩
  · intro c hc
    obtain ⟨hin, ht⟩ := (Program.mem_callersOfMethod hp.callSites).mp hc
    exact ⟨hin, by rw [ht]⟩
  · intro limit api refs site hsite hr
    cases hw : seed site api with
    | error f =>
      rw [resolve_eq_error_of_seed hw] at hr
      cases hr
    | ok w =>
      have hv := resolve_verdict hp.callSites limit hsite hw
      rw [hr] at hv
      cases hv with
      | complete _ _ within mem_iff =>
        refine ⟨w, rfl, fun y r hy hn => (mem_iff r).mpr ⟨y, hy, hn⟩, fun c hc ht y hy => ⟨?_, ?_⟩⟩
        · intro note k hs
          exact hy.argument hp hm (hcallers c hc ht) (within y hy).1 hs
        · intro t hs ho hid
          exact hy.typeArgument hp hm (hcallers c hc ht) (fun z hz => (within z hz).1) hs ho hid

open Factory in
theorem parse_keeps_factory_callers :
    Facts.parse (fields callDocuments) = .ok withRenamed ∧ make ∈ withRenamed.methods ∧
      entry widget ∈ withRenamed.callersOfMethod make ∧
      ∃ refs, (resolve withRenamed 1 create none).result = .ok refs ∧ ⟨"App", "App.Widget"⟩ ∈ refs := by
  have hmake : make ∈ withRenamed.methods := by decide
  have hr : (resolve withRenamed 1 create none).result = .ok [⟨"App", "App.Widget"⟩] := by rfl
  obtain ⟨hcallers, _, hflow⟩ := parse_keeps_bound_callers _ _ parse_withRenamed make hmake
  obtain ⟨w, hw, hnames, hbound⟩ := hflow 1 none _ create (by decide) hr
  cases hw
  -- the local that the call passes starts with the parameter, which the entry call binds
  have hedge : Flow.Edge withRenamed (withRenamed.subjectAt ⟨.argument, "create", 0⟩) none
      ⟨.localVariable, "kind", 0⟩ (.value parameter) := .initializer (l := kind) rfl rfl rfl
  have hlocal : Flow.Reachable withRenamed create ⟨.argument, "create", 0⟩ ⟨.localVariable, "kind", 0⟩ :=
    ⟨0, create, Flow.Walk.start.within hedge⟩
  obtain ⟨e, _, hargument⟩ := (hbound (entry widget) (by decide) rfl _ hlocal).1 _ 0 rfl
  exact ⟨parse_withRenamed, hmake, hcallers _ (by decide) rfl, _, hr,
    hnames _ _ hargument ⟨[], rfl, rfl, by decide⟩⟩

open Factory in
theorem parse_drops_renamed_caller :
    Facts.parse (fields callDocuments) = .ok withRenamed ∧ make ∈ withRenamed.methods ∧
      renamed ∈ withRenamed.callSites ∧ renamed.target.methodId = make.id ∧
      renamed ∉ withRenamed.callersOfMethod make ∧
      (resolve withRenamed 64 create none).result = .ok [⟨"App", "App.Widget"⟩] :=
  ⟨parse_withRenamed, by decide, by decide, rfl, by decide, by rfl⟩

end TypeOrigins
