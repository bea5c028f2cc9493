import TypeOrigins.Proofs.Origin.Frontier

/-! # Call stacks

What types mean while the program runs. A frame binds the type parameters and the parameters of a
method to what the call that created it passes, read in the frame that call was executed in. If a
search answers, no call stack, however long, gives a call a type that the answer lacks. -/

namespace TypeOrigins
set_option autoImplicit false

/-! ## Types under bindings -/

namespace TypeSymbol

mutual

/-- A type with its type parameters replaced, if all of them are bound. -/
def subst? (σ : TypeParameter → Option TypeSymbol) : TypeSymbol → Option TypeSymbol
  | .named fullName assembly arguments => (substAll? σ arguments).map (.named fullName assembly)
  | .parameter t => σ t

/-- Types with their type parameters replaced. -/
def substAll? (σ : TypeParameter → Option TypeSymbol) : List TypeSymbol → Option (List TypeSymbol)
  | [] => some []
  | t :: rest => (t.subst? σ).bind fun u => (substAll? σ rest).map (u :: ·)

end

mutual

theorem subst?_of_closed (σ : TypeParameter → Option TypeSymbol) :
    (t : TypeSymbol) → t.isClosed = true → t.subst? σ = some t
  | .named fullName assembly arguments, h => by
    unfold subst?
    rw [substAll?_of_closed σ arguments h, Option.map_some]
  | .parameter _, h => by cases h

theorem substAll?_of_closed (σ : TypeParameter → Option TypeSymbol) :
    (ts : List TypeSymbol) → allClosed ts = true → substAll? σ ts = some ts
  | [], _ => rfl
  | t :: rest, h => by
    obtain ⟨ht, hrest⟩ := Bool.and_eq_true_iff.mp h
    unfold substAll?
    rw [subst?_of_closed σ t ht, substAll?_of_closed σ rest hrest, Option.bind_some, Option.map_some]

end

end TypeSymbol

/-! ## Frames -/

/-- A frame, on top of the frames below it. The outermost one is entered from outside the program
and binds nothing; any other was created by a call. -/
inductive Frame where
  | outermost
  | call (c : CallSite) (caller : Frame)
deriving DecidableEq, Repr

namespace Frame

/-- What a type parameter is bound to: for one of the method that was called, the type argument as
the caller's frame reads it. -/
def binding : Frame → TypeParameter → Option TypeSymbol
  | .outermost, _ => none
  | .call c caller, t =>
      if t.ownerKind = .method ∧ t.ownerId = c.target.methodId then
        (at? c.typeArguments t.ordinal).bind fun a => a.subst? caller.binding
      else none

/-- The code of a method, or top-level code, runs in the frame: each call of the stack stands in the
code that runs in the frame below, and is bound to a method in identifier, type and name. -/
inductive Runs (p : Program) : Frame → Option String → Prop
  | outermost (method : Option String) : Runs p .outermost method
  | call {c : CallSite} {caller : Frame} {m : Method} (hc : c ∈ p.callSites)
      (hr : Runs p caller c.enclosingMethod) (hm : p.method? c.target.methodId = some m)
      (ht : c.target = ⟨m.id, m.declaringType, m.name⟩) : Runs p (.call c caller) (some m.id)

/-- The value of an expression in a frame is a type. A local may have been assigned again, and the
expressions of which nothing is known may give any type. -/
inductive Holds (p : Program) : Frame → Expression → TypeSymbol → Prop
  | typeOf {F : Frame} {note : Annotation} {operand T : TypeSymbol}
      (h : operand.subst? F.binding = some T) : Holds p F (.typeOf note operand) T
  | getType {F : Frame} {note : Annotation} {receiver : Expression} {t T : TypeSymbol}
      (hs : receiver.staticType = some t) (h : t.subst? F.binding = some T) :
      Holds p F (.getType note receiver) T
  | localRef {F : Frame} {note : Annotation} {id : String} {l : LocalVariable} {e : Expression}
      {T : TypeSymbol} (hl : p.local? id = some l)
      (he : l.initializer = some e ∨ e ∈ l.assignments) (h : Holds p F e T) :
      Holds p F (.localRef note id) T
  | parameterRef {c : CallSite} {caller : Frame} {note : Annotation} {k : Int} {e : Expression}
      {T : TypeSymbol} (he : at? c.arguments k = some e) (h : Holds p caller e T) :
      Holds p (.call c caller) (.parameterRef note c.target.methodId k) T
  | untraced (F : Frame) (note : Annotation) (kind : UntracedKind) (T : TypeSymbol) :
      Holds p F (.untraced note kind) T

/-- A type argument or a value denotes a type in a frame. -/
def Denotes (p : Program) (F : Frame) : Subject → TypeSymbol → Prop
  | .symbol t, T => t.subst? F.binding = some T
  | .value e, T => F.Holds p e T
  | .nothing, _ => False

theorem Runs.of_call {p : Program} (hp : (p.callSites.map CallSite.id).Nodup) {c : CallSite}
    {caller : Frame} {method : Option String} (h : Runs p (.call c caller) method) :
    Runs p caller c.enclosingMethod ∧
      ∃ m, p.method? c.target.methodId = some m ∧ c ∈ p.callersOfMethod m := by
  cases h with
  | call hc hr hm ht => exact ⟨hr, _, hm, (Program.mem_callersOfMethod hp).mpr ⟨hc, ht⟩⟩

theorem binding_call {c : CallSite} {caller : Frame} {t : TypeParameter} {T : TypeSymbol}
    (h : (Frame.call c caller).binding t = some T) :
    t.ownerKind = .method ∧ t.ownerId = c.target.methodId ∧
      ∃ a, at? c.typeArguments t.ordinal = some a ∧ a.subst? caller.binding = some T := by
  unfold binding at h
  split at h
  · next ho =>
    obtain ⟨a, ha, hT⟩ := Option.bind_eq_some_iff.mp h
    exact ⟨ho.1, ho.2, a, ha, hT⟩
  · cases h

end Frame

/-! ## From frames to walks -/

namespace Flow

variable {p : Program} {origin : CallSite} {start : Place}

theorem exists_names_of_named (hno : ∀ y, Reachable p origin start y → ¬ Fails p y) {y : Place}
    (hy : Reachable p origin start y) {n a : String} {ts : List TypeSymbol}
    (hs : (p.subjectAt y).symbol? = some (.named n a ts)) {σ : TypeParameter → Option TypeSymbol}
    {T : TypeSymbol} (hT : (TypeSymbol.named n a ts).subst? σ = some T) :
    ∃ z r, Reachable p origin start z ∧ (p.subjectAt z).Names r ∧ (Subject.symbol T).Names r := by
  have hno' := hno y hy
  rw [fails_iff] at hno'
  have hclosed : (TypeSymbol.named n a ts).isClosed = true := by
    by_contra h
    exact hno' ⟨origin, _, _, _, .openType hs (Bool.eq_false_iff.mpr h)⟩
  have ha : a ≠ "" := fun ha => hno' ⟨origin, _, _, _, .assembly hs hclosed ha⟩
  rw [TypeSymbol.subst?_of_closed σ _ hclosed] at hT
  cases hT
  exact ⟨y, ⟨a, n⟩, hy, ⟨ts, hs, hclosed, ha⟩, ⟨ts, rfl, hclosed, ha⟩⟩

/-- The walk follows the stack downwards: each type parameter leads to the frame below. -/
theorem exists_names_of_subst (hp : (p.callSites.map CallSite.id).Nodup)
    (hno : ∀ y, Reachable p origin start y → ¬ Fails p y) {F : Frame} {method : Option String}
    (hF : F.Runs p method) {y : Place} (hy : Reachable p origin start y) {t T : TypeSymbol}
    (hs : (p.subjectAt y).symbol? = some t) (hT : t.subst? F.binding = some T) :
    ∃ z r, Reachable p origin start z ∧ (p.subjectAt z).Names r ∧ (Subject.symbol T).Names r := by
  induction F generalizing method y t with
  | outermost =>
    cases t with
    | named n a ts => exact exists_names_of_named hno hy hs hT
    | parameter t => cases hT
  | call c caller ih =>
    cases t with
    | named n a ts => exact exists_names_of_named hno hy hs hT
    | parameter t =>
      obtain ⟨hr, m, hm, hc⟩ := hF.of_call hp
      obtain ⟨hk, ho, a, ha, haT⟩ := Frame.binding_call hT
      rw [← ho] at hm
      have e : Edge p (p.subjectAt y) (some c) ⟨.typeArgument, c.id, t.ordinal⟩
          (c.typeArgumentAt t.ordinal) :=
        .typeArgument hs hk hm hc (at?_isSome_iff.mp (Option.isSome_of_eq_some ha)).1
      refine ih hr (hy.step e) ?_ haT
      rw [e.subjectAt_eq hp, CallSite.typeArgumentAt, ha]
      rfl

theorem exists_names_of_holds (hp : (p.callSites.map CallSite.id).Nodup)
    (hno : ∀ y, Reachable p origin start y → ¬ Fails p y) {F : Frame} {e : Expression}
    {T : TypeSymbol} (h : F.Holds p e T) {method : Option String} (hF : F.Runs p method) {y : Place}
    (hy : Reachable p origin start y) (hs : p.subjectAt y = .value e) :
    ∃ z r, Reachable p origin start z ∧ (p.subjectAt z).Names r ∧ (Subject.symbol T).Names r := by
  induction h generalizing method y with
  | typeOf hT => exact exists_names_of_subst hp hno hF hy (by rw [hs]; rfl) hT
  | getType ht hT =>
    refine exists_names_of_subst hp hno hF hy ?_ hT
    rw [hs]
    exact ht
  | @localRef F note id l e T hl he _ ih =>
    have hno' := hno y hy
    rw [fails_iff, hs] at hno'
    -- The step at a local that is assigned again, or has no initializer, would fail.
    cases hi : l.initializer with
    | none => exact absurd ⟨origin, _, _, _, .uninitialized hl hi⟩ hno'
    | some e' =>
      have ha : l.assignments = [] := by
        by_contra ha
        exact hno' ⟨origin, _, _, _, .reassigned hl hi ha⟩
      rw [ha, hi] at he
      obtain rfl : e' = e := by simpa using he
      have edge : Edge p (p.subjectAt y) none ⟨.localVariable, id, 0⟩ (.value e') := by
        rw [hs]
        exact .initializer hl hi ha
      exact ih hF (hy.step edge) (edge.subjectAt_eq hp)
  | @parameterRef c caller note k e T he _ ih =>
    obtain ⟨hr, m, hm, hc⟩ := hF.of_call hp
    have edge : Edge p (p.subjectAt y) (some c) ⟨.argument, c.id, k⟩ (.value e) := by
      rw [hs]
      exact .argument hm hc he
    exact ih hr (hy.step edge) (edge.subjectAt_eq hp)
  | untraced F note kind T =>
    have hno' := hno y hy
    rw [fails_iff, hs] at hno'
    exact absurd ⟨origin, _, _, _, .untraced note kind⟩ hno'

theorem exists_names_of_denotes (hp : (p.callSites.map CallSite.id).Nodup)
    (hno : ∀ y, Reachable p origin start y → ¬ Fails p y) {F : Frame} {method : Option String}
    (hF : F.Runs p method) {y : Place} (hy : Reachable p origin start y) {T : TypeSymbol}
    (h : F.Denotes p (p.subjectAt y) T) :
    ∃ z r, Reachable p origin start z ∧ (p.subjectAt z).Names r ∧ (Subject.symbol T).Names r := by
  cases hs : p.subjectAt y with
  | symbol t =>
    rw [hs] at h
    exact exists_names_of_subst hp hno hF hy (by rw [hs]; rfl) h
  | value e =>
    rw [hs] at h
    exact exists_names_of_holds hp hno h hF hy hs
  | nothing =>
    rw [hs] at h
    exact h.elim

end Flow

/-- If a search answers, the answer has every type that the call can be told in any call stack. -/
theorem resolve_covers_call_stacks (p : Program) (hp : (p.callSites.map CallSite.id).Nodup)
    (limit : Int) (site : CallSite) (hsite : site ∈ p.callSites) (api : Option Api)
    (refs : List TypeReference) (h : (resolve p limit site api).result = .ok refs) :
    ∃ w, seed site api = .ok w ∧
      ∀ (F : Frame) (T : TypeSymbol), F.Runs p site.enclosingMethod → F.Denotes p w.subject T →
        ∃ r ∈ refs, (Subject.symbol T).Names r := by
  cases hw : seed site api with
  | error f =>
    rw [resolve_eq_error_of_seed hw] at h
    cases h
  | ok w =>
    refine ⟨w, rfl, fun F T hF hT => ?_⟩
    have hv := resolve_verdict hp limit hsite hw
    rw [h] at hv
    cases hv with
    | complete _ _ within mem_iff =>
      rw [seed_subject hp hsite hw] at hT
      obtain ⟨z, r, hz, hzr, hTr⟩ :=
        Flow.exists_names_of_denotes hp (fun y hy => (within y hy).1) hF ⟨0, site, .start⟩ hT
      exact ⟨r, (mem_iff r).mpr ⟨z, hz, hzr⟩, hTr⟩

open Factory in
theorem resolve_covers_recursive_factory :
    ((program widget).callSites.map CallSite.id).Nodup ∧ create ∈ (program widget).callSites ∧
      (resolve (program widget) 1 create none).result = .ok [⟨"App", "App.Widget"⟩] ∧
      (Frame.call again (.call again (.call (entry widget) .outermost))).Runs (program widget) (some "Make") ∧
      ∃ r ∈ [(⟨"App", "App.Widget"⟩ : TypeReference)],
        (Subject.symbol (.named "App.Widget" "App" [])).Names r := by
  have hp : ((program widget).callSites.map CallSite.id).Nodup := by decide
  have hsite : create ∈ (program widget).callSites := by decide
  have hr : (resolve (program widget) 1 create none).result = .ok [⟨"App", "App.Widget"⟩] := by rfl
  have hentry : (Frame.call (entry widget) .outermost).Runs (program widget) (some "Make") :=
    .call (by decide) (.outermost none) (m := make) (by decide) rfl
  have hagain : (Frame.call again (.call (entry widget) .outermost)).Runs (program widget) (some "Make") :=
    .call (by decide) hentry (m := make) (by decide) rfl
  have hF : (Frame.call again (.call again (.call (entry widget) .outermost))).Runs (program widget)
      (some "Make") := .call (by decide) hagain (m := make) (by decide) rfl
  obtain ⟨w, hw, h⟩ := resolve_covers_call_stacks (program widget) hp 1 create hsite none _ hr
  cases hw
  -- Down the stack: the local, the parameter, twice what the recursive call passes on, the literal.
  have hT : (Frame.call again (.call again (.call (entry widget) .outermost))).Holds (program widget)
      (.localRef { text := "kind" } "kind") (.named "App.Widget" "App" []) :=
    .localRef (l := kind) (by decide) (.inl rfl)
      (.parameterRef (c := again) rfl (.parameterRef (c := again) rfl
        (.parameterRef (c := entry widget) rfl (.typeOf rfl))))
  exact ⟨hp, hsite, hr, hF, h _ _ hF hT⟩

end TypeOrigins
