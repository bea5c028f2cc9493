import TypeOrigins.Proofs.Origin.Frontier

/-! # Exactness of the search

The search answers if and only if no reachable place fails and all are within the limit, and then
with the types of the reachable terminal places, each once. -/

namespace TypeOrigins
set_option autoImplicit false

/-- A search that cannot begin fails with the reason. One that begins succeeds exactly if no place that
is reachable from its start fails and none is further than the limit, and then it lists, each once,
the types that stand at the reachable places. -/
theorem resolve_exact (p : Program) (hp : (p.callSites.map CallSite.id).Nodup) (limit : Int)
    (site : CallSite) (hsite : site ∈ p.callSites) (api : Option Api) :
    (∀ f, seed site api = .error f → (resolve p limit site api).result = .error f) ∧
    ∀ w, seed site api = .ok w →
      ((∃ refs, (resolve p limit site api).result = .ok refs) ↔
        (∀ y, Flow.Reachable p site w.place y → ¬ Flow.Fails p y) ∧
          ∀ y k, Flow.Distance p site w.place y k → (k : Int) ≤ limit) ∧
      ∀ refs, (resolve p limit site api).result = .ok refs →
        refs.Nodup ∧
          ∀ r, r ∈ refs ↔ ∃ y, Flow.Reachable p site w.place y ∧ (p.subjectAt y).Names r := by
  refine ⟨fun f hf => resolve_eq_error_of_seed hf, fun w hw => ?_⟩
  have hv := resolve_verdict hp limit hsite hw
  generalize (resolve p limit site api).result = result at hv
  cases hv with
  | complete refs nodup within mem_iff =>
    refine ⟨⟨fun _ => ⟨fun y hy => (within y hy).1, fun y k hk => ?_⟩, fun _ => ⟨refs, rfl⟩⟩, ?_⟩
    · obtain ⟨_, j, hj, hle⟩ := within y hk.reachable
      rw [hk.unique hj]
      exact hle
    · intro refs' h
      cases h
      exact ⟨nodup, mem_iff⟩
  | failed v f located distance le_limit error nearest =>
    refine ⟨⟨?_, ?_⟩, ?_⟩
    · rintro ⟨refs, h⟩
      cases h
    · rintro ⟨hno, _⟩
      exact absurd ⟨v, f, rfl, located.subject_eq, error⟩ (hno v.place distance.reachable)
    · intro refs h
      cases h
  | tooFar v located distance beyond near within =>
    refine ⟨⟨?_, ?_⟩, ?_⟩
    · rintro ⟨refs, h⟩
      cases h
    · rintro ⟨_, hle⟩
      have := hle v.place v.context.depth distance
      omega
    · intro refs h
      cases h

open Factory in
theorem resolve_exact_factory :
    ((program widget).callSites.map CallSite.id).Nodup ∧ create ∈ (program widget).callSites ∧
      (resolve (program widget) 1 create none).result = .ok [⟨"App", "App.Widget"⟩] ∧
      ∃ y, Flow.Reachable (program widget) create ⟨.argument, "create", 0⟩ y ∧
        ((program widget).subjectAt y).Names ⟨"App", "App.Widget"⟩ := by
  have hp : ((program widget).callSites.map CallSite.id).Nodup := by decide
  have hsite : create ∈ (program widget).callSites := by decide
  have hr : (resolve (program widget) 1 create none).result = .ok [⟨"App", "App.Widget"⟩] := by rfl
  have h := (resolve_exact (program widget) hp 1 create hsite none).2 _ rfl
  exact ⟨hp, hsite, hr, ((h.2 _ hr).2 _).mp List.mem_cons_self⟩

end TypeOrigins
