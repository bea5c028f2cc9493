import TypeOrigins.CommandLine.Run
import TypeOrigins.Proofs.Origin.Precision

/-! # Raising the depth limit

Two searches that differ in their limit alone take the same steps until the smaller limit stops one
of them: `resolve_of_le_limit`. So a larger limit keeps every answer and every failure, but for the
failure to stay within the smaller one. That failure names a call of the program, and is reported as
what it is if the numbers in it can be written. -/

namespace TypeOrigins
set_option autoImplicit false

/-! ## Two searches side by side -/

namespace Search
variable {p : Program} {limit limit' : Int}

theorem advance_of_le_limit (h : limit ≤ limit') (s : Search) (w : Work) (rest : List Work) :
    s.advance p limit' w rest = s.advance p limit w rest ∨
      s.advance p limit w rest =
        failureAt w.context w.site w.site.target.display (.depthExceeded limit) := by
  unfold advance advanceUnder
  by_cases hin : s.expanded.contains w.place = true
  · rw [if_pos hin, if_pos hin]
    exact Or.inl rfl
  · rw [if_neg hin, if_neg hin]
    by_cases hd : limit < (w.context.depth : Int)
    · rw [if_pos hd]
      exact Or.inr rfl
    · have hd' : ¬ limit' < (w.context.depth : Int) := by omega
      rw [if_neg hd, if_neg hd']
      exact Or.inl rfl

theorem run_of_le_limit (h : limit ≤ limit') (fuel : ℕ) (s : Search) :
    run p limit' fuel s = run p limit fuel s ∨
      ∃ f, (run p limit fuel s).result = .error f ∧ f.cause = .depthExceeded limit := by
  induction fuel generalizing s with
  | zero => exact Or.inl rfl
  | succ fuel ih =>
    cases hq : s.queue with
    | nil => exact Or.inl ((runUnder_nil hq).trans (runUnder_nil hq).symm)
    | cons w rest =>
      rw [run_cons hq, run_cons hq]
      rcases advance_of_le_limit h s w rest with heq | hfar
      · rw [heq]
        cases hs : (s.advance p limit w rest).result with
        | error f =>
          -- the step fails under both limits, so nothing comes after it
          refine Or.inl (Logged.bind_congr fun s' hs' => ?_)
          rw [hs] at hs'
          cases hs'
        | ok s' =>
          rcases ih s' with hrun | ⟨f, hf, hc⟩
          · refine Or.inl (Logged.bind_congr fun s'' hs'' => ?_)
            rw [hs] at hs''
            cases hs''
            exact hrun
          · exact Or.inr ⟨f, by rw [Logged.result_bind_of_ok _ hs, hf], hc⟩
      · rw [hfar]
        exact Or.inr ⟨_, Logged.result_bind_of_error _ rfl, rfl⟩

end Search

section Limits
variable {p : Program} {limit limit' : Int} {site : CallSite} {api : Option Api} {f : Failure}

theorem resolve_of_le_limit (p : Program) (h : limit ≤ limit') (site : CallSite) (api : Option Api) :
    resolve p limit' site api = resolve p limit site api ∨
      ∃ f, (resolve p limit site api).result = .error f ∧ f.cause = .depthExceeded limit := by
  cases hw : seed site api with
  | error f =>
    left
    unfold resolve resolveUnder
    rw [hw]
    rfl
  | ok w =>
    rw [resolve_of_seed hw, resolve_of_seed hw]
    rcases Search.run_of_le_limit (p := p) h (p.searchBound site) { queue := [w] } with
      hrun | ⟨f, hf, hc⟩
    · rw [hrun]
      exact Or.inl rfl
    · exact Or.inr ⟨f, Logged.result_bind_of_error _ hf, hc⟩

/-! ## The failure to stay within the limit -/

/-- All work that waits belongs to the origin or a call of the program. -/
def Search.Cites (p : Program) (site : CallSite) (s : Search) : Prop :=
  ∀ w ∈ s.queue, w.site ∈ site :: p.callSites ∧ w.context.origin = site

theorem Search.Cites.step (s : Search) (w : Work) (rest : List Work) (s' : Search)
    (h : s.Cites p site) (hq : s.queue = w :: rest)
    (hs : (s.advance p limit w rest).result = .ok s') : s'.Cites p site := by
  have hrest : ∀ v ∈ rest, v.site ∈ site :: p.callSites ∧ v.context.origin = site :=
    fun v hv => h v (hq ▸ List.mem_cons_of_mem w hv)
  have hw := h w (hq ▸ List.mem_cons_self)
  rcases Search.advance_eq_ok.mp hs with ⟨_, rfl⟩ | ⟨_, _, x, hx, rfl⟩
  · exact hrest
  · intro v hv
    rcases (Frontier.mem_grow_queue (Work.expanded_of_ok hx)).mp hv with hv | ⟨via, y, t, e, _, rfl⟩
    · exact hrest v hv
    · cases via with
      | none => exact hw
      | some c => exact ⟨List.mem_cons_of_mem site e.mem_callSites, hw.2⟩

theorem resolve_depthLimit (h : (resolve p limit site api).result = .error f)
    (hc : f.cause.category = .depthLimit) :
    ∃ c ∈ site :: p.callSites, f = ⟨c, c.target.display, .depthExceeded limit, some site⟩ := by
  cases hw : seed site api with
  | error g =>
    rw [resolve_eq_error_of_seed hw] at h
    cases h
    exact absurd hc (category_of_seed hw)
  | ok w =>
    have hfirst : ({ queue := [w] } : Search).Cites p site := by
      intro v hv
      obtain rfl : v = w := List.mem_singleton.mp hv
      obtain ⟨_, hsite, horigin, _⟩ := seed_place hw
      exact ⟨hsite ▸ List.mem_cons_self, horigin⟩
    rcases resolve_induction hw (Search.Cites p site) hfirst Search.Cites.step with
      ⟨s, _, _, hok⟩ | ⟨s, v, rest, g, hs, hq, hg, hr⟩
    · rw [h] at hok
      cases hok
    · obtain rfl : f = g := Except.error.inj (h.symm.trans hr)
      obtain ⟨hsite, horigin⟩ := hs v (hq ▸ List.mem_cons_self)
      obtain ⟨_, ⟨_, rfl⟩ | ⟨_, hx⟩⟩ := Search.advance_eq_error.mp hg
      · exact ⟨v.site, hsite, by rw [horigin]⟩
      · exact absurd hc (Work.category_of_expand hx)

end Limits

/-- A larger limit keeps every answer of a search and every failure but that of the limit. A failure
that a larger limit mends is reported as the limit, if its numbers are short enough to be written. -/
theorem resolve_stable_in_limit (p : Program) (site : CallSite) (api : Option Api) (d d' : Int)
    (h : d ≤ d') :
    (∀ refs, (resolve p d site api).result = .ok refs →
      (resolve p d' site api).result = .ok refs) ∧
    (∀ f, (resolve p d site api).result = .error f → f.cause.category ≠ .depthLimit →
      (resolve p d' site api).result = .error f) ∧
    ∀ f refs, (resolve p d site api).result = .error f → (resolve p d' site api).result = .ok refs →
      f.cause = .depthExceeded d ∧ f.problem.code = some "resolution.recursion_limit" ∧
      ((∀ c ∈ site :: p.callSites, c.location.isWritable = true) → Text.isLong d = false →
        f.isWritable = true) := by
  rcases resolve_of_le_limit p h site api with heq | ⟨g, hg, hdeep⟩
  · rw [heq]
    refine ⟨fun _ hr => hr, fun _ hf _ => hf, fun f refs hf hr => ?_⟩
    rw [hf] at hr
    cases hr
  · have hcategory : g.cause.category = .depthLimit := by rw [hdeep]; rfl
    rw [hg]
    refine ⟨?_, ?_, ?_⟩
    · intro refs hr
      cases hr
    · intro f hf hne
      cases hf
      exact absurd hcategory hne
    · intro f refs hf _
      cases hf
      refine ⟨hdeep, ?_, ?_⟩
      · change some g.cause.category.code = _
        rw [hcategory]
        rfl
      · intro hlocations hd
        obtain ⟨c, hc, rfl⟩ := resolve_depthLimit hg hcategory
        have hsite := hlocations site List.mem_cons_self
        simp [Failure.isWritable, Cause.isWritable, hd, hlocations c hc, hsite]

/-! ## A factory behind a relay

`Relay` passes its parameter on to `Make`, which builds an object of it; the call of `Relay` stands
in a line of its own. -/

namespace Relay

def make : Method where
  id := "Make"
  declaringType := "App.Factory"
  name := "Make"
  parameters := ["type"]

def relay : Method where
  id := "Relay"
  declaringType := "App.Relay"
  name := "Relay"
  parameters := ["type"]

def create : CallSite where
  id := "create"
  location := ⟨"Factory.cs", 3, 4⟩
  target := ⟨"CreateInstance", "System.Activator", "CreateInstance"⟩
  enclosingMethod := some "Make"
  arguments := [.parameterRef { text := "type" } "Make" 0]

def forward : CallSite where
  id := "forward"
  location := ⟨"Relay.cs", 5, 4⟩
  target := ⟨"Make", "App.Factory", "Make"⟩
  enclosingMethod := some "Relay"
  arguments := [.parameterRef { text := "type" } "Relay" 0]

def entry (line : ℕ) : CallSite where
  id := "entry"
  location := ⟨"Program.cs", line, 0⟩
  target := ⟨"Relay", "App.Relay", "Relay"⟩
  arguments := [.typeOf { text := "typeof(Widget)" } (.named "App.Widget" "App" [])]

def program (line : ℕ) : Program where
  methods := [make, relay]
  callSites := [create, forward, entry line]

/-- The failure of the search that may take one step. -/
def tooFar (line : ℕ) : Failure where
  site := entry line
  construct := "App.Relay.Relay"
  cause := .depthExceeded 1
  origin := some create

/-- A line whose number has one digit too many to be written. -/
def farLine : ℕ := Nat.pow 10 Text.digitLimit

theorem isWritable_tooFar : (tooFar farLine).isWritable = false := by decide +kernel

end Relay

open Relay in
theorem resolve_stable_behind_relay :
    (1 : Int) ≤ 2 ∧ (2 : Int) ≤ 64 ∧
      (resolve (program 9) 64 create (some Api.activator)).result = .ok [⟨"App", "App.Widget"⟩] ∧
      (resolve (program 9) 1 create (some Api.activator)).result = .error (tooFar 9) ∧
      (tooFar 9).problem.code = some "resolution.recursion_limit" := by
  have htwo : (resolve (program 9) 2 create (some Api.activator)).result =
      .ok [⟨"App", "App.Widget"⟩] := by decide +kernel
  have hone : (resolve (program 9) 1 create (some Api.activator)).result = .error (tooFar 9) := by
    decide +kernel
  obtain ⟨_, _, hfail⟩ := resolve_stable_in_limit (program 9) create (some Api.activator) 1 2 (by decide)
  obtain ⟨hkeep, _, _⟩ := resolve_stable_in_limit (program 9) create (some Api.activator) 2 64 (by decide)
  exact ⟨by decide, by decide, hkeep _ htwo, hone, (hfail _ _ hone htwo).2.1⟩

open Relay CommandLine in
theorem report_far_relay :
    (∃ refs, (resolve (program farLine) 2 create (some Api.activator)).result = .ok refs) ∧
      (∃ f, (resolve (program farLine) 1 create (some Api.activator)).result = .error f ∧
        f.isWritable = false) ∧
      ∀ (i : Invocation) (naming : Problem.Naming), ∃ t,
        ((analyze (program farLine) { maxDepth := 1 }).mapError (analysisTrouble i)).result = .error t ∧
          (t.problem naming).code = some "cli.failure" := by
  have htwo : (resolve (program farLine) 2 create (some Api.activator)).result =
      .ok [⟨"App", "App.Widget"⟩] := by decide +kernel
  have hone : (resolve (program farLine) 1 create (some Api.activator)).result =
      .error (tooFar farLine) := by decide +kernel
  have hanalyze : (analyze (program farLine) { maxDepth := 1 }).result =
      .error (.failed (tooFar farLine)) := by decide +kernel
  refine ⟨⟨_, htwo⟩, ⟨_, hone, isWritable_tooFar⟩, fun i naming => ?_⟩
  refine ⟨_, congrArg (Except.mapError _) hanalyze, ?_⟩
  have hraised : (tooFar farLine).raised = .error .longInteger := by decide +kernel
  simp only [analysisTrouble, hraised]
  rfl

end TypeOrigins
