import TypeOrigins.Proofs.Analysis.Diagnostics
import TypeOrigins.Proofs.Analysis.Schedule

/-! # The two failure modes

An analysis stops at the first entry that fails, or collects the failures of all entries. Either way
the error is read off one list, `Program.failures`. A failure that is not reported as one, since a
number in it cannot be written or a position counts back to before the first, is never collected: it
ends the analysis in both modes. -/

namespace TypeOrigins
set_option autoImplicit false

/-! ## The failures of a program -/

/-- The same settings, with failures collected. -/
def Config.collecting (config : Config) : Config := { config with collectFailures := true }

/-- The same settings, with an end at the first failure. -/
def Config.failFast (config : Config) : Config := { config with collectFailures := false }

def Entry.outcome (p : Program) (config : Config) (e : Entry) : Outcome :=
  (resolve p config.maxDepth e.site (some e.api)).result

/-- The failures of the entries that fail, in the order of the entries. -/
def Program.failures (p : Program) (config : Config) : List Failure :=
  failuresOf ((p.entries config.apis).map (Entry.outcome p config))

/-- The failure ends the analysis at once. -/
def Config.escapes (config : Config) (f : Failure) : Bool :=
  !(config.collectFailures && f.isReported)

section Entries
variable {p : Program} {config : Config}

theorem result_resolveEntry_of_error {e : Entry} {f : Failure}
    (h : e.outcome p config = .error f) : (resolveEntry p config e).result =
      if config.escapes f then .error f else .ok (.error f) := by
  unfold Entry.outcome at h
  unfold resolveEntry Config.escapes
  dsimp only
  rw [h]
  dsimp only
  cases config.collectFailures && f.isReported <;> rfl

theorem failuresOf_cons_ok (refs : List TypeReference) (outcomes : List Outcome) :
    failuresOf (.ok refs :: outcomes) = failuresOf outcomes := rfl

theorem failuresOf_cons_error (f : Failure) (outcomes : List Outcome) :
    failuresOf (.error f :: outcomes) = f :: failuresOf outcomes := rfl

/-- The entries have their outcomes, unless one of the failures escapes. -/
theorem valuesOf_resolveEntry (p : Program) (config : Config) (entries : List Entry) :
    valuesOf (entries.map fun e => (resolveEntry p config e).result) =
      ((failuresOf (entries.map (Entry.outcome p config))).find? config.escapes).elim
        (.ok (entries.map (Entry.outcome p config))) .error := by
  induction entries with
  | nil => rfl
  | cons e rest ih =>
    rw [List.map_cons, List.map_cons]
    cases hout : e.outcome p config with
    | ok refs =>
      have hresult : (resolveEntry p config e).result = .ok (.ok refs) := resolveEntry_eq_ok.mpr hout
      rw [hresult, valuesOf, ih, failuresOf_cons_ok]
      cases (failuresOf (rest.map (Entry.outcome p config))).find? config.escapes <;> rfl
    | error f =>
      rw [result_resolveEntry_of_error hout, failuresOf_cons_error, List.find?_cons]
      cases config.escapes f with
      | true => rfl
      | false =>
        rw [if_neg (by simp), valuesOf, ih]
        cases (failuresOf (rest.map (Entry.outcome p config))).find? config.escapes <;> rfl

end Entries

/-! ## Errors of an analysis -/

section Analyses
variable {p : Program} {config : Config} {err : AnalysisError}

theorem result_conclude_of_failures {entries : List Entry} {outcomes : List Outcome}
    (h : failuresOf outcomes ≠ []) :
    (conclude entries outcomes).result = .error (.collected (failuresOf outcomes)) := by
  unfold conclude
  obtain ⟨f, fs, hfs⟩ := List.exists_cons_of_ne_nil h
  rw [hfs]
  rfl

theorem analyze_of_escaping {f : Failure} (h : (p.failures config).find? config.escapes = some f) :
    (analyze p config).result = .error (.failed f) := by
  unfold Program.failures at h
  rw [result_analyze, valuesOf_resolveEntry, h]
  rfl

theorem analyze_of_contained (h : (p.failures config).find? config.escapes = none)
    (hne : p.failures config ≠ []) :
    (analyze p config).result = .error (.collected (p.failures config)) := by
  unfold Program.failures at h hne ⊢
  rw [result_analyze, valuesOf_resolveEntry, h]
  exact result_conclude_of_failures hne

/-- With no failure there is an answer, whatever the mode. -/
theorem exists_analyze_of_failures_eq_nil (h : p.failures config = []) :
    ∃ a, ∀ collect, (analyze p { config with collectFailures := collect }).result = .ok a := by
  obtain ⟨found, hfound⟩ := failuresOf_eq_nil.mp h
  rw [← List.forall₂_eq_eq_eq, List.forall₂_map_left_iff, List.forall₂_map_right_iff] at hfound
  exact ⟨.gather (p.entries config.apis) found, fun collect => analyze_eq_ok.mpr ⟨found, hfound, rfl⟩⟩

theorem analyze_failFast_eq_error : (analyze p config.failFast).result = .error err ↔
    ∃ f, (p.failures config).head? = some f ∧ err = .failed f := by
  cases hfs : p.failures config with
  | nil =>
    obtain ⟨a, ha⟩ := exists_analyze_of_failures_eq_nil hfs
    have hok : (analyze p config.failFast).result = .ok a := ha false
    simp [hok]
  | cons f fs =>
    have hfirst : (p.failures config.failFast).find? config.failFast.escapes = some f := by
      change (p.failures config).find? _ = some f
      rw [hfs]
      rfl
    rw [analyze_of_escaping hfirst]
    simp [eq_comm]

theorem analyze_collecting_eq_error (h : ∀ f ∈ p.failures config, f.isReported = true) :
    (analyze p config.collecting).result = .error err ↔
      p.failures config ≠ [] ∧ err = .collected (p.failures config) := by
  by_cases hnil : p.failures config = []
  · obtain ⟨a, ha⟩ := exists_analyze_of_failures_eq_nil hnil
    have hok : (analyze p config.collecting).result = .ok a := ha true
    simp [hok, hnil]
  · have hnone : (p.failures config.collecting).find? config.collecting.escapes = none := by
      rw [List.find?_eq_none]
      intro f hf
      simp [Config.escapes, Config.collecting, h f hf]
    rw [analyze_of_contained hnone hnil]
    change Except.error (AnalysisError.collected (p.failures config)) = _ ↔ _
    rw [Except.error.injEq, eq_comm]
    simp [hnil]

end Analyses

/-! ## Which failures are reported -/

/-- The positions of the API count from the front and can be written. -/
def Api.IsPlain (a : Api) : Prop :=
  0 ≤ a.typeArgumentIndex ∧ 0 ≤ a.valueArgumentIndex ∧ Text.isLong a.typeArgumentIndex = false ∧
    Text.isLong a.valueArgumentIndex = false

section Reported
variable {p : Program} {site : CallSite} {limit : Int} {a : Api} {f : Failure}

theorem seed_error_plain (ha : a.IsPlain) (h : seed site (some a) = .error f) :
    f.cause ≠ .positionOutOfRange ∧ f.cause.isWritable = true := by
  obtain ⟨_, hvalue, hlong, hlong'⟩ := ha
  rcases (seed_eq_error h).2.2 with hc | hc | hc | ⟨_, hneg⟩
  · rw [hc]
    exact ⟨by simp, rfl⟩
  · rw [hc]
    exact ⟨by simp, by simp [Cause.isWritable, hlong]⟩
  · rw [hc]
    exact ⟨by simp, by simp [Cause.isWritable, hlong']⟩
  · have hbefore : a.valueArgumentIndex + (site.arguments.length : Int) < 0 := hneg
    omega

theorem isReported_of_resolve (hp : (p.callSites.map CallSite.id).Nodup)
    (hlocations : ∀ c ∈ p.callSites, c.location.isWritable = true)
    (hordinals : ∀ k ∈ p.ordinals, 0 ≤ k ∧ Text.isLong k = false)
    (hlimit : Text.isLong limit = false) (ha : a.IsPlain) (hsite : site ∈ p.callSites)
    (h : (resolve p limit site (some a)).result = .error f) : f.isReported = true := by
  have hat := hlocations _ (mem_callSites_of_resolve hp hsite h)
  have horigin := hlocations site hsite
  have hwritable := isWritable_of_resolve hp hsite h hat horigin
  unfold Failure.isReported
  cases hw : seed site (some a) with
  | error g =>
    rw [resolve_eq_error_of_seed hw] at h
    cases h
    obtain ⟨hne, hplain⟩ := seed_error_plain ha hw
    rw [Failure.raised, if_neg hne, if_pos (hwritable.trans hplain)]
    rfl
  | ok w =>
    rcases raised_of_resolve hp hsite h hw with hr | ⟨_, ⟨b, hb, hneg⟩ | ⟨k, hk, hneg⟩⟩ |
      ⟨_, hlong | hlong | hlong | ⟨k, hk, hlong⟩⟩
    · rw [hr]
      rfl
    · cases hb
      have := ha.1
      omega
    · have := (hordinals k hk).1
      omega
    · rw [hat] at hlong
      cases hlong
    · rw [horigin] at hlong
      cases hlong
    · rw [hlimit] at hlong
      cases hlong
    · rw [(hordinals k hk).2] at hlong
      cases hlong

end Reported

theorem isReported_of_mem_failures {p : Program} {config : Config}
    (hp : (p.callSites.map CallSite.id).Nodup)
    (hlocations : ∀ c ∈ p.callSites, c.location.isWritable = true)
    (hordinals : ∀ k ∈ p.ordinals, 0 ≤ k ∧ Text.isLong k = false)
    (hlimit : Text.isLong config.maxDepth = false) (hapis : ∀ a ∈ config.apis, a.IsPlain)
    {f : Failure} (hf : f ∈ p.failures config) : f.isReported = true := by
  obtain ⟨e, he, hout⟩ := List.mem_map.mp (mem_failuresOf.mp hf)
  obtain ⟨hsite, hapi⟩ := (Program.mem_entries hp).mp he
  exact isReported_of_resolve hp hlocations hordinals hlimit (hapis _ (List.mem_of_find?_eq_some hapi))
    hsite hout

/-! ## The modes -/

/-- Both modes read their error off one list, that of the failures of the entries: the first of them
ends an analysis that stops at failures, and all of them are collected by one that collects, with
their number and their reports. This holds of failures that are reported as such. One that is not
ends the analysis in both modes, and there is none if the positions, the ordinals, the limit and the
APIs are plain. -/
theorem failure_modes_agree (p : Program) (config : Config) :
    (∀ err, (analyze p config.failFast).result = .error err ↔
      ∃ f, (p.failures config).head? = some f ∧ err = .failed f) ∧
    ((∀ f ∈ p.failures config, f.isReported = true) →
      (∀ err, (analyze p config.collecting).result = .error err ↔
        p.failures config ≠ [] ∧ err = .collected (p.failures config)) ∧
      ∀ err naming, (analyze p config.collecting).result = .error err →
        (err.trouble.problem naming).detail =
            toString (p.failures config).length ++ " call site(s) could not be resolved" ∧
          (err.trouble.problem naming).extras = ([("failures",
            .list ((p.failures config).map fun f => f.problem.document naming))] : Document.Fields)) ∧
    (p.failures config = [] → ∃ a, (analyze p config.failFast).result = .ok a ∧
      (analyze p config.collecting).result = .ok a) ∧
    (∀ f, (p.failures config).find? (fun g => !g.isReported) = some f →
      (analyze p config.collecting).result = .error (.failed f)) ∧
    ((p.callSites.map CallSite.id).Nodup → (∀ c ∈ p.callSites, c.location.isWritable = true) →
      (∀ k ∈ p.ordinals, 0 ≤ k ∧ Text.isLong k = false) → Text.isLong config.maxDepth = false →
      (∀ a ∈ config.apis, a.IsPlain) → ∀ f ∈ p.failures config, f.isReported = true) := by
  refine ⟨fun err => analyze_failFast_eq_error, fun h => ⟨?_, ?_⟩, ?_, ?_, ?_⟩
  · intro err
    exact analyze_collecting_eq_error h
  · intro err naming herr
    obtain ⟨_, rfl⟩ := (analyze_collecting_eq_error h).mp herr
    simp [AnalysisError.trouble, Trouble.problem, Problem.ofFailures, Problem.ofCode]
  · intro h
    obtain ⟨a, ha⟩ := exists_analyze_of_failures_eq_nil h
    exact ⟨a, ha false, ha true⟩
  · intro f hf
    exact analyze_of_escaping hf
  · intro hp hlocations hordinals hlimit hapis f hf
    exact isReported_of_mem_failures hp hlocations hordinals hlimit hapis hf

open Backlog in
theorem failure_modes_agree_on_backlog :
    (∀ f ∈ program.failures config, f.isReported = true) ∧
      (analyze program config.failFast).result = .error (.failed (failure "first" "Load(0)")) ∧
      (analyze program config.collecting).result = .error (.collected
        [failure "first" "Load(0)", failure "second" "Load(1)", failure "third" "Load(2)"]) := by
  have hfailures : program.failures config =
      [failure "first" "Load(0)", failure "second" "Load(1)", failure "third" "Load(2)"] := by
    decide +kernel
  have hapis : ∀ a ∈ config.apis, a.IsPlain := by
    intro a ha
    rw [List.mem_singleton.mp ha]
    exact ⟨by decide, by decide, by decide +kernel, by decide +kernel⟩
  obtain ⟨hfast, hcollect, _, _, hreported⟩ := failure_modes_agree program config
  have hall := hreported (by decide +kernel) (by decide +kernel) (by decide +kernel) (by decide +kernel)
    hapis
  refine ⟨hall, (hfast _).mpr ⟨_, by rw [hfailures]; rfl, rfl⟩, ((hcollect hall).1 _).mpr ⟨?_, ?_⟩⟩
  · rw [hfailures]
    exact List.cons_ne_nil _ _
  · rw [hfailures]

/-! ## A failure that cannot be written -/

namespace Backlog

/-- A call whose line has one digit too many to be written, after one that fails too. -/
def withFarCall : Program where
  callSites := [call "first" "Load(0)", FarLine.call (Nat.pow 10 Text.digitLimit)]

end Backlog

open Backlog CommandLine in
theorem collecting_ends_at_far_call :
    (withFarCall.callSites.map CallSite.id).Nodup ∧ (withFarCall.failures {}).length = 2 ∧
      ∃ f, (analyze withFarCall { collectFailures := true }).result = .error (.failed f) ∧
        f.isWritable = false ∧ ∀ (i : Invocation) (naming : Problem.Naming),
          ((analysisTrouble i (.failed f)).problem naming).code = some "cli.failure" := by
  have hresult : (analyze withFarCall { collectFailures := true }).result = .error (.failed
      ⟨FarLine.call (Nat.pow 10 Text.digitLimit), "<literal>", .untracedShape "literal",
        some (FarLine.call (Nat.pow 10 Text.digitLimit))⟩) := by decide +kernel
  refine ⟨by decide +kernel, by decide +kernel, _, hresult, by decide +kernel, fun i naming => ?_⟩
  have hraised : (⟨FarLine.call (Nat.pow 10 Text.digitLimit), "<literal>", .untracedShape "literal",
      some (FarLine.call (Nat.pow 10 Text.digitLimit))⟩ : Failure).raised = .error .longInteger := by
    decide +kernel
  simp only [analysisTrouble, hraised]
  rfl

end TypeOrigins
