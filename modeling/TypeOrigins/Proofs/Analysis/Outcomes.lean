import TypeOrigins.Proofs.Analysis.Entries

/-! # The outcomes of the entries

Whether the entries are resolved one after another or in a pool, the result is the list of their
outcomes, or the first error among them. An analysis has a result if every entry has its types, and
then it is gathered from them. -/

namespace TypeOrigins
set_option autoImplicit false

/-! ## Tasks -/

section Tasks
variable {ε α : Type}

theorem valuesOf_eq_ok {rs : List (Except ε α)} {as : List α} :
    valuesOf rs = .ok as ↔ rs = as.map .ok := by
  induction rs generalizing as with
  | nil => cases as <;> simp [valuesOf]
  | cons r rest ih =>
    cases r with
    | error e => cases as <;> simp [valuesOf]
    | ok a =>
      unfold valuesOf
      cases as with
      | nil => cases valuesOf rest <;> simp [Except.map]
      | cons b bs =>
        rw [List.map_cons, List.cons.injEq, ← ih]
        cases valuesOf rest <;> simp [Except.map]

theorem error_mem_of_valuesOf {rs : List (Except ε α)} {e : ε} (h : valuesOf rs = .error e) :
    .error e ∈ rs := by
  induction rs with
  | nil => cases h
  | cons r rest ih =>
    cases r with
    | error e' =>
      cases h
      exact List.mem_cons_self
    | ok a =>
      rw [valuesOf] at h
      cases hr : valuesOf rest with
      | error e' =>
        rw [hr] at h
        cases h
        exact List.mem_cons_of_mem _ (ih hr)
      | ok as =>
        rw [hr] at h
        cases h

theorem result_inTurn (tasks : List (Logged ε α)) :
    (inTurn tasks).result = valuesOf (tasks.map (·.result)) := by
  induction tasks with
  | nil => rfl
  | cons t rest ih =>
    rw [List.map_cons, inTurn]
    cases ht : t.result with
    | error e => exact Logged.result_bind_of_error _ ht
    | ok a =>
      rw [Logged.result_bind_of_ok _ ht, valuesOf, ← ih]
      cases hr : (inTurn rest).result with
      | error e => exact Logged.result_bind_of_error _ hr
      | ok as => exact Logged.result_bind_of_ok _ hr

end Tasks

/-! ## Entries -/

section Entries
variable {p : Program} {config : Config}

theorem result_resolveEntries (p : Program) (config : Config) (entries : List Entry) :
    (resolveEntries p config entries).result =
      valuesOf (entries.map fun e => (resolveEntry p config e).result) := by
  unfold resolveEntries
  split
  · rw [Logged.result_say_bind, inPool, List.map_map]
    rfl
  · rw [result_inTurn, List.map_map]
    rfl

theorem resolveEntry_eq_ok {e : Entry} {refs : List TypeReference} :
    (resolveEntry p config e).result = .ok (.ok refs) ↔
      (resolve p config.maxDepth e.site (some e.api)).result = .ok refs := by
  unfold resolveEntry
  dsimp only
  split
  · next refs' hr =>
    rw [hr, Except.ok.injEq]
  · next f hr =>
    rw [hr]
    split <;> simp

/-- A failure of an entry, collected or not, is a failure of its search. -/
theorem resolve_eq_error_of_entry {e : Entry} {f : Failure}
    (h : (resolveEntry p config e).result = .error f ∨ (resolveEntry p config e).result = .ok (.error f)) :
    (resolve p config.maxDepth e.site (some e.api)).result = .error f := by
  unfold resolveEntry at h
  dsimp only at h
  split at h
  · rcases h with h | h <;> cases h
  · next f' hr =>
    rw [hr]
    split at h <;> rcases h with h | h <;> cases h <;> rfl

/-- Only what is reported as a failure is collected. -/
theorem isReported_of_entry {e : Entry} {f : Failure}
    (h : (resolveEntry p config e).result = .ok (.error f)) : f.isReported = true := by
  unfold resolveEntry at h
  dsimp only at h
  split at h
  · cases h
  · split at h
    · next hboth =>
      cases h
      exact (Bool.and_eq_true_iff.mp hboth).2
    · cases h

theorem map_resolveEntry_eq_ok {entries : List Entry} {found : List (List TypeReference)} :
    (entries.map fun e => (resolveEntry p config e).result) = (found.map Except.ok).map Except.ok ↔
      List.Forall₂ (fun e refs => (resolve p config.maxDepth e.site (some e.api)).result = .ok refs)
        entries found := by
  rw [List.map_map, ← List.forall₂_eq_eq_eq, List.forall₂_map_left_iff, List.forall₂_map_right_iff]
  simp only [Function.comp_apply, resolveEntry_eq_ok]

end Entries

/-! ## Conclusions -/

theorem failuresOf_eq_nil {outcomes : List Outcome} :
    failuresOf outcomes = [] ↔ ∃ found : List (List TypeReference), outcomes = found.map .ok := by
  unfold failuresOf
  induction outcomes with
  | nil => exact ⟨fun _ => ⟨[], rfl⟩, fun _ => rfl⟩
  | cons o rest ih =>
    cases o with
    | error f =>
      constructor
      · intro h
        cases h
      · rintro ⟨found, h⟩
        cases found <;> cases h
    | ok refs =>
      rw [List.filterMap_cons_none rfl, ih]
      constructor
      · rintro ⟨found, rfl⟩
        exact ⟨refs :: found, rfl⟩
      · rintro ⟨found, h⟩
        cases found with
        | nil => cases h
        | cons refs' found => exact ⟨found, (List.cons.inj h).2⟩

theorem mem_failuresOf {outcomes : List Outcome} {f : Failure} :
    f ∈ failuresOf outcomes ↔ .error f ∈ outcomes := by
  unfold failuresOf
  rw [List.mem_filterMap]
  constructor
  · rintro ⟨o, ho, hf⟩
    cases o with
    | ok refs => cases hf
    | error f' =>
      cases hf
      exact ho
  · exact fun h => ⟨_, h, rfl⟩

theorem resolvedOf_found (entries : List Entry) (found : List (List TypeReference)) :
    resolvedOf entries (found.map .ok) = (entries.map fun e => e.site.id).zip found := by
  unfold resolvedOf
  induction entries generalizing found with
  | nil => rfl
  | cons e rest ih =>
    cases found with
    | nil => rfl
    | cons refs found =>
      rw [List.map_cons, List.map_cons, List.zip_cons_cons, List.zip_cons_cons, ← ih]
      rfl

/-- The analysis in which each entry has the types found for it. -/
def Analysis.gather (entries : List Entry) (found : List (List TypeReference)) : Analysis where
  keepList := keepListOf ((entries.map fun e => e.site.id).zip found)
  entries := entries
  resolved := (entries.map fun e => e.site.id).zip found

theorem conclude_eq_ok {entries : List Entry} {outcomes : List Outcome} {a : Analysis} :
    (conclude entries outcomes).result = .ok a ↔
      ∃ found : List (List TypeReference), outcomes = found.map .ok ∧ a = .gather entries found := by
  unfold conclude
  split
  · next f fs hf =>
    constructor
    · intro h
      cases h
    · rintro ⟨found, hfound, _⟩
      rw [failuresOf_eq_nil.mpr ⟨found, hfound⟩] at hf
      cases hf
  · next hf =>
    obtain ⟨found, rfl⟩ := failuresOf_eq_nil.mp hf
    rw [Logged.result_say_bind, resolvedOf_found]
    constructor
    · intro h
      cases h
      exact ⟨found, rfl, rfl⟩
    · rintro ⟨found', h, rfl⟩
      obtain rfl : found = found' :=
        List.map_injective_iff.mpr (fun _ _ h => Except.ok.inj h) h
      rfl

theorem conclude_eq_error {entries : List Entry} {outcomes : List Outcome} {err : AnalysisError}
    (h : (conclude entries outcomes).result = .error err) :
    err = .collected (failuresOf outcomes) ∧ failuresOf outcomes ≠ [] := by
  unfold conclude at h
  split at h
  · next f fs hf =>
    cases h
    rw [hf]
    exact ⟨rfl, List.cons_ne_nil f fs⟩
  · rw [Logged.result_say_bind] at h
    cases h

/-! ## Analyses -/

section Analyses
variable {p : Program} {config : Config}

theorem result_analyze (p : Program) (config : Config) :
    (analyze p config).result =
      (((valuesOf ((p.entries config.apis).map fun e => (resolveEntry p config e).result)).mapError
        AnalysisError.failed).bind fun outcomes => (conclude (p.entries config.apis) outcomes).result) := by
  unfold analyze
  rw [Logged.result_bind_of_ok _ (result_discover p config.apis), ← result_resolveEntries]
  cases hr : (resolveEntries p config (p.entries config.apis)).result with
  | error f =>
    refine Logged.result_bind_of_error _ ?_
    rw [Logged.result_mapError, hr]
    rfl
  | ok outcomes =>
    refine Logged.result_bind_of_ok _ ?_
    rw [Logged.result_mapError, hr]
    rfl

theorem analyze_eq_ok {a : Analysis} : (analyze p config).result = .ok a ↔
    ∃ found, List.Forall₂
      (fun e refs => (resolve p config.maxDepth e.site (some e.api)).result = .ok refs)
      (p.entries config.apis) found ∧ a = .gather (p.entries config.apis) found := by
  rw [result_analyze]
  cases hv : valuesOf ((p.entries config.apis).map fun e => (resolveEntry p config e).result) with
  | error f =>
    constructor
    · intro h
      cases h
    · rintro ⟨found, hfound, _⟩
      rw [valuesOf_eq_ok.mpr (map_resolveEntry_eq_ok.mpr hfound)] at hv
      cases hv
  | ok outcomes =>
    have hmap := valuesOf_eq_ok.mp hv
    rw [Except.mapError, Except.bind, conclude_eq_ok]
    constructor
    · rintro ⟨found, rfl, rfl⟩
      exact ⟨found, map_resolveEntry_eq_ok.mp hmap, rfl⟩
    · rintro ⟨found, hfound, rfl⟩
      refine ⟨found, ?_, rfl⟩
      rw [map_resolveEntry_eq_ok.mpr hfound] at hmap
      exact (List.map_injective_iff.mpr (fun _ _ h => Except.ok.inj h) hmap).symm

/-- An error is the failure of one entry or collects failures of some that are reported as such. -/
theorem analyze_error_cases {err : AnalysisError} (h : (analyze p config).result = .error err) :
    ∃ f fs, (err = .failed f ∧ fs = [] ∨
        err = .collected (f :: fs) ∧ ∀ g ∈ f :: fs, g.isReported = true) ∧
      ∀ g ∈ f :: fs, ∃ e ∈ p.entries config.apis,
        (resolve p config.maxDepth e.site (some e.api)).result = .error g := by
  rw [result_analyze] at h
  cases hv : valuesOf ((p.entries config.apis).map fun e => (resolveEntry p config e).result) with
  | error f =>
    rw [hv] at h
    cases h
    obtain ⟨e, he, hf⟩ := List.mem_map.mp (error_mem_of_valuesOf hv)
    refine ⟨f, [], Or.inl ⟨rfl, rfl⟩, fun g hg => ?_⟩
    rw [List.mem_singleton.mp hg]
    exact ⟨e, he, resolve_eq_error_of_entry (Or.inl hf)⟩
  | ok outcomes =>
    rw [hv] at h
    obtain ⟨rfl, hne⟩ := conclude_eq_error h
    obtain ⟨f, fs, hfs⟩ := List.exists_cons_of_ne_nil hne
    have hentry : ∀ g ∈ f :: fs, ∃ e ∈ p.entries config.apis,
        (resolveEntry p config e).result = .ok (.error g) := by
      intro g hg
      have hout := mem_failuresOf.mp (hfs ▸ hg)
      have hmem : (Except.ok (Except.error g) : Except Failure Outcome) ∈ outcomes.map .ok :=
        List.mem_map_of_mem hout
      rw [← valuesOf_eq_ok.mp hv] at hmem
      exact List.mem_map.mp hmem
    refine ⟨f, fs, Or.inr ⟨by rw [hfs], fun g hg => ?_⟩, fun g hg => ?_⟩
    · obtain ⟨e, _, he⟩ := hentry g hg
      exact isReported_of_entry he
    · obtain ⟨e, hmem, he⟩ := hentry g hg
      exact ⟨e, hmem, resolve_eq_error_of_entry (Or.inr he)⟩

end Analyses

end TypeOrigins
