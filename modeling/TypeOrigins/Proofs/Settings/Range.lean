import TypeOrigins.Proofs.Report.Logged
import TypeOrigins.Proofs.Settings.Precedence
import TypeOrigins.Proofs.Text.Numeral

/-! # Configurations in range

The analysis takes a configuration as it comes and checks nothing. All the same it never gets one that
is out of range: settings are in range wherever they come from, and the number of workers is one that
is set, a positive one of the environment, or one. -/

namespace TypeOrigins
set_option autoImplicit false

open Document

/-- A configuration that the analysis can work with. -/
structure Config.InRange (c : Config) : Prop where
  apis_ne : c.apis ≠ []
  apis : ∀ a ∈ c.apis, a.InRange
  maxDepth : 1 ≤ c.maxDepth
  workers : 1 ≤ c.workers

namespace Settings

/-! ## The number of workers -/

/-- A positive integer that the environment spells. -/
def Offers (environment : Option String) (n : ℤ) : Prop :=
  ∃ value, environment = some value ∧ Text.Spells value.toList n ∧ 0 < n

/-- The number of workers for a setting: the one that is set, or else the one of the environment, or
else one. -/
def IsWorkerCount (environment : Option String) (n : ℤ) : Option ℕ → Prop
  | some k => n = k
  | none => Offers environment n ∨ ((∀ m, ¬ Offers environment m) ∧ n = 1)

theorem offers_some {value : String} {n : ℤ} :
    Offers (some value) n ↔ (Text.readInt? value.toList).filter (0 < ·) = some n := by
  rw [Option.filter_eq_some_iff, Text.readInt?_eq_some]
  simp [Offers]

section Workers
variable {ε : Type}

theorem exists_workerCount_none (environment : Option String) :
    ∃ n, (workerCount none environment : Logged ε ℤ).result = .ok n ∧ IsWorkerCount environment n none := by
  cases environment with
  | none =>
    refine ⟨1, rfl, Or.inr ⟨?_, rfl⟩⟩
    rintro m ⟨value, hvalue, _⟩
    cases hvalue
  | some value =>
    have hopen : (workerCount none (some value) : Logged ε ℤ).result =
        .ok (((Text.readInt? value.toList).filter (0 < ·)).getD 1) := by
      unfold workerCount
      dsimp only [Option.filter_none]
      by_cases hempty : value.isEmpty = true
      · obtain rfl := String.isEmpty_iff.mp hempty
        rfl
      · rw [if_neg hempty]
        cases (Text.readInt? value.toList).filter (0 < ·) with
        | some n => rfl
        | none => rfl
    refine ⟨_, hopen, ?_⟩
    cases hread : (Text.readInt? value.toList).filter (0 < ·) with
    | some n => exact Or.inl (offers_some.mpr hread)
    | none =>
      refine Or.inr ⟨fun m hm => ?_, rfl⟩
      rw [offers_some, hread] at hm
      cases hm

theorem exists_workerCount {setting : Option ℕ} (h : ∀ k ∈ setting, 1 ≤ k) (environment : Option String) :
    ∃ n, (workerCount (setting.map Int.ofNat) environment : Logged ε ℤ).result = .ok n ∧
      IsWorkerCount environment n setting := by
  cases setting with
  | none => exact exists_workerCount_none environment
  | some k =>
    have hpos : (0 : ℤ) < Int.ofNat k := Int.natCast_pos.mpr (h k rfl)
    have hset : (some (Int.ofNat k)).filter (0 < ·) = some (Int.ofNat k) :=
      Option.filter_some_pos (by simpa using hpos)
    refine ⟨k, ?_, rfl⟩
    unfold workerCount
    rw [Option.map_some, hset]
    rfl

theorem one_le_of_isWorkerCount {setting : Option ℕ} (h : ∀ k ∈ setting, 1 ≤ k) {environment : Option String}
    {n : ℤ} (hn : IsWorkerCount environment n setting) : 1 ≤ n := by
  cases setting with
  | some k =>
    have hk := h k rfl
    have hn' : n = k := hn
    omega
  | none =>
    rcases hn with ⟨_, _, _, hpos⟩ | ⟨_, rfl⟩
    · omega
    · exact Int.le_refl 1

end Workers

/-! ## Configurations -/

theorem exists_config {ε : Type} {s : Settings} (hs : s.InRange) (environment : Option String) :
    ∃ c : Config, (s.config environment : Logged ε Config).result = .ok c ∧ c.InRange ∧ c.apis = s.apis ∧
      c.maxDepth = s.maxDepth ∧ c.collectFailures = s.collectFailures ∧
      IsWorkerCount environment c.workers s.workers := by
  have hworkers : ∀ k ∈ s.workers, 1 ≤ k := hs .workers
  obtain ⟨n, hresult, hcount⟩ := exists_workerCount (ε := ε) hworkers environment
  have hapis := hs .apis
  have hdepth : 1 ≤ s.maxDepth := hs .maxDepth
  have hopen : (s.config environment : Logged ε Config) = do
      let workers ← workerCount (s.workers.map Int.ofNat) environment
      return ⟨s.apis, s.maxDepth, workers, s.collectFailures⟩ := by
    unfold config
    cases s.workers <;> rfl
  refine ⟨⟨s.apis, s.maxDepth, n, s.collectFailures⟩, ?_, ?_, rfl, rfl, rfl, hcount⟩
  · rw [hopen, Logged.result_bind_of_ok _ hresult]
    rfl
  · exact ⟨hapis.1, hapis.2, Int.ofNat_le.mpr hdepth, one_le_of_isWorkerCount hworkers hcount⟩

theorem checkApi_of_parse? {text : String} {a : Api} (h : Api.parse? text = some a) :
    checkApi (.object [("declaring_type", .text a.declaringType), ("method_name", .text a.methodName)]) =
      .valid a := by
  have hplain := Api.plain_of_parse? h
  refine checkApi_eq_valid.mpr ⟨_, rfl, ?_, ?_, ?_, ?_, (), rfl⟩
  · exact requiredField_nonEmptyText.mpr ⟨rfl, hplain.type_ne⟩
  · exact requiredField_nonEmptyText.mpr ⟨rfl, hplain.name_ne⟩
  · exact Checked.optionalField_eq_valid.mpr (Or.inl ⟨rfl, hplain.typePosition.symm⟩)
  · exact Checked.optionalField_eq_valid.mpr (Or.inl ⟨rfl, hplain.valuePosition.symm⟩)

end Settings

namespace CommandLine
variable {files : FileTree} {environment : Option String} {i : Invocation}

/-! ## Configurations of a command line -/

theorem result_configFor {s : Settings} (h : settingsFor files i = .ok s) :
    (configFor files environment i).result = (s.config environment : Logged Trouble Config).result := by
  unfold configFor
  rw [h]
  exact Logged.result_bind_of_ok _ (Logged.result_lift _)

theorem result_configFor_of_error {t : Trouble} (h : settingsFor files i = .error t) :
    (configFor files environment i).result = .error t := by
  unfold configFor
  rw [h]
  exact Logged.result_bind_of_error _ (Logged.result_lift _)

theorem obtained_of_settingsFor {s : Settings} (h : settingsFor files i = .ok s) : s.Obtained := by
  obtain ⟨_, _, hbase, _, hover⟩ := of_settingsFor h
  exact .overridden hbase.obtained hover

theorem of_configFor {c : Config} (h : (configFor files environment i).result = .ok c) :
    ∃ s, settingsFor files i = .ok s ∧ s.Obtained ∧ c.InRange ∧
      Settings.IsWorkerCount environment c.workers s.workers := by
  cases hsettings : settingsFor files i with
  | error t =>
    rw [result_configFor_of_error hsettings] at h
    cases h
  | ok s =>
    have hs := obtained_of_settingsFor hsettings
    obtain ⟨c', hc', hrange, _, _, _, hcount⟩ := Settings.exists_config (ε := Trouble) hs.inRange environment
    rw [result_configFor hsettings, hc'] at h
    cases h
    exact ⟨s, rfl, hs, hrange, hcount⟩

end CommandLine

/-! ## Every route -/

/-- Settings that can be obtained give a configuration in its range, with the number of workers that the
settings or the environment say. What a flag names as an API passes the check of settings. An
invocation has such a configuration, or it fails with a fault of its settings, a flag without a value
or a file that gives no document. -/
theorem config_in_range {ε : Type} :
    (∀ s, Settings.Obtained s → ∀ environment, ∃ c : Config,
      (s.config environment : Logged ε Config).result = .ok c ∧ c.InRange ∧ c.apis = s.apis ∧
        c.maxDepth = s.maxDepth ∧ c.collectFailures = s.collectFailures ∧
        Settings.IsWorkerCount environment c.workers s.workers) ∧
      (∀ text a, Api.parse? text = some a → Settings.checkApi (.object
        [("declaring_type", .text a.declaringType), ("method_name", .text a.methodName)]) = .valid a) ∧
      ∀ files environment i,
        (∀ c, (CommandLine.configFor files environment i).result = .ok c →
          ∃ s, CommandLine.settingsFor files i = .ok s ∧ s.Obtained ∧ c.InRange ∧
            Settings.IsWorkerCount environment c.workers s.workers) ∧
        ((∃ c, (CommandLine.configFor files environment i).result = .ok c) ∨
          (∃ message source, (CommandLine.configFor files environment i).result =
            .error (.settings message source)) ∨
          none ∈ i.apis ∨
          ∃ path e, i.config = some path ∧ Settings.ofFile files path = .error e ∧ ∀ f, e ≠ .settings f) := by
  refine ⟨fun s hs environment => Settings.exists_config hs.inRange environment,
    fun text a h => Settings.checkApi_of_parse? h,
    fun files environment i => ⟨fun c hc => CommandLine.of_configFor hc, ?_⟩⟩
  have hconcludes := CommandLine.concludes_settingsFor files i
  cases hsettings : CommandLine.settingsFor files i with
  | ok s =>
    have hs := CommandLine.obtained_of_settingsFor hsettings
    obtain ⟨c, hc, _⟩ := Settings.exists_config (ε := Trouble) hs.inRange environment
    exact Or.inl ⟨c, (CommandLine.result_configFor hsettings).trans hc⟩
  | error t =>
    right
    rw [hsettings] at hconcludes
    cases hconcludes with
    | @fault message source =>
      exact Or.inl ⟨message, source, CommandLine.result_configFor_of_error hsettings⟩
    | noText h => exact Or.inr (Or.inl h)
    | noDocument hpath hfile he => exact Or.inr (Or.inr ⟨_, _, hpath, hfile, he⟩)

/-- Thirty workers in Arabic digits, for settings that set none. -/
theorem config_in_range_house : ∃ c : Config,
    (Settings.house.config (some " \u0663_\u0660\n") : Logged Trouble Config).result = .ok c ∧ c.InRange ∧
      c.maxDepth = 12 ∧ c.workers = 30 ∧ Settings.checkApi (.object
        [("declaring_type", .text ".App"), ("method_name", .text "Make")]) = .valid ⟨".App", "Make", 0, 0⟩ := by
  have hhouse : Settings.house.Obtained := @Settings.Obtained.mapping Settings.houseTable Settings.house rfl
  obtain ⟨hconfig, happ, _⟩ := config_in_range (ε := Trouble)
  obtain ⟨c, hc, hrange, _, hdepth, _, _⟩ := hconfig _ hhouse (some " \u0663_\u0660\n")
  have hvalue : (Settings.house.config (some " \u0663_\u0660\n") : Logged Trouble Config).result =
      .ok ⟨Settings.house.apis, 12, 30, false⟩ := rfl
  obtain rfl := Except.ok.inj (hc.symm.trans hvalue)
  exact ⟨_, hc, hrange, hdepth, rfl, happ " .App.Make" ⟨".App", "Make", 0, 0⟩ (by decide)⟩

end TypeOrigins
