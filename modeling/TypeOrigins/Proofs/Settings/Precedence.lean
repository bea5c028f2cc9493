import TypeOrigins.CommandLine.Run
import TypeOrigins.Proofs.Settings.Notation
import TypeOrigins.Proofs.Settings.Overrides

/-! # Flags, files and defaults

The flags of a command line are overrides of the settings of a file, or of the defaults: a flag that is
given counts, and one that is absent leaves the setting as it was. With what overrides do in general,
this says which of several sources of a setting counts. -/

namespace TypeOrigins
set_option autoImplicit false

open Checked Document

namespace CommandLine

/-- The settings that flags are put over: those of the file that is named, or else the defaults. -/
def IsBase (files : FileTree) (i : Invocation) (base : Settings) : Prop :=
  (i.config = none ∧ base = {}) ∨ ∃ path, i.config = some path ∧ Settings.ofFile files path = .ok base

/-- Settings under flags: a flag that is given counts, and one that is absent leaves the setting as it
was. -/
structure Flagged (i : Invocation) (base s : Settings) : Prop where
  apis : i.apis ≠ [] → List.Forall₂ (fun text a => text.bind Api.parse? = some a) i.apis s.apis
  maxDepth : ∀ n, i.maxDepth = .value n → (s.maxDepth : Int) = n
  workers : ∀ n, i.workers = .value n → s.workers.map Int.ofNat = some n
  collectFailures : i.collectFailures = true → s.collectFailures = true
  sameApis : i.apis = [] → s.apis = base.apis
  sameMaxDepth : i.maxDepth = .absent → s.maxDepth = base.maxDepth
  sameWorkers : i.workers = .absent → s.workers = base.workers
  sameCollectFailures : i.collectFailures = false → s.collectFailures = base.collectFailures

theorem parseApis_eq_ok {i : Invocation} {texts : List (Option String)} {apis : List Api} :
    parseApis i texts = .ok apis ↔ List.Forall₂ (fun text a => text.bind Api.parse? = some a) texts apis := by
  induction texts generalizing apis with
  | nil =>
    rw [parseApis, List.forall₂_nil_left_iff, Except.ok.injEq]
    exact eq_comm
  | cons text rest ih =>
    rw [List.forall₂_cons_left_iff]
    cases text with
    | none => simp [parseApis]
    | some t =>
      rw [parseApis, Option.bind_some]
      cases Api.parse? t with
      | none => simp
      | some a =>
        simp only [← ih, Option.some.injEq]
        cases parseApis i rest with
        | error e => simp [Except.map]
        | ok more =>
          simp only [Except.map, Except.ok.injEq]
          constructor
          · rintro rfl
            exact ⟨a, more, rfl, rfl, rfl⟩
          · rintro ⟨_, _, rfl, rfl, rfl⟩
            rfl

theorem error_of_parseApis {i : Invocation} {texts : List (Option String)} {t : Trouble}
    (h : parseApis i texts = .error t) : (∃ message, t = .settings message none) ∨ none ∈ texts := by
  induction texts with
  | nil => cases h
  | cons text rest ih =>
    cases text with
    | none => exact Or.inr List.mem_cons_self
    | some text =>
      rw [parseApis] at h
      cases hparse : Api.parse? text with
      | none =>
        rw [hparse] at h
        cases h
        exact Or.inl ⟨_, rfl⟩
      | some a =>
        rw [hparse] at h
        cases hrest : parseApis i rest with
        | ok more =>
          rw [hrest] at h
          cases h
        | error t' =>
          rw [hrest] at h
          cases h
          exact (ih hrest).imp id (List.mem_cons_of_mem _)

/-- How the settings of an invocation end: with the flags over a base, with a fault of settings, or with
something else that no settings are to blame for, a flag without its text or a file without a
document. -/
inductive Concludes (files : FileTree) (i : Invocation) : Except Trouble Settings → Prop
  | settings {base s : Settings} {apis : List Api} (hbase : IsBase files i base)
      (hapis : parseApis i i.apis = .ok apis) (h : base.override (overrides i apis) = .ok s) :
      Concludes files i (.ok s)
  | fault {message : String} {source : Option String} : Concludes files i (.error (.settings message source))
  | noText {t : Trouble} (h : none ∈ i.apis) : Concludes files i (.error t)
  | noDocument {t : Trouble} {path : Path} {e : Settings.ReadFault} (hpath : i.config = some path)
      (hfile : Settings.ofFile files path = .error e) (he : ∀ f, e ≠ .settings f) : Concludes files i (.error t)

section Settings
variable {files : FileTree} {i : Invocation}

theorem concludes_of_base {base : Settings} (hbase : IsBase files i base) :
    Concludes files i ((parseApis i i.apis).bind fun apis =>
      (base.override (overrides i apis)).mapError fun f => .settings f.message none) := by
  cases hapis : parseApis i i.apis with
  | error t =>
    rcases error_of_parseApis hapis with ⟨message, rfl⟩ | hnone
    · exact .fault
    · exact .noText hnone
  | ok apis =>
    rw [Except.bind]
    cases hover : base.override (overrides i apis) with
    | error f => exact .fault
    | ok s => exact .settings hbase hapis hover

theorem concludes_settingsFor (files : FileTree) (i : Invocation) : Concludes files i (settingsFor files i) := by
  unfold settingsFor
  cases hconfig : i.config with
  | none => exact concludes_of_base (Or.inl ⟨hconfig, rfl⟩)
  | some path =>
    dsimp only
    cases hfile : Settings.ofFile files path with
    | ok base => exact concludes_of_base (Or.inr ⟨path, hconfig, hfile⟩)
    | error e =>
      cases e with
      | settings f => exact .fault
      | nullInPath => exact .noDocument hconfig hfile (by simp)
      | longInteger digits => exact .noDocument hconfig hfile (by simp)
      | scalar f => exact .noDocument hconfig hfile (by simp)
      | beyond => exact .noDocument hconfig hfile (by simp)

theorem of_settingsFor {s : Settings} (h : settingsFor files i = .ok s) : ∃ base apis, IsBase files i base ∧
    parseApis i i.apis = .ok apis ∧ base.override (overrides i apis) = .ok s := by
  have hc := concludes_settingsFor files i
  rw [h] at hc
  cases hc with
  | settings hbase hapis hover => exact ⟨_, _, hbase, hapis, hover⟩

theorem IsBase.obtained {base : Settings} (h : IsBase files i base) : base.Obtained := by
  rcases h with ⟨_, rfl⟩ | ⟨path, _, hfile⟩
  · exact .defaults
  · exact .file hfile

end Settings

/-! ## Settings under flags -/

theorem inRange_of_parse? {text : String} {a : Api} (h : Api.parse? text = some a) : a.InRange := by
  have hplain := Api.plain_of_parse? h
  exact ⟨hplain.type_ne, hplain.name_ne, Int.le_of_eq hplain.typePosition.symm,
    Int.le_of_eq hplain.valuePosition.symm⟩

theorem inRange_of_parseApis {i : Invocation} {texts : List (Option String)} {apis : List Api}
    (h : parseApis i texts = .ok apis) : ∀ a ∈ apis, a.InRange := by
  have hall := parseApis_eq_ok.mp h
  clear h
  induction hall with
  | nil => simp
  | @cons text a _ _ hparse _ ih =>
    obtain ⟨t, _, ht⟩ := Option.bind_eq_some_iff.mp hparse
    rintro b (_ | ⟨_, hb⟩)
    · exact inRange_of_parse? ht
    · exact ih b hb

/-- What the flags of an invocation give a setting. -/
def flagDocument (i : Invocation) (apis : List Api) : Settings.Field → Document
  | .apis => if apis.isEmpty then .null else .list (apis.map Settings.apiDocument)
  | .maxDepth => intDocument i.maxDepth
  | .workers => intDocument i.workers
  | .collectFailures => if i.collectFailures then .bool true else .null

section Flags
variable {i : Invocation} {apis : List Api}

theorem nodup_overrides : ((overrides i apis).map Prod.fst).Nodup := by
  simp [overrides]

theorem mem_overrides {f : Settings.Field} {d : Document} :
    (Key.name f.name, d) ∈ overrides i apis ↔ d = flagDocument i apis f := by
  cases f <;> simp [overrides, flagDocument, Settings.Field.name]

variable {base s : Settings} (hbase : base.InRange) (h : base.override (overrides i apis) = .ok s)
include hbase h

theorem check_flagDocument {f : Settings.Field} (hf : Settings.isNull (flagDocument i apis f) = false) :
    f.check (flagDocument i apis f) = .valid (f.get s) :=
  (Settings.get_of_override hbase nodup_overrides h f).1 _ (mem_overrides.mpr rfl) hf

theorem get_of_no_flag {f : Settings.Field} (hf : Settings.isNull (flagDocument i apis f) = true) :
    f.get s = f.get base := by
  refine (Settings.get_of_override hbase nodup_overrides h f).2 fun d hd => ?_
  rw [mem_overrides.mp hd]
  exact hf

theorem flagged_of_override (hapis : parseApis i i.apis = .ok apis) : Flagged i base s := by
  have hall := parseApis_eq_ok.mp hapis
  constructor
  · intro hne
    have hempty : apis.isEmpty = false := by
      rw [List.isEmpty_eq_false_iff]
      rintro rfl
      exact hne (List.forall₂_nil_right_iff.mp hall)
    have hcheck := check_flagDocument hbase h (f := .apis) (by simp [flagDocument, hempty, Settings.isNull])
    simp only [flagDocument, hempty, Bool.false_eq_true, if_false] at hcheck
    have hsame := Settings.checkApis_map (List.isEmpty_eq_false_iff.mp hempty) (inRange_of_parseApis hapis)
    obtain rfl : apis = s.apis := Checked.valid.inj (hsame.symm.trans hcheck)
    exact hall
  · intro n hn
    have hcheck := check_flagDocument hbase h (f := .maxDepth) (by simp [flagDocument, hn, intDocument, Settings.isNull])
    rw [flagDocument, hn] at hcheck
    exact (checkNat_int.mp hcheck).2.symm
  · intro n hn
    have hcheck := check_flagDocument hbase h (f := .workers) (by simp [flagDocument, hn, intDocument, Settings.isNull])
    rw [flagDocument, hn] at hcheck
    obtain ⟨k, hk, hworkers⟩ := map_eq_valid.mp hcheck
    have hworkers' : s.workers = some k := hworkers.symm
    rw [hworkers', (checkNat_int.mp hk).2]
    rfl
  · intro hc
    have hcheck := check_flagDocument hbase h (f := .collectFailures) (by simp [flagDocument, hc, Settings.isNull])
    rw [flagDocument, if_pos hc] at hcheck
    exact (Checked.valid.inj hcheck).symm
  · intro hnil
    rw [hnil] at hall
    obtain rfl := List.forall₂_nil_left_iff.mp hall
    exact get_of_no_flag hbase h (f := .apis) rfl
  · intro hn
    exact get_of_no_flag hbase h (f := .maxDepth) (by simp [flagDocument, hn, intDocument, Settings.isNull])
  · intro hn
    exact get_of_no_flag hbase h (f := .workers) (by simp [flagDocument, hn, intDocument, Settings.isNull])
  · intro hc
    exact get_of_no_flag hbase h (f := .collectFailures) (by simp [flagDocument, hc, Settings.isNull])

end Flags

end CommandLine

/-! ## What overrides change -/

namespace Settings

/-- Settings under overrides have the given values in the fields that the overrides name and their own
in all others. Overrides are refused exactly for a name or a value that is not one of the settings, one
after another they act as one, and the flags of a command are overrides over its file. -/
theorem override_changes_named_fields {s : Settings} (hs : Obtained s) {overrides : Fields}
    (hkeys : (overrides.map Prod.fst).Nodup) :
    ofFields s.fields = .ok s ∧
      ((∃ r, s.override overrides = .ok r) ↔ ∀ e ∈ overrides, isNull e.2 = false →
        ∃ f : Field, e.1 = .name f.name ∧ ∃ v, f.check e.2 = .valid v) ∧
      (∀ r, s.override overrides = .ok r → ∀ f : Field,
        (∀ d, (Key.name f.name, d) ∈ overrides → isNull d = false → f.check d = .valid (f.get r)) ∧
          ((∀ d, (Key.name f.name, d) ∈ overrides → isNull d = true) → f.get r = f.get s)) ∧
      (∀ fault, s.override overrides = .error fault → ∃ issues, fault = .invalid issues ∧
        ∀ i ∈ issues, ∃ e ∈ overrides, isNull e.2 = false ∧ i.path.head? = some e.1.wording) ∧
      ((∀ e ∈ overrides, isNull e.2 = true) → s.override overrides = .ok s) ∧
      (∀ r more, (more.map Prod.fst).Nodup → s.override overrides = .ok r →
        r.override more = s.override ((given overrides).update (given more))) ∧
      ∀ files i t, CommandLine.settingsFor files i = .ok t →
        ∃ base, CommandLine.IsBase files i base ∧ CommandLine.Flagged i base t := by
  have hrange := hs.inRange
  have hgiven := nodup_given hkeys
  refine ⟨ofFields_fields hrange, ?_, ?_, ?_, ?_, ?_, ?_⟩
  · rw [override_eq hrange, exists_ofFields_update hrange hgiven]
    simp only [mem_given, and_imp]
  · exact fun r hr f => get_of_override hrange hkeys hr f
  · intro fault hfault
    rw [override_eq hrange] at hfault
    obtain ⟨issues, rfl, hissues⟩ := issues_of_ofFields_update hrange hgiven hfault
    refine ⟨issues, rfl, fun i hi => ?_⟩
    obtain ⟨e, he, hpath⟩ := hissues i hi
    exact ⟨e, (mem_given.mp he).1, (mem_given.mp he).2, hpath⟩
  · intro hnull
    have hnone : given overrides = [] := List.filter_eq_nil_iff.mpr fun e he => by simp [hnull e he]
    rw [override_eq hrange, hnone]
    exact ofFields_fields hrange
  · exact fun r more hmore hr => override_override hrange hkeys hmore hr
  · intro files i t ht
    obtain ⟨base, apis, hbase, hapis, hover⟩ := CommandLine.of_settingsFor ht
    exact ⟨base, hbase, CommandLine.flagged_of_override hbase.obtained.inRange hover hapis⟩

/-- A table with an API of its own and a number that is spelled out. -/
def houseTable : Fields :=
  [("linkerkeep", .object
    [("apis", .list [.object [("declaring_type", .text "App.Factory"), ("method_name", .text "Make")]]),
      ("max_depth", .text " 012.0 ")])]

/-- The settings of that table. -/
def house : Settings := { apis := [⟨"App.Factory", "Make", 0, 0⟩], maxDepth := 12 }

/-- A truth value for a number, and a null. -/
def houseOverrides : Fields := [("max_depth", .null), ("workers", .bool true)]

theorem override_changes_named_fields_house :
    house.override houseOverrides = .ok { house with workers := some 1 } ∧
      ({ house with workers := some 1 } : Settings).override [("workers", .text "2")] =
        house.override [("workers", .text "2")] ∧
      ¬ (∃ r, house.override [("workers", .text "2"), ("depth", .int 3)] = .ok r) := by
  have hs : house.Obtained := @Obtained.mapping houseTable house rfl
  have hkeys : (houseOverrides.map Prod.fst).Nodup := by simp [houseOverrides]
  have hwrong : (([("workers", .text "2"), ("depth", .int 3)] : Fields).map Prod.fst).Nodup := by simp
  obtain ⟨_, hexists, hfields, _, _, hmore, _⟩ := override_changes_named_fields hs hkeys
  obtain ⟨r, hr⟩ := hexists.mpr (by
    intro e he hnull
    have he' : e = (.name "max_depth", .null) ∨ e = (.name "workers", .bool true) := by
      simpa [houseOverrides] using he
    rcases he' with rfl | rfl
    · cases hnull
    · exact ⟨.workers, rfl, some 1, rfl⟩)
  have hr' : r = { house with workers := some 1 } := by
    refine ext_get fun f => ?_
    cases f with
    | workers =>
      have hcheck := (hfields r hr .workers).1 (.bool true) (by simp [houseOverrides, Field.name]) rfl
      exact (Checked.valid.inj hcheck).symm
    | apis => exact (hfields r hr .apis).2 (by simp [houseOverrides, Field.name])
    | maxDepth => exact (hfields r hr .maxDepth).2 (by simp [houseOverrides, Field.name, isNull])
    | collectFailures => exact (hfields r hr .collectFailures).2 (by simp [houseOverrides, Field.name])
  subst hr'
  refine ⟨hr, hmore _ [("workers", .text "2")] (by simp) hr, ?_⟩
  rw [(override_changes_named_fields hs hwrong).2.1]
  intro hall
  obtain ⟨f, hf, _⟩ := hall (.name "depth", .int 3) (by simp) rfl
  cases f <;> simp [Field.name] at hf

end Settings

end TypeOrigins
