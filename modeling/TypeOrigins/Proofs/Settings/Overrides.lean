import TypeOrigins.Proofs.Settings.Fields

/-! # Overrides of settings

Overrides are written over the whole of the settings, and the result is checked anew. All the same
they change what they name and nothing else, they fail only for what is wrong with themselves, and
overrides after others come to the same as both at once. -/

namespace TypeOrigins
set_option autoImplicit false

open Checked Document

namespace Settings

/-- The overrides that count. -/
def given (overrides : Fields) : Fields := overrides.filter fun f => !isNull f.2

section Given
variable {overrides : Fields} {e : Key × Document}

theorem mem_given : e ∈ given overrides ↔ e ∈ overrides ∧ isNull e.2 = false := by
  simp [given]

theorem nodup_given (h : (overrides.map Prod.fst).Nodup) : ((given overrides).map Prod.fst).Nodup :=
  h.sublist (List.filter_sublist.map Prod.fst)

theorem given_eq_self (h : ∀ e ∈ overrides, isNull e.2 = false) : given overrides = overrides := by
  rw [given, List.filter_eq_self]
  exact fun e he => by simp [h e he]

end Given

/-! ## Known names -/

theorem strayKey?_eq_none {key : Key} : strayKey? names key = none ↔ ∃ f : Field, key = .name f.name := by
  constructor
  · intro h
    cases key with
    | other w => cases h
    | name s =>
      have hin : s ∈ names := by
        by_contra hnot
        rw [strayKey?, if_neg (by simpa using hnot)] at h
        cases h
      simp only [names, List.mem_cons, List.not_mem_nil, or_false] at hin
      rcases hin with rfl | rfl | rfl | rfl
      · exact ⟨.apis, rfl⟩
      · exact ⟨.maxDepth, rfl⟩
      · exact ⟨.workers, rfl⟩
      · exact ⟨.collectFailures, rfl⟩
  · rintro ⟨f, rfl⟩
    cases f <;> rfl

theorem head?_path_of_strayKey? {known : List String} {key : Key} {i : Issue}
    (h : strayKey? known key = some i) : i.path.head? = some key.wording := by
  cases key with
  | other w =>
    cases h
    rfl
  | name s =>
    rw [strayKey?] at h
    split at h
    · cases h
    · cases h
      rfl

theorem strays_eq_nil {fields : Fields} :
    fields.strays names = [] ↔ ∀ e ∈ fields, ∃ f : Field, e.1 = .name f.name := by
  unfold Fields.strays
  rw [List.filterMap_eq_nil_iff]
  simp only [List.mem_map, forall_exists_index, and_imp, forall_apply_eq_imp_iff₂, strayKey?_eq_none]

/-- Names that are not known stay out of the way of names that are. -/
theorem strays_update_of_known {fields others : Fields} (hfields : fields.strays names = [])
    (hothers : (others.map Prod.fst).Nodup) : (fields.update others).strays names = others.strays names := by
  rw [Fields.strays_update hothers, hfields, List.nil_append]
  intro e _ hstray hin
  obtain ⟨g, hg, hkey⟩ := List.mem_map.mp hin
  rw [← hkey, strayKey?_eq_none.mpr (strays_eq_nil.mp hfields g hg)] at hstray
  cases hstray

/-! ## One set of overrides -/

section Override
variable {s : Settings} (hs : s.InRange)

include hs in
/-- Without overrides that count, the settings are read back from what they are written as. -/
theorem override_eq (overrides : Fields) :
    s.override overrides = ofFields (s.fields.update (given overrides)) := by
  unfold override
  change _ = ofFields (s.fields.update (overrides.filter fun f => !isNull f.2))
  split
  next hnone =>
    rw [hnone]
    exact (ofFields_fields hs).symm
  next f more hsome => rw [hsome]

theorem Field.read_congr {f : Field} {fields others : Fields} (h : fields.get? f.name = others.get? f.name) :
    f.read fields = f.read others := by
  unfold Field.read optionalField
  rw [h]

variable {updates : Fields} (hkeys : (updates.map Prod.fst).Nodup) {f : Field}

include hkeys in
theorem read_update_of_some {d : Document} (h : updates.get? f.name = some d) :
    f.read (s.fields.update updates) = under f.name (f.check d) := by
  have hget : (s.fields.update updates).get? f.name = some d := by
    rw [Fields.get?_update hkeys, h, Option.some_or]
  unfold Field.read optionalField
  rw [hget]

include hs hkeys in
theorem read_update_of_none (h : updates.get? f.name = none) :
    f.read (s.fields.update updates) = .valid (f.get s) := by
  have hget : (s.fields.update updates).get? f.name = some (f.document (f.get s)) := by
    rw [Fields.get?_update hkeys, h, Option.none_or, get?_fields]
  exact optionalField_eq_valid.mpr (Or.inr ⟨_, hget, Field.check_document (hs f)⟩)

include hs hkeys in
theorem ofFields_update_eq_ok {r : Settings} : ofFields (s.fields.update updates) = .ok r ↔
    (∀ e ∈ updates, ∃ f : Field, e.1 = .name f.name ∧ f.check e.2 = .valid (f.get r)) ∧
      ∀ f : Field, updates.get? f.name = none → f.get r = f.get s := by
  rw [ofFields_eq_ok, check_eq_valid, strays_update_of_known s.strays_fields hkeys, strays_eq_nil]
  constructor
  · rintro ⟨hread, hknown⟩
    refine ⟨fun e he => ?_, fun f hf => ?_⟩
    · obtain ⟨f, hf⟩ := hknown e he
      have hget : updates.get? f.name = some e.2 := Fields.get?_of_mem hkeys (hf ▸ he)
      have := hread f
      rw [read_update_of_some hkeys hget] at this
      exact ⟨f, hf, under_eq_valid.mp this⟩
    · have := hread f
      rw [read_update_of_none hs hkeys hf] at this
      exact (Checked.valid.inj this).symm
  · rintro ⟨hvalues, hframe⟩
    refine ⟨fun f => ?_, fun e he => (hvalues e he).imp fun f hf => hf.1⟩
    cases hget : updates.get? f.name with
    | none => rw [read_update_of_none hs hkeys hget, hframe f hget]
    | some d =>
      obtain ⟨f', hf', hvalid⟩ := hvalues _ (Fields.mem_of_get? hget)
      obtain rfl : f = f' := Field.name_injective (Key.name.inj hf')
      rw [read_update_of_some hkeys hget]
      exact under_eq_valid.mpr hvalid

include hs hkeys in
theorem exists_ofFields_update : (∃ r, ofFields (s.fields.update updates) = .ok r) ↔
    ∀ e ∈ updates, ∃ f : Field, e.1 = .name f.name ∧ ∃ v, f.check e.2 = .valid v := by
  constructor
  · rintro ⟨r, hr⟩ e he
    obtain ⟨f, hf, hvalid⟩ := ((ofFields_update_eq_ok hs hkeys).mp hr).1 e he
    exact ⟨f, hf, f.get r, hvalid⟩
  · intro h
    -- each field has a value of its own, and they make up the settings
    have hread : ∀ f : Field, ∃ v, f.read (s.fields.update updates) = .valid v := by
      intro f
      cases hget : updates.get? f.name with
      | none => exact ⟨f.get s, read_update_of_none hs hkeys hget⟩
      | some d =>
        obtain ⟨f', hf', v, hvalid⟩ := h _ (Fields.mem_of_get? hget)
        obtain rfl : f = f' := Field.name_injective (Key.name.inj hf')
        rw [read_update_of_some hkeys hget]
        exact ⟨v, under_eq_valid.mpr hvalid⟩
    choose value hvalue using hread
    refine ⟨⟨value .apis, value .maxDepth, value .workers, value .collectFailures⟩, ?_⟩
    rw [ofFields_eq_ok, check_eq_valid, strays_update_of_known s.strays_fields hkeys, strays_eq_nil]
    refine ⟨fun f => ?_, fun e he => (h e he).imp fun f hf => hf.1⟩
    rw [hvalue f]
    cases f <;> rfl

include hs hkeys in
theorem issues_of_ofFields_update {fault : SettingsFault} (h : ofFields (s.fields.update updates) = .error fault) :
    ∃ issues, fault = .invalid issues ∧
      ∀ i ∈ issues, ∃ e ∈ updates, i.path.head? = some e.1.wording := by
  unfold ofFields at h
  cases hcheck : check (s.fields.update updates) with
  | valid r =>
    rw [hcheck] at h
    cases h
  | invalid issues =>
    rw [hcheck] at h
    obtain rfl := Except.error.inj h
    refine ⟨issues, rfl, fun i hi => ?_⟩
    have hmem : i ∈ (check (s.fields.update updates)).issues := by
      rw [hcheck]
      exact hi
    rcases mem_issues_check hmem with ⟨f, hf⟩ | hstray
    · cases hget : updates.get? f.name with
      | none =>
        rw [read_update_of_none hs hkeys hget] at hf
        cases hf
      | some d =>
        rw [read_update_of_some hkeys hget] at hf
        exact ⟨_, Fields.mem_of_get? hget, head?_path_of_under hf⟩
    · rw [strays_update_of_known s.strays_fields hkeys] at hstray
      obtain ⟨key, hkey, hi⟩ := List.mem_filterMap.mp hstray
      obtain ⟨e, he, rfl⟩ := List.mem_map.mp hkey
      exact ⟨e, he, head?_path_of_strayKey? hi⟩

end Override

theorem get_of_override {s r : Settings} (hs : s.InRange) {overrides : Fields}
    (hkeys : (overrides.map Prod.fst).Nodup) (h : s.override overrides = .ok r) (f : Field) :
    (∀ d, (Key.name f.name, d) ∈ overrides → isNull d = false → f.check d = .valid (f.get r)) ∧
      ((∀ d, (Key.name f.name, d) ∈ overrides → isNull d = true) → f.get r = f.get s) := by
  rw [override_eq hs, ofFields_update_eq_ok hs (nodup_given hkeys)] at h
  refine ⟨fun d hd hnull => ?_, fun hnull => h.2 f ?_⟩
  · obtain ⟨f', hf', hvalid⟩ := h.1 _ (mem_given.mpr ⟨hd, hnull⟩)
    obtain rfl : f = f' := Field.name_injective (Key.name.inj hf')
    exact hvalid
  · rw [Option.eq_none_iff_forall_ne_some]
    intro d hd
    obtain ⟨hin, hnot⟩ := mem_given.mp (Fields.mem_of_get? hd)
    rw [hnull d hin] at hnot
    cases hnot

/-! ## Overrides after overrides -/

theorem override_override {s r : Settings} (hs : s.InRange) {overrides more : Fields}
    (hkeys : (overrides.map Prod.fst).Nodup) (hmore : (more.map Prod.fst).Nodup)
    (h : s.override overrides = .ok r) :
    r.override more = s.override ((given overrides).update (given more)) := by
  have hr : r.InRange := inRange_of_override hs h
  have hgiven := nodup_given hkeys
  have hgiven' := nodup_given hmore
  have hboth : (((given overrides).update (given more)).map Prod.fst).Nodup := Fields.nodup_update hgiven
  have hself : given ((given overrides).update (given more)) = (given overrides).update (given more) := by
    refine given_eq_self fun e he => ?_
    rcases Fields.mem_update he with he | he
    · exact (mem_given.mp he).2
    · exact (mem_given.mp he).2
  rw [override_eq hs] at h
  obtain ⟨hread, hknown⟩ := check_eq_valid.mp (ofFields_eq_ok.mp h)
  rw [strays_update_of_known s.strays_fields hgiven] at hknown
  rw [override_eq hr, override_eq hs, hself]
  refine ofFields_congr (fun f => ?_) ?_
  · cases hget : (given more).get? f.name with
    | some d =>
      have hget' : ((given overrides).update (given more)).get? f.name = some d := by
        rw [Fields.get?_update hgiven', hget, Option.some_or]
      rw [read_update_of_some hgiven' hget, read_update_of_some hboth hget']
    | none =>
      -- the later overrides leave the field as the earlier ones gave it
      rw [read_update_of_none hr hgiven' hget, ← hread f]
      apply Field.read_congr
      rw [Fields.get?_update hgiven, Fields.get?_update hboth, Fields.get?_update hgiven', hget, Option.none_or]
  · rw [strays_update_of_known r.strays_fields hgiven', strays_update_of_known s.strays_fields hboth,
      strays_update_of_known hknown hgiven']

end Settings

end TypeOrigins
