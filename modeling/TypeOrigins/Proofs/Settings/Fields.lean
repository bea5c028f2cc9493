import TypeOrigins.Proofs.Document.Update
import TypeOrigins.Settings.File

/-! # Settings field by field

A setting has a name, a default, a check and a way to be written. Settings are the values of these
fields: the check of a mapping reads each of them for itself and refuses other names. A value that
passed its check is in range, and a value in range is read back from what it is written as. So
settings are in range wherever they come from, and reading undoes writing on them. -/

namespace TypeOrigins
set_option autoImplicit false

open Checked Document

/-- An API with names that are not empty and positions that count from the start. -/
structure Api.InRange (a : Api) : Prop where
  type_ne : a.declaringType ≠ ""
  name_ne : a.methodName ≠ ""
  typePosition : 0 ≤ a.typeArgumentIndex
  valuePosition : 0 ≤ a.valueArgumentIndex

/-! ## Values in range -/

theorem checkNonEmptyText_eq_valid {d : Document} {s : String} :
    checkNonEmptyText d = .valid s ↔ d = .text s ∧ s ≠ "" := by
  cases d with
  | text t =>
    by_cases ht : t = ""
    · subst ht
      simp [checkNonEmptyText, checkText, andThen, issue]
    · simp only [checkNonEmptyText, checkText, andThen, String.isEmpty_iff, ht, if_false, Checked.valid.injEq,
        Document.text.injEq]
      exact ⟨fun h => ⟨h, h ▸ ht⟩, fun h => h.1⟩
  | _ => simp [checkNonEmptyText, checkText, andThen, issue]

theorem requiredField_nonEmptyText {fields : Fields} {name s : String} :
    requiredField fields name checkNonEmptyText = .valid s ↔ fields.get? name = some (.text s) ∧ s ≠ "" := by
  rw [requiredField_eq_valid]
  simp only [checkNonEmptyText_eq_valid]
  constructor
  · rintro ⟨_, hget, rfl, hs⟩
    exact ⟨hget, hs⟩
  · rintro ⟨hget, hs⟩
    exact ⟨_, hget, rfl, hs⟩

theorem le_of_checkIntFrom {minimum n : Int} {d : Document} (h : checkIntFrom minimum d = .valid n) :
    minimum ≤ n := by
  unfold checkIntFrom andThen at h
  split at h
  · dsimp only at h
    split at h
    · cases h
    · cases h
      omega
  · cases h

theorem checkIntFrom_int {minimum n k : Int} :
    checkIntFrom minimum (.int n) = .valid k ↔ minimum ≤ n ∧ n = k := by
  by_cases h : n < minimum
  · simp [checkIntFrom, checkAnyInt, andThen, issue, h, Int.not_le.mpr h]
  · simp [checkIntFrom, checkAnyInt, andThen, h, Int.not_lt.mp h]

theorem le_of_checkNat {minimum n : Nat} {d : Document} (h : checkNat minimum d = .valid n) : minimum ≤ n := by
  obtain ⟨k, hk, rfl⟩ := map_eq_valid.mp h
  have := le_of_checkIntFrom hk
  omega

theorem checkNat_int {minimum k : Nat} {n : Int} :
    checkNat minimum (.int n) = .valid k ↔ minimum ≤ k ∧ n = k := by
  unfold checkNat
  rw [map_eq_valid]
  simp only [checkIntFrom_int]
  constructor
  · rintro ⟨_, ⟨hle, rfl⟩, rfl⟩
    omega
  · rintro ⟨hle, rfl⟩
    exact ⟨_, ⟨by omega, rfl⟩, Int.toNat_natCast k⟩

namespace Settings

/-! ## APIs -/

theorem checkApi_eq_valid {d : Document} {a : Api} : checkApi d = .valid a ↔ ∃ fields, d = .object fields ∧
    requiredField fields "declaring_type" checkNonEmptyText = .valid a.declaringType ∧
    requiredField fields "method_name" checkNonEmptyText = .valid a.methodName ∧
    optionalField fields "type_argument_index" 0 (checkIntFrom 0) = .valid a.typeArgumentIndex ∧
    optionalField fields "value_argument_index" 0 (checkIntFrom 0) = .valid a.valueArgumentIndex ∧
    ∃ u, noExtras fields ["declaring_type", "method_name", "type_argument_index", "value_argument_index"] =
      .valid u := by
  unfold checkApi checkObject
  cases d with
  | object fields =>
    simp only [seqLeft_eq_valid, seq_eq_valid, map_eq_valid, Document.object.injEq, exists_eq_left']
    constructor
    · rintro ⟨⟨_, j, ⟨_, i, ⟨_, name, ⟨type, ht, rfl⟩, hn, rfl⟩, hi, rfl⟩, hj, rfl⟩, hx⟩
      exact ⟨ht, hn, hi, hj, hx⟩
    · rintro ⟨ht, hn, hi, hj, hx⟩
      exact ⟨⟨_, _, ⟨_, _, ⟨_, _, ⟨_, ht, rfl⟩, hn, rfl⟩, hi, rfl⟩, hj, rfl⟩, hx⟩
  | _ => simp [issue]

theorem inRange_of_checkApi {d : Document} {a : Api} (h : checkApi d = .valid a) : a.InRange := by
  have hposition : ∀ {fields : Fields} {name : String} {n : Int},
      optionalField fields name 0 (checkIntFrom 0) = .valid n → 0 ≤ n := by
    intro fields name n hn
    rcases optionalField_eq_valid.mp hn with ⟨_, rfl⟩ | ⟨d, _, hd⟩
    · exact Int.le_refl 0
    · exact le_of_checkIntFrom hd
  obtain ⟨fields, rfl, ht, hn, hi, hj, _⟩ := checkApi_eq_valid.mp h
  exact ⟨(requiredField_nonEmptyText.mp ht).2, (requiredField_nonEmptyText.mp hn).2, hposition hi,
    hposition hj⟩

theorem checkApi_apiDocument {a : Api} (h : a.InRange) : checkApi (apiDocument a) = .valid a := by
  refine checkApi_eq_valid.mpr ⟨_, rfl, ?_, ?_, ?_, ?_, (), rfl⟩
  · exact requiredField_nonEmptyText.mpr ⟨rfl, h.type_ne⟩
  · exact requiredField_nonEmptyText.mpr ⟨rfl, h.name_ne⟩
  · exact optionalField_eq_valid.mpr (Or.inr ⟨_, rfl, checkIntFrom_int.mpr ⟨h.typePosition, rfl⟩⟩)
  · exact optionalField_eq_valid.mpr (Or.inr ⟨_, rfl, checkIntFrom_int.mpr ⟨h.valuePosition, rfl⟩⟩)

theorem checkApis_eq_valid {d : Document} {apis : List Api} :
    checkApis d = .valid apis ↔ checkList checkApi d = .valid apis ∧ apis ≠ [] := by
  unfold checkApis andThen
  cases checkList checkApi d with
  | valid as =>
    cases as with
    | nil => simp [issue]
    | cons a rest =>
      simp only [List.isEmpty_cons, Bool.false_eq_true, if_false, Checked.valid.injEq]
      exact ⟨fun h => ⟨h, h ▸ List.cons_ne_nil a rest⟩, fun h => h.1⟩
  | invalid is => simp

theorem inRange_of_checkApis {d : Document} {apis : List Api} (h : checkApis d = .valid apis) :
    apis ≠ [] ∧ ∀ a ∈ apis, a.InRange := by
  obtain ⟨hlist, hne⟩ := checkApis_eq_valid.mp h
  refine ⟨hne, fun a ha => ?_⟩
  unfold checkList at hlist
  split at hlist
  · obtain ⟨d, _, hd⟩ := exists_of_mem_items hlist ha
    exact inRange_of_checkApi hd
  · cases hlist

theorem checkApis_map {apis : List Api} (hne : apis ≠ []) (h : ∀ a ∈ apis, a.InRange) :
    checkApis (.list (apis.map apiDocument)) = .valid apis := by
  refine checkApis_eq_valid.mpr ⟨items_eq_valid.mpr ?_, hne⟩
  rw [List.forall₂_map_left_iff]
  exact List.forall₂_same.mpr fun a ha => checkApi_apiDocument (h a ha)

/-! ## The fields -/

/-- The settings one by one. -/
inductive Field where
  | apis
  | maxDepth
  | workers
  | collectFailures
deriving DecidableEq

namespace Field

def name : Field → String
  | apis => "apis"
  | maxDepth => "max_depth"
  | workers => "workers"
  | collectFailures => "collect_failures"

theorem name_injective {f g : Field} (h : f.name = g.name) : f = g := by
  cases f <;> cases g <;> simp [name] at h ⊢

abbrev Value : Field → Type
  | apis => List Api
  | maxDepth => Nat
  | workers => Option Nat
  | collectFailures => Bool

def default : (f : Field) → f.Value
  | apis => [Api.activator]
  | maxDepth => 64
  | workers => none
  | collectFailures => false

def check : (f : Field) → Document → Checked f.Value
  | apis => checkApis
  | maxDepth => checkNat 1
  | workers => checkNullable (checkNat 1)
  | collectFailures => checkBool

/-- The value in settings. -/
def get : (f : Field) → Settings → f.Value
  | apis => Settings.apis
  | maxDepth => Settings.maxDepth
  | workers => Settings.workers
  | collectFailures => Settings.collectFailures

/-- The value as a document. -/
def document : (f : Field) → f.Value → Document
  | apis => fun apis => .list (apis.map apiDocument)
  | maxDepth => fun n => .int n
  | workers => fun n => (n.map fun k => Document.int k).getD .null
  | collectFailures => fun b => .bool b

def InRange : (f : Field) → f.Value → Prop
  | apis => fun apis => apis ≠ [] ∧ ∀ a ∈ apis, a.InRange
  | maxDepth => fun n => 1 ≤ n
  | workers => fun n => ∀ k ∈ n, 1 ≤ k
  | collectFailures => fun _ => True

/-- The value that the fields of a mapping give. -/
def read (f : Field) (fields : Fields) : Checked f.Value := optionalField fields f.name f.default f.check

theorem inRange_of_check {f : Field} {d : Document} {v : f.Value} (h : f.check d = .valid v) : f.InRange v := by
  cases f with
  | apis => exact inRange_of_checkApis h
  | maxDepth => exact le_of_checkNat h
  | workers =>
    intro k hk
    change checkNullable (checkNat 1) d = .valid v at h
    unfold checkNullable at h
    split at h
    · cases h
      cases hk
    · obtain ⟨n, hn, rfl⟩ := map_eq_valid.mp h
      cases hk
      exact le_of_checkNat hn
  | collectFailures => trivial

theorem inRange_default (f : Field) : f.InRange f.default := by
  cases f with
  | apis =>
    refine ⟨List.cons_ne_nil _ _, fun a ha => ?_⟩
    obtain rfl := List.mem_singleton.mp ha
    exact ⟨by decide, by decide, Int.le_refl 0, Int.le_refl 0⟩
  | maxDepth => exact Nat.le_add_left 1 63
  | workers =>
    intro k hk
    cases hk
  | collectFailures => trivial

theorem check_document {f : Field} {v : f.Value} (h : f.InRange v) : f.check (f.document v) = .valid v := by
  cases f with
  | apis => exact checkApis_map h.1 h.2
  | maxDepth => exact checkNat_int.mpr ⟨h, rfl⟩
  | workers =>
    cases v with
    | none => rfl
    | some k => exact map_eq_valid.mpr ⟨k, checkNat_int.mpr ⟨h k rfl, rfl⟩, rfl⟩
  | collectFailures => rfl

theorem inRange_of_read {f : Field} {fields : Fields} {v : f.Value} (h : f.read fields = .valid v) :
    f.InRange v := by
  rcases optionalField_eq_valid.mp h with ⟨_, rfl⟩ | ⟨d, _, hd⟩
  · exact f.inRange_default
  · exact inRange_of_check hd

end Field

/-! ## Settings -/

section Check
variable {fields others : Fields} {s r : Settings}

theorem ext_get (h : ∀ f : Field, f.get s = f.get r) : s = r := by
  have hapis := h .apis
  have hdepth := h .maxDepth
  have hworkers := h .workers
  have hcollect := h .collectFailures
  cases s
  cases r
  cases hapis
  cases hdepth
  cases hworkers
  cases hcollect
  rfl

theorem check_eq_valid : check fields = .valid s ↔
    (∀ f : Field, f.read fields = .valid (f.get s)) ∧ fields.strays names = [] := by
  have hparts : check fields = .valid s ↔ (Field.apis.read fields = .valid s.apis ∧
      Field.maxDepth.read fields = .valid s.maxDepth ∧ Field.workers.read fields = .valid s.workers ∧
      Field.collectFailures.read fields = .valid s.collectFailures) ∧ fields.strays names = [] := by
    unfold check
    simp only [seqLeft_eq_valid, seq_eq_valid, map_eq_valid, Fields.noExtras_eq_valid, exists_const]
    constructor
    · rintro ⟨⟨_, collect, ⟨_, workers, ⟨_, depth, ⟨apis, ha, rfl⟩, hd, rfl⟩, hw, rfl⟩, hc, rfl⟩, hx⟩
      exact ⟨⟨ha, hd, hw, hc⟩, hx⟩
    · rintro ⟨⟨ha, hd, hw, hc⟩, hx⟩
      exact ⟨⟨_, _, ⟨_, _, ⟨_, _, ⟨_, ha, rfl⟩, hd, rfl⟩, hw, rfl⟩, hc, rfl⟩, hx⟩
  rw [hparts]
  refine and_congr_left' ⟨?_, fun h => ⟨h .apis, h .maxDepth, h .workers, h .collectFailures⟩⟩
  rintro ⟨ha, hd, hw, hc⟩ f
  cases f with
  | apis => exact ha
  | maxDepth => exact hd
  | workers => exact hw
  | collectFailures => exact hc

theorem check_congr (h : ∀ f : Field, f.read fields = f.read others)
    (hx : fields.strays names = others.strays names) : check fields = check others := by
  have ha : optionalField fields "apis" [Api.activator] checkApis =
      optionalField others "apis" [Api.activator] checkApis := h .apis
  have hd : optionalField fields "max_depth" 64 (checkNat 1) = optionalField others "max_depth" 64 (checkNat 1) :=
    h .maxDepth
  have hw : optionalField fields "workers" none (checkNullable (checkNat 1)) =
      optionalField others "workers" none (checkNullable (checkNat 1)) := h .workers
  have hc : optionalField fields "collect_failures" false checkBool =
      optionalField others "collect_failures" false checkBool := h .collectFailures
  unfold check
  rw [ha, hd, hw, hc, Fields.noExtras_congr hx]

/-- What is wrong with a mapping is wrong with one of its fields, or is a name that is not known. -/
theorem mem_issues_check {i : Issue} (h : i ∈ (check fields).issues) :
    (∃ f : Field, i ∈ (f.read fields).issues) ∨ i ∈ fields.strays names := by
  unfold check at h
  rw [issues_seqLeft, issues_seq, issues_seq, issues_seq, issues_map, Fields.issues_noExtras] at h
  simp only [List.mem_append] at h
  rcases h with (((h | h) | h) | h) | h
  · exact Or.inl ⟨.apis, h⟩
  · exact Or.inl ⟨.maxDepth, h⟩
  · exact Or.inl ⟨.workers, h⟩
  · exact Or.inl ⟨.collectFailures, h⟩
  · exact Or.inr h

theorem ofFields_eq_ok : ofFields fields = .ok s ↔ check fields = .valid s := by
  unfold ofFields
  cases check fields <;> simp

theorem ofFields_congr (h : ∀ f : Field, f.read fields = f.read others)
    (hx : fields.strays names = others.strays names) : ofFields fields = ofFields others := by
  unfold ofFields
  rw [check_congr h hx]

/-- Every setting is in range. -/
def InRange (s : Settings) : Prop := ∀ f : Field, f.InRange (f.get s)

theorem inRange_of_ofFields (h : ofFields fields = .ok s) : s.InRange := fun f =>
  Field.inRange_of_read ((check_eq_valid.mp (ofFields_eq_ok.mp h)).1 f)

/-! ## Settings as a mapping -/

theorem get?_fields (s : Settings) (f : Field) : s.fields.get? f.name = some (f.document (f.get s)) := by
  cases f <;> rfl

theorem strays_fields (s : Settings) : s.fields.strays names = [] := rfl

theorem ofFields_fields (h : s.InRange) : ofFields s.fields = .ok s := by
  refine ofFields_eq_ok.mpr (check_eq_valid.mpr ⟨fun f => ?_, s.strays_fields⟩)
  exact optionalField_eq_valid.mpr (Or.inr ⟨_, s.get?_fields f, Field.check_document (h f)⟩)

end Check

/-! ## Where settings come from -/

/-- Settings that a check gave: the defaults, those of a mapping or of a file, or such settings with
overrides, however many times. -/
inductive Obtained : Settings → Prop
  | defaults : Obtained {}
  | mapping {fields : Fields} {s : Settings} (h : ofMapping fields = .ok s) : Obtained s
  | file {files : FileTree} {path : Path} {s : Settings} (h : ofFile files path = .ok s) : Obtained s
  | overridden {s r : Settings} {overrides : Fields} (hs : Obtained s) (h : s.override overrides = .ok r) :
      Obtained r

theorem inRange_defaults : ({} : Settings).InRange := by
  intro f
  have hdefault : f.get {} = f.default := by cases f <;> rfl
  rw [hdefault]
  exact f.inRange_default

theorem inRange_of_ofMapping {fields : Fields} {s : Settings} (h : ofMapping fields = .ok s) : s.InRange := by
  unfold ofMapping at h
  split at h
  · exact inRange_of_ofFields h
  · exact inRange_of_ofFields h
  · cases h

theorem exists_ofMapping_of_ofFile {files : FileTree} {path : Path} {s : Settings}
    (h : ofFile files path = .ok s) : ∃ fields, ofMapping fields = .ok s := by
  unfold ofFile at h
  dsimp only [bind, Except.bind] at h
  -- the file is read, its bytes are decoded, and its text is a document
  split at h
  · cases h
  split at h
  · cases h
  split at h
  · cases h
  split at h
  next fields _ =>
    refine ⟨fields, ?_⟩
    cases hm : ofMapping fields with
    | error f =>
      rw [hm] at h
      cases h
    | ok r =>
      rw [hm] at h
      cases h
      rfl
  · cases h

theorem inRange_of_override {s r : Settings} {overrides : Fields} (hs : s.InRange)
    (h : s.override overrides = .ok r) : r.InRange := by
  unfold override at h
  split at h
  · cases h
    exact hs
  · exact inRange_of_ofFields h

theorem Obtained.inRange {s : Settings} (h : Obtained s) : s.InRange := by
  induction h with
  | defaults => exact inRange_defaults
  | mapping h => exact inRange_of_ofMapping h
  | file h =>
    obtain ⟨fields, hfields⟩ := exists_ofMapping_of_ofFile h
    exact inRange_of_ofMapping hfields
  | overridden _ h ih => exact inRange_of_override ih h

end Settings

end TypeOrigins
