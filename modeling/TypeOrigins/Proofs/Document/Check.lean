import Mathlib.Data.List.Forall2
import TypeOrigins.Document.Check

/-! # Checks that pass

When a check passes, part by part. A list passes if each of its items does, wherever it stands. -/

namespace TypeOrigins.Checked
set_option autoImplicit false

section Parts
variable {α β : Type}

theorem seq_eq_valid {f : Checked (α → β)} {x : Checked α} {b : β} :
    (f <*> x) = .valid b ↔ ∃ g a, f = .valid g ∧ x = .valid a ∧ g a = b := by
  change ap f x = .valid b ↔ _
  cases f <;> cases x <;> simp [ap]

theorem map_eq_valid {g : α → β} {x : Checked α} {b : β} :
    (g <$> x) = .valid b ↔ ∃ a, x = .valid a ∧ g a = b := by
  change ap (.valid g) x = .valid b ↔ _
  cases x <;> simp [ap]

theorem seqLeft_eq_valid {x : Checked α} {y : Checked β} {a : α} :
    (x <* y) = .valid a ↔ x = .valid a ∧ ∃ b, y = .valid b := by
  change ap (ap (.valid (Function.const β)) x) y = .valid a ↔ _
  cases x <;> cases y <;> simp [ap]

theorem under_eq_valid {step : String} {x : Checked α} {a : α} :
    under step x = .valid a ↔ x = .valid a := by
  cases x <;> simp [under]

end Parts

section Lists
variable {α : Type} {check : Document → Checked α}

theorem items_eq_valid {i : ℕ} {ds : List Document} {as : List α} :
    items check i ds = .valid as ↔ List.Forall₂ (fun d a => check d = .valid a) ds as := by
  induction ds generalizing i as with
  | nil => cases as <;> simp [items]
  | cons d rest ih =>
    rw [items, seq_eq_valid, List.forall₂_cons_left_iff]
    constructor
    · rintro ⟨g, more, hg, hmore, rfl⟩
      obtain ⟨a, ha, rfl⟩ := map_eq_valid.mp hg
      exact ⟨a, more, under_eq_valid.mp ha, ih.mp hmore, rfl⟩
    · rintro ⟨a, more, ha, hmore, rfl⟩
      exact ⟨List.cons a, more, map_eq_valid.mpr ⟨a, under_eq_valid.mpr ha, rfl⟩, ih.mpr hmore, rfl⟩

theorem exists_of_mem_items {i : ℕ} {ds : List Document} {as : List α} (h : items check i ds = .valid as)
    {a : α} (ha : a ∈ as) : ∃ d ∈ ds, check d = .valid a := by
  have hall := items_eq_valid.mp h
  clear h
  induction hall with
  | nil => cases ha
  | @cons d b ds as hd _ ih =>
    rcases List.mem_cons.mp ha with rfl | ha
    · exact ⟨d, List.mem_cons_self, hd⟩
    · obtain ⟨d', hd', hvalid⟩ := ih ha
      exact ⟨d', List.mem_cons_of_mem d hd', hvalid⟩

end Lists

section Fields
variable {α : Type} {check : Document → Checked α} {fields : Document.Fields} {name : String} {a default : α}

theorem requiredField_eq_valid : requiredField fields name check = .valid a ↔
    ∃ d, fields.get? name = some d ∧ check d = .valid a := by
  unfold requiredField
  cases fields.get? name with
  | none => simp [issue, under]
  | some d => simp [under_eq_valid]

theorem optionalField_eq_valid : optionalField fields name default check = .valid a ↔
    (fields.get? name = none ∧ default = a) ∨ ∃ d, fields.get? name = some d ∧ check d = .valid a := by
  unfold optionalField
  cases fields.get? name with
  | none => simp
  | some d => simp [under_eq_valid]

end Fields

/-! ## Issues -/

section Issues
variable {α β : Type}

/-- What is wrong, which is nothing if there is a value. -/
def issues : Checked α → List Issue
  | .valid _ => []
  | .invalid is => is

theorem issues_seq (f : Checked (α → β)) (x : Checked α) : (f <*> x).issues = f.issues ++ x.issues := by
  change (ap f x).issues = _
  cases f <;> cases x <;> simp [ap, issues]

theorem issues_map (g : α → β) (x : Checked α) : (g <$> x).issues = x.issues := by
  change (ap (.valid g) x).issues = _
  cases x <;> rfl

theorem issues_seqLeft (x : Checked α) (y : Checked β) : (x <* y).issues = x.issues ++ y.issues := by
  change (ap (ap (.valid (Function.const β)) x) y).issues = _
  cases x <;> cases y <;> simp [ap, issues]

theorem head?_path_of_under {step : String} {x : Checked α} {i : Issue} (h : i ∈ (under step x).issues) :
    i.path.head? = some step := by
  cases x with
  | valid a => cases h
  | invalid is =>
    obtain ⟨i', _, rfl⟩ := List.mem_map.mp h
    rfl

end Issues

end TypeOrigins.Checked
