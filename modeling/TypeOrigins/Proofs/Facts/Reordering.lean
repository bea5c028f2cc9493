import Mathlib.Data.List.Perm.Basic
import TypeOrigins.Proofs.Document.Check
import TypeOrigins.Proofs.Facts.Soundness

/-! # Documents in another order

Two documents that list the same methods, locals and calls in different orders are both accepted or
both refused, and the programs they describe differ in the order of their declarations only. -/

namespace TypeOrigins.Facts
set_option autoImplicit false

/-! ## The relation -/

/-- The fields that list declarations. -/
def declarationLists : List Key := ["methods", "locals", "local_variables", "call_sites"]

/-- Values of a field that are equal, or list the same declarations. -/
def Alike (key : Key) (d d' : Document) : Prop :=
  d = d' ∨ (key ∈ declarationLists ∧ ∃ ds ds', d = .list ds ∧ d' = .list ds' ∧ ds.Perm ds')

/-- The fields of two documents that differ in the order of their declarations. -/
def Reordering (fields fields' : Document.Fields) : Prop :=
  List.Forall₂ (fun f g => f.1 = g.1 ∧ Alike f.1 f.2 g.2) fields fields'

theorem Alike.symm {key : Key} {d d' : Document} (h : Alike key d d') : Alike key d' d := by
  rcases h with rfl | ⟨hk, ds, ds', hd, hd', hperm⟩
  · exact Or.inl rfl
  · exact Or.inr ⟨hk, ds', ds, hd', hd, hperm.symm⟩

namespace Reordering
variable {fields fields' : Document.Fields}

theorem symm (h : Reordering fields fields') : Reordering fields' fields := by
  refine List.Forall₂.flip (h.imp ?_)
  rintro f g ⟨hkey, halike⟩
  exact ⟨hkey.symm, hkey ▸ halike.symm⟩

variable (h : Reordering fields fields')
include h

/-! ## Fields -/

theorem get? (name : String) : Option.Rel (Alike name) (fields.get? name) (fields'.get? name) := by
  unfold Document.Fields.get?
  induction h with
  | nil => exact .none
  | @cons f g _ _ hfg _ ih =>
    obtain ⟨hkey, halike⟩ := hfg
    by_cases hf : f.1 = .name name
    · rw [List.find?_cons_of_pos (by simp [hf]), List.find?_cons_of_pos (by simp [← hkey, hf])]
      exact .some (hf ▸ halike)
    · rw [List.find?_cons_of_neg (by simp [hf]), List.find?_cons_of_neg (by simp [← hkey, hf])]
      exact ih

theorem get?_eq {name : String} (hname : Key.name name ∉ declarationLists) :
    fields.get? name = fields'.get? name := by
  have hrel := h.get? name
  generalize fields.get? name = x at hrel ⊢
  generalize fields'.get? name = y at hrel ⊢
  cases hrel with
  | none => rfl
  | some halike =>
    rcases halike with rfl | ⟨hin, _⟩
    · rfl
    · exact absurd hin hname

theorem get?_isSome (name : String) : (fields.get? name).isSome = (fields'.get? name).isSome := by
  have hrel := h.get? name
  generalize fields.get? name = x at hrel ⊢
  generalize fields'.get? name = y at hrel ⊢
  cases hrel with
  | none => rfl
  | some _ => rfl

theorem fieldName_eq (first second : String) :
    fieldName fields first second = fieldName fields' first second := by
  unfold fieldName
  rw [h.get?_isSome, h.get?_isSome]

theorem noExtras_eq (known : List String) : noExtras fields known = noExtras fields' known := by
  have hkeys : fields.filterMap (fun f => strayKey? known f.1) =
      fields'.filterMap (fun f => strayKey? known f.1) := by
    induction h with
    | nil => rfl
    | cons hfg _ ih => rw [List.filterMap_cons, List.filterMap_cons, hfg.1, ih]
  unfold noExtras
  rw [hkeys]

theorem optionalField_eq {α : Type} {name : String} (hname : Key.name name ∉ declarationLists)
    (default : α) (check : Document → Checked α) :
    optionalField fields name default check = optionalField fields' name default check := by
  unfold optionalField
  rw [h.get?_eq hname]

theorem requiredField_eq {α : Type} {name : String} (hname : Key.name name ∉ declarationLists)
    (check : Document → Checked α) :
    requiredField fields name check = requiredField fields' name check := by
  unfold requiredField
  rw [h.get?_eq hname]

/-- A list of declarations passes in any order, and what is read off it has the other order. -/
theorem optionalField_list {α : Type} {name : String} {check : Document → Checked α} {as : List α}
    (ha : optionalField fields name [] (checkList check) = .valid as) :
    ∃ as', optionalField fields' name [] (checkList check) = .valid as' ∧ as.Perm as' := by
  have hrel := h.get? name
  unfold optionalField at ha ⊢
  generalize fields.get? name = x at hrel ha
  generalize fields'.get? name = y at hrel
  cases hrel with
  | none => exact ⟨as, ha, .refl as⟩
  | some halike =>
    rcases halike with rfl | ⟨_, ds, ds', rfl, rfl, hperm⟩
    · exact ⟨as, ha, .refl as⟩
    · have hitems := Checked.items_eq_valid.mp (Checked.under_eq_valid.mp ha)
      obtain ⟨as', hitems', hperm'⟩ := List.perm_comp_forall₂ hperm.symm hitems
      exact ⟨as', Checked.under_eq_valid.mpr (Checked.items_eq_valid.mpr hitems'), hperm'.symm⟩

end Reordering

/-! ## Programs -/

theorem checkProgram_eq_valid {fields : Document.Fields} {p : Program} :
    checkProgram fields = .valid p ↔
      optionalField fields "assembly" "" checkText = .valid p.assembly ∧
      optionalField fields "methods" [] (checkList checkMethod) = .valid p.methods ∧
      optionalField fields (fieldName fields "locals" "local_variables") [] (checkList checkLocal) =
        .valid p.locals ∧
      optionalField fields "call_sites" [] (checkList checkCallSite) = .valid p.callSites ∧
      (∃ u, requiredField fields "schema_version" checkVersion = .valid u) ∧
      ∃ u, noExtras fields ["schema_version", "assembly", "methods",
        fieldName fields "locals" "local_variables", "call_sites"] = .valid u := by
  unfold checkProgram
  simp only [Checked.seqLeft_eq_valid, Checked.seq_eq_valid, Checked.map_eq_valid]
  constructor
  · rintro ⟨⟨⟨_, sites, ⟨_, locals, ⟨_, methods, ⟨assembly, ha, rfl⟩, hm, rfl⟩, hl, rfl⟩, hc, rfl⟩, hv⟩, hx⟩
    exact ⟨ha, hm, hl, hc, hv, hx⟩
  · rintro ⟨ha, hm, hl, hc, hv, hx⟩
    exact ⟨⟨⟨_, _, ⟨_, _, ⟨_, _, ⟨_, ha, rfl⟩, hm, rfl⟩, hl, rfl⟩, hc, rfl⟩, hv⟩, hx⟩

theorem Reordering.checkProgram {fields fields' : Document.Fields} (h : Reordering fields fields')
    {p : Program} (hp : checkProgram fields = .valid p) :
    ∃ q, Facts.checkProgram fields' = .valid q ∧ p.Reordered q := by
  obtain ⟨ha, hm, hl, hc, hv, hx⟩ := checkProgram_eq_valid.mp hp
  rw [h.optionalField_eq (by decide)] at ha
  rw [h.requiredField_eq (by decide)] at hv
  rw [h.fieldName_eq] at hl hx
  rw [h.noExtras_eq] at hx
  obtain ⟨methods, hm', hmperm⟩ := h.optionalField_list hm
  obtain ⟨locals, hl', hlperm⟩ := h.optionalField_list hl
  obtain ⟨sites, hc', hcperm⟩ := h.optionalField_list hc
  exact ⟨⟨p.assembly, methods, locals, sites⟩, checkProgram_eq_valid.mpr ⟨ha, hm', hl', hc', hv, hx⟩,
    hmperm, hlperm, hcperm⟩

/-! ## Soundness -/

section Soundness
variable {p q : Program}

theorem ownedExpressions_perm (h : p.Reordered q) : (ownedExpressions p).Perm (ownedExpressions q) :=
  (h.locals.flatMap_right _).append (h.callSites.flatMap_right _)

theorem ownedTypes_perm (h : p.Reordered q) : (ownedTypes p).Perm (ownedTypes q) :=
  ((h.callSites.flatMap_right _).append ((ownedExpressions_perm h).flatMap_right _)).flatMap_right _

theorem Sound.reordered (hp : Sound p) (h : p.Reordered q) : Sound q := by
  have hmethod := h.method?_eq hp.ids
  have hlocal := h.local?_eq hp.ids
  refine ⟨h.distinctIds hp.ids, ?_, ?_, ?_, ?_⟩
  · intro l hl
    rw [← hmethod]
    exact hp.localMethods l (h.locals.mem_iff.mpr hl)
  · intro c hc m hm
    rw [← hmethod]
    exact hp.enclosingMethods c (h.callSites.mem_iff.mpr hc) m hm
  · intro oe hoe
    have hrefers := hp.expressions oe ((ownedExpressions_perm h).mem_iff.mpr hoe)
    unfold Refers at hrefers ⊢
    split at hrefers
    · exact hlocal _ ▸ hrefers
    · exact hmethod _ ▸ hrefers
    · exact hrefers
  · intro ot hot
    have hbinds := hp.types ot ((ownedTypes_perm h).mem_iff.mpr hot)
    unfold Binds at hbinds ⊢
    split at hbinds
    · exact hmethod _ ▸ hbinds
    · exact hbinds

theorem Reordering.parse {fields fields' : Document.Fields} (h : Reordering fields fields')
    (hp : parse fields = .ok p) : ∃ q, Facts.parse fields' = .ok q ∧ p.Reordered q := by
  obtain ⟨hshape, hsound⟩ := parse_eq_ok.mp hp
  obtain ⟨q, hshape', hpq⟩ := h.checkProgram hshape
  exact ⟨q, parse_eq_ok.mpr ⟨hshape', hsound.reordered hpq⟩, hpq⟩

end Soundness

end TypeOrigins.Facts
