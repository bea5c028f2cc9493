import Mathlib.Data.List.Nodup
import TypeOrigins.Facts.Loading
import TypeOrigins.Proofs.Program.Reordering

/-! # Sound programs

A program has no fault if and only if it is sound: its identifiers are distinct, and the methods,
locals, parameters and type parameters that it mentions are declared. A document is accepted if and
only if it describes a sound program. -/

namespace TypeOrigins.Facts
set_option autoImplicit false

/-! ## Declarations -/

/-- What an expression refers to is declared. -/
def Refers (p : Program) : Expression → Prop
  | .localRef _ id => (p.local? id).isSome
  | .parameterRef _ methodId k => ∃ m, p.method? methodId = some m ∧ k < m.parameters.length
  | _ => True

/-- A type parameter of a method is declared. -/
def Binds (p : Program) : TypeSymbol → Prop
  | .parameter t =>
      t.ownerKind = .method → ∃ m, p.method? t.ownerId = some m ∧ t.ordinal < m.typeParameters.length
  | .named _ _ _ => True

/-- A program without faults. -/
structure Sound (p : Program) : Prop where
  ids : p.DistinctIds
  localMethods : ∀ l ∈ p.locals, (p.method? l.methodId).isSome
  enclosingMethods : ∀ c ∈ p.callSites, ∀ m, c.enclosingMethod = some m → (p.method? m).isSome
  expressions : ∀ oe ∈ ownedExpressions p, Refers p oe.2
  types : ∀ ot ∈ ownedTypes p, Binds p ot.2

/-! ## Faults -/

section Faults
variable {p : Program}

theorem repeatedIds_eq_nil {ids : List String} : repeatedIds ids = [] ↔ ids.Nodup := by
  unfold repeatedIds sortTexts
  rw [← List.length_eq_zero_iff, (perm_sortBy _ _).length_eq, List.length_eq_zero_iff,
    List.filter_eq_nil_iff, List.nodup_iff_count_le_one]
  constructor
  · intro h id
    by_cases hid : id ∈ ids
    · have := h id (List.mem_eraseDups.mpr hid)
      simpa using this
    · rw [List.count_eq_zero_of_not_mem hid]
      omega
  · intro h id _
    simpa using h id

theorem duplicateFault?_eq_none {kind : EntryKind} {ids : List String} :
    duplicateFault? kind ids = none ↔ ids.Nodup := by
  rw [← repeatedIds_eq_nil]
  unfold duplicateFault?
  split
  · next h => simp [h]
  · next h => simp [h]

theorem localFault?_eq_none {l : LocalVariable} :
    localFault? p l = none ↔ (p.method? l.methodId).isSome := by
  unfold localFault?
  split <;> simp_all

theorem enclosingFault?_eq_none {c : CallSite} :
    enclosingFault? p c = none ↔ ∀ m, c.enclosingMethod = some m → (p.method? m).isSome := by
  unfold enclosingFault?
  split
  · next h => simp [h]
  · next m h => split <;> simp_all

theorem expressionFault?_eq_none {oe : Owner × Expression} :
    expressionFault? p oe = none ↔ Refers p oe.2 := by
  obtain ⟨owner, e⟩ := oe
  unfold expressionFault? Refers
  cases e with
  | localRef note id => by_cases h : (p.local? id).isSome <;> simp [h]
  | parameterRef note methodId k =>
    dsimp only
    cases h : p.method? methodId with
    | none => simp
    | some m => by_cases hk : k < m.parameters.length <;> simp [hk]
  | typeOf note operand => simp
  | getType note receiver => simp
  | untraced note kind => simp

theorem typeFault?_eq_none {ot : Owner × TypeSymbol} : typeFault? p ot = none ↔ Binds p ot.2 := by
  obtain ⟨owner, t⟩ := ot
  unfold typeFault? Binds
  cases t with
  | named n a ts => simp
  | parameter t =>
    dsimp only
    cases ho : t.ownerKind with
    | type => simp
    | method =>
      cases h : p.method? t.ownerId with
      | none => simp
      | some m => by_cases hk : t.ordinal < m.typeParameters.length <;> simp [hk]

theorem integrityFault?_eq_none : integrityFault? p = none ↔ Sound p := by
  have horElse : ∀ x y : Option IntegrityFault, (x <|> y) = none ↔ x = none ∧ y = none := by
    intro x y
    cases x <;> simp
  unfold integrityFault?
  simp only [horElse, duplicateFault?_eq_none, List.findSome?_eq_none_iff, localFault?_eq_none,
    enclosingFault?_eq_none, expressionFault?_eq_none, typeFault?_eq_none]
  constructor
  · rintro ⟨hm, hl, hc, hlocal, hsite, hexpression, htype⟩
    exact ⟨⟨hm, hl, hc⟩, hlocal, hsite, hexpression, htype⟩
  · intro h
    exact ⟨h.ids.methods, h.ids.locals, h.ids.callSites, h.localMethods, h.enclosingMethods,
      h.expressions, h.types⟩

end Faults

theorem parse_eq_ok {fields : Document.Fields} {p : Program} :
    parse fields = .ok p ↔ checkProgram fields = .valid p ∧ Sound p := by
  unfold parse shape
  cases h : checkProgram fields with
  | invalid issues =>
    constructor
    · intro hp
      cases hp
    · rintro ⟨hp, _⟩
      cases hp
  | valid q =>
    rw [Checked.valid.injEq, ← integrityFault?_eq_none]
    dsimp only [bind, Except.bind]
    split
    · next hq =>
      rw [Except.ok.injEq]
      constructor
      · rintro rfl
        exact ⟨rfl, hq⟩
      · exact fun hp => hp.1
    · next f hq =>
      constructor
      · intro hp
        cases hp
      · rintro ⟨rfl, hnone⟩
        rw [hq] at hnone
        cases hnone

end TypeOrigins.Facts
