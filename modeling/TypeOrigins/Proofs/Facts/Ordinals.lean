import TypeOrigins.Proofs.Document.LongIntegers
import TypeOrigins.Proofs.Facts.Description
import TypeOrigins.Proofs.Facts.Reordering
import TypeOrigins.Proofs.Facts.WellFormed

/-! # Ordinals of facts documents

An ordinal of a program comes from a number field of the document that describes it, along the
tagged objects of expressions and types. So no ordinal is negative, and a long one is an integer of
the document. -/

namespace TypeOrigins
set_option autoImplicit false

/-! ## Where a program has an ordinal -/

section Ordinals
variable {k : ℤ}

theorem TypeSymbol.mem_allOrdinalsOf {ts : List TypeSymbol} :
    k ∈ allOrdinalsOf ts ↔ ∃ t ∈ ts, k ∈ t.allOrdinals := by
  induction ts with
  | nil => simp [allOrdinalsOf]
  | cons t rest ih => rw [allOrdinalsOf, List.mem_append, ih, List.exists_mem_cons_iff]

theorem Annotation.mem_allOrdinals {note : Annotation} :
    k ∈ note.allOrdinals ↔ ∃ t ∈ note.staticType, k ∈ t.allOrdinals := by
  cases h : note.staticType <;> simp [allOrdinals, h]

theorem Expression.mem_allOrdinals_of_staticType {e : Expression} {t : TypeSymbol}
    (ht : e.staticType = some t) (hk : k ∈ t.allOrdinals) : k ∈ e.allOrdinals := by
  have hnote : ∀ note : Annotation, note.staticType = some t → k ∈ note.allOrdinals :=
    fun note hnote => Annotation.mem_allOrdinals.mpr ⟨t, hnote, hk⟩
  cases e with
  | typeOf note operand => exact List.mem_append_left _ (hnote note ht)
  | getType note receiver => exact List.mem_append_left _ (hnote note ht)
  | localRef note id => exact hnote note ht
  | parameterRef note m i => exact List.mem_cons_of_mem i (hnote note ht)
  | untraced note kind => exact hnote note ht

theorem Expression.mem_allOrdinals_of_receivers {root e : Expression} (he : e ∈ Facts.receivers root)
    (hk : k ∈ e.allOrdinals) : k ∈ root.allOrdinals := by
  induction root with
  | getType note receiver ih =>
    rw [Facts.receivers, List.mem_cons] at he
    rcases he with rfl | he
    · exact hk
    · exact List.mem_append_right _ (ih he)
  | _ =>
    obtain rfl := List.mem_singleton.mp he
    exact hk

mutual

theorem TypeSymbol.mem_allOrdinals_of_typeParts {u : TypeParameter} :
    (t : TypeSymbol) → .parameter u ∈ Facts.typeParts t → u.ordinal ∈ t.allOrdinals
  | .named n a ts, hu => by
    rw [Facts.typeParts, List.mem_cons] at hu
    rcases hu with hu | hu
    · cases hu
    · exact mem_allOrdinals_of_typePartsAll ts hu
  | .parameter u', hu => by
    rw [Facts.typeParts, List.mem_singleton] at hu
    cases hu
    simp [allOrdinals]

theorem TypeSymbol.mem_allOrdinals_of_typePartsAll {u : TypeParameter} :
    (ts : List TypeSymbol) → .parameter u ∈ Facts.typePartsAll ts → u.ordinal ∈ allOrdinalsOf ts
  | [], hu => by simp [Facts.typePartsAll] at hu
  | t :: rest, hu => by
    rw [Facts.typePartsAll, List.mem_append] at hu
    rw [allOrdinalsOf, List.mem_append]
    exact hu.symm.imp (mem_allOrdinals_of_typeParts t) (mem_allOrdinals_of_typePartsAll rest)

end

end Ordinals

namespace Facts

/-! ## Ordinals come from number fields -/

section Checks
variable {k : ℤ}

theorem reveals_checkType (room : ℕ) : Reveals k (checkType room) (k ∈ ·.allOrdinals) := by
  induction room with
  | zero =>
    refine Reveals.tagged fun tag fields t h hk => ?_
    cases h
  | succ room ih =>
    refine Reveals.tagged fun tag fields t h hk => ?_
    split at h
    · simp only [checkNamedType, Checked.seqLeft_eq_valid, Checked.seq_eq_valid, Checked.map_eq_valid] at h
      obtain ⟨⟨_, ts, ⟨_, a, ⟨n, hn, rfl⟩, ha, rfl⟩, hts, rfl⟩, _⟩ := h
      exact ih.list.optional hts (by simp) (TypeSymbol.mem_allOrdinalsOf.mp hk)
    · simp only [checkTypeParameter, Checked.seqLeft_eq_valid, Checked.seq_eq_valid,
        Checked.map_eq_valid] at h
      obtain ⟨u, ⟨⟨_, ordinal, ⟨_, _, ⟨_, _, ⟨_, _, rfl⟩, _, rfl⟩, _, rfl⟩, hordinal, rfl⟩, _⟩, rfl⟩ := h
      exact (Reveals.number k).required hordinal (List.mem_singleton.mp hk).symm

theorem gives_of_checkAnnotation {room : ℕ} {fields : Document.Fields} {note : Annotation}
    (h : checkAnnotation room fields = .valid note) (hk : k ∈ note.allOrdinals) :
    (Document.object fields).Gives k := by
  simp only [ checkAnnotation, Checked.seq_eq_valid, Checked.map_eq_valid] at h
  obtain ⟨_, static, ⟨_, _, rfl⟩, hstatic, rfl⟩ := h
  exact (reveals_checkType room).nullable.optional hstatic (by simp) ( Annotation.mem_allOrdinals.mp hk)

/-- An ordinal is in the static type, which all expressions have, or in a field of its own. -/
theorem gives_of_checkExpressionFields {room : ℕ} {inner : Document → Checked Expression}
    (hinner : Reveals k inner (k ∈ ·.allOrdinals)) {tag : String} {fields : Document.Fields}
    {e : Expression} (h : checkExpressionFields room inner tag fields = .valid e)
    (hk : k ∈ e.allOrdinals) : (Document.object fields).Gives k := by
  unfold checkExpressionFields at h
  split at h
  · simp only [Checked.seqLeft_eq_valid, Checked.seq_eq_valid, Checked.map_eq_valid] at h
    obtain ⟨⟨_, t, ⟨note, hn, rfl⟩, ht, rfl⟩, _⟩ := h
    rcases List.mem_append.mp hk with hk | hk
    · exact gives_of_checkAnnotation hn hk
    · exact (reveals_checkType room).required ht hk
  · split at h
    · simp only [Checked.seqLeft_eq_valid, Checked.seq_eq_valid, Checked.map_eq_valid] at h
      obtain ⟨⟨_, r, ⟨note, hn, rfl⟩, hr, rfl⟩, _⟩ := h
      rcases List.mem_append.mp hk with hk | hk
      · exact gives_of_checkAnnotation hn hk
      · exact hinner.required hr hk
    · split at h
      · simp only [Checked.seqLeft_eq_valid, Checked.seq_eq_valid, Checked.map_eq_valid] at h
        obtain ⟨⟨_, id, ⟨note, hn, rfl⟩, _, rfl⟩, _⟩ := h
        exact gives_of_checkAnnotation hn hk
      · split at h
        · simp only [Checked.seqLeft_eq_valid, Checked.seq_eq_valid, Checked.map_eq_valid] at h
          obtain ⟨⟨_, ordinal, ⟨_, m, ⟨note, hn, rfl⟩, _, rfl⟩, hordinal, rfl⟩, _⟩ := h
          rcases List.mem_cons.mp hk with hk | hk
          · exact (Reveals.number k).required hordinal hk.symm
          · exact gives_of_checkAnnotation hn hk
        · simp only [Checked.seqLeft_eq_valid, Checked.map_eq_valid] at h
          obtain ⟨⟨note, hn, rfl⟩, _⟩ := h
          exact gives_of_checkAnnotation hn hk

theorem reveals_checkExpression (room : ℕ) : Reveals k (checkExpression room) (k ∈ ·.allOrdinals) := by
  induction room with
  | zero =>
    refine Reveals.tagged fun tag fields e h hk => ?_
    cases h
  | succ room ih =>
    exact Reveals.tagged fun tag fields e h hk => gives_of_checkExpressionFields ih h hk

theorem reveals_checkLocal : Reveals k checkLocal
    (fun l => ∃ e, (e ∈ l.initializer ∨ e ∈ l.assignments) ∧ k ∈ e.allOrdinals) := by
  refine Reveals.object fun fields l h hl => ?_
  obtain ⟨e, he, hk⟩ := hl
  simp only [Checked.seqLeft_eq_valid, Checked.seq_eq_valid, Checked.map_eq_valid] at h
  obtain ⟨⟨_, assignments, ⟨_, initializer, ⟨_, _, ⟨_, _, ⟨_, _, rfl⟩, _, rfl⟩, _, rfl⟩, hinit, rfl⟩,
    hassign, rfl⟩, _⟩ := h
  rcases he with he | he
  · exact (reveals_checkExpression nestingLimit).nullable.optional hinit (by simp) ⟨e, he, hk⟩
  · exact (reveals_checkExpression nestingLimit).list.optional hassign (by simp) ⟨e, he, hk⟩

theorem reveals_checkCallSite : Reveals k checkCallSite
    (fun c => (∃ t ∈ c.typeArguments, k ∈ t.allOrdinals) ∨ ∃ e ∈ c.arguments, k ∈ e.allOrdinals) := by
  refine Reveals.object fun fields c h hk => ?_
  simp only [Checked.seqLeft_eq_valid, Checked.seq_eq_valid, Checked.map_eq_valid] at h
  obtain ⟨⟨_, arguments, ⟨_, types, ⟨_, _, ⟨_, _, ⟨_, _, ⟨_, _, rfl⟩, _, rfl⟩, _, rfl⟩, _, rfl⟩, htypes,
    rfl⟩, harguments, rfl⟩, _⟩ := h
  rcases hk with hk | hk
  · exact (reveals_checkType nestingLimit).list.optional htypes (by simp) hk
  · exact (reveals_checkExpression nestingLimit).list.optional harguments (by simp) hk

section Programs
variable {fields : Document.Fields} {p : Program} (h : checkProgram fields = .valid p) {owner : Owner}
include h

theorem gives_of_standsIn {e : Expression} (he : StandsIn p owner e) (hk : k ∈ e.allOrdinals) :
    (Document.object fields).Gives k := by
  obtain ⟨_, _, hlocals, hsites, _⟩ := checkProgram_eq_valid.mp h
  rcases mem_ownedExpressions.mp (mem_ownedExpressions_iff.mpr he) with
    ⟨l, hl, _, root, hroot, hin⟩ | ⟨c, hc, _, root, hroot, hin⟩
  · exact reveals_checkLocal.list.optional hlocals (by simp)
      ⟨l, hl, root, hroot, Expression.mem_allOrdinals_of_receivers hin hk⟩
  · exact reveals_checkCallSite.list.optional hsites (by simp)
      ⟨c, hc, Or.inr ⟨root, hroot, Expression.mem_allOrdinals_of_receivers hin hk⟩⟩

theorem gives_of_mentions {u : TypeParameter} (hu : Mentions p owner (.parameter u)) :
    (Document.object fields).Gives u.ordinal := by
  obtain ⟨_, _, _, hsites, _⟩ := checkProgram_eq_valid.mp h
  obtain ⟨root, hin, hroot⟩ := mem_ownedTypes.mp (mem_ownedTypes_iff.mpr hu)
  have hk := TypeSymbol.mem_allOrdinals_of_typeParts root hin
  rcases hroot with ⟨c, hc, _, hroot⟩ | ⟨e, he, ⟨note, rfl⟩ | hroot⟩
  · exact reveals_checkCallSite.list.optional hsites (by simp) ⟨c, hc, Or.inl ⟨root, hroot, hk⟩⟩
  · exact gives_of_standsIn h he (List.mem_append_right _ hk)
  · exact gives_of_standsIn h he (Expression.mem_allOrdinals_of_staticType hroot hk)

end Programs

end Checks

/-- A fault that cannot be written names an ordinal of the document. -/
theorem IntegrityFault.Holds.carries_of_not_writable {fields : Document.Fields} {p : Program}
    {f : IntegrityFault} (hf : f.Holds p) (h : checkProgram fields = .valid p) (hw : f.isWritable = false) :
    ∃ k : ℕ, Text.isLong k = true ∧ (Document.object fields).Carries k := by
  obtain ⟨owner, k, m, hlong, ⟨n, rfl⟩ | rfl⟩ := hf.long_of_not_writable hw
  · obtain ⟨⟨note, hin⟩, _⟩ := hf
    exact ⟨k, hlong, (gives_of_standsIn h hin List.mem_cons_self).2 hlong⟩
  · obtain ⟨⟨name, hin⟩, _⟩ := hf
    exact ⟨k, hlong, (gives_of_mentions h hin).2 hlong⟩

end Facts

end TypeOrigins
