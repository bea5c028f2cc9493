import TypeOrigins.Proofs.Facts.Soundness

/-! # Well-formed documents

What a program refers to, said without the lists that the check walks: `StandsIn` and `Mentions`
follow receivers and type arguments to any depth. A document whose shape is right is accepted if and
only if its identifiers are distinct and all that its locals and calls refer to is declared. A fault
that is found tells the truth about the entry it names. -/

namespace TypeOrigins.Facts
set_option autoImplicit false

/-! ## References -/

/-- An expression of a local or of a call: an initializer, an assignment, an argument, or the
receiver of such an expression. -/
inductive StandsIn (p : Program) : Owner → Expression → Prop
  | initializer {l : LocalVariable} {e : Expression} (hl : l ∈ p.locals)
      (he : l.initializer = some e) : StandsIn p (.localVariable l.id) e
  | assignment {l : LocalVariable} {e : Expression} (hl : l ∈ p.locals)
      (he : e ∈ l.assignments) : StandsIn p (.localVariable l.id) e
  | argument {c : CallSite} {e : Expression} (hc : c ∈ p.callSites)
      (he : e ∈ c.arguments) : StandsIn p (.callSite c.id) e
  | receiver {owner : Owner} {note : Annotation} {e : Expression}
      (h : StandsIn p owner (.getType note e)) : StandsIn p owner e

/-- A type that a local or a call mentions: a type argument of the call, the operand or the static
type of an expression, or a type argument of such a type. -/
inductive Mentions (p : Program) : Owner → TypeSymbol → Prop
  | typeArgument {c : CallSite} {t : TypeSymbol} (hc : c ∈ p.callSites)
      (ht : t ∈ c.typeArguments) : Mentions p (.callSite c.id) t
  | operand {owner : Owner} {note : Annotation} {t : TypeSymbol}
      (h : StandsIn p owner (.typeOf note t)) : Mentions p owner t
  | staticType {owner : Owner} {e : Expression} {t : TypeSymbol} (h : StandsIn p owner e)
      (ht : e.staticType = some t) : Mentions p owner t
  | nested {owner : Owner} {n a : String} {ts : List TypeSymbol} {t : TypeSymbol}
      (h : Mentions p owner (.named n a ts)) (ht : t ∈ ts) : Mentions p owner t

/-- The method that a local or a call says it belongs to. -/
inductive BelongsTo (p : Program) : Owner → String → Prop
  | localVariable {l : LocalVariable} (hl : l ∈ p.locals) : BelongsTo p (.localVariable l.id) l.methodId
  | callSite {c : CallSite} {m : String} (hc : c ∈ p.callSites) (hm : c.enclosingMethod = some m) :
      BelongsTo p (.callSite c.id) m

/-- All that a local or a call refers to is declared. -/
structure Owner.Grounded (p : Program) (owner : Owner) : Prop where
  method : ∀ m, BelongsTo p owner m → ∃ d ∈ p.methods, d.id = m
  locals : ∀ note id, StandsIn p owner (.localRef note id) → ∃ l ∈ p.locals, l.id = id
  parameters : ∀ note m k, StandsIn p owner (.parameterRef note m k) →
    ∃ d ∈ p.methods, d.id = m ∧ k < d.parameters.length
  typeParameters : ∀ t, Mentions p owner (.parameter t) → t.ownerKind = .method →
    ∃ d ∈ p.methods, d.id = t.ownerId ∧ t.ordinal < d.typeParameters.length

structure WellFormed (p : Program) : Prop where
  ids : p.DistinctIds
  grounded : ∀ owner : Owner, owner.Grounded p

/-! ## The walks meet every reference -/

section Walks
variable {p : Program} {owner : Owner}

theorem self_mem_receivers (e : Expression) : e ∈ receivers e := by
  cases e <;> simp [receivers]

theorem receiver_mem_receivers {root e : Expression} {note : Annotation}
    (h : .getType note e ∈ receivers root) : e ∈ receivers root := by
  induction root with
  | getType note' r ih =>
    rw [receivers, List.mem_cons] at h ⊢
    rcases h with h | h
    · cases h
      exact Or.inr (self_mem_receivers e)
    · exact Or.inr (ih h)
  | typeOf note' t => simp [receivers] at h
  | localRef note' id => simp [receivers] at h
  | parameterRef note' m k => simp [receivers] at h
  | untraced note' kind => simp [receivers] at h

theorem StandsIn.of_mem_receivers {root e : Expression} (hroot : StandsIn p owner root)
    (h : e ∈ receivers root) : StandsIn p owner e := by
  induction root with
  | getType note r ih =>
    rw [receivers, List.mem_cons] at h
    rcases h with rfl | h
    · exact hroot
    · exact ih hroot.receiver h
  | typeOf note t => simp_all [receivers]
  | localRef note id => simp_all [receivers]
  | parameterRef note m k => simp_all [receivers]
  | untraced note kind => simp_all [receivers]

theorem mem_ownedExpressions {e : Expression} :
    (owner, e) ∈ ownedExpressions p ↔
      (∃ l ∈ p.locals, owner = .localVariable l.id ∧
        ∃ root, (l.initializer = some root ∨ root ∈ l.assignments) ∧ e ∈ receivers root) ∨
      ∃ c ∈ p.callSites, owner = .callSite c.id ∧ ∃ root ∈ c.arguments, e ∈ receivers root := by
  simp only [ownedExpressions, localExpressions, List.mem_append, List.mem_flatMap, List.mem_map,
    Option.mem_toList, Prod.mk.injEq]
  constructor
  · rintro (⟨l, hl, x, ⟨root, hroot, hx⟩, rfl, rfl⟩ | ⟨c, hc, x, ⟨root, hroot, hx⟩, rfl, rfl⟩)
    · exact Or.inl ⟨l, hl, rfl, root, hroot, hx⟩
    · exact Or.inr ⟨c, hc, rfl, root, hroot, hx⟩
  · rintro (⟨l, hl, rfl, root, hroot, hx⟩ | ⟨c, hc, rfl, root, hroot, hx⟩)
    · exact Or.inl ⟨l, hl, e, ⟨root, hroot, hx⟩, rfl, rfl⟩
    · exact Or.inr ⟨c, hc, e, ⟨root, hroot, hx⟩, rfl, rfl⟩

theorem mem_ownedExpressions_iff {e : Expression} :
    (owner, e) ∈ ownedExpressions p ↔ StandsIn p owner e := by
  rw [mem_ownedExpressions]
  constructor
  · rintro (⟨l, hl, rfl, root, hroot | hroot, he⟩ | ⟨c, hc, rfl, root, hroot, he⟩)
    · exact (StandsIn.initializer hl hroot).of_mem_receivers he
    · exact (StandsIn.assignment hl hroot).of_mem_receivers he
    · exact (StandsIn.argument hc hroot).of_mem_receivers he
  · intro h
    induction h with
    | initializer hl he => exact Or.inl ⟨_, hl, rfl, _, Or.inl he, self_mem_receivers _⟩
    | assignment hl he => exact Or.inl ⟨_, hl, rfl, _, Or.inr he, self_mem_receivers _⟩
    | argument hc he => exact Or.inr ⟨_, hc, rfl, _, he, self_mem_receivers _⟩
    | receiver _ ih =>
      rcases ih with ⟨l, hl, ho, root, hroot, he⟩ | ⟨c, hc, ho, root, hroot, he⟩
      · exact Or.inl ⟨l, hl, ho, root, hroot, receiver_mem_receivers he⟩
      · exact Or.inr ⟨c, hc, ho, root, hroot, receiver_mem_receivers he⟩

theorem mem_typePartsAll {ts : List TypeSymbol} {u : TypeSymbol} :
    u ∈ typePartsAll ts ↔ ∃ t ∈ ts, u ∈ typeParts t := by
  induction ts with
  | nil => simp [typePartsAll]
  | cons t rest ih =>
    rw [typePartsAll, List.mem_append, ih, List.exists_mem_cons_iff, or_comm]

theorem self_mem_typeParts (t : TypeSymbol) : t ∈ typeParts t := by
  cases t <;> simp [typeParts]

mutual

theorem argument_mem_typeParts {n a : String} {ts : List TypeSymbol} {u : TypeSymbol} (hu : u ∈ ts) :
    (root : TypeSymbol) → .named n a ts ∈ typeParts root → u ∈ typeParts root
  | .named n' a' ts', h => by
    rw [typeParts, List.mem_cons] at h ⊢
    rcases h with h | h
    · cases h
      exact Or.inr (mem_typePartsAll.mpr ⟨u, hu, self_mem_typeParts u⟩)
    · exact Or.inr (argument_mem_typePartsAll hu ts' h)
  | .parameter t, h => by simp [typeParts] at h

theorem argument_mem_typePartsAll {n a : String} {ts : List TypeSymbol} {u : TypeSymbol} (hu : u ∈ ts) :
    (roots : List TypeSymbol) → .named n a ts ∈ typePartsAll roots → u ∈ typePartsAll roots
  | [], h => by simp [typePartsAll] at h
  | root :: rest, h => by
    rw [typePartsAll, List.mem_append] at h ⊢
    exact h.imp (argument_mem_typePartsAll hu rest) (argument_mem_typeParts hu root)

end

mutual

theorem Mentions.of_mem_typeParts : (root : TypeSymbol) → Mentions p owner root →
    ∀ u ∈ typeParts root, Mentions p owner u
  | .named n a ts, hroot, u, hu => by
    rw [typeParts, List.mem_cons] at hu
    rcases hu with rfl | hu
    · exact hroot
    · exact Mentions.of_mem_typePartsAll ts (fun t ht => hroot.nested ht) u hu
  | .parameter t, hroot, u, hu => by
    rw [typeParts, List.mem_singleton] at hu
    exact hu ▸ hroot

theorem Mentions.of_mem_typePartsAll : (roots : List TypeSymbol) →
    (∀ t ∈ roots, Mentions p owner t) → ∀ u ∈ typePartsAll roots, Mentions p owner u
  | [], _, u, hu => by simp [typePartsAll] at hu
  | root :: rest, hroots, u, hu => by
    rw [typePartsAll, List.mem_append] at hu
    rcases hu with hu | hu
    · exact Mentions.of_mem_typePartsAll rest (fun t ht => hroots t (List.mem_cons_of_mem root ht)) u hu
    · exact Mentions.of_mem_typeParts root (hroots root List.mem_cons_self) u hu

end

theorem mem_expressionTypes {e : Expression} {t : TypeSymbol} :
    t ∈ expressionTypes e ↔ (∃ note, e = .typeOf note t) ∨ e.staticType = some t := by
  cases e <;> simp [expressionTypes, eq_comm]

theorem mem_ownedTypes {u : TypeSymbol} :
    (owner, u) ∈ ownedTypes p ↔ ∃ root, u ∈ typeParts root ∧
      ((∃ c ∈ p.callSites, owner = .callSite c.id ∧ root ∈ c.typeArguments) ∨
        ∃ e, StandsIn p owner e ∧ ((∃ note, e = .typeOf note root) ∨ e.staticType = some root)) := by
  simp only [ownedTypes, List.mem_flatMap, List.mem_append, List.mem_map, Prod.exists, Prod.mk.injEq,
    mem_ownedExpressions_iff, mem_expressionTypes]
  constructor
  · rintro ⟨o, root, ⟨c, hc, x, hx, rfl, rfl⟩ | ⟨o', e, he, x, hx, rfl, rfl⟩, y, hy, rfl, rfl⟩
    · exact ⟨x, hy, Or.inl ⟨c, hc, rfl, hx⟩⟩
    · exact ⟨x, hy, Or.inr ⟨e, he, hx⟩⟩
  · rintro ⟨root, hu, ⟨c, hc, rfl, hx⟩ | ⟨e, he, hx⟩⟩
    · exact ⟨_, root, Or.inl ⟨c, hc, root, hx, rfl, rfl⟩, u, hu, rfl, rfl⟩
    · exact ⟨_, root, Or.inr ⟨_, e, he, root, hx, rfl, rfl⟩, u, hu, rfl, rfl⟩

theorem mem_ownedTypes_iff {u : TypeSymbol} : (owner, u) ∈ ownedTypes p ↔ Mentions p owner u := by
  rw [mem_ownedTypes]
  constructor
  · rintro ⟨root, hu, ⟨c, hc, rfl, ht⟩ | ⟨e, he, ⟨note, rfl⟩ | ht⟩⟩
    · exact Mentions.of_mem_typeParts root (.typeArgument hc ht) u hu
    · exact Mentions.of_mem_typeParts root (.operand he) u hu
    · exact Mentions.of_mem_typeParts root (.staticType he ht) u hu
  · intro h
    induction h with
    | typeArgument hc ht => exact ⟨_, self_mem_typeParts _, Or.inl ⟨_, hc, rfl, ht⟩⟩
    | operand he => exact ⟨_, self_mem_typeParts _, Or.inr ⟨_, he, Or.inl ⟨_, rfl⟩⟩⟩
    | staticType he ht => exact ⟨_, self_mem_typeParts _, Or.inr ⟨_, he, Or.inr ht⟩⟩
    | nested _ ht ih =>
      obtain ⟨root, hu, hroot⟩ := ih
      exact ⟨root, argument_mem_typeParts ht root hu, hroot⟩

end Walks

theorem wellFormed_iff_sound {p : Program} : WellFormed p ↔ Sound p := by
  constructor
  · intro h
    have hmethod : ∀ owner m, BelongsTo p owner m → (p.method? m).isSome := by
      intro owner m hm
      obtain ⟨d, hd, hid⟩ := (h.grounded owner).method m hm
      exact Option.isSome_of_eq_some (h.ids.method?_eq_some.mpr ⟨hd, hid⟩)
    refine ⟨h.ids, fun l hl => hmethod _ _ (.localVariable hl),
      fun c hc m hm => hmethod _ _ (.callSite hc hm), ?_, ?_⟩
    · rintro ⟨owner, e⟩ he
      have hin := mem_ownedExpressions_iff.mp he
      cases e with
      | localRef note id =>
        obtain ⟨l, hl, hid⟩ := (h.grounded owner).locals note id hin
        exact Option.isSome_of_eq_some (h.ids.local?_eq_some.mpr ⟨hl, hid⟩)
      | parameterRef note m k =>
        obtain ⟨d, hd, hid, hk⟩ := (h.grounded owner).parameters note m k hin
        exact ⟨d, h.ids.method?_eq_some.mpr ⟨hd, hid⟩, hk⟩
      | typeOf note t => trivial
      | getType note r => trivial
      | untraced note kind => trivial
    · rintro ⟨owner, t⟩ ht
      cases t with
      | named n a ts => trivial
      | parameter t =>
        intro ho
        obtain ⟨d, hd, hid, hk⟩ := (h.grounded owner).typeParameters t (mem_ownedTypes_iff.mp ht) ho
        exact ⟨d, h.ids.method?_eq_some.mpr ⟨hd, hid⟩, hk⟩
  · intro h
    have hmethod : ∀ m, (p.method? m).isSome → ∃ d ∈ p.methods, d.id = m := by
      intro m hm
      obtain ⟨d, hd⟩ := Option.isSome_iff_exists.mp hm
      exact ⟨d, h.ids.method?_eq_some.mp hd⟩
    refine ⟨h.ids, fun owner => ⟨?_, ?_, ?_, ?_⟩⟩
    · intro m hm
      cases hm with
      | localVariable hl => exact hmethod _ (h.localMethods _ hl)
      | callSite hc hm => exact hmethod _ (h.enclosingMethods _ hc _ hm)
    · intro note id hin
      have hsome : (p.local? id).isSome := h.expressions _ (mem_ownedExpressions_iff.mpr hin)
      obtain ⟨l, hl⟩ := Option.isSome_iff_exists.mp hsome
      exact ⟨l, h.ids.local?_eq_some.mp hl⟩
    · intro note m k hin
      obtain ⟨d, hd, hk⟩ := h.expressions _ (mem_ownedExpressions_iff.mpr hin)
      obtain ⟨hmem, hid⟩ := h.ids.method?_eq_some.mp hd
      exact ⟨d, hmem, hid, hk⟩
    · intro t ht ho
      obtain ⟨d, hd, hk⟩ := h.types _ (mem_ownedTypes_iff.mpr ht) ho
      obtain ⟨hmem, hid⟩ := h.ids.method?_eq_some.mp hd
      exact ⟨d, hmem, hid, hk⟩

/-! ## Faults tell the truth -/

/-- The identifiers of one kind. -/
def EntryKind.ids (p : Program) : EntryKind → List String
  | .method => p.methods.map Method.id
  | .localVariable => p.locals.map LocalVariable.id
  | .callSite => p.callSites.map CallSite.id

namespace IntegrityFault

/-- What a fault says is so. -/
def Holds (p : Program) : IntegrityFault → Prop
  | .duplicateIds kind ids => ids ≠ [] ∧ ∀ id, id ∈ ids ↔ 1 < (kind.ids p).count id
  | .localMethodUnknown l m => BelongsTo p (.localVariable l) m ∧ ∀ d ∈ p.methods, d.id ≠ m
  | .enclosingMethodUnknown c m => BelongsTo p (.callSite c) m ∧ ∀ d ∈ p.methods, d.id ≠ m
  | .localUnknown owner id =>
      (∃ note, StandsIn p owner (.localRef note id)) ∧ ∀ l ∈ p.locals, l.id ≠ id
  | .parameterMethodUnknown owner m =>
      (∃ note k, StandsIn p owner (.parameterRef note m k)) ∧ ∀ d ∈ p.methods, d.id ≠ m
  | .parameterUndeclared owner k m n =>
      (∃ note, StandsIn p owner (.parameterRef note m k)) ∧
        (∃ d ∈ p.methods, d.id = m ∧ d.parameters.length = n) ∧
        ∀ d ∈ p.methods, d.id = m → d.parameters.length ≤ k
  | .typeParameterMethodUnknown owner name m =>
      (∃ k, Mentions p owner (.parameter ⟨name, m, .method, k⟩)) ∧ ∀ d ∈ p.methods, d.id ≠ m
  | .typeParameterUndeclared owner k m =>
      (∃ name, Mentions p owner (.parameter ⟨name, m, .method, k⟩)) ∧
        (∃ d ∈ p.methods, d.id = m) ∧ ∀ d ∈ p.methods, d.id = m → d.typeParameters.length ≤ k

/-- The local or the call that a fault names. -/
def owner? : IntegrityFault → Option Owner
  | .duplicateIds _ _ => none
  | .localMethodUnknown l _ => some (.localVariable l)
  | .enclosingMethodUnknown c _ => some (.callSite c)
  | .localUnknown owner _ => some owner
  | .parameterMethodUnknown owner _ => some owner
  | .parameterUndeclared owner _ _ _ => some owner
  | .typeParameterMethodUnknown owner _ _ => some owner
  | .typeParameterUndeclared owner _ _ => some owner

theorem Holds.not_grounded {p : Program} {f : IntegrityFault} {owner : Owner} (h : f.Holds p)
    (ho : f.owner? = some owner) : ¬ owner.Grounded p := by
  intro hg
  cases f with
  | duplicateIds kind ids => cases ho
  | localMethodUnknown l m =>
    cases ho
    obtain ⟨d, hd, hid⟩ := hg.method m h.1
    exact h.2 d hd hid
  | enclosingMethodUnknown c m =>
    cases ho
    obtain ⟨d, hd, hid⟩ := hg.method m h.1
    exact h.2 d hd hid
  | localUnknown o id =>
    cases ho
    obtain ⟨⟨note, hin⟩, hnone⟩ := h
    obtain ⟨l, hl, hid⟩ := hg.locals note id hin
    exact hnone l hl hid
  | parameterMethodUnknown o m =>
    cases ho
    obtain ⟨⟨note, k, hin⟩, hnone⟩ := h
    obtain ⟨d, hd, hid, _⟩ := hg.parameters note m k hin
    exact hnone d hd hid
  | parameterUndeclared o k m n =>
    cases ho
    obtain ⟨⟨note, hin⟩, _, hall⟩ := h
    obtain ⟨d, hd, hid, hk⟩ := hg.parameters note m k hin
    have hle := hall d hd hid
    omega
  | typeParameterMethodUnknown o name m =>
    cases ho
    obtain ⟨⟨k, hin⟩, hnone⟩ := h
    obtain ⟨d, hd, hid, _⟩ := hg.typeParameters _ hin rfl
    exact hnone d hd hid
  | typeParameterUndeclared o k m =>
    cases ho
    obtain ⟨⟨name, hin⟩, _, hall⟩ := h
    obtain ⟨d, hd, hid, hk⟩ := hg.typeParameters _ hin rfl
    have hle := hall d hd hid
    dsimp only at hk
    omega

theorem display_prefix_message {f : IntegrityFault} {owner : Owner} (h : f.owner? = some owner) :
    owner.display.toList ++ [' '] <+: f.message.toList := by
  cases f <;> cases h <;> simp [message, Owner.display, String.append_assoc]

end IntegrityFault

section Found
variable {p : Program} {f : IntegrityFault}

theorem mem_repeatedIds {ids : List String} {id : String} : id ∈ repeatedIds ids ↔ 1 < ids.count id := by
  unfold repeatedIds sortTexts
  rw [(perm_sortBy _ _).mem_iff, List.mem_filter, List.mem_eraseDups, decide_eq_true_eq]
  constructor
  · exact fun h => h.2
  · intro h
    exact ⟨List.count_pos_iff.mp (by omega), h⟩

theorem holds_of_duplicateFault? (kind : EntryKind) (h : duplicateFault? kind (kind.ids p) = some f) :
    f.Holds p := by
  unfold duplicateFault? at h
  split at h
  · cases h
  · next first more hids =>
    cases h
    refine ⟨by simp, fun id => ?_⟩
    rw [← hids, mem_repeatedIds]

section Distinct
variable (hp : p.DistinctIds)
include hp

theorem undeclared_of_method? {id : String} (h : p.method? id = none) : ∀ d ∈ p.methods, d.id ≠ id := by
  intro d hd hid
  rw [hp.method?_eq_some.mpr ⟨hd, hid⟩] at h
  cases h

theorem eq_of_method? {id : String} {m d : Method} (h : p.method? id = some m) (hd : d ∈ p.methods)
    (hid : d.id = id) : d = m := by
  rw [hp.method?_eq_some.mpr ⟨hd, hid⟩] at h
  exact Option.some.inj h

theorem holds_of_localFault? {l : LocalVariable} (hl : l ∈ p.locals) (h : localFault? p l = some f) :
    f.Holds p := by
  unfold localFault? at h
  split at h
  · cases h
  · next hnone =>
    cases h
    exact ⟨.localVariable hl, undeclared_of_method? hp (by simpa using hnone)⟩

theorem holds_of_enclosingFault? {c : CallSite} (hc : c ∈ p.callSites)
    (h : enclosingFault? p c = some f) : f.Holds p := by
  unfold enclosingFault? at h
  split at h
  · cases h
  · next m hm =>
    split at h
    · cases h
    · next hnone =>
      cases h
      exact ⟨.callSite hc hm, undeclared_of_method? hp (by simpa using hnone)⟩

theorem holds_of_expressionFault? {owner : Owner} {e : Expression} (he : StandsIn p owner e)
    (h : expressionFault? p (owner, e) = some f) : f.Holds p := by
  cases e with
  | localRef note id =>
    dsimp only [expressionFault?] at h
    split at h
    · cases h
    · next hnone =>
      cases h
      refine ⟨⟨note, he⟩, fun l hl hid => ?_⟩
      rw [hp.local?_eq_some.mpr ⟨hl, hid⟩] at hnone
      exact hnone rfl
  | parameterRef note m k =>
    dsimp only [expressionFault?] at h
    split at h
    · next hnone =>
      cases h
      exact ⟨⟨note, k, he⟩, undeclared_of_method? hp hnone⟩
    · next d hd =>
      split at h
      · cases h
      · next hk =>
        cases h
        obtain ⟨hmem, hid⟩ := hp.method?_eq_some.mp hd
        refine ⟨⟨note, he⟩, ⟨d, hmem, hid, rfl⟩, fun d' hd' hid' => ?_⟩
        rw [eq_of_method? hp hd hd' hid']
        omega
  | typeOf note t => cases h
  | getType note r => cases h
  | untraced note kind => cases h

theorem holds_of_typeFault? {owner : Owner} {t : TypeSymbol} (ht : Mentions p owner t)
    (h : typeFault? p (owner, t) = some f) : f.Holds p := by
  cases t with
  | named n a ts => cases h
  | parameter t =>
    obtain ⟨name, m, kind, k⟩ := t
    cases kind with
    | type => cases h
    | method =>
      dsimp only [typeFault?] at h
      split at h
      · next hnone =>
        cases h
        exact ⟨⟨k, ht⟩, undeclared_of_method? hp hnone⟩
      · next d hd =>
        split at h
        · cases h
        · next hk =>
          cases h
          obtain ⟨hmem, hid⟩ := hp.method?_eq_some.mp hd
          refine ⟨⟨name, ht⟩, ⟨d, hmem, hid⟩, fun d' hd' hid' => ?_⟩
          rw [eq_of_method? hp hd hd' hid']
          omega

end Distinct

/-- The identifiers are checked first, so that the later checks look up the declaration a reference
means. -/
theorem holds_of_integrityFault? (h : integrityFault? p = some f) : f.Holds p := by
  unfold integrityFault? at h
  simp only [Option.orElse_eq_some] at h
  rcases h with h | ⟨hm, h | ⟨hl, h | ⟨hc, h⟩⟩⟩
  · exact holds_of_duplicateFault? .method h
  · exact holds_of_duplicateFault? .localVariable h
  · exact holds_of_duplicateFault? .callSite h
  · have hp : p.DistinctIds := ⟨duplicateFault?_eq_none.mp hm, duplicateFault?_eq_none.mp hl,
      duplicateFault?_eq_none.mp hc⟩
    rcases h with h | ⟨_, h | ⟨_, h | ⟨_, h⟩⟩⟩
    · obtain ⟨l, hl, hf⟩ := List.exists_of_findSome?_eq_some h
      exact holds_of_localFault? hp hl hf
    · obtain ⟨c, hc, hf⟩ := List.exists_of_findSome?_eq_some h
      exact holds_of_enclosingFault? hp hc hf
    · obtain ⟨⟨owner, e⟩, he, hf⟩ := List.exists_of_findSome?_eq_some h
      exact holds_of_expressionFault? hp (mem_ownedExpressions_iff.mp he) hf
    · obtain ⟨⟨owner, t⟩, ht, hf⟩ := List.exists_of_findSome?_eq_some h
      exact holds_of_typeFault? hp (mem_ownedTypes_iff.mp ht) hf

end Found

/-! ## Documents -/

/-- A message names what is at fault: identifiers that are repeated, or a local or a call that
refers to something that is not declared. -/
def NamesCulprit (p : Program) (message : String) : Prop :=
  (∃ (kind : EntryKind) (ids : List String),
    message = "duplicate " ++ kind.words ++ " id(s): " ++ ", ".intercalate ids ∧ ids ≠ [] ∧
      ∀ id ∈ ids, 1 < (kind.ids p).count id) ∨
    ∃ owner : Owner, owner.display.toList ++ [' '] <+: message.toList ∧ ¬ owner.Grounded p

theorem IntegrityFault.Holds.namesCulprit {p : Program} {f : IntegrityFault} (h : f.Holds p) :
    NamesCulprit p f.message := by
  cases ho : f.owner? with
  | none =>
    cases f with
    | duplicateIds kind ids =>
      exact Or.inl ⟨kind, ids, rfl, h.1, fun id hid => (h.2 id).mp hid⟩
    | _ => cases ho
  | some owner => exact Or.inr ⟨owner, display_prefix_message ho, h.not_grounded ho⟩

section Documents
variable {fields : Document.Fields} {p : Program}

theorem shape_eq_ok : shape fields = .ok p ↔ checkProgram fields = .valid p := by
  unfold shape
  cases checkProgram fields <;> simp

theorem parse_eq_error (hshape : shape fields = .ok p) {fault : FactsFault} :
    parse fields = .error fault ↔ ∃ f, fault = .broken f ∧ integrityFault? p = some f := by
  unfold parse
  rw [hshape]
  dsimp only [bind, Except.bind]
  split
  · next hnone => simp [hnone]
  · next f hf => simp [hf, eq_comm]

/-- Only an ordinal can be too long to be written, and one that is not declared is not negative. -/
theorem IntegrityFault.Holds.long_of_not_writable {f : IntegrityFault} (hf : f.Holds p)
    (h : f.isWritable = false) :
    ∃ (owner : Owner) (k : ℕ) (m : String), Text.isLong k = true ∧
      ((∃ n, f = .parameterUndeclared owner k m n) ∨ f = .typeParameterUndeclared owner k m) := by
  cases f with
  | parameterUndeclared owner k m n =>
    obtain ⟨_, ⟨d, hd, hid, _⟩, hall⟩ := hf
    have hle := hall d hd hid
    obtain ⟨k, rfl⟩ := Int.eq_ofNat_of_zero_le (show 0 ≤ k by omega)
    exact ⟨owner, k, m, by simpa [isWritable] using h, Or.inl ⟨n, rfl⟩⟩
  | typeParameterUndeclared owner k m =>
    obtain ⟨_, ⟨d, hd, hid⟩, hall⟩ := hf
    have hle := hall d hd hid
    obtain ⟨k, rfl⟩ := Int.eq_ofNat_of_zero_le (show 0 ≤ k by omega)
    exact ⟨owner, k, m, by simpa [isWritable] using h, Or.inr rfl⟩
  | _ => cases h

end Documents

/-- A document of the right shape is accepted exactly if the program it describes is well-formed. If it
is not, the message names a declaration that is at fault, unless the fault is an ordinal that is too
long to be written. -/
theorem parse_accepts_well_formed (fields : Document.Fields) (p : Program)
    (hshape : shape fields = .ok p) :
    (parse fields = .ok p ↔ WellFormed p) ∧
      ∀ e, (parse fields).mapError LoadFault.ofFacts = .error e → ∃ f : IntegrityFault, f.Holds p ∧
        ((f.isWritable = true ∧ e = .facts (.broken f) ∧ NamesCulprit p e.message) ∨
          (e = .unwritable ∧ ∃ (owner : Owner) (k : ℕ) (m : String), Text.isLong k = true ∧
            ((∃ n, f = .parameterUndeclared owner k m n) ∨ f = .typeParameterUndeclared owner k m))) := by
  constructor
  · rw [parse_eq_ok, wellFormed_iff_sound]
    exact and_iff_right (shape_eq_ok.mp hshape)
  · intro e he
    cases hparse : parse fields with
    | ok q =>
      rw [hparse] at he
      cases he
    | error fault =>
      obtain ⟨f, rfl, hf⟩ := (parse_eq_error hshape).mp hparse
      have hholds := holds_of_integrityFault? hf
      have hraised : LoadFault.ofFacts (.broken f) = e := by
        rw [hparse] at he
        exact Except.error.inj he
      refine ⟨f, hholds, ?_⟩
      cases hw : f.isWritable with
      | true =>
        have hfacts : e = .facts (.broken f) := by
          rw [← hraised]
          simp [LoadFault.ofFacts, hw]
        exact Or.inl ⟨rfl, hfacts, hfacts ▸ hholds.namesCulprit⟩
      | false =>
        refine Or.inr ⟨?_, hholds.long_of_not_writable hw⟩
        rw [← hraised]
        simp [LoadFault.ofFacts, hw]

/-! ## One call

A call with one argument beside a method without parameters. -/

namespace OneCall

def fields (argument : Document) : Document.Fields :=
  [("schema_version", .int 1),
    ("methods", .list [.object [("id", .text "Run"), ("declaring_type", .text "App"), ("name", .text "Run")]]),
    ("call_sites", .list [.object [("id", .text "create"),
      ("location", .object [("path", .text "App.cs"), ("line", .int 1)]),
      ("target", .object [("method_id", .text "CreateInstance"),
        ("declaring_type", .text "System.Activator"), ("name", .text "CreateInstance")]),
      ("arguments", .list [argument])]])]

def call (argument : Expression) : CallSite where
  id := "create"
  location := ⟨"App.cs", 1, 0⟩
  target := ⟨"CreateInstance", "System.Activator", "CreateInstance"⟩
  arguments := [argument]

def program (argument : Expression) : Program where
  methods := [{ id := "Run", declaringType := "App", name := "Run" }]
  callSites := [call argument]

/-- The type of the type of a local that is not declared. -/
def ghost : Expression := .getType {} (.getType {} (.localRef {} "ghost"))

def ghostDocument : Document :=
  .object [("kind", .text "get_type"), ("receiver", .object [("kind", .text "get_type"),
    ("receiver", .object [("kind", .text "local"), ("local_id", .text "ghost")])])]

def parameterDocument (k : ℕ) : Document :=
  .object [("kind", .text "parameter"), ("method_id", .text "Run"), ("ordinal", .int k)]

theorem shape_parameter (k : ℕ) :
    shape (fields (parameterDocument k)) = .ok (program (.parameterRef {} "Run" k)) := by rfl

theorem parse_parameter (k : ℕ) : parse (fields (parameterDocument k)) =
    .error (.broken (.parameterUndeclared (.callSite "create") k "Run" 0)) := by rfl

theorem not_wellFormed_parameter (k : ℕ) : ¬ WellFormed (program (.parameterRef {} "Run" k)) := by
  intro h
  have hin : StandsIn (program (.parameterRef {} "Run" k)) (.callSite "create") (.parameterRef {} "Run" k) :=
    .argument (c := call _) List.mem_cons_self List.mem_cons_self
  obtain ⟨d, hd, _, hk⟩ := (h.grounded _).parameters _ _ _ hin
  obtain rfl := List.mem_singleton.mp hd
  exact absurd (Int.ofNat_lt.mp hk) (Nat.not_lt_zero k)

end OneCall

open OneCall in
theorem parse_refuses_ghost :
    shape (fields ghostDocument) = .ok (program ghost) ∧ ¬ WellFormed (program ghost) ∧
      ∃ f : IntegrityFault, f.Holds (program ghost) ∧
        (parse (fields ghostDocument)).mapError LoadFault.ofFacts = .error (.facts (.broken f)) ∧
        NamesCulprit (program ghost) f.message := by
  have hshape : shape (fields ghostDocument) = .ok (program ghost) := by rfl
  have hparse : parse (fields ghostDocument) =
      .error (.broken (.localUnknown (.callSite "create") "ghost")) := by rfl
  obtain ⟨hiff, herror⟩ := parse_accepts_well_formed _ _ hshape
  refine ⟨hshape, ?_, ?_⟩
  · intro hw
    have hok := hiff.mpr hw
    rw [hparse] at hok
    cases hok
  · obtain ⟨f, hholds, ⟨_, he, hnames⟩ | ⟨he, _⟩⟩ := herror _ (congrArg _ hparse)
    · rw [he] at hnames
      exact ⟨f, hholds, (congrArg _ hparse).trans (congrArg _ he), hnames⟩
    · cases he

section FarOrdinals

theorem isLong_of_le {k : ℕ} (h : Nat.pow 10 Text.digitLimit ≤ k) : Text.isLong k = true := by
  unfold Text.isLong
  rw [Int.natAbs_natCast]
  exact decide_eq_true h

theorem not_namesCulprit_longInteger (p : Program) : ¬ NamesCulprit p Text.longIntegerMessage := by
  have hhead : Text.longIntegerMessage.toList.head? = some 'E' := by
    unfold Text.longIntegerMessage
    rw [String.append_assoc, String.toList_append]
    rfl
  rintro (⟨kind, ids, hmessage, _⟩ | ⟨owner, ⟨rest, hmessage⟩, _⟩)
  · rw [hmessage] at hhead
    simp at hhead
  · rw [← hmessage] at hhead
    cases owner <;> simp [Owner.display] at hhead

end FarOrdinals

open OneCall in
theorem parse_far_ordinal_names_nothing :
    ∃ p, shape (fields (parameterDocument (Nat.pow 10 Text.digitLimit))) = .ok p ∧ ¬ WellFormed p ∧
      ∃ e, (parse (fields (parameterDocument (Nat.pow 10 Text.digitLimit)))).mapError
          LoadFault.ofFacts = .error e ∧
        (∀ fault, e ≠ .facts fault) ∧ ¬ NamesCulprit p e.message := by
  have hwritable : ∀ k : ℕ, Text.isLong k = true →
      (parse (fields (parameterDocument k))).mapError LoadFault.ofFacts = .error .unwritable := by
    intro k hk
    rw [parse_parameter]
    simp [Except.mapError, LoadFault.ofFacts, IntegrityFault.isWritable, hk]
  refine ⟨_, shape_parameter _, not_wellFormed_parameter _, .unwritable,
    hwritable _ (isLong_of_le (Nat.le_refl _)), ?_, not_namesCulprit_longInteger _⟩
  intro fault h
  cases h

end TypeOrigins.Facts
