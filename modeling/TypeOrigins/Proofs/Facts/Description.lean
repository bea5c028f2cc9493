import TypeOrigins.Facts.Shape
import TypeOrigins.Proofs.Document.Check

/-! # Documents that describe a program

When a document says what a program is: each part of the program has its fields, in any order. A
field whose value is the default may be left out, and where a field has two names either will do.
The shape check reads such a document as the program it describes, if positions and ordinals are not
negative and no type or expression is nested deeper than the limit. -/

namespace TypeOrigins
set_option autoImplicit false

open Checked

/-! ## Fields -/

namespace Document

def IsText (s : String) (d : Document) : Prop := d = .text s

def IsInt (n : Int) (d : Document) : Prop := d = .int n

def IsObject (P : Fields → Prop) (d : Document) : Prop := ∃ fields, d = .object fields ∧ P fields

/-- A list with one item for each value, in the same order. -/
def IsList {α : Type} (P : α → Document → Prop) (as : List α) (d : Document) : Prop :=
  ∃ ds, d = .list ds ∧ List.Forall₂ P as ds

def IsNullable {α : Type} (P : α → Document → Prop) : Option α → Document → Prop
  | none => fun d => d = .null
  | some a => P a

namespace Fields
variable (fields : Fields)

def Holds (name : String) (P : Document → Prop) : Prop := ∃ d, fields.get? name = some d ∧ P d

/-- The field may be left out if `isDefault`. -/
def HoldsOr (name : String) (isDefault : Prop) (P : Document → Prop) : Prop :=
  (fields.get? name = none ∧ isDefault) ∨ fields.Holds name P

/-- The field goes by one of its two names. -/
def HoldsEither (first second : String) (P : Document → Prop) : Prop :=
  (fields.get? second = none ∧ fields.Holds first P) ∨
    (fields.get? first = none ∧ fields.Holds second P)

def HoldsEitherOr (first second : String) (isDefault : Prop) (P : Document → Prop) : Prop :=
  (fields.get? first = none ∧ fields.get? second = none ∧ isDefault) ∨
    fields.HoldsEither first second P

/-- No field goes by another name. -/
def Only (names : List String) : Prop := ∀ f ∈ fields, ∃ s ∈ names, f.1 = .name s

variable {fields} {α : Type} {name first second : String} {P : Document → Prop}
  {check : Document → Checked α} {a default : α}

theorem get?_of_key {f : Key × Document} (hf : f ∈ fields) (hkey : f.1 = .name name) :
    ∃ d, fields.get? name = some d := by
  have hany : (fields.find? fun g => g.1 == .name name).isSome := by
    rw [List.find?_isSome]
    exact ⟨f, hf, by simp [hkey]⟩
  obtain ⟨g, hg⟩ := Option.isSome_iff_exists.mp hany
  exact ⟨g.2, by rw [Fields.get?, hg]; rfl⟩

theorem Only.mono {names more : List String} (h : fields.Only names) (hsub : names ⊆ more) :
    fields.Only more := by
  intro f hf
  obtain ⟨s, hs, hkey⟩ := h f hf
  exact ⟨s, hsub hs, hkey⟩

theorem Only.without {names rest : List String} (h : fields.Only names)
    (habsent : fields.get? name = none) (hrest : ∀ s ∈ names, s = name ∨ s ∈ rest) :
    fields.Only rest := by
  intro f hf
  obtain ⟨s, hs, hkey⟩ := h f hf
  rcases hrest s hs with rfl | hs
  · obtain ⟨d, hd⟩ := get?_of_key hf hkey
    rw [habsent] at hd
    cases hd
  · exact ⟨s, hs, hkey⟩

theorem Only.noExtras {names : List String} (h : fields.Only names) :
    noExtras fields names = .valid () := by
  have hnone : fields.filterMap (fun f => strayKey? names f.1) = [] := by
    rw [List.filterMap_eq_nil_iff]
    intro f hf
    obtain ⟨s, hs, hkey⟩ := h f hf
    simp [hkey, strayKey?, hs]
  unfold TypeOrigins.noExtras
  rw [hnone]

theorem Holds.requiredField (h : fields.Holds name P) (hcheck : ∀ d, P d → check d = .valid a) :
    requiredField fields name check = .valid a := by
  obtain ⟨d, hget, hd⟩ := h
  unfold TypeOrigins.requiredField
  rw [hget]
  exact under_eq_valid.mpr (hcheck d hd)

theorem HoldsOr.optionalField (h : fields.HoldsOr name (a = default) P)
    (hcheck : ∀ d, P d → check d = .valid a) :
    optionalField fields name default check = .valid a := by
  unfold TypeOrigins.optionalField
  rcases h with ⟨hnone, rfl⟩ | ⟨d, hget, hd⟩
  · rw [hnone]
  · rw [hget]
    exact under_eq_valid.mpr (hcheck d hd)

/-- The check settles on the name that is used, and knows no other. -/
theorem HoldsEither.fieldName (h : fields.HoldsEither first second P) :
    fields.Holds (fieldName fields first second) P ∧
      ∀ names, fields.Only (first :: second :: names) →
        fields.Only (TypeOrigins.fieldName fields first second :: names) := by
  unfold TypeOrigins.fieldName
  rcases h with ⟨hnone, d, hget, hd⟩ | ⟨hnone, d, hget, hd⟩
  · rw [if_pos (by rw [hget]; rfl)]
    refine ⟨⟨d, hget, hd⟩, ?_⟩
    intro names honly
    exact honly.without hnone (by grind)
  · rw [if_neg (by simp [hnone]), if_pos (by rw [hget]; rfl)]
    refine ⟨⟨d, hget, hd⟩, ?_⟩
    intro names honly
    exact honly.without hnone (by grind)

theorem HoldsEitherOr.fieldName {isDefault : Prop}
    (h : fields.HoldsEitherOr first second isDefault P) :
    fields.HoldsOr (fieldName fields first second) isDefault P ∧
      ∀ names, fields.Only (first :: second :: names) →
        fields.Only (TypeOrigins.fieldName fields first second :: names) := by
  rcases h with ⟨hfirst, hsecond, hdefault⟩ | h
  · have hname : TypeOrigins.fieldName fields first second = first := by
      unfold TypeOrigins.fieldName
      rw [if_neg (by simp [hfirst]), if_neg (by simp [hsecond])]
    rw [hname]
    refine ⟨Or.inl ⟨hfirst, hdefault⟩, ?_⟩
    intro names honly
    exact honly.without hsecond (by grind)
  · exact ⟨Or.inr h.fieldName.1, h.fieldName.2⟩

theorem Holds.checkTagged {tag : String} {tags : List String}
    {body : String → Fields → Checked α} (h : fields.Holds "kind" (IsText tag))
    (htag : tag ∈ tags) (hbody : body tag fields = .valid a) :
    checkTagged tags body (.object fields) = .valid a := by
  obtain ⟨d, hget, rfl⟩ := h
  unfold TypeOrigins.checkTagged
  dsimp only
  rw [hget]
  dsimp only
  rw [if_pos (List.contains_iff_mem.mpr htag)]
  exact under_eq_valid.mpr hbody

end Fields

/-! ## Values -/

section Values
variable {α : Type} {P : α → Document → Prop} {check : Document → Checked α} {d : Document}

theorem IsText.checkText {s : String} (h : IsText s d) : checkText d = .valid s := by
  subst h
  rfl

theorem IsInt.checkIntFrom {n : Int} (hn : 0 ≤ n) (h : IsInt n d) : checkIntFrom 0 d = .valid n := by
  subst h
  simp [TypeOrigins.checkIntFrom, checkAnyInt, andThen, Int.not_lt.mpr hn]

theorem IsList.checkList {as : List α} (h : IsList P as d)
    (hcheck : ∀ a ∈ as, ∀ d, P a d → check d = .valid a) : checkList check d = .valid as := by
  obtain ⟨ds, rfl, hall⟩ := h
  apply items_eq_valid.mpr
  induction hall with
  | nil => exact .nil
  | @cons a d as ds had _ ih =>
    exact .cons (hcheck a List.mem_cons_self d had)
      (ih fun b hb => hcheck b (List.mem_cons_of_mem a hb))

/-- A value that passes a check is not null, so the two cases of a nullable field stay apart. -/
theorem IsNullable.checkNullable {o : Option α} (h : IsNullable P o d)
    (hnull : ∀ a, check .null ≠ .valid a) (hcheck : ∀ a, o = some a → ∀ d, P a d → check d = .valid a) :
    checkNullable check d = .valid o := by
  cases o with
  | none =>
    have hd : d = .null := h
    rw [hd, TypeOrigins.checkNullable]
  | some a =>
    have hvalid : check d = .valid a := hcheck a rfl d h
    unfold TypeOrigins.checkNullable
    split
    · exact absurd hvalid (hnull a)
    · exact map_eq_valid.mpr ⟨a, hvalid, rfl⟩

end Values

end Document

/-! ## Nesting -/

mutual

/-- How many tagged objects stand around the innermost part of a type, itself included. -/
def TypeSymbol.nesting : TypeSymbol → Nat
  | .named _ _ arguments => nestingAll arguments + 1
  | .parameter _ => 1

def TypeSymbol.nestingAll : List TypeSymbol → Nat
  | [] => 0
  | t :: rest => max t.nesting (nestingAll rest)

end

def Annotation.nesting (note : Annotation) : Nat := (note.staticType.map TypeSymbol.nesting).getD 0

/-- Types and receivers inside an expression are on one chain with it. -/
def Expression.nesting : Expression → Nat
  | .typeOf note operand => max note.nesting operand.nesting + 1
  | .getType note receiver => max note.nesting receiver.nesting + 1
  | .localRef note _ => note.nesting + 1
  | .parameterRef note _ _ => note.nesting + 1
  | .untraced note _ => note.nesting + 1

/-! ## Ordinals -/

mutual

/-- The ordinals of all type parameters in a type. -/
def TypeSymbol.allOrdinals : TypeSymbol → List Int
  | .named _ _ arguments => allOrdinalsOf arguments
  | .parameter p => [p.ordinal]

def TypeSymbol.allOrdinalsOf : List TypeSymbol → List Int
  | [] => []
  | t :: rest => t.allOrdinals ++ allOrdinalsOf rest

end

def Annotation.allOrdinals (note : Annotation) : List Int :=
  (note.staticType.map TypeSymbol.allOrdinals).getD []

/-- The ordinals of all parameters and type parameters in an expression. -/
def Expression.allOrdinals : Expression → List Int
  | .typeOf note operand => note.allOrdinals ++ operand.allOrdinals
  | .getType note receiver => note.allOrdinals ++ receiver.allOrdinals
  | .localRef note _ => note.allOrdinals
  | .parameterRef note _ ordinal => ordinal :: note.allOrdinals
  | .untraced note _ => note.allOrdinals

/-- A type that can be written with so many tagged objects around one another. -/
def TypeSymbol.Fits (t : TypeSymbol) (room : Nat) : Prop :=
  t.nesting ≤ room ∧ ∀ k ∈ t.allOrdinals, 0 ≤ k

instance (t : TypeSymbol) (room : Nat) : Decidable (t.Fits room) := inferInstanceAs (Decidable (_ ∧ _))

def Expression.Fits (e : Expression) (room : Nat) : Prop :=
  e.nesting ≤ room ∧ ∀ k ∈ e.allOrdinals, 0 ≤ k

instance (e : Expression) (room : Nat) : Decidable (e.Fits room) := inferInstanceAs (Decidable (_ ∧ _))

/-- A position whose numbers count from the start of something. -/
def Location.IsNatural (l : Location) : Prop := 0 ≤ l.line ∧ 0 ≤ l.column

instance (l : Location) : Decidable l.IsNatural := inferInstanceAs (Decidable (_ ∧ _))

namespace Facts

open Document Document.Fields

/-! ## Types -/

structure DescribesTypeParameter (p : TypeParameter) (fields : Fields) : Prop where
  tag : fields.Holds "kind" (IsText "type_parameter")
  name : fields.Holds "name" (IsText p.name)
  ownerId : fields.Holds "owner_id" (IsText p.ownerId)
  ownerKind : fields.HoldsOr "owner_kind" (p.ownerKind = .method) (IsText p.ownerKind.word)
  ordinal : fields.Holds "ordinal" (IsInt p.ordinal)
  only : fields.Only ["kind", "name", "owner_id", "owner_kind", "ordinal"]

mutual

def DescribesType : TypeSymbol → Document → Prop
  | .named fullName assembly arguments => IsObject fun fields =>
      fields.Holds "kind" (IsText "named") ∧
      fields.Holds "full_name" (IsText fullName) ∧
      fields.Holds "assembly" (IsText assembly) ∧
      fields.HoldsOr "type_arguments" (arguments = [])
        (fun d => ∃ ds, d = .list ds ∧ DescribesTypes arguments ds) ∧
      fields.Only ["kind", "full_name", "assembly", "type_arguments"]
  | .parameter p => IsObject (DescribesTypeParameter p)

def DescribesTypes : List TypeSymbol → List Document → Prop
  | [] => fun ds => ds = []
  | t :: rest => fun ds => ∃ d more, ds = d :: more ∧ DescribesType t d ∧ DescribesTypes rest more

end

theorem DescribesTypeParameter.checkTypeParameter {p : TypeParameter} {fields : Fields}
    (h : DescribesTypeParameter p fields) (hp : 0 ≤ p.ordinal) :
    checkTypeParameter fields = .valid p := by
  have howner : ∀ d, IsText p.ownerKind.word d → checkOwnerKind d = .valid p.ownerKind := by
    rintro d rfl
    cases p.ownerKind <;> rfl
  unfold Facts.checkTypeParameter
  rw [h.name.requiredField fun _ => IsText.checkText, h.ownerId.requiredField fun _ => IsText.checkText,
    h.ownerKind.optionalField howner, h.ordinal.requiredField fun _ => IsInt.checkIntFrom hp,
    h.only.noExtras]
  rfl

mutual

/-- The induction is on the type; each level of nesting takes one unit of the room. -/
theorem checkType_of_describes : (t : TypeSymbol) → ∀ {d : Document} {room : Nat},
    DescribesType t d → t.nesting ≤ room → (∀ k ∈ t.allOrdinals, 0 ≤ k) → checkType room d = .valid t
  | .named fullName assembly arguments, _, 0, _, hroom, _ => by
    simp [TypeSymbol.nesting] at hroom
  | .named fullName assembly arguments, _, room + 1, h, hroom, hk => by
    obtain ⟨fields, rfl, htag, hname, hassembly, harguments, honly⟩ := h
    have hlist : ∀ d, (∃ ds, d = .list ds ∧ DescribesTypes arguments ds) →
        checkList (checkType room) d = .valid arguments := by
      rintro d ⟨ds, rfl, hds⟩
      rw [TypeSymbol.nesting] at hroom
      exact items_eq_valid.mpr (checkTypes_of_describes arguments hds (by omega) hk)
    rw [checkType]
    apply htag.checkTagged (by simp)
    rw [if_pos rfl, checkNamedType, hname.requiredField fun _ => IsText.checkText,
      hassembly.requiredField fun _ => IsText.checkText, harguments.optionalField hlist, honly.noExtras]
    rfl
  | .parameter p, _, 0, _, hroom, _ => by
    simp [TypeSymbol.nesting] at hroom
  | .parameter p, _, room + 1, h, _, hk => by
    obtain ⟨fields, rfl, h⟩ := h
    rw [checkType]
    apply h.tag.checkTagged (by simp)
    rw [if_neg (by decide), h.checkTypeParameter (hk p.ordinal (by simp [TypeSymbol.allOrdinals]))]
    rfl

theorem checkTypes_of_describes : (ts : List TypeSymbol) → ∀ {ds : List Document} {room : Nat},
    DescribesTypes ts ds → TypeSymbol.nestingAll ts ≤ room →
      (∀ k ∈ TypeSymbol.allOrdinalsOf ts, 0 ≤ k) →
        List.Forall₂ (fun d t => checkType room d = .valid t) ds ts
  | [], _, _, h, _, _ => by
    have hnil : _ = [] := h
    rw [hnil]
    exact .nil
  | t :: rest, _, _, h, hroom, hk => by
    obtain ⟨d, more, rfl, ht, hrest⟩ := h
    rw [TypeSymbol.nestingAll] at hroom
    rw [TypeSymbol.allOrdinalsOf, List.forall_mem_append] at hk
    exact .cons (checkType_of_describes t ht (by omega) hk.1)
      (checkTypes_of_describes rest hrest (by omega) hk.2)

end

theorem checkType_null (room : Nat) (t : TypeSymbol) : checkType room .null ≠ .valid t := by
  cases room <;> simp [checkType, checkTagged, issue]

/-! ## Expressions -/

structure DescribesAnnotation (note : Annotation) (fields : Fields) : Prop where
  text : fields.HoldsOr "text" (note.text = "") (IsText note.text)
  staticType : fields.HoldsOr "static_type" (note.staticType = none)
    (IsNullable DescribesType note.staticType)

theorem DescribesAnnotation.checkAnnotation {note : Annotation} {fields : Fields} {room : Nat}
    (h : DescribesAnnotation note fields) (hroom : note.nesting ≤ room)
    (hk : ∀ k ∈ note.allOrdinals, 0 ≤ k) : checkAnnotation room fields = .valid note := by
  have hstatic : ∀ d, IsNullable DescribesType note.staticType d →
      checkNullable (checkType room) d = .valid note.staticType := by
    intro d hd
    apply hd.checkNullable (checkType_null room)
    intro t ht d hd
    apply checkType_of_describes t hd
    · simpa [ht, Annotation.nesting] using hroom
    · simpa [ht, Annotation.allOrdinals] using hk
  unfold Facts.checkAnnotation
  rw [h.text.optionalField fun _ => IsText.checkText, h.staticType.optionalField hstatic]
  rfl

/-- The tag and what all expressions have. -/
structure DescribesHead (tag : String) (note : Annotation) (fields : Fields) : Prop where
  tag : fields.Holds "kind" (IsText tag)
  note : DescribesAnnotation note fields

def DescribesExpression : Expression → Document → Prop
  | .typeOf note operand => IsObject fun fields =>
      DescribesHead "typeof" note fields ∧
      fields.HoldsEither "type" "operand" (DescribesType operand) ∧
      fields.Only ["type", "operand", "kind", "text", "static_type"]
  | .getType note receiver => IsObject fun fields =>
      DescribesHead "get_type" note fields ∧
      fields.Holds "receiver" (DescribesExpression receiver) ∧
      fields.Only ["kind", "text", "static_type", "receiver"]
  | .localRef note localId => IsObject fun fields =>
      DescribesHead "local" note fields ∧
      fields.Holds "local_id" (IsText localId) ∧
      fields.Only ["kind", "text", "static_type", "local_id"]
  | .parameterRef note methodId ordinal => IsObject fun fields =>
      DescribesHead "parameter" note fields ∧
      fields.Holds "method_id" (IsText methodId) ∧
      fields.Holds "ordinal" (IsInt ordinal) ∧
      fields.Only ["kind", "text", "static_type", "method_id", "ordinal"]
  | .untraced note kind => IsObject fun fields =>
      DescribesHead kind.word note fields ∧ fields.Only ["kind", "text", "static_type"]

/-- With room for the tag and the annotation, the fields of the tag are left to read. -/
theorem DescribesHead.checkExpression {tag : String} {note : Annotation} {fields : Fields} {room : Nat}
    {e : Expression} (h : DescribesHead tag note fields) (htag : tag ∈ expressionTags)
    (hroom : note.nesting < room) (hk : ∀ k ∈ note.allOrdinals, 0 ≤ k)
    (hfields : ∀ inner, room = inner + 1 → checkAnnotation inner fields = .valid note →
      checkExpressionFields inner (Facts.checkExpression inner) tag fields = .valid e) :
    Facts.checkExpression room (.object fields) = .valid e := by
  obtain ⟨inner, rfl⟩ : ∃ inner, room = inner + 1 := ⟨room - 1, by omega⟩
  rw [Facts.checkExpression]
  exact h.tag.checkTagged htag (hfields inner rfl (h.note.checkAnnotation (by omega) hk))

theorem untracedKind_word (kind : UntracedKind) : untracedKind kind.word = kind := by
  cases kind <;> decide

theorem word_mem_expressionTags (kind : UntracedKind) : kind.word ∈ expressionTags := by
  cases kind <;> decide

theorem checkExpression_of_describes (e : Expression) {d : Document} {room : Nat}
    (h : DescribesExpression e d) (he : e.Fits room) : checkExpression room d = .valid e := by
  obtain ⟨hroom, hk⟩ := he
  induction e generalizing d room with
  | typeOf note operand =>
    obtain ⟨fields, rfl, hhead, hoperand, honly⟩ := h
    obtain ⟨hholds, hknown⟩ := hoperand.fieldName
    rw [Expression.nesting] at hroom
    rw [Expression.allOrdinals, List.forall_mem_append] at hk
    refine hhead.checkExpression (by decide) (by omega) hk.1 ?_
    rintro room rfl hnote
    have htype : ∀ d, DescribesType operand d → checkType room d = .valid operand :=
      fun d hd => checkType_of_describes operand hd (by omega) hk.2
    have honly' : Only fields ["kind", "text", "static_type", fieldName fields "type" "operand"] :=
      (hknown _ honly).mono (by simp)
    unfold checkExpressionFields
    rw [if_pos rfl]
    dsimp only
    rw [hnote, hholds.requiredField htype, honly'.noExtras]
    rfl
  | getType note receiver ih =>
    obtain ⟨fields, rfl, hhead, hreceiver, honly⟩ := h
    rw [Expression.nesting] at hroom
    rw [Expression.allOrdinals, List.forall_mem_append] at hk
    refine hhead.checkExpression (by decide) (by omega) hk.1 ?_
    rintro room rfl hnote
    have hinner : ∀ d, DescribesExpression receiver d → checkExpression room d = .valid receiver :=
      fun d hd => ih hd (by omega) hk.2
    unfold checkExpressionFields
    rw [if_neg (by decide), if_pos rfl, hnote, hreceiver.requiredField hinner, honly.noExtras]
    rfl
  | localRef note localId =>
    obtain ⟨fields, rfl, hhead, hlocal, honly⟩ := h
    rw [Expression.nesting] at hroom
    rw [Expression.allOrdinals] at hk
    refine hhead.checkExpression (by decide) (by omega) hk ?_
    rintro room rfl hnote
    unfold checkExpressionFields
    rw [if_neg (by decide), if_neg (by decide), if_pos rfl, hnote,
      hlocal.requiredField fun _ => IsText.checkText, honly.noExtras]
    rfl
  | parameterRef note methodId ordinal =>
    obtain ⟨fields, rfl, hhead, hmethod, hordinal, honly⟩ := h
    rw [Expression.nesting] at hroom
    rw [Expression.allOrdinals, List.forall_mem_cons] at hk
    refine hhead.checkExpression (by decide) (by omega) hk.2 ?_
    rintro room rfl hnote
    unfold checkExpressionFields
    rw [if_neg (by decide), if_neg (by decide), if_neg (by decide), if_pos rfl, hnote,
      hmethod.requiredField fun _ => IsText.checkText, hordinal.requiredField fun _ => IsInt.checkIntFrom hk.1,
      honly.noExtras]
    rfl
  | untraced note kind =>
    obtain ⟨fields, rfl, hhead, honly⟩ := h
    rw [Expression.nesting] at hroom
    refine hhead.checkExpression (word_mem_expressionTags kind) (by omega) hk ?_
    rintro room rfl hnote
    have hword : kind.word ≠ "typeof" ∧ kind.word ≠ "get_type" ∧ kind.word ≠ "local" ∧
        kind.word ≠ "parameter" := by
      cases kind <;> decide
    unfold checkExpressionFields
    rw [if_neg hword.1, if_neg hword.2.1, if_neg hword.2.2.1, if_neg hword.2.2.2, hnote,
      honly.noExtras, untracedKind_word]
    rfl

theorem checkExpression_null (room : Nat) (e : Expression) : checkExpression room .null ≠ .valid e := by
  cases room <;> simp [checkExpression, checkTagged, issue]

/-! ## Declarations and calls -/

structure DescribesLocation (l : Location) (fields : Fields) : Prop where
  path : fields.Holds "path" (IsText l.path)
  line : fields.Holds "line" (IsInt l.line)
  column : fields.HoldsOr "column" (l.column = 0) (IsInt l.column)
  only : fields.Only ["path", "line", "column"]

structure DescribesName (name : String) (fields : Fields) : Prop where
  name : fields.Holds "name" (IsText name)
  only : fields.Only ["name"]

structure DescribesMethod (m : Method) (fields : Fields) : Prop where
  id : fields.Holds "id" (IsText m.id)
  declaringType : fields.Holds "declaring_type" (IsText m.declaringType)
  name : fields.Holds "name" (IsText m.name)
  parameters : fields.HoldsOr "parameters" (m.parameters = [])
    (IsList (fun s => IsObject (DescribesName s)) m.parameters)
  typeParameters : fields.HoldsOr "type_parameters" (m.typeParameters = [])
    (IsList (fun s => IsObject (DescribesName s)) m.typeParameters)
  location : fields.HoldsOr "location" (m.location = none)
    (IsNullable (fun l => IsObject (DescribesLocation l)) m.location)
  only : fields.Only ["id", "declaring_type", "name", "parameters", "type_parameters", "location"]

structure DescribesLocal (l : LocalVariable) (fields : Fields) : Prop where
  id : fields.Holds "id" (IsText l.id)
  name : fields.Holds "name" (IsText l.name)
  methodId : fields.Holds "method_id" (IsText l.methodId)
  initializer : fields.HoldsOr "initializer" (l.initializer = none)
    (IsNullable DescribesExpression l.initializer)
  assignments : fields.HoldsOr "assignments" (l.assignments = [])
    (IsList DescribesExpression l.assignments)
  only : fields.Only ["id", "name", "method_id", "initializer", "assignments"]

structure DescribesTarget (t : Target) (fields : Fields) : Prop where
  methodId : fields.Holds "method_id" (IsText t.methodId)
  declaringType : fields.Holds "declaring_type" (IsText t.declaringType)
  name : fields.Holds "name" (IsText t.name)
  only : fields.Only ["method_id", "declaring_type", "name"]

structure DescribesCallSite (c : CallSite) (fields : Fields) : Prop where
  id : fields.Holds "id" (IsText c.id)
  location : fields.Holds "location" (IsObject (DescribesLocation c.location))
  target : fields.Holds "target" (IsObject (DescribesTarget c.target))
  enclosingMethod : fields.HoldsOr "enclosing_method" (c.enclosingMethod = none)
    (IsNullable IsText c.enclosingMethod)
  typeArguments : fields.HoldsOr "type_arguments" (c.typeArguments = [])
    (IsList DescribesType c.typeArguments)
  arguments : fields.HoldsOr "arguments" (c.arguments = []) (IsList DescribesExpression c.arguments)
  only : fields.Only ["id", "location", "enclosing_method", "target", "type_arguments", "arguments"]

structure DescribesProgram (p : Program) (fields : Fields) : Prop where
  version : fields.Holds "schema_version" (IsInt 1)
  assembly : fields.HoldsOr "assembly" (p.assembly = "") (IsText p.assembly)
  methods : fields.HoldsOr "methods" (p.methods = [])
    (IsList (fun m => IsObject (DescribesMethod m)) p.methods)
  locals : fields.HoldsEitherOr "locals" "local_variables" (p.locals = [])
    (IsList (fun l => IsObject (DescribesLocal l)) p.locals)
  callSites : fields.HoldsOr "call_sites" (p.callSites = [])
    (IsList (fun c => IsObject (DescribesCallSite c)) p.callSites)
  only : fields.Only ["locals", "local_variables", "schema_version", "assembly", "methods", "call_sites"]

/-! ## What documents can express -/

/-- Positions and ordinals are not negative, and what is nested is nested within the limit. -/
structure Expressible (p : Program) : Prop where
  declared : ∀ m ∈ p.methods, ∀ l ∈ m.location, l.IsNatural
  initializers : ∀ l ∈ p.locals, ∀ e ∈ l.initializer, e.Fits nestingLimit
  assignments : ∀ l ∈ p.locals, ∀ e ∈ l.assignments, e.Fits nestingLimit
  placed : ∀ c ∈ p.callSites, c.location.IsNatural
  typeArguments : ∀ c ∈ p.callSites, ∀ t ∈ c.typeArguments, t.Fits nestingLimit
  arguments : ∀ c ∈ p.callSites, ∀ e ∈ c.arguments, e.Fits nestingLimit

section Parts
variable {fields : Fields}

theorem DescribesLocation.checkLocation {l : Location} (h : DescribesLocation l fields)
    (hl : l.IsNatural) : checkLocation (.object fields) = .valid l := by
  unfold Facts.checkLocation checkObject
  dsimp only
  rw [h.path.requiredField fun _ => IsText.checkText,
    h.line.requiredField fun _ => IsInt.checkIntFrom hl.1,
    h.column.optionalField fun _ => IsInt.checkIntFrom hl.2, h.only.noExtras]
  rfl

theorem checkParameter_of_describes {s : String} {d : Document} (h : IsObject (DescribesName s) d) :
    checkParameter d = .valid s := by
  obtain ⟨fields, rfl, h⟩ := h
  unfold checkParameter checkObject
  dsimp only
  rw [h.name.requiredField fun _ => IsText.checkText, h.only.noExtras]
  rfl

theorem DescribesMethod.checkMethod {m : Method} (h : DescribesMethod m fields)
    (hlocation : ∀ l ∈ m.location, l.IsNatural) : checkMethod (.object fields) = .valid m := by
  have hnames : ∀ names d, IsList (fun s => IsObject (DescribesName s)) names d →
      checkList checkParameter d = .valid names :=
    fun names d hd => hd.checkList fun s _ d hs => checkParameter_of_describes hs
  have hplace : ∀ d, IsNullable (fun l => IsObject (DescribesLocation l)) m.location d →
      checkNullable Facts.checkLocation d = .valid m.location := by
    intro d hd
    apply hd.checkNullable (fun l => by simp [Facts.checkLocation, checkObject, issue])
    rintro l hl d ⟨fields, rfl, hdescribes⟩
    exact hdescribes.checkLocation (hlocation l hl)
  unfold Facts.checkMethod checkObject
  dsimp only
  rw [h.id.requiredField fun _ => IsText.checkText,
    h.declaringType.requiredField fun _ => IsText.checkText,
    h.name.requiredField fun _ => IsText.checkText, h.parameters.optionalField (hnames _),
    h.typeParameters.optionalField (hnames _), h.location.optionalField hplace, h.only.noExtras]
  rfl

theorem checkExpressions_of_describe {es : List Expression} {d : Document}
    (h : IsList DescribesExpression es d) (hes : ∀ e ∈ es, e.Fits nestingLimit) :
    checkList (checkExpression nestingLimit) d = .valid es :=
  h.checkList fun e he _ hd => checkExpression_of_describes e hd (hes e he)

theorem DescribesLocal.checkLocal {l : LocalVariable} (h : DescribesLocal l fields)
    (hinitializer : ∀ e ∈ l.initializer, e.Fits nestingLimit)
    (hassignments : ∀ e ∈ l.assignments, e.Fits nestingLimit) :
    checkLocal (.object fields) = .valid l := by
  have hstart : ∀ d, IsNullable DescribesExpression l.initializer d →
      checkNullable (checkExpression nestingLimit) d = .valid l.initializer :=
    fun d hd => hd.checkNullable (checkExpression_null nestingLimit) fun e he d hd =>
      checkExpression_of_describes e hd (hinitializer e he)
  unfold Facts.checkLocal checkObject
  dsimp only
  rw [h.id.requiredField fun _ => IsText.checkText, h.name.requiredField fun _ => IsText.checkText,
    h.methodId.requiredField fun _ => IsText.checkText, h.initializer.optionalField hstart,
    h.assignments.optionalField fun _ hd => checkExpressions_of_describe hd hassignments,
    h.only.noExtras]
  rfl

theorem checkTarget_of_describes {t : Target} {d : Document} (h : IsObject (DescribesTarget t) d) :
    checkTarget d = .valid t := by
  obtain ⟨fields, rfl, h⟩ := h
  unfold checkTarget checkObject
  dsimp only
  rw [h.methodId.requiredField fun _ => IsText.checkText,
    h.declaringType.requiredField fun _ => IsText.checkText,
    h.name.requiredField fun _ => IsText.checkText, h.only.noExtras]
  rfl

theorem DescribesCallSite.checkCallSite {c : CallSite} (h : DescribesCallSite c fields)
    (hlocation : c.location.IsNatural)
    (htypes : ∀ t ∈ c.typeArguments, t.Fits nestingLimit)
    (harguments : ∀ e ∈ c.arguments, e.Fits nestingLimit) :
    checkCallSite (.object fields) = .valid c := by
  have hplace : ∀ d, IsObject (DescribesLocation c.location) d →
      Facts.checkLocation d = .valid c.location := by
    rintro d ⟨fields, rfl, hdescribes⟩
    exact hdescribes.checkLocation hlocation
  have henclosing : ∀ d, IsNullable IsText c.enclosingMethod d →
      checkNullable checkText d = .valid c.enclosingMethod :=
    fun d hd => hd.checkNullable (fun _ => by simp [checkText, issue]) fun _ _ _ => IsText.checkText
  have hlist : ∀ d, IsList DescribesType c.typeArguments d →
      checkList (checkType nestingLimit) d = .valid c.typeArguments :=
    fun d hd => hd.checkList fun t ht _ hd => checkType_of_describes t hd (htypes t ht).1 (htypes t ht).2
  unfold Facts.checkCallSite checkObject
  dsimp only
  rw [h.id.requiredField fun _ => IsText.checkText, h.location.requiredField hplace,
    h.target.requiredField fun _ => checkTarget_of_describes,
    h.enclosingMethod.optionalField henclosing, h.typeArguments.optionalField hlist,
    h.arguments.optionalField fun _ hd => checkExpressions_of_describe hd harguments,
    h.only.noExtras]
  rfl

end Parts

theorem DescribesProgram.checkProgram {p : Program} {fields : Fields} (h : DescribesProgram p fields)
    (hp : Expressible p) : checkProgram fields = .valid p := by
  have hmethods : ∀ d, IsList (fun m => IsObject (DescribesMethod m)) p.methods d →
      checkList checkMethod d = .valid p.methods := by
    intro d hd
    apply hd.checkList
    rintro m hm d ⟨fields, rfl, hdescribes⟩
    exact hdescribes.checkMethod (hp.declared m hm)
  have hlocals : ∀ d, IsList (fun l => IsObject (DescribesLocal l)) p.locals d →
      checkList checkLocal d = .valid p.locals := by
    intro d hd
    apply hd.checkList
    rintro l hl d ⟨fields, rfl, hdescribes⟩
    exact hdescribes.checkLocal (hp.initializers l hl) (hp.assignments l hl)
  have hsites : ∀ d, IsList (fun c => IsObject (DescribesCallSite c)) p.callSites d →
      checkList checkCallSite d = .valid p.callSites := by
    intro d hd
    apply hd.checkList
    rintro c hc d ⟨fields, rfl, hdescribes⟩
    exact hdescribes.checkCallSite (hp.placed c hc) (hp.typeArguments c hc) (hp.arguments c hc)
  have hversion : ∀ d, IsInt 1 d → checkVersion d = .valid () := by
    rintro d rfl
    rfl
  obtain ⟨hholds, hknown⟩ := h.locals.fieldName
  have honly : fields.Only ["schema_version", "assembly", "methods",
      fieldName fields "locals" "local_variables", "call_sites"] := (hknown _ h.only).mono (by simp)
  unfold Facts.checkProgram
  dsimp only
  rw [h.assembly.optionalField fun _ => IsText.checkText, h.methods.optionalField hmethods,
    hholds.optionalField hlocals, h.callSites.optionalField hsites,
    h.version.requiredField hversion, honly.noExtras]
  rfl

end Facts

end TypeOrigins
