import TypeOrigins.Proofs.Facts.Description
import TypeOrigins.Proofs.Facts.WellFormed

/-! # Writing programs as documents

A program is written as a facts document in one of four wordings, and each of them describes it. A
well-formed program is read back from every document that describes it, with nothing lost, changed
or put in another order. -/

namespace TypeOrigins.Facts
set_option autoImplicit false

open Document Document.Fields

/-! ## The wordings -/

/-- A field of an object that is written. -/
structure Slot where
  name : String
  isDefault : Bool
  value : Document

/-- How programs are written: `terse` leaves out fields that have their defaults, and `second` takes
the second name of a field that has two. -/
structure Wording where
  terse : Bool
  second : Bool

namespace Wording
variable (w : Wording)

def fields (slots : List Slot) : Fields :=
  (slots.filter fun s => !(w.terse && s.isDefault)).map fun s => (.name s.name, s.value)

def object (slots : List Slot) : Document := .object (w.fields slots)

def pick (first second : String) : String := if w.second then second else first

variable {w} {slots : List Slot} {name : String} {d : Document} {P : Document → Prop}

theorem fields_cons (s : Slot) : w.fields (s :: slots) =
    if w.terse && s.isDefault then w.fields slots else (.name s.name, s.value) :: w.fields slots := by
  unfold fields
  rw [List.filter_cons]
  cases w.terse && s.isDefault <;> rfl

theorem only_fields (w : Wording) (slots : List Slot) : (w.fields slots).Only (slots.map Slot.name) := by
  intro f hf
  obtain ⟨s, hs, rfl⟩ := List.mem_map.mp hf
  exact ⟨s.name, List.mem_map_of_mem (List.mem_of_mem_filter hs), rfl⟩

theorem get?_fields_of_not_mem (hname : name ∉ slots.map Slot.name) :
    (w.fields slots).get? name = none := by
  rw [Option.eq_none_iff_forall_ne_some]
  intro d hget
  obtain ⟨f, hfind, rfl⟩ := Option.map_eq_some_iff.mp hget
  obtain ⟨s, hs, hkey⟩ := only_fields w slots f (List.mem_of_find?_eq_some hfind)
  have hfound : f.1 = .name name := by simpa using List.find?_some hfind
  obtain rfl : s = name := Key.name.inj (hkey.symm.trans hfound)
  exact hname hs

/-- Names are distinct, so a field is found by its name unless it was left out. -/
theorem get?_fields {b : Bool} (hnames : (slots.map Slot.name).Nodup) (hslot : ⟨name, b, d⟩ ∈ slots) :
    (w.fields slots).get? name = if w.terse && b then none else some d := by
  induction slots with
  | nil => cases hslot
  | cons s rest ih =>
    rw [List.map_cons, List.nodup_cons] at hnames
    rw [fields_cons]
    rcases List.mem_cons.mp hslot with rfl | hrest
    · split
      · exact get?_fields_of_not_mem hnames.1
      · simp [Fields.get?]
    · have hne : s.name ≠ name := by
        intro hname
        rw [hname] at hnames
        exact hnames.1 (List.mem_map.mpr ⟨_, hrest, rfl⟩)
      rw [← ih hnames.2 hrest]
      split
      · rfl
      · simp [Fields.get?, hne]

theorem holds_fields (hnames : (slots.map Slot.name).Nodup) (hslot : ⟨name, false, d⟩ ∈ slots)
    (hd : P d) : (w.fields slots).Holds name P := by
  refine ⟨d, ?_, hd⟩
  rw [get?_fields hnames hslot, Bool.and_false]
  rfl

theorem holdsOr_fields {b : Bool} {Q : Prop} (hnames : (slots.map Slot.name).Nodup)
    (hslot : ⟨name, b, d⟩ ∈ slots) (hdefault : b = true → Q) (hd : P d) :
    (w.fields slots).HoldsOr name Q P := by
  have hget : (w.fields slots).get? name = if w.terse && b then none else some d :=
    get?_fields hnames hslot
  by_cases hout : (w.terse && b) = true
  · rw [if_pos hout] at hget
    exact Or.inl ⟨hget, hdefault (Bool.and_eq_true_iff.mp hout).2⟩
  · rw [if_neg hout] at hget
    exact Or.inr ⟨d, hget, hd⟩

/-! The other of two names is left for no field. -/

theorem holdsEither_pick (w : Wording) {fields : Fields} {first second : String}
    (h : fields.Holds (w.pick first second) P) (hother : fields.get? (w.pick second first) = none) :
    fields.HoldsEither first second P := by
  unfold pick at h hother
  cases hw : w.second with
  | false => exact Or.inl ⟨by simpa [hw] using hother, by simpa [hw] using h⟩
  | true => exact Or.inr ⟨by simpa [hw] using hother, by simpa [hw] using h⟩

theorem holdsEitherOr_pick (w : Wording) {fields : Fields} {first second : String} {Q : Prop}
    (h : fields.HoldsOr (w.pick first second) Q P) (hother : fields.get? (w.pick second first) = none) :
    fields.HoldsEitherOr first second Q P := by
  rcases h with ⟨hnone, hQ⟩ | h
  · refine Or.inl ?_
    unfold pick at hnone hother
    cases hw : w.second with
    | false => exact ⟨by simpa [hw] using hnone, by simpa [hw] using hother, hQ⟩
    | true => exact ⟨by simpa [hw] using hother, by simpa [hw] using hnone, hQ⟩
  · exact Or.inr (holdsEither_pick w h hother)

end Wording

open Wording (holds_fields holdsOr_fields only_fields)

/-! ## Types -/

mutual

def writeType (w : Wording) : TypeSymbol → Document
  | .named fullName assembly arguments => w.object
      [⟨"kind", false, .text "named"⟩, ⟨"full_name", false, .text fullName⟩,
        ⟨"assembly", false, .text assembly⟩,
        ⟨"type_arguments", arguments.isEmpty, .list (writeTypes w arguments)⟩]
  | .parameter p => w.object
      [⟨"kind", false, .text "type_parameter"⟩, ⟨"name", false, .text p.name⟩,
        ⟨"owner_id", false, .text p.ownerId⟩,
        ⟨"owner_kind", p.ownerKind == .method, .text p.ownerKind.word⟩,
        ⟨"ordinal", false, .int p.ordinal⟩]

def writeTypes (w : Wording) : List TypeSymbol → List Document
  | [] => []
  | t :: rest => writeType w t :: writeTypes w rest

end

mutual

theorem describes_writeType (w : Wording) : (t : TypeSymbol) → DescribesType t (writeType w t)
  | .named fullName assembly arguments => by
    rw [writeType, DescribesType]
    refine ⟨_, rfl, ?_, ?_, ?_, ?_, only_fields w _⟩
    · exact holds_fields (d := .text "named") (by simp) (by simp) rfl
    · exact holds_fields (d := .text fullName) (by simp) (by simp) rfl
    · exact holds_fields (d := .text assembly) (by simp) (by simp) rfl
    · exact holdsOr_fields (b := arguments.isEmpty) (d := .list (writeTypes w arguments))
        (by simp) (by simp) List.isEmpty_iff.mp ⟨_, rfl, describes_writeTypes w arguments⟩
  | .parameter p => by
    rw [writeType, DescribesType]
    refine ⟨_, rfl, ?_, ?_, ?_, ?_, ?_, only_fields w _⟩
    · exact holds_fields (d := .text "type_parameter") (by simp) (by simp) rfl
    · exact holds_fields (d := .text p.name) (by simp) (by simp) rfl
    · exact holds_fields (d := .text p.ownerId) (by simp) (by simp) rfl
    · exact holdsOr_fields (b := p.ownerKind == .method) (d := .text p.ownerKind.word)
        (by simp) (by simp) beq_iff_eq.mp rfl
    · exact holds_fields (d := .int p.ordinal) (by simp) (by simp) rfl

theorem describes_writeTypes (w : Wording) : (ts : List TypeSymbol) → DescribesTypes ts (writeTypes w ts)
  | [] => by
    rw [writeTypes, DescribesTypes]
  | t :: rest => by
    rw [writeTypes, DescribesTypes]
    exact ⟨_, _, rfl, describes_writeType w t, describes_writeTypes w rest⟩

end

def writeNullable {α : Type} (write : α → Document) : Option α → Document
  | none => .null
  | some a => write a

theorem isNullable_writeNullable {α : Type} {P : α → Document → Prop} {write : α → Document}
    (h : ∀ a, P a (write a)) (o : Option α) : IsNullable P o (writeNullable write o) := by
  cases o with
  | none => exact rfl
  | some a => exact h a

theorem isList_map {α : Type} {P : α → Document → Prop} {write : α → Document}
    (h : ∀ a, P a (write a)) (as : List α) : IsList P as (.list (as.map write)) := by
  refine ⟨_, rfl, ?_⟩
  rw [List.forall₂_map_right_iff, List.forall₂_same]
  exact fun a _ => h a

/-! ## Expressions -/

/-- An expression with a tag and the fields of its own. -/
def writeTagged (w : Wording) (tag : String) (note : Annotation) (slots : List Slot) : Document :=
  w.object (⟨"kind", false, .text tag⟩ :: ⟨"text", note.text.isEmpty, .text note.text⟩ ::
    ⟨"static_type", note.staticType.isNone, writeNullable (writeType w) note.staticType⟩ :: slots)

def writeExpression (w : Wording) : Expression → Document
  | .typeOf note operand =>
      writeTagged w "typeof" note [⟨w.pick "type" "operand", false, writeType w operand⟩]
  | .getType note receiver =>
      writeTagged w "get_type" note [⟨"receiver", false, writeExpression w receiver⟩]
  | .localRef note localId => writeTagged w "local" note [⟨"local_id", false, .text localId⟩]
  | .parameterRef note methodId ordinal => writeTagged w "parameter" note
      [⟨"method_id", false, .text methodId⟩, ⟨"ordinal", false, .int ordinal⟩]
  | .untraced note kind => writeTagged w kind.word note []

theorem describesHead_fields (w : Wording) (tag : String) (note : Annotation) {slots : List Slot}
    (hnames : ("kind" :: "text" :: "static_type" :: slots.map Slot.name).Nodup) :
    DescribesHead tag note (w.fields (⟨"kind", false, .text tag⟩ ::
      ⟨"text", note.text.isEmpty, .text note.text⟩ ::
      ⟨"static_type", note.staticType.isNone, writeNullable (writeType w) note.staticType⟩ :: slots)) where
  tag := holds_fields (d := .text tag) hnames (by simp) rfl
  note :=
    { text := holdsOr_fields (b := note.text.isEmpty) (d := .text note.text) hnames (by simp)
        String.isEmpty_iff.mp rfl
      staticType := holdsOr_fields (b := note.staticType.isNone)
        (d := writeNullable (writeType w) note.staticType) hnames (by simp) Option.isNone_iff_eq_none.mp
        (isNullable_writeNullable (describes_writeType w) note.staticType) }

theorem describes_writeExpression (w : Wording) (e : Expression) :
    DescribesExpression e (writeExpression w e) := by
  induction e with
  | typeOf note operand =>
    have hnames : ["kind", "text", "static_type", w.pick "type" "operand"].Nodup := by
      cases hw : w.second <;> simp [Wording.pick, hw]
    refine ⟨_, rfl, describesHead_fields w _ note hnames, Wording.holdsEither_pick w ?_ ?_, ?_⟩
    · exact holds_fields (d := writeType w operand) hnames (by simp) (describes_writeType w operand)
    · apply Wording.get?_fields_of_not_mem
      cases hw : w.second <;> simp [Wording.pick, hw]
    · apply (only_fields w _).mono
      cases hw : w.second <;> simp [Wording.pick, hw]
  | getType note receiver ih =>
    refine ⟨_, rfl, describesHead_fields w _ note (by simp), ?_, only_fields w _⟩
    exact holds_fields (d := writeExpression w receiver) (by simp) (by simp) ih
  | localRef note localId =>
    refine ⟨_, rfl, describesHead_fields w _ note (by simp), ?_, only_fields w _⟩
    exact holds_fields (d := .text localId) (by simp) (by simp) rfl
  | parameterRef note methodId ordinal =>
    refine ⟨_, rfl, describesHead_fields w _ note (by simp), ?_, ?_, only_fields w _⟩
    · exact holds_fields (d := .text methodId) (by simp) (by simp) rfl
    · exact holds_fields (d := .int ordinal) (by simp) (by simp) rfl
  | untraced note kind =>
    exact ⟨_, rfl, describesHead_fields w _ note (by simp), only_fields w _⟩

/-! ## Declarations and calls -/

def writeLocation (w : Wording) (l : Location) : Document := w.object
  [⟨"path", false, .text l.path⟩, ⟨"line", false, .int l.line⟩, ⟨"column", l.column == 0, .int l.column⟩]

def writeName (w : Wording) (name : String) : Document := w.object [⟨"name", false, .text name⟩]

def writeMethod (w : Wording) (m : Method) : Document := w.object
  [⟨"id", false, .text m.id⟩, ⟨"declaring_type", false, .text m.declaringType⟩,
    ⟨"name", false, .text m.name⟩,
    ⟨"parameters", m.parameters.isEmpty, .list (m.parameters.map (writeName w))⟩,
    ⟨"type_parameters", m.typeParameters.isEmpty, .list (m.typeParameters.map (writeName w))⟩,
    ⟨"location", m.location.isNone, writeNullable (writeLocation w) m.location⟩]

def writeLocal (w : Wording) (l : LocalVariable) : Document := w.object
  [⟨"id", false, .text l.id⟩, ⟨"name", false, .text l.name⟩, ⟨"method_id", false, .text l.methodId⟩,
    ⟨"initializer", l.initializer.isNone, writeNullable (writeExpression w) l.initializer⟩,
    ⟨"assignments", l.assignments.isEmpty, .list (l.assignments.map (writeExpression w))⟩]

def writeTarget (w : Wording) (t : Target) : Document := w.object
  [⟨"method_id", false, .text t.methodId⟩, ⟨"declaring_type", false, .text t.declaringType⟩,
    ⟨"name", false, .text t.name⟩]

def writeCallSite (w : Wording) (c : CallSite) : Document := w.object
  [⟨"id", false, .text c.id⟩, ⟨"location", false, writeLocation w c.location⟩,
    ⟨"enclosing_method", c.enclosingMethod.isNone, writeNullable .text c.enclosingMethod⟩,
    ⟨"target", false, writeTarget w c.target⟩,
    ⟨"type_arguments", c.typeArguments.isEmpty, .list (c.typeArguments.map (writeType w))⟩,
    ⟨"arguments", c.arguments.isEmpty, .list (c.arguments.map (writeExpression w))⟩]

/-- The fields of the facts document that a program is written as. -/
def write (w : Wording) (p : Program) : Fields := w.fields
  [⟨"schema_version", false, .int 1⟩, ⟨"assembly", p.assembly.isEmpty, .text p.assembly⟩,
    ⟨"methods", p.methods.isEmpty, .list (p.methods.map (writeMethod w))⟩,
    ⟨w.pick "locals" "local_variables", p.locals.isEmpty, .list (p.locals.map (writeLocal w))⟩,
    ⟨"call_sites", p.callSites.isEmpty, .list (p.callSites.map (writeCallSite w))⟩]

theorem describes_writeLocation (w : Wording) (l : Location) :
    IsObject (DescribesLocation l) (writeLocation w l) := by
  have hnames : ["path", "line", "column"].Nodup := by simp
  refine ⟨_, rfl, ?_, ?_, ?_, only_fields w _⟩
  · exact holds_fields (d := .text l.path) hnames (by simp) rfl
  · exact holds_fields (d := .int l.line) hnames (by simp) rfl
  · exact holdsOr_fields (b := l.column == 0) (d := .int l.column) hnames (by simp) beq_iff_eq.mp rfl

theorem describes_writeName (w : Wording) (s : String) : IsObject (DescribesName s) (writeName w s) :=
  ⟨_, rfl, holds_fields (d := .text s) (by simp) (by simp) rfl, only_fields w _⟩

theorem describes_writeMethod (w : Wording) (m : Method) :
    IsObject (DescribesMethod m) (writeMethod w m) := by
  have hnames : ["id", "declaring_type", "name", "parameters", "type_parameters", "location"].Nodup := by simp
  refine ⟨_, rfl, ?_, ?_, ?_, ?_, ?_, ?_, only_fields w _⟩
  · exact holds_fields (d := .text m.id) hnames (by simp) rfl
  · exact holds_fields (d := .text m.declaringType) hnames (by simp) rfl
  · exact holds_fields (d := .text m.name) hnames (by simp) rfl
  · exact holdsOr_fields (b := m.parameters.isEmpty) (d := .list (m.parameters.map (writeName w)))
      hnames (by simp) List.isEmpty_iff.mp (isList_map (describes_writeName w) _)
  · exact holdsOr_fields (b := m.typeParameters.isEmpty)
      (d := .list (m.typeParameters.map (writeName w)))
      hnames (by simp) List.isEmpty_iff.mp (isList_map (describes_writeName w) _)
  · exact holdsOr_fields (b := m.location.isNone) (d := writeNullable (writeLocation w) m.location)
      hnames (by simp) Option.isNone_iff_eq_none.mp
      (isNullable_writeNullable (describes_writeLocation w) _)

theorem describes_writeLocal (w : Wording) (l : LocalVariable) :
    IsObject (DescribesLocal l) (writeLocal w l) := by
  have hnames : ["id", "name", "method_id", "initializer", "assignments"].Nodup := by simp
  refine ⟨_, rfl, ?_, ?_, ?_, ?_, ?_, only_fields w _⟩
  · exact holds_fields (d := .text l.id) hnames (by simp) rfl
  · exact holds_fields (d := .text l.name) hnames (by simp) rfl
  · exact holds_fields (d := .text l.methodId) hnames (by simp) rfl
  · exact holdsOr_fields (b := l.initializer.isNone)
      (d := writeNullable (writeExpression w) l.initializer) hnames (by simp)
      Option.isNone_iff_eq_none.mp (isNullable_writeNullable (describes_writeExpression w) _)
  · exact holdsOr_fields (b := l.assignments.isEmpty)
      (d := .list (l.assignments.map (writeExpression w))) hnames (by simp) List.isEmpty_iff.mp
      (isList_map (describes_writeExpression w) _)

theorem describes_writeTarget (w : Wording) (t : Target) :
    IsObject (DescribesTarget t) (writeTarget w t) := by
  have hnames : ["method_id", "declaring_type", "name"].Nodup := by simp
  refine ⟨_, rfl, ?_, ?_, ?_, only_fields w _⟩
  · exact holds_fields (d := .text t.methodId) hnames (by simp) rfl
  · exact holds_fields (d := .text t.declaringType) hnames (by simp) rfl
  · exact holds_fields (d := .text t.name) hnames (by simp) rfl

theorem describes_writeCallSite (w : Wording) (c : CallSite) :
    IsObject (DescribesCallSite c) (writeCallSite w c) := by
  have hnames : ["id", "location", "enclosing_method", "target", "type_arguments", "arguments"].Nodup := by simp
  refine ⟨_, rfl, ?_, ?_, ?_, ?_, ?_, ?_, only_fields w _⟩
  · exact holds_fields (d := .text c.id) hnames (by simp) rfl
  · exact holds_fields (d := writeLocation w c.location) hnames (by simp)
      (describes_writeLocation w c.location)
  · exact holds_fields (d := writeTarget w c.target) hnames (by simp)
      (describes_writeTarget w c.target)
  · exact holdsOr_fields (b := c.enclosingMethod.isNone)
      (d := writeNullable .text c.enclosingMethod) hnames (by simp)
      Option.isNone_iff_eq_none.mp (isNullable_writeNullable (P := IsText) (fun _ => rfl) _)
  · exact holdsOr_fields (b := c.typeArguments.isEmpty)
      (d := .list (c.typeArguments.map (writeType w))) hnames (by simp) List.isEmpty_iff.mp
      (isList_map (describes_writeType w) _)
  · exact holdsOr_fields (b := c.arguments.isEmpty)
      (d := .list (c.arguments.map (writeExpression w))) hnames (by simp) List.isEmpty_iff.mp
      (isList_map (describes_writeExpression w) _)

theorem describes_write (w : Wording) (p : Program) : DescribesProgram p (write w p) := by
  have hnames : ["schema_version", "assembly", "methods", w.pick "locals" "local_variables",
      "call_sites"].Nodup := by
    cases hw : w.second <;> simp [Wording.pick, hw]
  refine ⟨?_, ?_, ?_, ?_, ?_, ?_⟩
  · exact holds_fields (d := .int 1) hnames (by simp) rfl
  · exact holdsOr_fields (b := p.assembly.isEmpty) (d := .text p.assembly) hnames (by simp)
      String.isEmpty_iff.mp rfl
  · exact holdsOr_fields (b := p.methods.isEmpty) (d := .list (p.methods.map (writeMethod w))) hnames
      (by simp) List.isEmpty_iff.mp (isList_map (describes_writeMethod w) _)
  · apply Wording.holdsEitherOr_pick w
    · exact holdsOr_fields (b := p.locals.isEmpty) (d := .list (p.locals.map (writeLocal w))) hnames
        (by simp) List.isEmpty_iff.mp (isList_map (describes_writeLocal w) _)
    · apply Wording.get?_fields_of_not_mem
      cases hw : w.second <;> simp [Wording.pick, hw]
  · exact holdsOr_fields (b := p.callSites.isEmpty) (d := .list (p.callSites.map (writeCallSite w)))
      hnames (by simp) List.isEmpty_iff.mp (isList_map (describes_writeCallSite w) _)
  · apply (only_fields w _).mono
    cases hw : w.second <;> simp [Wording.pick, hw]

/-! ## Reading back -/

/-- Where no key is repeated, the table has the entries themselves. -/
theorem tableOf_eq_self {α : Type} {key : α → String} {entries : List α}
    (h : (entries.map key).Nodup) : tableOf key entries = entries := by
  -- `table` holds the entries read so far.
  have hloop : ∀ rest table : List α, ((table ++ rest).map key).Nodup →
      rest.foldl (fun table a =>
        if table.any fun b => key b == key a then table.map fun b => if key b == key a then a else b
        else table ++ [a]) table = table ++ rest := by
    intro rest
    induction rest with
    | nil => simp
    | cons a rest ih =>
      intro table hnodup
      have hnew : (table.any fun b => key b == key a) = false := by
        rw [List.any_eq_false]
        intro b hb heq
        rw [List.map_append, List.nodup_append] at hnodup
        exact hnodup.2.2 (key b) (List.mem_map_of_mem hb) (key a) (by simp) (beq_iff_eq.mp heq)
      rw [List.foldl_cons, hnew, if_neg Bool.false_ne_true]
      simpa using ih (table ++ [a]) (by simpa using hnodup)
  exact hloop entries [] h

theorem DescribesProgram.parse {p : Program} {fields : Fields} (h : DescribesProgram p fields)
    (hp : WellFormed p) (he : Expressible p) : parse fields = .ok p :=
  parse_eq_ok.mpr ⟨h.checkProgram he, wellFormed_iff_sound.mp hp⟩

/-- A well-formed program that a document can express is restored from its description, in whatever
wording it is written, and from every document that describes it. -/
theorem parse_restores_program (p : Program) (hp : WellFormed p) (he : Expressible p) :
    (∀ w : Wording, parse (write w p) = .ok p) ∧
      (∀ fields, DescribesProgram p fields → parse fields = .ok p) ∧
      p.methodTable = p.methods ∧ p.localTable = p.locals := by
  refine ⟨?_, ?_, tableOf_eq_self hp.ids.methods, tableOf_eq_self hp.ids.locals⟩
  · intro w
    exact (describes_write w p).parse hp he
  · intro fields h
    exact h.parse hp he

/-! ## A plugin host

A generic method keeps a type in a local, and a call passes the run-time type of that local. -/

namespace PluginHost

def plugin : TypeSymbol := .named "Plugin" "Host" [.parameter ⟨"T", "Load", .method, 0⟩]

def load : Method where
  id := "Load"
  declaringType := "Host"
  name := "Load"
  parameters := ["kind"]
  typeParameters := ["T"]
  location := some ⟨"Host.cs", 7, 4⟩

def chosen : LocalVariable where
  id := "chosen"
  name := "chosen"
  methodId := "Load"
  initializer := some (.typeOf { text := "typeof(Plugin<T>)" } plugin)
  assignments := [.parameterRef {} "Load" 0, .untraced {} .elementAccess]

def create : CallSite where
  id := "create"
  location := ⟨"Host.cs", 9, 0⟩
  target := ⟨"CreateInstance", "System.Activator", "CreateInstance"⟩
  enclosingMethod := some "Load"
  typeArguments := [plugin]
  arguments := [.getType { staticType := some plugin } (.localRef {} "chosen")]

def program : Program where
  methods := [load]
  locals := [chosen]
  callSites := [create]

/-- Each part in another wording, and the fields in another order. -/
def mixed : Fields :=
  [("call_sites", .list (program.callSites.map (writeCallSite ⟨false, true⟩))),
    ("local_variables", .list (program.locals.map (writeLocal ⟨true, false⟩))),
    ("methods", .list (program.methods.map (writeMethod ⟨true, true⟩))), ("schema_version", .int 1)]

theorem describes_mixed : DescribesProgram program mixed where
  version := ⟨_, rfl, rfl⟩
  assembly := Or.inl ⟨rfl, rfl⟩
  methods := Or.inr ⟨_, rfl, isList_map (describes_writeMethod _) _⟩
  locals := Or.inr (Or.inr ⟨rfl, _, rfl, isList_map (describes_writeLocal _) _⟩)
  callSites := Or.inr ⟨_, rfl, isList_map (describes_writeCallSite _) _⟩
  only := by simp [Fields.Only, mixed]

theorem wellFormed_program : WellFormed program :=
  wellFormed_iff_sound.mpr (integrityFault?_eq_none.mp (by decide +kernel))

theorem expressible_program : Expressible program where
  declared := by decide
  initializers := by decide
  assignments := by decide
  placed := by decide
  typeArguments := by decide
  arguments := by decide

end PluginHost

open PluginHost in
theorem parse_restores_plugin_host :
    WellFormed program ∧ Expressible program ∧ DescribesProgram program mixed ∧
      parse mixed = .ok program ∧ parse (write ⟨true, false⟩ program) = .ok program ∧
      parse (write ⟨false, true⟩ program) = .ok program := by
  obtain ⟨hwrite, hdescribed, _⟩ :=
    parse_restores_program program wellFormed_program expressible_program
  exact ⟨wellFormed_program, expressible_program, describes_mixed, hdescribed mixed describes_mixed,
    hwrite _, hwrite _⟩

end TypeOrigins.Facts
