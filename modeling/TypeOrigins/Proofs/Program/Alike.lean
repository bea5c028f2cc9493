import Mathlib.Data.List.Forall2
import TypeOrigins.Origin.Search
import TypeOrigins.Proofs.Program.DocumentOrder

/-! # Programs that are alike

Two programs are alike under a renaming if they list the same methods, locals and calls in the same
order, with the same types and expressions in them, where the second goes by the new identifiers.
What is there for a reader only may differ: texts, positions, the names of locals and parameters,
the methods that calls and locals stand in, and static types that no `GetType` asks for. Even the
number of parameters that a method declares may, if no reference to a parameter is left without a
name by it. Lookups and callers of alike programs are alike. -/

namespace TypeOrigins
set_option autoImplicit false

/-! ## Renamings -/

/-- New identifiers for methods, locals and calls. -/
structure Renaming where
  method : String → String
  localVariable : String → String
  callSite : String → String
  method_injective : Function.Injective method
  localVariable_injective : Function.Injective localVariable
  callSite_injective : Function.Injective callSite

namespace Renaming

/-- The renaming that changes nothing. -/
def same : Renaming where
  method id := id
  localVariable id := id
  callSite id := id
  method_injective _ _ h := h
  localVariable_injective _ _ h := h
  callSite_injective _ _ h := h

variable (ρ : Renaming)

/-- Types keep their identifiers. -/
def owner : OwnerKind → String → String
  | .method => ρ.method
  | .type => fun id => id

def target (t : Target) : Target := { t with methodId := ρ.method t.methodId }

theorem target_injective : Function.Injective ρ.target := by
  rintro ⟨m, d, n⟩ ⟨m', d', n'⟩ h
  have hm : ρ.method m = ρ.method m' := congrArg Target.methodId h
  have hd : d = d' := congrArg Target.declaringType h
  have hn : n = n' := congrArg Target.name h
  rw [ρ.method_injective hm, hd, hn]

end Renaming

/-! ## The relation -/

structure TypeParameter.Alike (ρ : Renaming) (p q : TypeParameter) : Prop where
  ownerKind : q.ownerKind = p.ownerKind
  ownerId : q.ownerId = ρ.owner p.ownerKind p.ownerId
  ordinal : q.ordinal = p.ordinal

inductive TypeSymbol.Alike (ρ : Renaming) : TypeSymbol → TypeSymbol → Prop
  | named {fullName assembly : String} {ts us : List TypeSymbol} (h : List.Forall₂ (Alike ρ) ts us) :
      Alike ρ (.named fullName assembly ts) (.named fullName assembly us)
  | parameter {p q : TypeParameter} (h : p.Alike ρ q) : Alike ρ (.parameter p) (.parameter q)

/-- Of a receiver only the static type counts. Parameters are at ordinals of which `N` holds. -/
inductive Expression.Alike (ρ : Renaming) (N : Int → Prop) : Expression → Expression → Prop
  | typeOf {note note' : Annotation} {t u : TypeSymbol} (h : t.Alike ρ u) :
      Alike ρ N (.typeOf note t) (.typeOf note' u)
  | getType {note note' : Annotation} {e f : Expression}
      (h : Option.Rel (TypeSymbol.Alike ρ) e.staticType f.staticType) :
      Alike ρ N (.getType note e) (.getType note' f)
  | localRef {note note' : Annotation} {id : String} :
      Alike ρ N (.localRef note id) (.localRef note' (ρ.localVariable id))
  | parameterRef {note note' : Annotation} {methodId : String} {ordinal : Int} (h : N ordinal) :
      Alike ρ N (.parameterRef note methodId ordinal) (.parameterRef note' (ρ.method methodId) ordinal)
  | untraced {note note' : Annotation} {kind kind' : UntracedKind} :
      Alike ρ N (.untraced note kind) (.untraced note' kind')

structure Method.Alike (ρ : Renaming) (m n : Method) : Prop where
  id : n.id = ρ.method m.id
  declaringType : n.declaringType = m.declaringType
  name : n.name = m.name

/-- The parameter at an ordinal has a name in both methods, or in neither. -/
def Method.NamedAlike (k : Int) (m n : Method) : Prop :=
  (n.parameterName k).toBool = (m.parameterName k).toBool

structure LocalVariable.Alike (ρ : Renaming) (N : Int → Prop) (l m : LocalVariable) : Prop where
  id : m.id = ρ.localVariable l.id
  initializer : Option.Rel (Expression.Alike ρ N) l.initializer m.initializer
  assignments : List.Forall₂ (Expression.Alike ρ N) l.assignments m.assignments

structure CallSite.Alike (ρ : Renaming) (N : Int → Prop) (c d : CallSite) : Prop where
  id : d.id = ρ.callSite c.id
  target : d.target = ρ.target c.target
  typeArguments : List.Forall₂ (TypeSymbol.Alike ρ) c.typeArguments d.typeArguments
  arguments : List.Forall₂ (Expression.Alike ρ N) c.arguments d.arguments

/-- All methods name the parameter at an ordinal, or its counterpart, alike. -/
def Program.NamedAlike (p q : Program) (k : Int) : Prop :=
  List.Forall₂ (Method.NamedAlike k) p.methods q.methods

structure Program.Alike (ρ : Renaming) (p q : Program) : Prop where
  methods : List.Forall₂ (Method.Alike ρ) p.methods q.methods
  locals : List.Forall₂ (LocalVariable.Alike ρ (p.NamedAlike q)) p.locals q.locals
  callSites : List.Forall₂ (CallSite.Alike ρ (p.NamedAlike q)) p.callSites q.callSites

/-! ## Lists -/

section Lists
variable {α β : Type} {R : α → β → Prop} {l : List α} {l' : List β}

theorem rel_find? {f : α → Bool} {g : β → Bool} (h : List.Forall₂ R l l')
    (hfg : ∀ a b, R a b → f a = g b) : Option.Rel R (l.find? f) (l'.find? g) := by
  induction h with
  | nil => exact .none
  | @cons a b _ _ hab _ ih =>
    rw [List.find?_cons, List.find?_cons, ← hfg a b hab]
    cases f a with
    | true => exact .some hab
    | false => exact ih

theorem rel_getElem? (h : List.Forall₂ R l l') (i : ℕ) : Option.Rel R l[i]? l'[i]? := by
  induction h generalizing i with
  | nil => exact .none
  | cons hab _ ih =>
    cases i with
    | zero => exact .some hab
    | succ i => exact ih i

theorem rel_map {γ δ : Type} {S : γ → δ → Prop} {f : α → γ} {g : β → δ} {o : Option α} {o' : Option β}
    (h : Option.Rel R o o') (hfg : ∀ a b, R a b → S (f a) (g b)) :
    Option.Rel S (o.map f) (o'.map g) := by
  cases h with
  | none => exact .none
  | some hab => exact .some (hfg _ _ hab)

theorem map_eq_map_of_forall₂ {γ : Type} {f : α → γ} {g : β → γ} (h : List.Forall₂ R l l')
    (hfg : ∀ a b, R a b → g b = f a) : l'.map g = l.map f := by
  induction h with
  | nil => rfl
  | @cons a b _ _ hab _ ih => rw [List.map_cons, List.map_cons, hfg a b hab, ih]

theorem forall₂_and {S : α → β → Prop} (h : List.Forall₂ R l l') (h' : List.Forall₂ S l l') :
    List.Forall₂ (fun a b => R a b ∧ S a b) l l' := by
  induction h with
  | nil => exact .nil
  | cons hab _ ih =>
    cases h' with
    | cons hab' hrest => exact .cons ⟨hab, hab'⟩ (ih hrest)

theorem isEmpty_eq_of_forall₂ (h : List.Forall₂ R l l') : l'.isEmpty = l.isEmpty := by
  cases h <;> rfl

end Lists

/-! ## Types -/

section Types
variable {ρ : Renaming}

mutual

theorem TypeSymbol.Alike.isClosed_eq : (t : TypeSymbol) → ∀ {u : TypeSymbol}, t.Alike ρ u →
    u.isClosed = t.isClosed
  | .named _ _ ts, _, .named h => by
    rw [TypeSymbol.isClosed, TypeSymbol.isClosed]
    exact allClosed_eq_of_alike ts h
  | .parameter _, _, .parameter _ => by
    rw [TypeSymbol.isClosed, TypeSymbol.isClosed]

theorem allClosed_eq_of_alike : (ts : List TypeSymbol) → ∀ {us : List TypeSymbol},
    List.Forall₂ (TypeSymbol.Alike ρ) ts us → TypeSymbol.allClosed us = TypeSymbol.allClosed ts
  | [], _, .nil => rfl
  | t :: ts, _, .cons ht hts => by
    rw [TypeSymbol.allClosed, TypeSymbol.allClosed, TypeSymbol.Alike.isClosed_eq t ht,
      allClosed_eq_of_alike ts hts]

end

end Types

/-! ## Programs -/

theorem CallSite.Alike.isGeneric_eq {ρ : Renaming} {N : Int → Prop} {c d : CallSite}
    (h : c.Alike ρ N d) :
    d.isGeneric = c.isGeneric := by
  unfold CallSite.isGeneric
  rw [isEmpty_eq_of_forall₂ h.typeArguments]

namespace Program.Alike
variable {ρ : Renaming} {p q : Program} (h : p.Alike ρ q)
include h

theorem callSiteIds : q.callSites.map CallSite.id = (p.callSites.map CallSite.id).map ρ.callSite := by
  rw [List.map_map]
  exact map_eq_map_of_forall₂ h.callSites fun _ _ hc => hc.id

theorem nodup_callSites (hp : (p.callSites.map CallSite.id).Nodup) :
    (q.callSites.map CallSite.id).Nodup := by
  rw [h.callSiteIds]
  exact hp.map ρ.callSite_injective

theorem method? (id : String) :
    Option.Rel (Method.Alike ρ) (p.method? id) (q.method? (ρ.method id)) := by
  apply rel_find? (List.forall₂_reverse_iff.mpr h.methods)
  intro m n hmn
  rw [hmn.id, Bool.eq_iff_iff, beq_iff_eq, beq_iff_eq]
  exact ρ.method_injective.eq_iff.symm

/-- A method with the identifier names its parameter alike, where all do. -/
theorem method?_named (id : String) {k : Int} (hk : p.NamedAlike q k) :
    Option.Rel (fun m n => m.Alike ρ n ∧ m.NamedAlike k n) (p.method? id) (q.method? (ρ.method id)) := by
  apply rel_find? (List.forall₂_reverse_iff.mpr (forall₂_and h.methods hk))
  rintro m n ⟨hmn, _⟩
  rw [hmn.id, Bool.eq_iff_iff, beq_iff_eq, beq_iff_eq]
  exact ρ.method_injective.eq_iff.symm

theorem local? (id : String) :
    Option.Rel (LocalVariable.Alike ρ (p.NamedAlike q)) (p.local? id) (q.local? (ρ.localVariable id)) := by
  apply rel_find? (List.forall₂_reverse_iff.mpr h.locals)
  intro l m hlm
  rw [hlm.id, Bool.eq_iff_iff, beq_iff_eq, beq_iff_eq]
  exact ρ.localVariable_injective.eq_iff.symm

/-- The graph is keyed by enclosing methods too; read off in document order it no longer shows
them. -/
theorem callersOfMethod (hp : (p.callSites.map CallSite.id).Nodup) {m n : Method}
    (hmn : m.Alike ρ n) :
    List.Forall₂ (CallSite.Alike ρ (p.NamedAlike q)) (p.callersOfMethod m) (q.callersOfMethod n) := by
  rw [callersOfMethod_eq_filter hp, callersOfMethod_eq_filter (h.nodup_callSites hp)]
  refine List.rel_filter ?_ h.callSites
  intro c d hcd
  have htarget : (⟨n.id, n.declaringType, n.name⟩ : Target) =
      ρ.target ⟨m.id, m.declaringType, m.name⟩ := by
    rw [hmn.id, hmn.declaringType, hmn.name]
    rfl
  dsimp only
  rw [decide_eq_true_iff, decide_eq_true_iff, hcd.target, htarget]
  exact ρ.target_injective.eq_iff.symm

/-- Calls with corresponding identifiers are alike. -/
theorem of_mem (hp : (p.callSites.map CallSite.id).Nodup) {c d : CallSite} (hc : c ∈ p.callSites)
    (hd : d ∈ q.callSites) (hid : d.id = ρ.callSite c.id) : c.Alike ρ (p.NamedAlike q) d := by
  have hrel : Option.Rel (CallSite.Alike ρ (p.NamedAlike q)) (p.callSite? c.id) (q.callSite? d.id) := by
    apply rel_find? h.callSites
    intro c' d' hcd
    rw [hcd.id, hid, Bool.eq_iff_iff, beq_iff_eq, beq_iff_eq]
    exact ρ.callSite_injective.eq_iff.symm
  rw [callSite?_of_mem hp hc, callSite?_of_mem (h.nodup_callSites hp) hd] at hrel
  cases hrel with
  | some hcd => exact hcd

end Program.Alike

end TypeOrigins
