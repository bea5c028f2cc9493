import TypeOrigins.Proofs.Analysis.Alike
import TypeOrigins.Proofs.Program.Reordering

/-! # Programs under other identifiers

A program whose methods, locals and calls go by other identifiers is analysed alike: it has the same
entries under their new identifiers, with the same types in the same order, and the same keep list.
Methods, locals and calls are renamed apart from each other, so it does not matter either whether a
method goes by the identifier of a local or of a call. -/

namespace TypeOrigins
set_option autoImplicit false

/-! ## Renamed programs -/

mutual

def TypeSymbol.rename (ρ : Renaming) : TypeSymbol → TypeSymbol
  | .named fullName assembly arguments => .named fullName assembly (renameAll ρ arguments)
  | .parameter p => .parameter { p with ownerId := ρ.owner p.ownerKind p.ownerId }

def TypeSymbol.renameAll (ρ : Renaming) : List TypeSymbol → List TypeSymbol
  | [] => []
  | t :: rest => t.rename ρ :: renameAll ρ rest

end

def Annotation.rename (ρ : Renaming) (note : Annotation) : Annotation :=
  { note with staticType := note.staticType.map (TypeSymbol.rename ρ) }

def Expression.rename (ρ : Renaming) : Expression → Expression
  | .typeOf note operand => .typeOf (note.rename ρ) (operand.rename ρ)
  | .getType note receiver => .getType (note.rename ρ) (receiver.rename ρ)
  | .localRef note id => .localRef (note.rename ρ) (ρ.localVariable id)
  | .parameterRef note methodId ordinal => .parameterRef (note.rename ρ) (ρ.method methodId) ordinal
  | .untraced note kind => .untraced (note.rename ρ) kind

def Method.rename (ρ : Renaming) (m : Method) : Method := { m with id := ρ.method m.id }

def LocalVariable.rename (ρ : Renaming) (l : LocalVariable) : LocalVariable :=
  { l with
    id := ρ.localVariable l.id
    methodId := ρ.method l.methodId
    initializer := l.initializer.map (Expression.rename ρ)
    assignments := l.assignments.map (Expression.rename ρ) }

def CallSite.rename (ρ : Renaming) (c : CallSite) : CallSite :=
  { c with
    id := ρ.callSite c.id
    target := ρ.target c.target
    enclosingMethod := c.enclosingMethod.map ρ.method
    typeArguments := c.typeArguments.map (TypeSymbol.rename ρ)
    arguments := c.arguments.map (Expression.rename ρ) }

/-- The program with new identifiers, in declarations and wherever they are referred to. -/
def Program.rename (ρ : Renaming) (p : Program) : Program :=
  { p with
    methods := p.methods.map (Method.rename ρ)
    locals := p.locals.map (LocalVariable.rename ρ)
    callSites := p.callSites.map (CallSite.rename ρ) }

def Entry.rename (ρ : Renaming) (e : Entry) : Entry := { e with site := e.site.rename ρ }

/-! ## They are alike -/

section Alike
variable (ρ : Renaming)

mutual

theorem TypeSymbol.alike_rename : (t : TypeSymbol) → t.Alike ρ (t.rename ρ)
  | .named fullName assembly arguments => by
    rw [TypeSymbol.rename]
    exact .named (alike_renameAll arguments)
  | .parameter p => by
    rw [TypeSymbol.rename]
    exact .parameter ⟨rfl, rfl, rfl⟩

theorem TypeSymbol.alike_renameAll : (ts : List TypeSymbol) →
    List.Forall₂ (TypeSymbol.Alike ρ) ts (renameAll ρ ts)
  | [] => by
    rw [TypeSymbol.renameAll]
    exact .nil
  | t :: rest => by
    rw [TypeSymbol.renameAll]
    exact .cons (alike_rename t) (alike_renameAll rest)

end

theorem forall₂_map_self {α β : Type} {R : α → β → Prop} {f : α → β} (h : ∀ a, R a (f a))
    (l : List α) : List.Forall₂ R l (l.map f) := by
  rw [List.forall₂_map_right_iff, List.forall₂_same]
  exact fun a _ => h a

theorem rel_map_self {α β : Type} {R : α → β → Prop} {f : α → β} (h : ∀ a, R a (f a))
    (o : Option α) : Option.Rel R o (o.map f) := by
  cases o with
  | none => exact .none
  | some a => exact .some (h a)

theorem Expression.staticType_rename (e : Expression) :
    (e.rename ρ).staticType = e.staticType.map (TypeSymbol.rename ρ) := by
  cases e <;> rfl

variable {N : Int → Prop} (hN : ∀ k, N k)
include hN

theorem Expression.alike_rename (e : Expression) : e.Alike ρ N (e.rename ρ) := by
  cases e with
  | typeOf note operand => exact .typeOf (operand.alike_rename ρ)
  | getType note receiver =>
    refine .getType ?_
    rw [receiver.staticType_rename]
    exact rel_map_self (TypeSymbol.alike_rename ρ) _
  | localRef note id => exact .localRef
  | parameterRef note methodId ordinal => exact .parameterRef (hN ordinal)
  | untraced note kind => exact .untraced

theorem LocalVariable.alike_rename (l : LocalVariable) : l.Alike ρ N (l.rename ρ) where
  id := rfl
  initializer := rel_map_self (Expression.alike_rename ρ hN) _
  assignments := forall₂_map_self (Expression.alike_rename ρ hN) _

theorem CallSite.alike_rename (c : CallSite) : c.Alike ρ N (c.rename ρ) where
  id := rfl
  target := rfl
  typeArguments := forall₂_map_self (TypeSymbol.alike_rename ρ) _
  arguments := forall₂_map_self (Expression.alike_rename ρ hN) _

omit hN in
/-- Parameters keep their names. -/
theorem Program.namedAlike_rename (p : Program) (k : Int) : p.NamedAlike (p.rename ρ) k :=
  forall₂_map_self (R := Method.NamedAlike k) (f := Method.rename ρ) (fun _ => rfl) p.methods

omit hN in
theorem Program.alike_rename (p : Program) : p.Alike ρ (p.rename ρ) where
  methods := forall₂_map_self (fun _ => ⟨rfl, rfl, rfl⟩) _
  locals := forall₂_map_self (LocalVariable.alike_rename ρ (p.namedAlike_rename ρ)) _
  callSites := forall₂_map_self (CallSite.alike_rename ρ (p.namedAlike_rename ρ)) _

omit hN in
/-- Entries are not only alike but renamed: nothing else of a call changes. -/
theorem Program.entries_rename (p : Program) (apis : List Api) :
    (p.rename ρ).entries apis = (p.entries apis).map (Entry.rename ρ) := by
  have hrenamed : List.Forall₂ (fun c d => d = c.rename ρ) p.callSites (p.rename ρ).callSites :=
    forall₂_map_self (R := fun c d : CallSite => d = c.rename ρ) (fun _ => rfl) _
  have halike : ∀ c d : CallSite, d = c.rename ρ → c.Alike ρ (fun _ => True) d := by
    rintro c d rfl
    exact c.alike_rename ρ fun _ => trivial
  rw [← List.map_id ((p.rename ρ).entries apis)]
  refine map_eq_map_of_forall₂ (rel_entries halike hrenamed apis) ?_
  rintro ⟨site, api⟩ ⟨site', api'⟩ ⟨hsite, hapi⟩
  dsimp only at hsite hapi
  rw [hsite, hapi]
  rfl

end Alike

/-- New identifiers change nothing but themselves: an analysis of the renamed program succeeds if and
only if that of the program does, with the same keep list, and the entries and their types are the
renamed ones, in the same order. -/
theorem analyze_rename (ρ : Renaming) (p : Program) (hp : p.DistinctIds) (config : Config) :
    ((∃ a, (analyze p config).result = .ok a) ↔ ∃ b, (analyze (p.rename ρ) config).result = .ok b) ∧
      ∀ a b, (analyze p config).result = .ok a → (analyze (p.rename ρ) config).result = .ok b →
        b.keepList = a.keepList ∧ b.entries = a.entries.map (Entry.rename ρ) ∧
        b.resolved = a.resolved.map fun x => (ρ.callSite x.1, x.2) := by
  refine ⟨exists_analyze_iff_of_alike (p.alike_rename ρ) hp.callSites config, ?_⟩
  intro a b ha hb
  obtain ⟨hkeep, hresolved⟩ := results_of_alike (p.alike_rename ρ) hp.callSites ha hb
  refine ⟨hkeep, ?_, hresolved⟩
  obtain ⟨_, _, rfl⟩ := analyze_eq_ok.mp ha
  obtain ⟨_, _, rfl⟩ := analyze_eq_ok.mp hb
  exact p.entries_rename ρ config.apis

/-! ## One identifier for all

A method, its local and the call in it go by the same identifier, and then each by its own. -/

namespace SharedName

def program : Program where
  methods := [⟨"x", "App.Factory", "Make", ["type"], [], none⟩]
  locals := [⟨"x", "kind", "x", some (.parameterRef {} "x" 0), []⟩]
  callSites :=
    [⟨"x", ⟨"Factory.cs", 3, 4⟩, ⟨"CreateInstance", "System.Activator", "CreateInstance"⟩, some "x", [],
        [.localRef {} "x"]⟩,
      ⟨"entry", ⟨"Program.cs", 9, 0⟩, ⟨"x", "App.Factory", "Make"⟩, none, [],
        [.typeOf {} (.named "App.Widget" "App" [])]⟩]

def apart : Renaming where
  method id := "method " ++ id
  localVariable id := "local " ++ id
  callSite id := "call " ++ id
  method_injective _ _ h := by simpa using h
  localVariable_injective _ _ h := by simpa using h
  callSite_injective _ _ h := by simpa using h

end SharedName

open SharedName in
theorem analyze_apart :
    program.DistinctIds ∧ ∃ a b, (analyze program {}).result = .ok a ∧
      (analyze (program.rename apart) {}).result = .ok b ∧ b.keepList = a.keepList ∧
      a.resolved = [("x", [⟨"App", "App.Widget"⟩])] ∧
      b.resolved = [("call x", [⟨"App", "App.Widget"⟩])] := by
  have hp : program.DistinctIds := ⟨by decide, by decide, by decide⟩
  obtain ⟨hiff, hresults⟩ := analyze_rename apart program hp {}
  obtain ⟨a, ha, hresolved⟩ : ∃ a, (analyze program {}).result = .ok a ∧
      a.resolved = [("x", [⟨"App", "App.Widget"⟩])] := ⟨_, rfl, rfl⟩
  obtain ⟨b, hb⟩ := hiff.mp ⟨a, ha⟩
  obtain ⟨hkeep, _, hresolved'⟩ := hresults a b ha hb
  refine ⟨hp, a, b, ha, hb, hkeep, hresolved, ?_⟩
  rw [hresolved', hresolved]
  rfl

end TypeOrigins
