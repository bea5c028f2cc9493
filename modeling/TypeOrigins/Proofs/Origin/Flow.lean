import TypeOrigins.Origin.Search
import TypeOrigins.Proofs.Program.Callers

/-! # The flow graph of types

The places of a program as the nodes of a graph. A place whose value is a local leads, at no cost,
to the local, where its initializer stands; a place whose value is a parameter, or whose type is a
type parameter of a method, leads in one step to the matching position of every caller of the
method. Positions count from the start, or from the end if they are negative. A place with a closed
type is terminal. `Walk` follows edges from a start and keeps the number of steps and the call that
was met last; `Distance` is the least number of steps. -/

namespace TypeOrigins
set_option autoImplicit false

/-! ## Positions -/

section Positions
variable {α : Type} {l : List α} {i : Int}

theorem mem_of_at? {a : α} (h : at? l i = some a) : a ∈ l := by
  unfold at? at h
  split at h
  · exact List.mem_of_getElem? h
  · split at h
    · exact List.mem_of_getElem? h
    · cases h

theorem at?_eq_none_iff : at? l i = none ↔ (l.length : Int) ≤ i ∨ i + l.length < 0 := by
  unfold at?
  split
  · rw [List.getElem?_eq_none_iff]
    omega
  · split
    · rw [List.getElem?_eq_none_iff]
      omega
    · simp only [true_iff]
      omega

theorem at?_isSome_iff : (at? l i).isSome ↔ i < l.length ∧ 0 ≤ i + l.length := by
  rw [Option.isSome_iff_ne_none, ne_eq, at?_eq_none_iff]
  omega

end Positions

/-! ## What stands at a place -/

/-- The type at a place: a type argument, the operand of a type literal, or the static type of the
receiver whose run-time type is asked for. -/
def Subject.symbol? : Subject → Option TypeSymbol
  | .symbol t => some t
  | .value (.typeOf _ operand) => some operand
  | .value (.getType _ receiver) => receiver.staticType
  | _ => none

/-- The subject is a closed type of a known assembly, and `r` refers to it. -/
def Subject.Names (s : Subject) (r : TypeReference) : Prop :=
  ∃ ts, s.symbol? = some (.named r.typeName r.assembly ts) ∧
    (TypeSymbol.named r.typeName r.assembly ts).isClosed = true ∧ r.assembly ≠ ""

/-- What stands at a place of a program: a type argument or an argument of the call with the
identifier, or the initializer of the local. -/
def Program.subjectAt (p : Program) (x : Place) : Subject :=
  match x.kind with
  | .typeArgument =>
      ((p.callSite? x.id).map fun c => c.typeArgumentAt x.position).getD .nothing
  | .argument =>
      ((p.callSite? x.id).bind fun c => (at? c.arguments x.position).map Subject.value).getD
        .nothing
  | .localVariable =>
      ((p.local? x.id).bind fun l => l.initializer.map Subject.value).getD .nothing

theorem Program.subjectAt_typeArgument {p : Program} (hp : (p.callSites.map CallSite.id).Nodup)
    {c : CallSite} (hc : c ∈ p.callSites) (i : Int) :
    p.subjectAt ⟨.typeArgument, c.id, i⟩ = c.typeArgumentAt i := by
  simp only [subjectAt, callSite?_of_mem hp hc, Option.map_some, Option.getD_some]

theorem Program.subjectAt_argument {p : Program} (hp : (p.callSites.map CallSite.id).Nodup)
    {c : CallSite} (hc : c ∈ p.callSites) (i : Int) :
    p.subjectAt ⟨.argument, c.id, i⟩ = ((at? c.arguments i).map Subject.value).getD .nothing := by
  simp only [subjectAt, callSite?_of_mem hp hc, Option.bind_some]

/-! ## What stands in a program -/

/-- The position that a type parameter is bound at. -/
def TypeSymbol.ordinal? : TypeSymbol → Option Int
  | .parameter t => some t.ordinal
  | .named _ _ _ => none

/-- The position at which the callers bind a parameter or a type parameter. -/
def Subject.ordinal? : Subject → Option Int
  | .value (.parameterRef _ _ k) => some k
  | s => s.symbol?.bind TypeSymbol.ordinal?

theorem Subject.ordinal?_of_symbol? {s : Subject} {t : TypeSymbol} (h : s.symbol? = some t) :
    s.ordinal? = t.ordinal? := by
  unfold ordinal?
  split
  · cases h
  · rw [h]
    rfl

/-- All that stands at the positions of a call. -/
def CallSite.subjects (c : CallSite) : List Subject :=
  c.typeArguments.map .symbol ++ c.arguments.map .value

/-- All that stands at the positions of calls and in locals. -/
def Program.subjects (p : Program) : List Subject :=
  p.callSites.flatMap CallSite.subjects ++ (p.locals.filterMap LocalVariable.initializer).map .value

/-- The positions that a call looks for at callers. -/
def CallSite.ordinals (c : CallSite) : List Int := c.subjects.filterMap Subject.ordinal?

/-- The positions that a program looks for at callers. -/
def Program.ordinals (p : Program) : List Int := p.subjects.filterMap Subject.ordinal?

theorem CallSite.typeArgumentAt_eq_nothing_iff {c : CallSite} {i : Int} :
    c.typeArgumentAt i = .nothing ↔ at? c.typeArguments i = none := by
  unfold typeArgumentAt
  cases at? c.typeArguments i <;> simp

theorem CallSite.typeArgumentAt_mem (c : CallSite) (i : Int) :
    c.typeArgumentAt i = .nothing ∨ ∃ t ∈ c.typeArguments, c.typeArgumentAt i = .symbol t := by
  unfold typeArgumentAt
  cases h : at? c.typeArguments i with
  | none => exact Or.inl rfl
  | some t => exact Or.inr ⟨t, mem_of_at? h, rfl⟩

section Subjects
variable {p : Program}

theorem Program.mem_subjects {s : Subject} : s ∈ p.subjects ↔
    (∃ c ∈ p.callSites, s ∈ c.subjects) ∨
      ∃ l ∈ p.locals, ∃ e, l.initializer = some e ∧ s = .value e := by
  unfold subjects
  rw [List.mem_append, List.mem_flatMap, List.mem_map]
  simp only [List.mem_filterMap]
  constructor
  · rintro (h | ⟨e, ⟨l, hl, he⟩, rfl⟩)
    · exact Or.inl h
    · exact Or.inr ⟨l, hl, e, he, rfl⟩
  · rintro (h | ⟨l, hl, e, he, rfl⟩)
    · exact Or.inl h
    · exact Or.inr ⟨e, ⟨l, hl, he⟩, rfl⟩

theorem CallSite.mem_subjects {c : CallSite} {s : Subject} : s ∈ c.subjects ↔
    (∃ t ∈ c.typeArguments, s = .symbol t) ∨ ∃ e ∈ c.arguments, s = .value e := by
  unfold subjects
  rw [List.mem_append, List.mem_map, List.mem_map]
  simp only [eq_comm]

theorem subjectAt_cases (p : Program) (y : Place) :
    p.subjectAt y = .nothing ∨ p.subjectAt y ∈ p.subjects := by
  obtain ⟨kind, id, i⟩ := y
  cases kind with
  | typeArgument =>
    dsimp only [Program.subjectAt]
    cases hc : p.callSite? id with
    | none => exact Or.inl rfl
    | some c =>
      refine (c.typeArgumentAt_mem i).imp_right fun ⟨t, ht, hs⟩ => ?_
      exact Program.mem_subjects.mpr (Or.inl ⟨c, List.mem_of_find?_eq_some hc,
        CallSite.mem_subjects.mpr (Or.inl ⟨t, ht, hs⟩)⟩)
  | argument =>
    dsimp only [Program.subjectAt]
    cases hb : (p.callSite? id).bind fun c => (at? c.arguments i).map Subject.value with
    | none => exact Or.inl rfl
    | some s =>
      obtain ⟨c, hc, hs⟩ := Option.bind_eq_some_iff.mp hb
      obtain ⟨e, he, rfl⟩ := Option.map_eq_some_iff.mp hs
      exact Or.inr (Program.mem_subjects.mpr (Or.inl ⟨c, List.mem_of_find?_eq_some hc,
        CallSite.mem_subjects.mpr (Or.inr ⟨e, mem_of_at? he, rfl⟩)⟩))
  | localVariable =>
    dsimp only [Program.subjectAt]
    cases hb : (p.local? id).bind fun l => l.initializer.map Subject.value with
    | none => exact Or.inl rfl
    | some s =>
      obtain ⟨l, hl, hs⟩ := Option.bind_eq_some_iff.mp hb
      obtain ⟨e, he, rfl⟩ := Option.map_eq_some_iff.mp hs
      exact Or.inr (Program.mem_subjects.mpr (Or.inr ⟨l, Program.mem_locals_of_local? hl, e, he, rfl⟩))

theorem Program.mem_ordinals {s : Subject} (hs : s ∈ p.subjects) {k : Int} (hk : k ∈ s.ordinal?) :
    k ∈ p.ordinals :=
  List.mem_filterMap.mpr ⟨s, hs, hk⟩

theorem Program.mem_ordinals_of_subjectAt {y : Place} {k : Int} (hk : k ∈ (p.subjectAt y).ordinal?) :
    k ∈ p.ordinals := by
  rcases subjectAt_cases p y with hs | hs
  · rw [hs] at hk
    cases hk
  · exact p.mem_ordinals hs hk

end Subjects

/-- The place is a position of the call. -/
def Place.BelongsTo (x : Place) (c : CallSite) : Prop := x.kind ≠ .localVariable ∧ x.id = c.id

namespace Flow

/-! ## Edges -/

/-- From what stands at one place to another place and what stands there: within a method, or over
a caller. A position before the first type argument is a place too, with nothing there. -/
inductive Edge (p : Program) : Subject → Option CallSite → Place → Subject → Prop
  | initializer {note : Annotation} {id : String} {l : LocalVariable} {e : Expression}
      (hl : p.local? id = some l) (hi : l.initializer = some e) (ha : l.assignments = []) :
      Edge p (.value (.localRef note id)) none ⟨.localVariable, id, 0⟩ (.value e)
  | argument {note : Annotation} {methodId : String} {k : Int} {m : Method} {c : CallSite}
      {e : Expression} (hm : p.method? methodId = some m) (hc : c ∈ p.callersOfMethod m)
      (he : at? c.arguments k = some e) :
      Edge p (.value (.parameterRef note methodId k)) (some c) ⟨.argument, c.id, k⟩ (.value e)
  | typeArgument {s : Subject} {t : TypeParameter} {m : Method} {c : CallSite}
      (hs : s.symbol? = some (.parameter t)) (ho : t.ownerKind = .method)
      (hm : p.method? t.ownerId = some m) (hc : c ∈ p.callersOfMethod m)
      (ht : t.ordinal < c.typeArguments.length) :
      Edge p s (some c) ⟨.typeArgument, c.id, t.ordinal⟩ (c.typeArgumentAt t.ordinal)

variable {p : Program} {s s' : Subject} {c : CallSite} {y : Place}

theorem Edge.subjectAt_eq (hp : (p.callSites.map CallSite.id).Nodup) {via : Option CallSite}
    (h : Edge p s via y s') : p.subjectAt y = s' := by
  cases h with
  | initializer hl hi ha =>
    simp only [Program.subjectAt, hl, hi, Option.bind_some, Option.map_some, Option.getD_some]
  | argument hm hc he =>
    rw [Program.subjectAt_argument hp (Program.mem_callSites_of_mem_callersOfMethod hc), he]
    rfl
  | typeArgument hs ho hm hc ht =>
    exact Program.subjectAt_typeArgument hp (Program.mem_callSites_of_mem_callersOfMethod hc) _

theorem Edge.ne_nothing {via : Option CallSite} (h : Edge p s via y s') (hy : y.kind = .argument) :
    s' ≠ .nothing := by
  cases h with
  | initializer hl hi ha => cases hy
  | argument hm hc he => exact nofun
  | typeArgument hs ho hm hc ht => cases hy

/-- What an edge leads to stands in the program, if something is there. -/
theorem Edge.mem_subjects {via : Option CallSite} (h : Edge p s via y s') (hs' : s' ≠ .nothing) :
    s' ∈ p.subjects := by
  rw [Program.mem_subjects]
  cases h with
  | initializer hl hi ha => exact Or.inr ⟨_, Program.mem_locals_of_local? hl, _, hi, rfl⟩
  | argument hm hc he =>
    exact Or.inl ⟨_, Program.mem_callSites_of_mem_callersOfMethod hc,
      CallSite.mem_subjects.mpr (Or.inr ⟨_, mem_of_at? he, rfl⟩)⟩
  | @typeArgument _ t m c hs ho hm hc ht =>
    rcases c.typeArgumentAt_mem t.ordinal with hnothing | hsymbol
    · exact absurd hnothing hs'
    · exact Or.inl ⟨c, Program.mem_callSites_of_mem_callersOfMethod hc,
        CallSite.mem_subjects.mpr (Or.inl hsymbol)⟩

/-- An edge leads to nothing only for a position that counts from the end. -/
theorem Edge.position_neg {via : Option CallSite} (h : Edge p s via y .nothing) :
    ∃ k ∈ s.ordinal?, k < 0 := by
  generalize hs' : Subject.nothing = s' at h
  cases h with
  | initializer hl hi ha => cases hs'
  | argument hm hc he => cases hs'
  | @typeArgument _ t m c hs ho hm hc ht =>
    refine ⟨t.ordinal, Subject.ordinal?_of_symbol? hs, ?_⟩
    have hnone := at?_eq_none_iff.mp (CallSite.typeArgumentAt_eq_nothing_iff.mp hs'.symm)
    omega

theorem Edge.belongsTo (h : Edge p s (some c) y s') : y.BelongsTo c := by
  cases h with
  | argument hm hc he => exact ⟨by simp, rfl⟩
  | typeArgument hs ho hm hc ht => exact ⟨by simp, rfl⟩

/-! ## Walks -/

/-- A walk from the start: the steps to callers it takes, the call it met last, and its end. -/
inductive Walk (p : Program) (origin : CallSite) (start : Place) : ℕ → CallSite → Place → Prop
  | start : Walk p origin start 0 origin start
  | within {k : ℕ} {c : CallSite} {x y : Place} {s : Subject} (h : Walk p origin start k c x)
      (e : Edge p (p.subjectAt x) none y s) : Walk p origin start k c y
  | caller {k : ℕ} {c c' : CallSite} {x y : Place} {s : Subject} (h : Walk p origin start k c x)
      (e : Edge p (p.subjectAt x) (some c') y s) : Walk p origin start (k + 1) c' y

/-- A place that some walk ends at. -/
def Reachable (p : Program) (origin : CallSite) (start y : Place) : Prop :=
  ∃ k c, Walk p origin start k c y

/-- The least number of steps of the walks that end at a place. -/
def Distance (p : Program) (origin : CallSite) (start y : Place) (k : ℕ) : Prop :=
  (∃ c, Walk p origin start k c y) ∧ ∀ j c, Walk p origin start j c y → k ≤ j

/-- The step at a place fails, on some path. -/
def Fails (p : Program) (x : Place) : Prop :=
  ∃ (w : Work) (f : Failure), w.place = x ∧ w.subject = p.subjectAt x ∧ (w.expand p).result = .error f

variable {origin : CallSite} {start : Place}

theorem Distance.reachable {k : ℕ} (h : Distance p origin start y k) : Reachable p origin start y :=
  ⟨k, h.1⟩

theorem Distance.unique {j k : ℕ} (hj : Distance p origin start y j)
    (hk : Distance p origin start y k) : j = k := by
  obtain ⟨c, hc⟩ := hj.1
  obtain ⟨d, hd⟩ := hk.1
  have h₁ := hj.2 k d hd
  have h₂ := hk.2 j c hc
  omega

theorem Reachable.step {x : Place} (h : Reachable p origin start x) {via : Option CallSite}
    (e : Edge p (p.subjectAt x) via y s) : Reachable p origin start y := by
  obtain ⟨k, c, hw⟩ := h
  cases via with
  | none => exact ⟨k, c, hw.within e⟩
  | some c' => exact ⟨k + 1, c', hw.caller e⟩

/-- The last call of a walk has a position on it after which no step to a caller is taken, so that
every walk to the position goes on to the end of this one. -/
theorem Walk.exists_position (hs : start.BelongsTo origin) {k : ℕ} (h : Walk p origin start k c y) :
    ∃ x, x.BelongsTo c ∧ Walk p origin start k c x ∧
      ∀ j d, Walk p origin start j d x → Walk p origin start j d y := by
  induction h with
  | start => exact ⟨start, hs, .start, fun _ _ hw => hw⟩
  | within _ e ih =>
    obtain ⟨x, hx, hw, hon⟩ := ih
    exact ⟨x, hx, hw, fun j d hj => (hon j d hj).within e⟩
  | caller hw e _ => exact ⟨_, e.belongsTo, hw.caller e, fun _ _ hj => hj⟩

end Flow

/-! ## A recursive factory

`Make` passes its parameter on to itself and, through a local, to the call that builds an object;
the entry call passes an expression of its own. -/

namespace Factory

def make : Method where
  id := "Make"
  declaringType := "App.Factory"
  name := "Make"
  parameters := ["type"]

/-- The parameter of `Make`. -/
def parameter : Expression := .parameterRef { text := "type" } "Make" 0

def kind : LocalVariable where
  id := "kind"
  name := "kind"
  methodId := "Make"
  initializer := some parameter

def create : CallSite where
  id := "create"
  location := ⟨"Factory.cs", 3, 4⟩
  target := ⟨"CreateInstance", "System.Activator", "CreateInstance"⟩
  enclosingMethod := some "Make"
  arguments := [.localRef { text := "kind" } "kind"]

def again : CallSite where
  id := "again"
  location := ⟨"Factory.cs", 4, 4⟩
  target := ⟨"Make", "App.Factory", "Make"⟩
  enclosingMethod := some "Make"
  arguments := [parameter]

def entry (e : Expression) : CallSite where
  id := "entry"
  location := ⟨"Program.cs", 9, 0⟩
  target := ⟨"Make", "App.Factory", "Make"⟩
  arguments := [e]

def program (e : Expression) : Program where
  methods := [make]
  locals := [kind]
  callSites := [create, again, entry e]

def widget : Expression := .typeOf { text := "typeof(Widget)" } (.named "App.Widget" "App" [])

end Factory

end TypeOrigins
