import Mathlib.Data.List.Find
import TypeOrigins.Proofs.Origin.Flow
import TypeOrigins.Proofs.Report.Logged

/-! # One expansion

What looking at a place can do, under any guard. `FaultUnder` lists the failures with their call,
construct and cause. Without a fault the expansion meets `ExpandedUnder`: its successors are the
work that the edges of the flow graph lead to, `Work.leads`, in its order and less what the guard
leaves out, and it finds a type if the place is terminal.

The path has a part in one failure alone: a position before the first argument of a caller goes
unnoticed if the guard leaves the place out. Where all argument places of the path have something
there, `Fault`, which no path has a part in, says it all. -/

namespace TypeOrigins
set_option autoImplicit false

/-! ## Paths -/

namespace Context
variable (c : Context) (x y : Place)

theorem contains_iff {x : Place} : c.contains x = true ↔ x ∈ c.visited := List.contains_iff_mem

theorem mem_visit : y ∈ c.visit x ↔ y = x ∨ y ∈ c.visited := by
  unfold visit
  split
  · next h =>
    have hx : x ∈ c.visited := List.contains_iff_mem.mp h
    constructor
    · exact Or.inr
    · rintro (rfl | hy)
      · exact hx
      · exact hy
  · exact List.mem_cons

end Context

/-! ## Work over the callers -/

namespace Binding
variable (b : Binding) (out : Place → Bool) (c : Context)

/-- Why a caller ends the step, if it does, where the places that `out` tells of are left out. -/
def stop? (d : CallSite) : Option Cause :=
  if (b.count d : Int) ≤ b.position then some b.missing
  else if out (b.place d) then none
  else if (b.subject d).isNone then some .positionOutOfRange
  else none

/-- The work at a caller that has the place. -/
def work? (d : CallSite) : Option Work :=
  if (b.count d : Int) ≤ b.position then none
  else (b.subject d).map fun s => ⟨b.place d, d, s, c.descend (b.place d)⟩

end Binding

section Spread
variable (g : Guard) (c : Context) (construct : String) (b : Binding)

theorem spread_cons_of_stop {d : CallSite} {rest : List CallSite} {cause : Cause}
    (h : b.stop? (g c) d = some cause) :
    (spread g c construct b (d :: rest)).result = .error ⟨d, construct, cause, some c.origin⟩ := by
  unfold Binding.stop? at h
  unfold spread
  split at h
  · next hcount =>
    cases h
    rw [if_pos hcount]
    rfl
  · next hcount =>
    split at h
    · cases h
    · next hout =>
      split at h
      · next hnone =>
        cases h
        rw [if_neg hcount, if_neg hout, Option.isNone_iff_eq_none.mp hnone]
        rfl
      · cases h

theorem spread_cons_of_free {d : CallSite} {rest : List CallSite} (h : b.stop? (g c) d = none) :
    (spread g c construct b (d :: rest)).result = (spread g c construct b rest).result.map
      fun works => ((b.work? c d).toList.filter fun v => !g c v.place) ++ works := by
  unfold Binding.stop? at h
  rw [spread]
  split at h
  · cases h
  · next hcount =>
    have hwork : b.work? c d =
        (b.subject d).map fun s => ⟨b.place d, d, s, c.descend (b.place d)⟩ := if_neg hcount
    rw [if_neg hcount, hwork]
    split at h
    · next hout =>
      rw [if_pos hout, Logged.result_say_bind]
      cases b.subject d <;> cases (spread g c construct b rest).result <;> simp [hout, Except.map]
    · next hout =>
      rw [if_neg hout]
      cases hs : b.subject d with
      | none => simp [hs] at h
      | some s =>
        cases hr : (spread g c construct b rest).result with
        | error f => exact Logged.result_bind_of_error _ hr
        | ok works =>
          rw [Logged.result_bind_of_ok _ hr]
          simp [hout, Except.map]

variable {g c b} {q : CallSite → Bool} {cause : Cause} {callers : List CallSite}

/-- The first caller that ends the step is named. -/
theorem spread_of_stop (hstop : ∀ d, b.stop? (g c) d = if q d then some cause else none) {d : CallSite}
    (hd : callers.find? q = some d) :
    (spread g c construct b callers).result = .error ⟨d, construct, cause, some c.origin⟩ := by
  induction callers with
  | nil => cases hd
  | cons a rest ih =>
    cases ha : q a with
    | true =>
      rw [List.find?_cons_of_pos ha] at hd
      cases hd
      exact spread_cons_of_stop g c construct b (by rw [hstop, if_pos ha])
    | false =>
      have ha' : ¬ q a = true := by simp [ha]
      rw [List.find?_cons_of_neg ha'] at hd
      rw [spread_cons_of_free g c construct b (by rw [hstop, if_neg ha']), ih hd]
      rfl

theorem spread_of_free (hstop : ∀ d, b.stop? (g c) d = if q d then some cause else none)
    (hd : callers.find? q = none) : (spread g c construct b callers).result =
      .ok ((callers.filterMap (b.work? c)).filter fun v => !g c v.place) := by
  induction callers with
  | nil => rfl
  | cons a rest ih =>
    have ha : q a ≠ true := List.find?_eq_none.mp hd a List.mem_cons_self
    rw [List.find?_cons_of_neg ha] at hd
    rw [spread_cons_of_free g c construct b (by rw [hstop, if_neg ha]), ih hd]
    have hcons : (a :: rest).filterMap (b.work? c) =
        (b.work? c a).toList ++ rest.filterMap (b.work? c) := by
      cases hwork : b.work? c a <;> simp [hwork]
    rw [hcons, List.filter_append]
    rfl

end Spread

theorem TypeParameter.stop?_binding (t : TypeParameter) (out : Place → Bool) (d : CallSite) :
    t.binding.stop? out d =
      if decide ((d.typeArguments.length : Int) ≤ t.ordinal) then some (.typeParameterUnbound t.name)
      else none := by
  simp [Binding.stop?, TypeParameter.binding]

theorem stop?_parameterBinding_of_nonneg {k : Int} (hk : 0 ≤ k) (name : String)
    (out : Place → Bool) (d : CallSite) : (parameterBinding k name).stop? out d =
      if decide ((d.arguments.length : Int) ≤ k) then some (.argumentMissing name) else none := by
  have hbound : ¬ (d.arguments.length : Int) ≤ k → (at? d.arguments k).isNone = false := by
    intro h
    rw [Option.isNone_eq_false_iff, at?_isSome_iff]
    omega
  simp only [Binding.stop?, parameterBinding, Option.isNone_map, decide_eq_true_eq]
  split
  · rfl
  · next h => simp [hbound h]

theorem stop?_parameterBinding_of_neg {k : Int} (hk : k < 0) (name : String) (out : Place → Bool)
    (d : CallSite) : (parameterBinding k name).stop? out d =
      if !out ⟨.argument, d.id, k⟩ && (at? d.arguments k).isNone then some .positionOutOfRange
      else none := by
  have hcount : ¬ (d.arguments.length : Int) ≤ k := by omega
  simp only [Binding.stop?, parameterBinding, Binding.place, Option.isNone_map, hcount, if_false]
  cases out ⟨.argument, d.id, k⟩ <;> rfl

/-! ## The steps for type parameters and parameters -/

theorem result_say_first {ε α : Type} (b : Bool) (e : Event) (x : Logged ε α) :
    (if b = true then (do Logged.say e; x) else x).result = x.result := by
  split
  · exact Logged.result_say_bind e _
  · rfl

section Steps
variable {g : Guard} {p : Program} {m : Method}

theorem traceTypeParameter_eq (site : CallSite) {t : TypeParameter} (c : Context)
    (ho : t.ownerKind = .method) (hm : p.method? t.ownerId = some m) :
    (traceTypeParameter g p site t c).result =
      (spread g c m.display t.binding (p.callersOfMethod m) >>=
        fun works => pure { successors := works }).result := by
  unfold traceTypeParameter
  simp only [ho, hm]
  rw [result_say_first]

theorem traceParameter_eq (site : CallSite) (reference : Expression) {methodId : String} {k : Int}
    {name : String} (c : Context) (hm : p.method? methodId = some m)
    (hname : m.parameterName k = .ok name)
    (hg : (p.callersOfMethod m).find? CallSite.isGeneric = none) :
    (traceParameter g p site reference methodId k c).result =
      (spread g c m.display (parameterBinding k name) (p.callersOfMethod m) >>=
        fun works => pure { successors := works }).result := by
  unfold traceParameter
  simp only [hm, hname, hg]
  rw [result_say_first]

end Steps

/-! ## Faults -/

/-- The text that names a subject in failures. -/
def Subject.construct : Subject → String
  | .symbol t => t.display
  | .value e => e.describe
  | .nothing => ""

/-- The failures of the step at a place where a subject stands, `site` is the call met last and the
places that `out` tells of are left out: the call that is named, the construct and the cause. -/
inductive FaultUnder (p : Program) (out : Place → Bool) (site : CallSite) :
    Subject → CallSite → String → Cause → Prop
  | nothing : FaultUnder p out site .nothing site site.target.display .positionOutOfRange
  | untraced (note : Annotation) (kind : UntracedKind) :
      FaultUnder p out site (.value (.untraced note kind)) site
        (Expression.untraced note kind).describe (.untracedShape kind.word)
  | receiverType {note : Annotation} {receiver : Expression} (h : receiver.staticType = none) :
      FaultUnder p out site (.value (.getType note receiver)) site
        (Expression.getType note receiver).describe .receiverTypeUnknown
  | openType {s : Subject} {n a : String} {ts : List TypeSymbol}
      (hs : s.symbol? = some (.named n a ts)) (ho : (TypeSymbol.named n a ts).isClosed = false) :
      FaultUnder p out site s site s.construct (.openType (.named n a ts))
  | assembly {s : Subject} {n a : String} {ts : List TypeSymbol}
      (hs : s.symbol? = some (.named n a ts)) (hc : (TypeSymbol.named n a ts).isClosed = true)
      (ha : a = "") : FaultUnder p out site s site s.construct (.assemblyUnknown (.named n a ts))
  | enclosingType {s : Subject} {t : TypeParameter} (hs : s.symbol? = some (.parameter t))
      (ho : t.ownerKind = .type) : FaultUnder p out site s site t.name .enclosingTypeParameter
  | typeParameterMethod {s : Subject} {t : TypeParameter} (hs : s.symbol? = some (.parameter t))
      (ho : t.ownerKind = .method) (hm : p.method? t.ownerId = none) :
      FaultUnder p out site s site t.name (.methodUnknown t.ownerId)
  | unbound {s : Subject} {t : TypeParameter} {m : Method} {d : CallSite}
      (hs : s.symbol? = some (.parameter t)) (ho : t.ownerKind = .method)
      (hm : p.method? t.ownerId = some m)
      (hd : (p.callersOfMethod m).find? (fun d => (d.typeArguments.length : Int) ≤ t.ordinal) = some d) :
      FaultUnder p out site s d m.display (.typeParameterUnbound t.name)
  | undeclared {note : Annotation} {id : String} (hl : p.local? id = none) :
      FaultUnder p out site (.value (.localRef note id)) site
        (Expression.localRef note id).describe (.localUndeclared id)
  | uninitialized {note : Annotation} {id : String} {l : LocalVariable}
      (hl : p.local? id = some l) (hi : l.initializer = none) :
      FaultUnder p out site (.value (.localRef note id)) site l.name .localUninitialized
  | reassigned {note : Annotation} {id : String} {l : LocalVariable} {e : Expression}
      (hl : p.local? id = some l) (hi : l.initializer = some e) (ha : l.assignments ≠ []) :
      FaultUnder p out site (.value (.localRef note id)) site l.name
        (.localReassigned (l.assignments.length + 1))
  | parameterMethod {note : Annotation} {methodId : String} {k : Int}
      (hm : p.method? methodId = none) :
      FaultUnder p out site (.value (.parameterRef note methodId k)) site
        (Expression.parameterRef note methodId k).describe (.methodUnknown methodId)
  | parameterName {note : Annotation} {methodId : String} {k : Int} {m : Method} {cause : Cause}
      (hm : p.method? methodId = some m) (hname : m.parameterName k = .error cause) :
      FaultUnder p out site (.value (.parameterRef note methodId k)) site
        (Expression.parameterRef note methodId k).describe cause
  | genericCaller {note : Annotation} {methodId : String} {k : Int} {m : Method} {name : String}
      {d : CallSite} (hm : p.method? methodId = some m) (hname : m.parameterName k = .ok name)
      (hd : (p.callersOfMethod m).find? CallSite.isGeneric = some d) :
      FaultUnder p out site (.value (.parameterRef note methodId k)) d m.display
        (.genericCaller name)
  | argumentMissing {note : Annotation} {methodId : String} {k : Int} {m : Method} {name : String}
      {d : CallSite} (hm : p.method? methodId = some m) (hname : m.parameterName k = .ok name)
      (hg : (p.callersOfMethod m).find? CallSite.isGeneric = none)
      (hd : (p.callersOfMethod m).find? (fun d => (d.arguments.length : Int) ≤ k) = some d) :
      FaultUnder p out site (.value (.parameterRef note methodId k)) d m.display
        (.argumentMissing name)
  | argumentBefore {note : Annotation} {methodId : String} {k : Int} {m : Method} {name : String}
      {d : CallSite} (hm : p.method? methodId = some m) (hname : m.parameterName k = .ok name)
      (hg : (p.callersOfMethod m).find? CallSite.isGeneric = none) (hk : k < 0)
      (hd : (p.callersOfMethod m).find?
        (fun d => !out ⟨.argument, d.id, k⟩ && (at? d.arguments k).isNone) = some d) :
      FaultUnder p out site (.value (.parameterRef note methodId k)) d m.display
        .positionOutOfRange

/-- The failures where no place is left out. -/
abbrev Fault (p : Program) : CallSite → Subject → CallSite → String → Cause → Prop :=
  FaultUnder p fun _ => false

namespace FaultUnder
variable {p : Program} {out : Place → Bool} {site d : CallSite} {s : Subject} {construct : String}
  {cause : Cause}

/-- Where some places are left out, a fault is one where none is, at the same cause. -/
theorem exists_fault (h : FaultUnder p out site s d construct cause) (site' : CallSite) :
    ∃ d' construct', Fault p site' s d' construct' cause := by
  cases h with
  | nothing => exact ⟨_, _, .nothing⟩
  | untraced note kind => exact ⟨_, _, .untraced note kind⟩
  | receiverType h => exact ⟨_, _, .receiverType h⟩
  | openType hs ho => exact ⟨_, _, .openType hs ho⟩
  | assembly hs hc ha => exact ⟨_, _, .assembly hs hc ha⟩
  | enclosingType hs ho => exact ⟨_, _, .enclosingType hs ho⟩
  | typeParameterMethod hs ho hm => exact ⟨_, _, .typeParameterMethod hs ho hm⟩
  | unbound hs ho hm hd => exact ⟨_, _, .unbound hs ho hm hd⟩
  | undeclared hl => exact ⟨_, _, .undeclared hl⟩
  | uninitialized hl hi => exact ⟨_, _, .uninitialized hl hi⟩
  | reassigned hl hi ha => exact ⟨_, _, .reassigned hl hi ha⟩
  | parameterMethod hm => exact ⟨_, _, .parameterMethod hm⟩
  | parameterName hm hname => exact ⟨_, _, .parameterName hm hname⟩
  | genericCaller hm hname hd => exact ⟨_, _, .genericCaller hm hname hd⟩
  | argumentMissing hm hname hg hd => exact ⟨_, _, .argumentMissing hm hname hg hd⟩
  | @argumentBefore note methodId k m name d hm hname hg hk hd =>
    have hboth := List.find?_some hd
    rw [Bool.and_eq_true] at hboth
    have hlacks : ∃ d' ∈ p.callersOfMethod m, (!false && (at? d'.arguments k).isNone) = true :=
      ⟨d, List.mem_of_find?_eq_some hd, hboth.2⟩
    obtain ⟨d', hd'⟩ := Option.isSome_iff_exists.mp (List.find?_isSome.mpr hlacks)
    exact ⟨d', _, .argumentBefore hm hname hg hk hd'⟩

end FaultUnder

/-- No caller that the subject leads to lacks an argument, counted from the end, whose place is left
out. -/
def Steady (p : Program) (out : Place → Bool) (s : Subject) : Prop :=
  ∀ note methodId k m, s = .value (.parameterRef note methodId k) → k < 0 →
    p.method? methodId = some m → ∀ d ∈ p.callersOfMethod m, out ⟨.argument, d.id, k⟩ = true →
      (at? d.arguments k).isSome

theorem Steady.never (p : Program) (s : Subject) : Steady p (fun _ => false) s := by
  intro note methodId k m hs hk hm d hd h
  cases h

/-- A caller that lacks an argument counted from the end is the one fault in which the places that are
left out have a part. -/
theorem FaultUnder.out_cases {p : Program} {out : Place → Bool} {site d : CallSite} {s : Subject}
    {construct : String} {cause : Cause} (h : FaultUnder p out site s d construct cause) :
    (∀ out', FaultUnder p out' site s d construct cause) ∨
      cause = .positionOutOfRange ∧ ∃ note methodId k m name,
        s = .value (.parameterRef note methodId k) ∧ k < 0 ∧ p.method? methodId = some m ∧
        m.parameterName k = .ok name ∧ (p.callersOfMethod m).find? CallSite.isGeneric = none ∧
        construct = m.display ∧ (p.callersOfMethod m).find?
          (fun d => !out ⟨.argument, d.id, k⟩ && (at? d.arguments k).isNone) = some d := by
  cases h with
  | nothing => exact Or.inl fun _ => .nothing
  | untraced note kind => exact Or.inl fun _ => .untraced note kind
  | receiverType h => exact Or.inl fun _ => .receiverType h
  | openType hs ho => exact Or.inl fun _ => .openType hs ho
  | assembly hs hc ha => exact Or.inl fun _ => .assembly hs hc ha
  | enclosingType hs ho => exact Or.inl fun _ => .enclosingType hs ho
  | typeParameterMethod hs ho hm => exact Or.inl fun _ => .typeParameterMethod hs ho hm
  | unbound hs ho hm hd => exact Or.inl fun _ => .unbound hs ho hm hd
  | undeclared hl => exact Or.inl fun _ => .undeclared hl
  | uninitialized hl hi => exact Or.inl fun _ => .uninitialized hl hi
  | reassigned hl hi ha => exact Or.inl fun _ => .reassigned hl hi ha
  | parameterMethod hm => exact Or.inl fun _ => .parameterMethod hm
  | parameterName hm hname => exact Or.inl fun _ => .parameterName hm hname
  | genericCaller hm hname hd => exact Or.inl fun _ => .genericCaller hm hname hd
  | argumentMissing hm hname hg hd => exact Or.inl fun _ => .argumentMissing hm hname hg hd
  | argumentBefore hm hname hg hk hd =>
    exact Or.inr ⟨rfl, _, _, _, _, _, rfl, hk, hm, hname, hg, rfl, hd⟩

/-- A fault is the same whatever places are left out. -/
theorem FaultUnder.change {p : Program} {out out' : Place → Bool} {site d : CallSite} {s : Subject}
    {construct : String} {cause : Cause} (hout : Steady p out s) (hout' : Steady p out' s)
    (h : FaultUnder p out site s d construct cause) :
    FaultUnder p out' site s d construct cause := by
  rcases h.out_cases with hall | ⟨rfl, note, methodId, k, m, name, rfl, hk, hm, hname, hg, rfl, hd⟩
  · exact hall out'
  · refine .argumentBefore hm hname hg hk ?_
    rw [← hd]
    apply List.find?_congr
    intro c hc
    have hsome := hout note methodId k m rfl hk hm c hc
    have hsome' := hout' note methodId k m rfl hk hm c hc
    cases hat : at? c.arguments k with
    | none =>
      rw [hat] at hsome hsome'
      simp_all
    | some e => simp

/-- Where fewer places are left out, a fault is the same, or an argument counted from the end is
lacking. -/
theorem FaultUnder.change_or {p : Program} {out out' : Place → Bool} {site d : CallSite} {s : Subject}
    {construct : String} {cause : Cause} (hout : ∀ y, out' y = true → out y = true)
    (h : FaultUnder p out site s d construct cause) :
    FaultUnder p out' site s d construct cause ∨
      ∃ d' construct', FaultUnder p out' site s d' construct' .positionOutOfRange := by
  rcases h.out_cases with hall | ⟨rfl, note, methodId, k, m, name, rfl, hk, hm, hname, hg, rfl, hd⟩
  · exact Or.inl (hall out')
  · have hlacks : ∃ d' ∈ p.callersOfMethod m,
        (!out' ⟨.argument, d'.id, k⟩ && (at? d'.arguments k).isNone) = true := by
      have hboth := List.find?_some hd
      rw [Bool.and_eq_true, Bool.not_eq_true'] at hboth
      refine ⟨d, List.mem_of_find?_eq_some hd, ?_⟩
      have hin : out' ⟨.argument, d.id, k⟩ = false := by
        rw [← Bool.not_eq_true]
        intro hin
        rw [hout _ hin] at hboth
        cases hboth.1
      rw [hin, hboth.2]
      rfl
    obtain ⟨d', hd'⟩ := Option.isSome_iff_exists.mp (List.find?_isSome.mpr hlacks)
    exact Or.inr ⟨d', _, .argumentBefore hm hname hg hk hd'⟩

namespace Work

theorem expandUnder_of_symbol (g : Guard) (p : Program) {w : Work} {t : TypeSymbol}
    (h : w.subject.symbol? = some t) :
    w.expandUnder g p = traceSymbol g p w.site t w.subject.construct w.context := by
  obtain ⟨place, site, subject, context⟩ := w
  cases subject with
  | symbol u =>
    cases h
    rfl
  | value e =>
    cases e with
    | typeOf note operand =>
      cases h
      rfl
    | getType note receiver =>
      change receiver.staticType = some t at h
      simp only [expandUnder, traceValue, h]
      rfl
    | localRef note id => cases h
    | parameterRef note methodId k => cases h
    | untraced note kind => cases h
  | nothing => cases h

theorem expandUnder_of_fault {g : Guard} {p : Program} {w : Work} {d : CallSite}
    {construct : String} {cause : Cause}
    (h : FaultUnder p (g w.context) w.site w.subject d construct cause) :
    (w.expandUnder g p).result = .error ⟨d, construct, cause, some w.context.origin⟩ := by
  obtain ⟨place, site, subject, context⟩ := w
  cases h with
  | nothing => rfl
  | untraced note kind => rfl
  | receiverType h =>
    simp only [expandUnder, traceValue, h]
    rfl
  | openType hs ho =>
    rw [expandUnder_of_symbol g p hs]
    simp only [traceSymbol, ho]
    rfl
  | assembly hs hc ha =>
    rw [expandUnder_of_symbol g p hs]
    subst ha
    simp only [traceSymbol, hc]
    rfl
  | enclosingType hs ho =>
    rw [expandUnder_of_symbol g p hs]
    simp only [traceSymbol, traceTypeParameter, ho]
    rfl
  | typeParameterMethod hs ho hm =>
    rw [expandUnder_of_symbol g p hs]
    simp only [traceSymbol, traceTypeParameter, ho, hm]
    rfl
  | unbound hs ho hm hd =>
    rw [expandUnder_of_symbol g p hs]
    simp only [traceSymbol]
    rw [traceTypeParameter_eq _ _ ho hm]
    exact Logged.result_bind_of_error _ (spread_of_stop _ (TypeParameter.stop?_binding _ _) hd)
  | undeclared hl =>
    simp only [expandUnder, traceValue, traceLocal, hl]
    rfl
  | uninitialized hl hi =>
    simp only [expandUnder, traceValue, traceLocal, hl, hi]
    rfl
  | reassigned hl hi ha =>
    have hne := List.isEmpty_eq_false_iff.mpr ha
    simp only [expandUnder, traceValue, traceLocal, hl, hi, hne]
    rfl
  | parameterMethod hm =>
    simp only [expandUnder, traceValue, traceParameter, hm]
    rfl
  | parameterName hm hname =>
    simp only [expandUnder, traceValue, traceParameter, hm, hname]
    rfl
  | genericCaller hm hname hd =>
    simp only [expandUnder, traceValue, traceParameter, hm, hname, hd]
    rfl
  | @argumentMissing _ _ k m name d hm hname hg hd =>
    have hlacks : (d.arguments.length : Int) ≤ k := by simpa using List.find?_some hd
    have hstop := stop?_parameterBinding_of_nonneg (k := k) (by omega) name (g context)
    simp only [expandUnder, traceValue]
    rw [traceParameter_eq _ _ _ hm hname hg]
    exact Logged.result_bind_of_error _ (spread_of_stop _ hstop hd)
  | argumentBefore hm hname hg hk hd =>
    simp only [expandUnder, traceValue]
    rw [traceParameter_eq _ _ _ hm hname hg]
    exact Logged.result_bind_of_error _ (spread_of_stop _ (stop?_parameterBinding_of_neg hk _ _) hd)

/-! ## Where a place leads -/

/-- The work that an edge leads to. -/
def follow (w : Work) (via : Option CallSite) (y : Place) (s : Subject) : Work :=
  match via with
  | none => ⟨y, w.site, s, w.context.enter y⟩
  | some d => ⟨y, d, s, w.context.descend y⟩

@[simp] theorem follow_place {w : Work} {via : Option CallSite} {y : Place} {s : Subject} :
    (w.follow via y s).place = y := by cases via <;> rfl

@[simp] theorem follow_subject {w : Work} {via : Option CallSite} {y : Place} {s : Subject} :
    (w.follow via y s).subject = s := by cases via <;> rfl

/-- The work at the callers of a method. -/
def boundIn (p : Program) (methodId : String) (b : Binding) (c : Context) : List Work :=
  ((p.method? methodId).map fun m => (p.callersOfMethod m).filterMap (b.work? c)).getD []

/-- The work that the edges from a type lead to. -/
def symbolLeads (p : Program) (c : Context) : TypeSymbol → List Work
  | .parameter t => if t.ownerKind = .method then boundIn p t.ownerId t.binding c else []
  | .named _ _ _ => []

/-- The work that the edges from a place lead to, in the order in which it is met. -/
def leads (p : Program) (w : Work) : List Work :=
  match w.subject with
  | .value (.localRef _ id) =>
      ((p.local? id).bind fun l =>
        if l.assignments.isEmpty then
          l.initializer.map fun e => w.follow none ⟨.localVariable, l.id, 0⟩ (.value e)
        else none).toList
  | .value (.parameterRef _ methodId k) => boundIn p methodId (parameterBinding k "") w.context
  | s => (s.symbol?.map (symbolLeads p w.context)).getD []

variable {g : Guard} {p : Program} {w : Work}

theorem leads_of_symbol {t : TypeSymbol} (h : w.subject.symbol? = some t) :
    w.leads p = symbolLeads p w.context t := by
  unfold leads
  split
  · next hs =>
    rw [hs] at h
    cases h
  · next hs =>
    rw [hs] at h
    cases h
  · rw [h]
    rfl

theorem mem_boundIn {methodId : String} {b : Binding} {c : Context} {v : Work} :
    v ∈ boundIn p methodId b c ↔ ∃ m, p.method? methodId = some m ∧ ∃ d ∈ p.callersOfMethod m,
      b.work? c d = some v := by
  unfold boundIn
  cases p.method? methodId with
  | none => simp
  | some m => simp [List.mem_filterMap]

theorem work?_typeParameter {t : TypeParameter} {c : Context} {d : CallSite} {v : Work} :
    t.binding.work? c d = some v ↔ t.ordinal < d.typeArguments.length ∧
      v = ⟨⟨.typeArgument, d.id, t.ordinal⟩, d, d.typeArgumentAt t.ordinal,
        c.descend ⟨.typeArgument, d.id, t.ordinal⟩⟩ := by
  unfold Binding.work? TypeParameter.binding Binding.place
  dsimp only
  split
  · next h =>
    constructor
    · intro hv
      cases hv
    · rintro ⟨hlt, _⟩
      omega
  · next h =>
    rw [Option.map_some, Option.some.injEq, eq_comm]
    exact (and_iff_right (by omega)).symm

theorem work?_parameter {k : Int} {name : String} {c : Context} {d : CallSite} {v : Work} :
    (parameterBinding k name).work? c d = some v ↔ ∃ e, at? d.arguments k = some e ∧
      v = ⟨⟨.argument, d.id, k⟩, d, .value e, c.descend ⟨.argument, d.id, k⟩⟩ := by
  unfold Binding.work? parameterBinding Binding.place
  dsimp only
  split
  · next h =>
    rw [at?_eq_none_iff.mpr (Or.inl h)]
    simp
  · rw [Option.map_map, Option.map_eq_some_iff]
    constructor
    · rintro ⟨e, he, rfl⟩
      exact ⟨e, he, rfl⟩
    · rintro ⟨e, he, rfl⟩
      exact ⟨e, he, rfl⟩

theorem mem_leads_of_local {note : Annotation} {id : String}
    (hs : w.subject = .value (.localRef note id)) {v : Work} : v ∈ w.leads p ↔
      ∃ via y s, Flow.Edge p w.subject via y s ∧ v = w.follow via y s := by
  simp only [leads, hs, Option.mem_toList, Option.bind_eq_some_iff]
  constructor
  · rintro ⟨l, hl, hv⟩
    split at hv
    · next ha =>
      obtain ⟨e, hi, rfl⟩ := Option.map_eq_some_iff.mp hv
      have hid := Program.id_of_local? hl
      rw [hid]
      exact ⟨none, _, _, .initializer hl hi (List.isEmpty_iff.mp ha), rfl⟩
    · cases hv
  · rintro ⟨via, y, s, he, rfl⟩
    cases he with
    | @initializer _ _ l e hl hi ha =>
      refine ⟨l, hl, ?_⟩
      rw [if_pos (List.isEmpty_iff.mpr ha), hi, Program.id_of_local? hl]
      rfl
    | typeArgument hs' ho hm hd ht => cases hs'

theorem mem_leads_of_parameter {note : Annotation} {methodId : String} {k : Int}
    (hs : w.subject = .value (.parameterRef note methodId k)) {v : Work} : v ∈ w.leads p ↔
      ∃ via y s, Flow.Edge p w.subject via y s ∧ v = w.follow via y s := by
  simp only [leads, hs]
  rw [mem_boundIn]
  constructor
  · rintro ⟨m, hm, d, hd, hwork⟩
    obtain ⟨e, he, rfl⟩ := work?_parameter.mp hwork
    exact ⟨some d, _, _, .argument hm hd he, rfl⟩
  · rintro ⟨via, y, s, he, rfl⟩
    cases he with
    | argument hm hd he => exact ⟨_, hm, _, hd, work?_parameter.mpr ⟨_, he, rfl⟩⟩
    | typeArgument hs' ho hm hd ht => cases hs'

theorem mem_leads_of_symbol {t : TypeSymbol} (ht : w.subject.symbol? = some t) {v : Work} :
    v ∈ w.leads p ↔ ∃ via y s, Flow.Edge p w.subject via y s ∧ v = w.follow via y s := by
  rw [leads_of_symbol ht]
  constructor
  · intro hv
    cases t with
    | named n a ts => cases hv
    | parameter t =>
      simp only [symbolLeads] at hv
      split at hv
      · next ho =>
        obtain ⟨m, hm, d, hd, hwork⟩ := mem_boundIn.mp hv
        obtain ⟨hlt, rfl⟩ := work?_typeParameter.mp hwork
        exact ⟨some d, _, _, .typeArgument ht ho hm hd hlt, rfl⟩
      · cases hv
  · rintro ⟨via, y, s, he, rfl⟩
    generalize w.subject = subject at he ht
    cases he with
    | initializer hl hi ha => cases ht
    | argument hm hc he => cases ht
    | typeArgument ht' ho hm hd hlt =>
      rw [ht] at ht'
      cases ht'
      rw [symbolLeads, if_pos ho]
      exact mem_boundIn.mpr ⟨_, hm, _, hd, work?_typeParameter.mpr ⟨hlt, rfl⟩⟩

/-- What is neither a local nor a parameter and names no type leads nowhere. -/
theorem mem_leads_of_none (hl : ∀ note id, w.subject ≠ .value (.localRef note id))
    (hp : ∀ note methodId k, w.subject ≠ .value (.parameterRef note methodId k))
    (ht : w.subject.symbol? = none) {v : Work} :
    v ∈ w.leads p ↔ ∃ via y s, Flow.Edge p w.subject via y s ∧ v = w.follow via y s := by
  have hleads : w.leads p = [] := by
    unfold leads
    split
    · next hs => exact absurd hs (hl _ _)
    · next hs => exact absurd hs (hp _ _ _)
    · rw [ht]
      rfl
  rw [hleads]
  constructor
  · intro hv
    cases hv
  · rintro ⟨via, y, s, he, rfl⟩
    generalize w.subject = subject at he hl hp ht
    cases he with
    | initializer _ _ _ => exact absurd rfl (hl _ _)
    | argument _ _ _ => exact absurd rfl (hp _ _ _)
    | typeArgument ht' _ _ _ _ =>
      rw [ht] at ht'
      cases ht'

/-- What a place leads to are the ends of its edges. -/
theorem mem_leads {v : Work} : v ∈ w.leads p ↔
    ∃ via y s, Flow.Edge p w.subject via y s ∧ v = w.follow via y s := by
  cases ht : w.subject.symbol? with
  | some t => exact mem_leads_of_symbol ht
  | none =>
    by_cases hl : ∃ note id, w.subject = .value (.localRef note id)
    · obtain ⟨note, id, hs⟩ := hl
      exact mem_leads_of_local hs
    by_cases hp : ∃ note methodId k, w.subject = .value (.parameterRef note methodId k)
    · obtain ⟨note, methodId, k, hs⟩ := hp
      exact mem_leads_of_parameter hs
    push Not at hl hp
    exact mem_leads_of_none hl hp ht

theorem length_boundIn_le (methodId : String) (b : Binding) (c : Context) :
    (boundIn p methodId b c).length ≤ p.callSites.length := by
  unfold boundIn
  cases p.method? methodId with
  | none => exact Nat.zero_le _
  | some m => exact (List.length_filterMap_le _ _).trans (p.length_callersOfMethod_le m)

theorem length_leads_le : (w.leads p).length ≤ p.callSites.length + 1 := by
  unfold leads
  split
  · exact Option.length_toList_le.trans (Nat.le_add_left 1 _)
  · exact (length_boundIn_le _ _ _).trans (Nat.le_succ _)
  · cases w.subject.symbol? with
    | none => exact Nat.zero_le _
    | some t =>
      cases t with
      | named n a ts => exact Nat.zero_le _
      | parameter t =>
        simp only [Option.map_some, Option.getD_some, symbolLeads]
        split
        · exact (length_boundIn_le _ _ _).trans (Nat.le_succ _)
        · exact Nat.zero_le _

/-! ## The two outcomes -/

/-- What an expansion without a fault gives. -/
structure ExpandedUnder (g : Guard) (p : Program) (w : Work) (x : Expansion) : Prop where
  successors_eq : x.successors = (w.leads p).filter fun v => !g w.context v.place
  found_iff : ∀ r, x.found = some r ↔ w.subject.Names r

theorem ExpandedUnder.length_le {x : Expansion} (h : w.ExpandedUnder g p x) :
    x.successors.length ≤ p.callSites.length + 1 := by
  rw [h.successors_eq]
  exact (List.length_filter_le _ _).trans length_leads_le

theorem ExpandedUnder.mem_successors_iff {x : Expansion} (h : w.ExpandedUnder g p x) (v : Work) :
    v ∈ x.successors ↔ ∃ via y s, Flow.Edge p w.subject via y s ∧ g w.context y = false ∧
      v = w.follow via y s := by
  rw [h.successors_eq, List.mem_filter, mem_leads]
  constructor
  · rintro ⟨⟨via, y, s, he, rfl⟩, hout⟩
    rw [follow_place] at hout
    exact ⟨via, y, s, he, by simpa using hout, rfl⟩
  · rintro ⟨via, y, s, he, hout, rfl⟩
    exact ⟨⟨via, y, s, he, rfl⟩, by simpa using hout⟩

/-- Either there is a fault, or the expansion gives all that the flow graph says. -/
def OutcomeUnder (g : Guard) (p : Program) (w : Work) : Prop :=
  (∃ d construct cause, FaultUnder p (g w.context) w.site w.subject d construct cause) ∨
    ∃ x, (w.expandUnder g p).result = .ok x ∧ w.ExpandedUnder g p x

theorem outcome_of_fault {s : Subject} (hs : w.subject = s) {d : CallSite} {construct : String}
    {cause : Cause} (h : FaultUnder p (g w.context) w.site s d construct cause) :
    OutcomeUnder g p w := by
  subst hs
  exact Or.inl ⟨d, construct, cause, h⟩

theorem none_found_iff {s : Subject} (hs : ∀ n a ts, s.symbol? ≠ some (.named n a ts))
    (r : TypeReference) : none = some r ↔ s.Names r := by
  constructor
  · intro h
    cases h
  · rintro ⟨ts, h, _⟩
    exact absurd h (hs _ _ ts)

/-- The step at the callers of a method, if none of them ends it. -/
theorem expanded_of_spread {methodId : String} {m : Method} {b : Binding}
    (hs : ∀ n a ts, w.subject.symbol? ≠ some (.named n a ts)) (hm : p.method? methodId = some m)
    (hleads : w.leads p = boundIn p methodId b w.context) :
    w.ExpandedUnder g p { successors :=
      ((p.callersOfMethod m).filterMap (b.work? w.context)).filter fun v => !g w.context v.place } where
  successors_eq := by rw [hleads, boundIn, hm]; rfl
  found_iff := none_found_iff hs

theorem outcome_of_typeParameter {t : TypeParameter} (hs : w.subject.symbol? = some (.parameter t)) :
    OutcomeUnder g p w := by
  cases ho : t.ownerKind with
  | type => exact outcome_of_fault rfl (.enclosingType hs ho)
  | method =>
    cases hm : p.method? t.ownerId with
    | none => exact outcome_of_fault rfl (.typeParameterMethod hs ho hm)
    | some m =>
      cases hd : (p.callersOfMethod m).find?
          (fun d => (d.typeArguments.length : Int) ≤ t.ordinal) with
      | some d => exact outcome_of_fault rfl (.unbound hs ho hm hd)
      | none =>
        have hleads : w.leads p = boundIn p t.ownerId t.binding w.context := by
          rw [leads_of_symbol hs]
          exact if_pos ho
        refine Or.inr ⟨_, ?_, expanded_of_spread (by simp [hs]) hm hleads⟩
        rw [expandUnder_of_symbol g p hs]
        simp only [traceSymbol]
        rw [traceTypeParameter_eq _ _ ho hm]
        exact Logged.result_bind_of_ok _ (spread_of_free _ (t.stop?_binding _) hd)

theorem outcome_of_symbol {t : TypeSymbol} (hs : w.subject.symbol? = some t) :
    OutcomeUnder g p w := by
  cases t with
  | parameter t => exact outcome_of_typeParameter hs
  | named n a ts =>
    cases hc : (TypeSymbol.named n a ts).isClosed with
    | false => exact outcome_of_fault rfl (.openType hs hc)
    | true =>
      by_cases ha : a = ""
      · exact outcome_of_fault rfl (.assembly hs hc ha)
      · have he : a.isEmpty = false := by simpa using ha
        refine Or.inr ⟨{ found := some ⟨a, n⟩ }, ?_, ⟨by rw [leads_of_symbol hs]; rfl, fun r => ?_⟩⟩
        · rw [expandUnder_of_symbol g p hs]
          simp only [traceSymbol, hc, he]
          rfl
        · constructor
          · intro h
            cases h
            exact ⟨ts, hs, hc, ha⟩
          · rintro ⟨ts', hs', _⟩
            rw [hs] at hs'
            cases hs'
            rfl

theorem outcome_of_local {note : Annotation} {id : String}
    (hs : w.subject = .value (.localRef note id)) : OutcomeUnder g p w := by
  cases hl : p.local? id with
  | none => exact outcome_of_fault hs (.undeclared hl)
  | some l =>
    cases hi : l.initializer with
    | none => exact outcome_of_fault hs (.uninitialized hl hi)
    | some e =>
      by_cases ha : l.assignments = []
      · have hempty := List.isEmpty_iff.mpr ha
        have hleads : w.leads p = [w.follow none ⟨.localVariable, l.id, 0⟩ (.value e)] := by
          simp [leads, hs, hl, hi, ha]
        have hfound : ∀ r, none = some r ↔ w.subject.Names r :=
          none_found_iff (by simp [hs, Subject.symbol?])
        have hexp : w.expandUnder g p = if g w.context ⟨.localVariable, l.id, 0⟩ then do
              Logged.say (.localCycle l.id)
              return {}
            else .ok { successors := [w.follow none ⟨.localVariable, l.id, 0⟩ (.value e)] } := by
          simp only [expandUnder, hs, traceValue, traceLocal, hl, hi, hempty]
          rfl
        cases hout : g w.context ⟨.localVariable, l.id, 0⟩ with
        | true =>
          refine Or.inr ⟨{}, ?_, by rw [hleads]; simp [hout], hfound⟩
          rw [hexp, if_pos hout]
          exact Logged.result_say_bind _ _
        | false =>
          refine Or.inr ⟨{ successors := w.leads p }, ?_, by rw [hleads]; simp [hout], hfound⟩
          rw [hexp, hout, hleads]
          rfl
      · exact outcome_of_fault hs (.reassigned hl hi ha)

theorem outcome_of_bound {note : Annotation} {methodId : String} {k : Int} {m : Method} {name : String}
    (hs : w.subject = .value (.parameterRef note methodId k)) (hm : p.method? methodId = some m)
    (hname : m.parameterName k = .ok name)
    (hg : (p.callersOfMethod m).find? CallSite.isGeneric = none) {q : CallSite → Bool} {cause : Cause}
    (hstop : ∀ d, (parameterBinding k name).stop? (g w.context) d = if q d then some cause else none)
    (hd : (p.callersOfMethod m).find? q = none) : OutcomeUnder g p w := by
  have hleads : w.leads p = boundIn p methodId (parameterBinding k name) w.context := by
    simp only [leads, hs]
    rfl
  refine Or.inr ⟨_, ?_, expanded_of_spread (by simp [hs, Subject.symbol?]) hm hleads⟩
  simp only [expandUnder, hs, traceValue]
  rw [traceParameter_eq _ _ _ hm hname hg]
  exact Logged.result_bind_of_ok _ (spread_of_free _ hstop hd)

theorem outcome_of_parameter {note : Annotation} {methodId : String} {k : Int}
    (hs : w.subject = .value (.parameterRef note methodId k)) : OutcomeUnder g p w := by
  cases hm : p.method? methodId with
  | none => exact outcome_of_fault hs (.parameterMethod hm)
  | some m =>
    cases hname : m.parameterName k with
    | error cause => exact outcome_of_fault hs (.parameterName hm hname)
    | ok name =>
      cases hg : (p.callersOfMethod m).find? CallSite.isGeneric with
      | some d => exact outcome_of_fault hs (.genericCaller hm hname hg)
      | none =>
        -- a caller has too few arguments for a position from the start, or none at one from the end
        by_cases hk : k < 0
        · cases hd : (p.callersOfMethod m).find?
              (fun d => !g w.context ⟨.argument, d.id, k⟩ && (at? d.arguments k).isNone) with
          | some d => exact outcome_of_fault hs (.argumentBefore hm hname hg hk hd)
          | none =>
            exact outcome_of_bound hs hm hname hg (stop?_parameterBinding_of_neg hk name _) hd
        · cases hd : (p.callersOfMethod m).find? (fun d => (d.arguments.length : Int) ≤ k) with
          | some d => exact outcome_of_fault hs (.argumentMissing hm hname hg hd)
          | none =>
            exact outcome_of_bound hs hm hname hg
              (stop?_parameterBinding_of_nonneg (by omega) name _) hd

theorem outcomeUnder (g : Guard) (p : Program) (w : Work) : OutcomeUnder g p w := by
  cases hs : w.subject with
  | nothing => exact outcome_of_fault hs .nothing
  | symbol t => exact outcome_of_symbol (t := t) (by rw [hs]; rfl)
  | value e =>
    cases e with
    | typeOf note operand => exact outcome_of_symbol (t := operand) (by rw [hs]; rfl)
    | getType note receiver =>
      cases hr : receiver.staticType with
      | none => exact outcome_of_fault hs (.receiverType hr)
      | some t => exact outcome_of_symbol (t := t) (by rw [hs]; exact hr)
    | localRef note id => exact outcome_of_local hs
    | parameterRef note methodId k => exact outcome_of_parameter hs
    | untraced note kind => exact outcome_of_fault hs (.untraced note kind)

theorem expandUnder_eq_error_iff {f : Failure} :
    (w.expandUnder g p).result = .error f ↔ ∃ d construct cause,
      FaultUnder p (g w.context) w.site w.subject d construct cause ∧
        f = ⟨d, construct, cause, some w.context.origin⟩ := by
  constructor
  · intro h
    rcases outcomeUnder g p w with ⟨d, construct, cause, hf⟩ | ⟨x, hx, _⟩
    · rw [expandUnder_of_fault hf] at h
      cases h
      exact ⟨d, construct, cause, hf, rfl⟩
    · rw [hx] at h
      cases h
  · rintro ⟨d, construct, cause, hf, rfl⟩
    exact expandUnder_of_fault hf

theorem expandedUnder_of_ok {x : Expansion} (h : (w.expandUnder g p).result = .ok x) :
    w.ExpandedUnder g p x := by
  rcases outcomeUnder g p w with ⟨d, construct, cause, hf⟩ | ⟨x', hx, he⟩
  · rw [expandUnder_of_fault hf] at h
    cases h
  · rw [hx] at h
    cases h
    exact he

/-! ## The step of the search -/

/-- What an expansion of the search gives without a fault. -/
abbrev Expanded (p : Program) (w : Work) (x : Expansion) : Prop :=
  w.ExpandedUnder Context.contains p x

theorem Expanded.mem_successors {x : Expansion} (h : w.Expanded p x) (v : Work) :
    v ∈ x.successors ↔ ∃ via y s, Flow.Edge p w.subject via y s ∧ y ∉ w.context.visited ∧
      v = w.follow via y s := by
  rw [h.mem_successors_iff]
  simp only [← Bool.not_eq_true, w.context.contains_iff]

theorem expanded_of_ok {x : Expansion} (h : (w.expand p).result = .ok x) : w.Expanded p x :=
  expandedUnder_of_ok h

theorem expand_eq_error_iff {f : Failure} : (w.expand p).result = .error f ↔ ∃ d construct cause,
    FaultUnder p w.context.contains w.site w.subject d construct cause ∧
      f = ⟨d, construct, cause, some w.context.origin⟩ :=
  expandUnder_eq_error_iff

/-- An expansion fails with its fault, which the path has no part in. -/
theorem expand_eq_error_iff_of_steady (hw : Steady p w.context.contains w.subject) {f : Failure} :
    (w.expand p).result = .error f ↔ ∃ d construct cause,
      Fault p w.site w.subject d construct cause ∧ f = ⟨d, construct, cause, some w.context.origin⟩ := by
  rw [expand_eq_error_iff]
  constructor
  · rintro ⟨d, construct, cause, hf, rfl⟩
    exact ⟨d, construct, cause, hf.change hw (.never p _), rfl⟩
  · rintro ⟨d, construct, cause, hf, rfl⟩
    exact ⟨d, construct, cause, hf.change (.never p _) hw, rfl⟩

end Work

theorem Flow.fails_iff {p : Program} {x : Place} :
    Flow.Fails p x ↔ ∃ site d construct cause, Fault p site (p.subjectAt x) d construct cause := by
  constructor
  · rintro ⟨w, f, _, hs, hf⟩
    obtain ⟨d, construct, cause, hfault, _⟩ := Work.expand_eq_error_iff.mp hf
    obtain ⟨d', construct', hfault'⟩ := hfault.exists_fault w.site
    exact ⟨w.site, d', construct', cause, hs ▸ hfault'⟩
  · rintro ⟨site, d, construct, cause, hfault⟩
    -- on an empty path no place is left out
    exact ⟨⟨x, site, p.subjectAt x, { origin := site }⟩, _, rfl, rfl,
      Work.expand_eq_error_iff.mpr ⟨d, construct, cause, hfault, rfl⟩⟩

theorem Flow.not_fails_of_ok {p : Program} {w : Work} {x : Expansion}
    (hs : w.subject = p.subjectAt w.place) (hw : Steady p w.context.contains w.subject)
    (h : (w.expand p).result = .ok x) : ¬ Flow.Fails p w.place := by
  intro hf
  obtain ⟨site, d, construct, cause, hfault⟩ := Flow.fails_iff.mp hf
  obtain ⟨d', construct', hfault'⟩ := hfault.exists_fault w.site
  rw [← hs] at hfault'
  rw [(Work.expand_eq_error_iff_of_steady hw).mpr ⟨d', construct', cause, hfault', rfl⟩] at h
  cases h

end TypeOrigins
