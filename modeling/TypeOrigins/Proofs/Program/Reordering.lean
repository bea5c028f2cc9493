import TypeOrigins.Proofs.Program.Callers

/-! # Programs in another order

With distinct identifiers a lookup finds the one declaration that has the identifier, and the callers
of a method are the calls bound to it. Neither depends on the order of the declarations. -/

namespace TypeOrigins
set_option autoImplicit false

theorem find?_key {α : Type} (key : α → String) {l : List α} (hl : (l.map key).Nodup) {id : String}
    {a : α} : l.find? (fun b => key b == id) = some a ↔ a ∈ l ∧ key a = id := by
  constructor
  · intro h
    exact ⟨List.mem_of_find?_eq_some h, by simpa using List.find?_some h⟩
  · rintro ⟨ha, rfl⟩
    cases h : l.find? (fun b => key b == key a) with
    | none =>
      have := List.find?_eq_none.mp h a ha
      simp at this
    | some b =>
      have hb : key b = key a := by simpa using List.find?_some h
      rw [List.inj_on_of_nodup_map hl (List.mem_of_find?_eq_some h) ha hb]

namespace Program
variable {p q : Program}

/-- The identifiers of methods, of locals and of calls are distinct. -/
structure DistinctIds (p : Program) : Prop where
  methods : (p.methods.map Method.id).Nodup
  locals : (p.locals.map LocalVariable.id).Nodup
  callSites : (p.callSites.map CallSite.id).Nodup

theorem DistinctIds.method?_eq_some (hp : p.DistinctIds) {id : String} {m : Method} :
    p.method? id = some m ↔ m ∈ p.methods ∧ m.id = id := by
  unfold method?
  rw [find?_key Method.id, List.mem_reverse]
  rw [List.map_reverse, List.nodup_reverse]
  exact hp.methods

theorem DistinctIds.local?_eq_some (hp : p.DistinctIds) {id : String} {l : LocalVariable} :
    p.local? id = some l ↔ l ∈ p.locals ∧ l.id = id := by
  unfold local?
  rw [find?_key LocalVariable.id, List.mem_reverse]
  rw [List.map_reverse, List.nodup_reverse]
  exact hp.locals

theorem DistinctIds.callSite?_eq_some (hp : p.DistinctIds) {id : String} {c : CallSite} :
    p.callSite? id = some c ↔ c ∈ p.callSites ∧ c.id = id :=
  find?_key CallSite.id hp.callSites

/-! ## Another order -/

/-- The same declarations in another order. -/
structure Reordered (p q : Program) : Prop where
  methods : p.methods.Perm q.methods
  locals : p.locals.Perm q.locals
  callSites : p.callSites.Perm q.callSites

namespace Reordered

theorem symm (h : p.Reordered q) : q.Reordered p := ⟨h.methods.symm, h.locals.symm, h.callSites.symm⟩

variable (h : p.Reordered q) (hp : p.DistinctIds)
include h hp

theorem distinctIds : q.DistinctIds :=
  ⟨(h.methods.map _).nodup_iff.mp hp.methods, (h.locals.map _).nodup_iff.mp hp.locals,
    (h.callSites.map _).nodup_iff.mp hp.callSites⟩

theorem method?_eq (id : String) : p.method? id = q.method? id := by
  ext m
  rw [hp.method?_eq_some, (h.distinctIds hp).method?_eq_some, h.methods.mem_iff]

theorem local?_eq (id : String) : p.local? id = q.local? id := by
  ext l
  rw [hp.local?_eq_some, (h.distinctIds hp).local?_eq_some, h.locals.mem_iff]

theorem callSite?_eq (id : String) : p.callSite? id = q.callSite? id := by
  ext c
  rw [hp.callSite?_eq_some, (h.distinctIds hp).callSite?_eq_some, h.callSites.mem_iff]

theorem mem_callersOfMethod_iff {m : Method} {c : CallSite} :
    c ∈ p.callersOfMethod m ↔ c ∈ q.callersOfMethod m := by
  rw [mem_callersOfMethod hp.callSites, mem_callersOfMethod (h.distinctIds hp).callSites,
    h.callSites.mem_iff]

end Reordered

end Program

end TypeOrigins
