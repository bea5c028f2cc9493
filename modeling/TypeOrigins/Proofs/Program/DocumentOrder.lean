import Mathlib.Data.List.Pairwise
import TypeOrigins.Proofs.Program.Callers

/-! # Callers in document order

With distinct identifiers a call comes at one place in document order, so sorting the edges of the
call graph by it gives the calls that are bound to a method as the document lists them, wherever
they stand. -/

namespace TypeOrigins.Program
set_option autoImplicit false

variable {p : Program} (hp : (p.callSites.map CallSite.id).Nodup)
include hp

theorem siteOrder_eq {before after : List CallSite} {c : CallSite}
    (h : p.callSites = before ++ c :: after) : p.siteOrder c.id = before.length + 1 := by
  have hlater : ∀ d ∈ after.reverse, (d.id == c.id) = false := by
    intro d hd
    rw [h, List.map_append, List.map_cons, List.nodup_append, List.nodup_cons] at hp
    have hne : d.id ≠ c.id := fun heq =>
      hp.2.1.1 (heq ▸ List.mem_map_of_mem (List.mem_reverse.mp hd))
    simpa using hne
  have hidx : p.callSites.reverse.findIdx (fun d => d.id == c.id) = after.length := by
    rw [h, List.reverse_append, List.reverse_cons, List.append_assoc, List.findIdx_append,
      List.findIdx_eq_length.mpr hlater]
    simp [List.findIdx_cons]
  unfold siteOrder
  rw [hidx, h, List.length_append, List.length_cons]
  omega

/-- `rest` are the calls from some place on. -/
theorem pairwise_siteOrder {before rest : List CallSite} (h : p.callSites = before ++ rest) :
    rest.Pairwise fun c d => p.siteOrder c.id < p.siteOrder d.id := by
  induction rest generalizing before with
  | nil => exact .nil
  | cons c rest ih =>
    have hrest : p.callSites = (before ++ [c]) ++ rest := by simp [h]
    refine List.pairwise_cons.mpr ⟨?_, ih hrest⟩
    intro d hd
    obtain ⟨between, after, rfl⟩ := List.append_of_mem hd
    have hd' : p.callSites = (before ++ c :: between) ++ d :: after := by simp [h]
    rw [siteOrder_eq hp h, siteOrder_eq hp hd', List.length_append, List.length_cons]
    omega

theorem callersOf_eq_filter (methodId : String) :
    p.callersOf methodId = p.callSites.filter fun c => c.target.methodId == methodId := by
  let le (c d : CallSite) : Prop := p.siteOrder c.id ≤ p.siteOrder d.id
  have hperm : (p.callersOf methodId).Perm
      (p.callSites.filter fun c => c.target.methodId == methodId) := by
    have h := p.callersOf_perm methodId
    rw [CallGraph.edges_ofProgram p hp, List.filter_map, List.map_map] at h
    simpa [Function.comp_def, CallSite.edge] using h
  have hsorted : (p.callersOf methodId).Pairwise le := by
    refine (pairwise_sortBy (fun c d => ?_) (fun c d e => ?_) _).imp fun h => of_decide_eq_true h
    · simpa using Nat.le_total _ _
    · simpa using Nat.le_trans
  have hincreasing : p.callSites.Pairwise fun c d => p.siteOrder c.id < p.siteOrder d.id :=
    pairwise_siteOrder hp (List.nil_append _).symm
  have hdiffer : ∀ c ∈ p.callSites, ∀ d ∈ p.callSites, c ≠ d → p.siteOrder c.id ≠ p.siteOrder d.id := by
    have hsymm : Std.Symm fun c d : CallSite => p.siteOrder c.id ≠ p.siteOrder d.id :=
      ⟨fun _ _ => Ne.symm⟩
    intro c hc d hd hne
    exact List.Pairwise.forall (hincreasing.imp Nat.ne_of_lt) hc hd hne
  apply List.Perm.eq_of_pairwise _ hsorted ((hincreasing.filter _).imp Nat.le_of_lt) hperm
  intro c d hc hd hcd hdc
  by_contra hne
  refine hdiffer c ?_ d (List.mem_of_mem_filter hd) hne (Nat.le_antisymm hcd hdc)
  exact List.mem_of_mem_filter (hperm.mem_iff.mp hc)

theorem callersOfMethod_eq_filter (m : Method) :
    p.callersOfMethod m = p.callSites.filter fun c => decide (c.target = ⟨m.id, m.declaringType, m.name⟩) := by
  unfold callersOfMethod
  rw [callersOf_eq_filter hp, List.filter_filter]
  congr 1
  funext c
  cases ht : c.target with
  | mk methodId declaringType name =>
    rw [Bool.eq_iff_iff]
    simp only [Bool.and_eq_true, beq_iff_eq, decide_eq_true_eq, Target.mk.injEq]
    constructor
    · rintro ⟨⟨htype, hname⟩, hid⟩
      exact ⟨hid, htype, hname⟩
    · rintro ⟨hid, htype, hname⟩
      exact ⟨⟨htype, hname⟩, hid⟩

end TypeOrigins.Program
