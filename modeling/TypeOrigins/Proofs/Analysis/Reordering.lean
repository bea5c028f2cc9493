import TypeOrigins.Proofs.Analysis.Exactness
import TypeOrigins.Proofs.Facts.Reordering
import TypeOrigins.Proofs.Origin.BoundCallers
import TypeOrigins.Proofs.Origin.Reordering

/-! # Analyses in another order

The order in which a document lists methods, locals and calls does not matter: it is accepted in
every order or in none, and the analysis has the same entries, the same types for each of them and
the same descriptor. What the order does decide is at which of several equally near calls a search
stops, and with it whether the report can be written. -/

namespace TypeOrigins
set_option autoImplicit false

namespace Program.Reordered
variable {p q : Program} (h : p.Reordered q) (hp : p.DistinctIds)
include h hp

theorem entries_perm (apis : List Api) : (p.entries apis).Perm (q.entries apis) := by
  have hnodup : ∀ p : Program, (p.entries apis).Nodup := fun p => .of_map _ (p.nodup_entries apis)
  rw [List.perm_ext_iff_of_nodup (hnodup p) (hnodup q)]
  intro e
  rw [mem_entries hp.callSites, mem_entries (h.distinctIds hp).callSites, h.callSites.mem_iff]

theorem exists_analyze_iff (config : Config) : (∃ a, (analyze p config).result = .ok a) ↔
    ∃ b, (analyze q config).result = .ok b := by
  rw [TypeOrigins.exists_analyze_iff, TypeOrigins.exists_analyze_iff]
  simp only [← (h.entries_perm hp config.apis).mem_iff]
  refine forall₂_congr fun e he => ?_
  exact h.resolve_exists_ok_iff hp ((mem_entries hp.callSites).mp he).1 config.maxDepth (some e.api)

variable {config : Config} {a b : Analysis} (ha : (analyze p config).result = .ok a)
  (hb : (analyze q config).result = .ok b)
include ha hb

/-- What one analysis found for an entry, the other found too. -/
theorem exists_resolved {x : String × List TypeReference} (hx : x ∈ a.resolved) :
    ∃ y ∈ b.resolved, y.1 = x.1 ∧ ∀ r, r ∈ y.2 ↔ r ∈ x.2 := by
  obtain ⟨e, he, hid, hr⟩ := (mem_resolved_of_analyze ha).mp hx
  have hsite := ((mem_entries hp.callSites).mp he).1
  obtain ⟨refs, hr'⟩ := (h.resolve_exists_ok_iff hp hsite config.maxDepth (some e.api)).mp ⟨_, hr⟩
  refine ⟨(e.site.id, refs), ?_, hid.symm, fun r => ?_⟩
  · refine (mem_resolved_of_analyze hb).mpr ⟨e, ?_, rfl, hr'⟩
    exact (h.entries_perm hp config.apis).mem_iff.mp he
  · exact (h.resolve_mem_iff hp hsite config.maxDepth (some e.api) hr hr' r).symm

theorem keepList_subset {r : TypeReference} (hr : r ∈ a.keepList.references) :
    r ∈ b.keepList.references := by
  obtain ⟨x, hx, hrx⟩ := (mem_keepList_of_analyze ha).mp hr
  obtain ⟨y, hy, _, hmem⟩ := h.exists_resolved hp ha hb hx
  exact (mem_keepList_of_analyze hb).mpr ⟨y, hy, (hmem r).mpr hrx⟩

theorem keepList_eq : a.keepList = b.keepList := by
  refine KeepList.ext_mem fun r => ⟨h.keepList_subset hp ha hb, ?_⟩
  exact h.symm.keepList_subset (h.distinctIds hp) hb ha

end Program.Reordered

/-- A document is accepted in every order of its declarations or in none. In every order the analysis
succeeds or in none, with the same types for every entry and the same descriptor. The search for an
entry meets its limit in every order or in none, and says so in one as in the other, unless the call
at which it stops there stands at a position that is too long to be written. -/
theorem analyze_order_independent (fields fields' : Document.Fields)
    (h : Facts.Reordering fields fields') :
    ((∃ p, Facts.parse fields = .ok p) ↔ ∃ q, Facts.parse fields' = .ok q) ∧
      ∀ p q, Facts.parse fields = .ok p → Facts.parse fields' = .ok q → ∀ config : Config,
        ((∃ a, (analyze p config).result = .ok a) ↔ ∃ b, (analyze q config).result = .ok b) ∧
        (∀ a b, (analyze p config).result = .ok a → (analyze q config).result = .ok b →
          a.render = b.render ∧
          (∀ x ∈ a.resolved, ∃ y ∈ b.resolved, y.1 = x.1 ∧ ∀ r, r ∈ y.2 ↔ r ∈ x.2) ∧
          ∀ y ∈ b.resolved, ∃ x ∈ a.resolved, x.1 = y.1 ∧ ∀ r, r ∈ x.2 ↔ r ∈ y.2) ∧
        ∃ entries entries',
          (discover p config.apis : Logged AnalysisError (List Entry)).result = .ok entries ∧
          (discover q config.apis : Logged AnalysisError (List Entry)).result = .ok entries' ∧
          entries.Perm entries' ∧ ∀ e ∈ entries,
            ((∃ refs, (resolve p config.maxDepth e.site (some e.api)).result = .ok refs) ↔
              ∃ refs, (resolve q config.maxDepth e.site (some e.api)).result = .ok refs) ∧
            (∀ refs refs', (resolve p config.maxDepth e.site (some e.api)).result = .ok refs →
              (resolve q config.maxDepth e.site (some e.api)).result = .ok refs' →
              ∀ r, r ∈ refs ↔ r ∈ refs') ∧
            ((∃ f, (resolve p config.maxDepth e.site (some e.api)).result = .error f ∧
                f.cause.category = .depthLimit) ↔
              ∃ f, (resolve q config.maxDepth e.site (some e.api)).result = .error f ∧
                f.cause.category = .depthLimit) ∧
            ∀ f g, (resolve p config.maxDepth e.site (some e.api)).result = .error f →
              (resolve q config.maxDepth e.site (some e.api)).result = .error g →
              (f.raised = .ok .depthLimit → g.raised = .ok .depthLimit ∨
                g.raised = .error .longInteger ∧ g.site.location.isWritable = false) ∧
              (g.raised = .ok .depthLimit → f.raised = .ok .depthLimit ∨
                f.raised = .error .longInteger ∧ f.site.location.isWritable = false) := by
  refine ⟨⟨?_, ?_⟩, ?_⟩
  · rintro ⟨p, hp⟩
    obtain ⟨q, hq, _⟩ := h.parse hp
    exact ⟨q, hq⟩
  · rintro ⟨q, hq⟩
    obtain ⟨p, hp, _⟩ := h.symm.parse hq
    exact ⟨p, hp⟩
  · intro p q hparse hparse' config
    have hp := (Facts.parse_eq_ok.mp hparse).2.ids
    have hpq : p.Reordered q := by
      obtain ⟨q', hq', hpq⟩ := h.parse hparse
      rw [hparse'] at hq'
      cases hq'
      exact hpq
    refine ⟨hpq.exists_analyze_iff hp config, ?_, ?_⟩
    · intro a b ha hb
      refine ⟨congrArg Descriptor.render (hpq.keepList_eq hp ha hb), ?_, ?_⟩
      · exact fun x hx => hpq.exists_resolved hp ha hb hx
      · exact fun y hy => hpq.symm.exists_resolved (hpq.distinctIds hp) hb ha hy
    · refine ⟨_, _, result_discover p config.apis, result_discover q config.apis,
        hpq.entries_perm hp config.apis, fun e he => ?_⟩
      have hsite := ((Program.mem_entries hp.callSites).mp he).1
      refine ⟨?_, ?_, ?_, fun f g hf hg => ⟨?_, ?_⟩⟩
      · exact hpq.resolve_exists_ok_iff hp hsite config.maxDepth (some e.api)
      · exact fun refs refs' => hpq.resolve_mem_iff hp hsite config.maxDepth (some e.api)
      · exact hpq.resolve_depthLimit_iff hp hsite config.maxDepth (some e.api)
      · exact hpq.resolve_raised_depthLimit hp hsite config.maxDepth (some e.api) hf hg
      · exact hpq.symm.resolve_raised_depthLimit (hpq.distinctIds hp)
          (hpq.callSites.mem_iff.mp hsite) config.maxDepth (some e.api) hg hf

open Factory in
theorem analyze_reversed_factory :
    Facts.Reordering (fields callDocuments) (fields callDocuments.reverse) ∧
      ∃ p q a b, Facts.parse (fields callDocuments) = .ok p ∧
        Facts.parse (fields callDocuments.reverse) = .ok q ∧ p ≠ q ∧
        (analyze p {}).result = .ok a ∧ (analyze q {}).result = .ok b ∧ a.render = b.render := by
  have h : Facts.Reordering (fields callDocuments) (fields callDocuments.reverse) := by
    refine .cons ⟨rfl, Or.inl rfl⟩ (.cons ⟨rfl, Or.inl rfl⟩ (.cons ⟨rfl, Or.inl rfl⟩ (.cons ⟨rfl, Or.inr ?_⟩ .nil)))
    exact ⟨by decide, _, _, rfl, rfl, (List.reverse_perm _).symm⟩
  have hparse' : Facts.parse (fields callDocuments.reverse) =
      .ok { withRenamed with callSites := withRenamed.callSites.reverse } := by rfl
  obtain ⟨a, ha⟩ : ∃ a, (analyze withRenamed {}).result = .ok a := ⟨_, rfl⟩
  obtain ⟨hiff, hrender, _⟩ :=
    (analyze_order_independent _ _ h).2 _ _ parse_withRenamed hparse' {}
  obtain ⟨b, hb⟩ := hiff.mp ⟨a, ha⟩
  exact ⟨h, _, _, a, b, parse_withRenamed, hparse', by decide, ha, hb, (hrender a b ha hb).1⟩

/-! ## Two calls of the relay

Both are one step too far, and one of them stands on a line with one digit too many. -/

namespace Relay

def distant (line : ℕ) : CallSite := { entry line with id := "distant" }

def withCalls (calls : List CallSite) : Program where
  methods := [make, relay]
  callSites := create :: forward :: calls

def relayDocument : Document :=
  .object [("id", .text "Relay"), ("declaring_type", .text "App.Relay"), ("name", .text "Relay"),
    ("parameters", .list [.object [("name", .text "type")]])]

def forwardDocument : Document :=
  Factory.callDocument forward [.object [("kind", .text "parameter"), ("text", .text "type"),
    ("method_id", .text "Relay"), ("ordinal", .int 0)]]

def entryDocument (c : CallSite) : Document :=
  Factory.callDocument c [Factory.typeOfDocument "typeof(Widget)" "App.Widget"]

def fields (calls : List CallSite) : Document.Fields :=
  [("schema_version", .int 1), ("methods", .list [Factory.makeDocument, relayDocument]),
    ("call_sites", .list (Factory.callDocument create [Factory.parameterDocument] :: forwardDocument ::
      calls.map entryDocument))]

theorem parse_near_first (line : ℕ) : Facts.parse (fields [entry 9, distant line]) =
    .ok (withCalls [entry 9, distant line]) := by rfl

theorem parse_distant_first (line : ℕ) : Facts.parse (fields [distant line, entry 9]) =
    .ok (withCalls [distant line, entry 9]) := by rfl

theorem reordering_fields (c d : CallSite) : Facts.Reordering (fields [c, d]) (fields [d, c]) := by
  have hlist : .name "call_sites" ∈ Facts.declarationLists := by decide
  refine .cons ⟨rfl, Or.inl rfl⟩ (.cons ⟨rfl, Or.inl rfl⟩ (.cons ⟨rfl, Or.inr ?_⟩ .nil))
  exact ⟨hlist, _, _, rfl, rfl, ((List.Perm.swap _ _ _).cons _).cons _⟩

end Relay

open Relay in
theorem analyze_order_decides_report :
    ∃ calls calls' p q f g, Facts.Reordering (fields calls) (fields calls') ∧
      Facts.parse (fields calls) = .ok p ∧ Facts.parse (fields calls') = .ok q ∧
      (analyze p { maxDepth := 1 }).result = .error (.failed f) ∧ f.raised = .ok .depthLimit ∧
      (analyze q { maxDepth := 1 }).result = .error (.failed g) ∧
      g.raised = .error .longInteger := by
  refine ⟨[entry 9, distant farLine], [distant farLine, entry 9], _, _, tooFar 9,
    ⟨distant farLine, "App.Relay.Relay", .depthExceeded 1, some create⟩, reordering_fields _ _,
    parse_near_first _, parse_distant_first _, ?_, ?_, ?_, ?_⟩
  · decide +kernel
  · decide +kernel
  · decide +kernel
  · decide +kernel

end TypeOrigins
