import TypeOrigins.Proofs.Analysis.Outcomes
import TypeOrigins.Proofs.KeepList.Reading
import TypeOrigins.Proofs.Origin.Frontier

/-! # Exactness of the analysis

An analysis answers if and only if every entry has its types. The answer holds these types and no
others, entry by entry and all together in the keep list, and a reader of the descriptor finds one
element for each of them. -/

namespace TypeOrigins
set_option autoImplicit false

/-! ## Types of one entry -/

theorem exists_names_of_resolve {p : Program} (hp : (p.callSites.map CallSite.id).Nodup)
    {limit : Int} {site : CallSite} (hsite : site ∈ p.callSites) {api : Option Api}
    {refs : List TypeReference} (h : (resolve p limit site api).result = .ok refs) {r : TypeReference}
    (hr : r ∈ refs) : ∃ y, (p.subjectAt y).Names r := by
  cases hw : seed site api with
  | error f =>
    rw [resolve_eq_error_of_seed hw] at h
    cases h
  | ok w =>
    have hv := resolve_verdict hp limit hsite hw
    rw [h] at hv
    cases hv with
    | complete _ nodup within mem_iff =>
      obtain ⟨y, _, hy⟩ := (mem_iff r).mp hr
      exact ⟨y, hy⟩

theorem assembly_ne_empty_of_resolve {p : Program} (hp : (p.callSites.map CallSite.id).Nodup)
    {limit : Int} {site : CallSite} (hsite : site ∈ p.callSites) {api : Option Api}
    {refs : List TypeReference} (h : (resolve p limit site api).result = .ok refs) :
    ∀ r ∈ refs, r.assembly ≠ "" := by
  intro r hr
  obtain ⟨y, ts, _, _, hne⟩ := exists_names_of_resolve hp hsite h hr
  exact hne

/-! ## Types of all entries -/

theorem mem_keepListOf {resolved : List (String × List TypeReference)} {r : TypeReference} :
    r ∈ (keepListOf resolved).references ↔ ∃ x ∈ resolved, r ∈ x.2 := by
  have hfold : ∀ k : KeepList,
      r ∈ (resolved.foldl (fun k x => k.merge (KeepList.ofList x.2)) k).references ↔
        r ∈ k.references ∨ ∃ x ∈ resolved, r ∈ x.2 := by
    induction resolved with
    | nil => simp
    | cons x rest ih =>
      intro k
      rw [List.foldl_cons, ih, KeepList.mem_merge, KeepList.mem_ofList, or_assoc]
      simp
  rw [keepListOf, hfold]
  simp [KeepList.empty]

section Found
variable {R : Entry → List TypeReference → Prop} {entries : List Entry}

theorem exists_forall₂_found : (∃ found, List.Forall₂ R entries found) ↔
    ∀ e ∈ entries, ∃ refs, R e refs := by
  induction entries with
  | nil => exact ⟨fun _ _ he => (by cases he), fun _ => ⟨[], .nil⟩⟩
  | cons e rest ih =>
    rw [List.forall_mem_cons, ← ih]
    constructor
    · rintro ⟨_, _ | ⟨hrefs, hrest⟩⟩
      exact ⟨⟨_, hrefs⟩, ⟨_, hrest⟩⟩
    · rintro ⟨⟨refs, hrefs⟩, found, hrest⟩
      exact ⟨refs :: found, .cons hrefs hrest⟩

theorem forall₂_zip_found {found : List (List TypeReference)} (h : List.Forall₂ R entries found) :
    List.Forall₂ (fun e x => x.1 = e.site.id ∧ R e x.2) entries
      ((entries.map fun e => e.site.id).zip found) := by
  induction h with
  | nil => exact .nil
  | cons hrefs _ ih => exact .cons ⟨rfl, hrefs⟩ ih

theorem mem_zip_found {found : List (List TypeReference)} (h : List.Forall₂ R entries found)
    (hR : ∀ e refs refs', R e refs → R e refs' → refs = refs') {x : String × List TypeReference} :
    x ∈ (entries.map fun e => e.site.id).zip found ↔ ∃ e ∈ entries, x.1 = e.site.id ∧ R e x.2 := by
  induction h with
  | nil => simp
  | @cons e refs _ _ hrefs _ ih =>
    rw [List.map_cons, List.zip_cons_cons, List.mem_cons, ih, List.exists_mem_cons_iff]
    refine or_congr_left ⟨?_, ?_⟩
    · rintro rfl
      exact ⟨rfl, hrefs⟩
    · rintro ⟨hid, hx⟩
      exact Prod.ext hid (hR _ _ _ hx hrefs)

end Found

/-! ## The analysis -/

section Analyses
variable {p : Program} {config : Config} {a : Analysis}

theorem exists_analyze_iff : (∃ a, (analyze p config).result = .ok a) ↔
    ∀ e ∈ p.entries config.apis,
      ∃ refs, (resolve p config.maxDepth e.site (some e.api)).result = .ok refs := by
  rw [← exists_forall₂_found]
  constructor
  · rintro ⟨a, ha⟩
    obtain ⟨found, hfound, _⟩ := analyze_eq_ok.mp ha
    exact ⟨found, hfound⟩
  · rintro ⟨found, hfound⟩
    exact ⟨_, analyze_eq_ok.mpr ⟨found, hfound, rfl⟩⟩

theorem mem_resolved_of_analyze (ha : (analyze p config).result = .ok a)
    {x : String × List TypeReference} : x ∈ a.resolved ↔ ∃ e ∈ p.entries config.apis,
      x.1 = e.site.id ∧ (resolve p config.maxDepth e.site (some e.api)).result = .ok x.2 := by
  obtain ⟨found, hfound, rfl⟩ := analyze_eq_ok.mp ha
  refine mem_zip_found hfound ?_
  intro e refs refs' h h'
  exact Except.ok.inj (h.symm.trans h')

theorem mem_keepList_of_analyze (ha : (analyze p config).result = .ok a) {r : TypeReference} :
    r ∈ a.keepList.references ↔ ∃ x ∈ a.resolved, r ∈ x.2 := by
  obtain ⟨found, _, rfl⟩ := analyze_eq_ok.mp ha
  exact mem_keepListOf

theorem resolved_fst_of_analyze (ha : (analyze p config).result = .ok a) :
    a.resolved.map Prod.fst = (p.entries config.apis).map fun e => e.site.id := by
  obtain ⟨found, hfound, rfl⟩ := analyze_eq_ok.mp ha
  unfold Analysis.gather
  rw [List.map_fst_zip]
  rw [List.length_map]
  exact hfound.length_eq.le

end Analyses

/-- An analysis succeeds exactly if the search for every entry does. Then it lists the entries in their
order with the types of each, its keep list is the union of these types, and the elements of the
descriptor are the types of the keep list, each once. -/
theorem analyze_exact (p : Program) (hp : (p.callSites.map CallSite.id).Nodup) (config : Config) :
    ∃ entries, (discover p config.apis : Logged AnalysisError (List Entry)).result = .ok entries ∧
      ((∃ a, (analyze p config).result = .ok a) ↔
        ∀ e ∈ entries, ∃ refs, (resolve p config.maxDepth e.site (some e.api)).result = .ok refs) ∧
      ∀ a, (analyze p config).result = .ok a →
        a.entries = entries ∧ (a.resolved.map Prod.fst).Nodup ∧
        List.Forall₂ (fun e x => x.1 = e.site.id ∧
          (resolve p config.maxDepth e.site (some e.api)).result = .ok x.2) entries a.resolved ∧
        (∀ r, r ∈ a.keepList.toList ↔ ∃ x ∈ a.resolved, r ∈ x.2) ∧
        (∀ r ∈ a.keepList.toList, r.assembly ≠ "") ∧
        ∃ elements, Descriptor.typeElements a.render = some elements ∧ elements.Nodup ∧
          ∀ r, r ∈ elements ↔ r ∈ a.keepList.toList := by
  refine ⟨p.entries config.apis, result_discover p config.apis, exists_analyze_iff, ?_⟩
  intro a ha
  refine ⟨?_, ?_, ?_, fun r => mem_keepList_of_analyze ha, ?_, ?_⟩
  · obtain ⟨found, _, rfl⟩ := analyze_eq_ok.mp ha
    rfl
  · rw [resolved_fst_of_analyze ha]
    exact p.nodup_entries config.apis
  · obtain ⟨found, hfound, rfl⟩ := analyze_eq_ok.mp ha
    exact forall₂_zip_found hfound
  · intro r hr
    obtain ⟨x, hx, hrx⟩ := (mem_keepList_of_analyze ha).mp hr
    obtain ⟨e, he, _, hx⟩ := (mem_resolved_of_analyze ha).mp hx
    exact assembly_ne_empty_of_resolve hp ((Program.mem_entries hp).mp he).1 hx r hrx
  · refine ⟨_, Descriptor.typeElements_render _, ?_, fun r => Iff.rfl⟩
    exact TypeReference.nodup_of_pairwise (KeepList.increasing _)

open Factory in
theorem analyze_exact_factory :
    ((program widget).callSites.map CallSite.id).Nodup ∧
      (∃ a elements, (analyze (program widget) { maxDepth := 1 }).result = .ok a ∧
        Descriptor.typeElements a.render = some elements ∧ elements.Nodup ∧
        ∀ r, r ∈ elements ↔ r = ⟨"App", "App.Widget"⟩) ∧
      ¬ ∃ a, (analyze (program widget) { maxDepth := 0 }).result = .ok a := by
  have hp : ((program widget).callSites.map CallSite.id).Nodup := by decide
  have hfound : (resolve (program widget) 1 create (some Api.activator)).result =
      .ok [⟨"App", "App.Widget"⟩] := by rfl
  have hdeep : ∃ f, (resolve (program widget) 0 create (some Api.activator)).result = .error f :=
    ⟨_, rfl⟩
  refine ⟨hp, ?_, ?_⟩
  · obtain ⟨entries, hentries, hiff, hexact⟩ := analyze_exact (program widget) hp { maxDepth := 1 }
    obtain rfl : [⟨create, Api.activator⟩] = entries := Except.ok.inj hentries
    obtain ⟨a, ha⟩ := hiff.mpr (by simpa using ⟨_, hfound⟩)
    obtain ⟨_, _, hresolved, hmem, _, elements, hread, hnodup, hiff⟩ := hexact a ha
    refine ⟨a, elements, ha, hread, hnodup, fun r => ?_⟩
    rw [hiff, hmem]
    obtain ⟨x, _, ⟨_, hx⟩, hnil, hall⟩ := List.forall₂_cons_left_iff.mp hresolved
    rw [hall, List.forall₂_nil_left_iff.mp hnil]
    have hrefs := Except.ok.inj (hfound.symm.trans hx)
    simp [← hrefs]
  · obtain ⟨entries, hentries, hiff, _⟩ := analyze_exact (program widget) hp { maxDepth := 0 }
    obtain rfl : [⟨create, Api.activator⟩] = entries := Except.ok.inj hentries
    obtain ⟨f, hf⟩ := hdeep
    rw [hiff]
    intro hall
    obtain ⟨refs, hrefs⟩ := hall _ (List.mem_singleton_self _)
    exact absurd (hf.symm.trans hrefs) (by simp)

end TypeOrigins
