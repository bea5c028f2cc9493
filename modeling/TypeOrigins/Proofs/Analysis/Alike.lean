import TypeOrigins.Proofs.Analysis.Outcomes
import TypeOrigins.Proofs.Origin.Alike

/-! # Analyses of alike programs

Alike programs have corresponding entries, and each entry has the same types in both. So an analysis
of one has a result if and only if an analysis of the other has one, and then both keep the same
types. -/

namespace TypeOrigins
set_option autoImplicit false

/-! ## Entries -/

/-- Entries of one API whose calls `R` relates. -/
structure Entry.Rel (R : CallSite → CallSite → Prop) (e f : Entry) : Prop where
  site : R e.site f.site
  api : f.api = e.api

theorem Api.covers_eq {ρ : Renaming} {N : Int → Prop} {c d : CallSite} (h : c.Alike ρ N d) (a : Api) :
    a.covers d = a.covers c := by
  unfold Api.covers
  rw [h.target]
  rfl

section Entries
variable {ρ : Renaming} {N : Int → Prop} {R : CallSite → CallSite → Prop}
  (hR : ∀ c d, R c d → c.Alike ρ N d)
include hR

theorem any_site_eq {entries entries' : List Entry} (h : List.Forall₂ (Entry.Rel R) entries entries')
    {c d : CallSite} (hcd : R c d) :
    (entries'.any fun f => f.site.id == d.id) = entries.any fun e => e.site.id == c.id := by
  induction h with
  | nil => rfl
  | @cons e f _ _ hef _ ih =>
    have hid : (f.site.id == d.id) = (e.site.id == c.id) := by
      rw [(hR _ _ hef.site).id, (hR _ _ hcd).id, Bool.eq_iff_iff, beq_iff_eq, beq_iff_eq]
      exact ρ.callSite_injective.eq_iff
    rw [List.any_cons, List.any_cons, hid, ih]

theorem rel_addEntries (a : Api) {entries entries' : List Entry} {sites sites' : List CallSite}
    (hentries : List.Forall₂ (Entry.Rel R) entries entries') (hsites : List.Forall₂ R sites sites') :
    List.Forall₂ (Entry.Rel R) (addEntries a entries sites) (addEntries a entries' sites') := by
  induction hsites generalizing entries entries' with
  | nil => exact hentries
  | cons hcd _ ih =>
    rw [addEntries, addEntries, any_site_eq hR hentries hcd]
    split
    · exact ih hentries
    · exact ih (List.rel_append hentries (.cons ⟨hcd, rfl⟩ .nil))

theorem rel_entries {p q : Program} (h : List.Forall₂ R p.callSites q.callSites) (apis : List Api) :
    List.Forall₂ (Entry.Rel R) (p.entries apis) (q.entries apis) := by
  have hfold : ∀ {entries entries' : List Entry}, List.Forall₂ (Entry.Rel R) entries entries' →
      List.Forall₂ (Entry.Rel R)
        (apis.foldl (fun entries a => addEntries a entries (p.callSites.filter a.covers)) entries)
        (apis.foldl (fun entries a => addEntries a entries (q.callSites.filter a.covers)) entries') := by
    induction apis with
    | nil => exact fun hentries => hentries
    | cons a rest ih =>
      intro entries entries' hentries
      refine ih (rel_addEntries hR a hentries (List.rel_filter ?_ h))
      intro c d hcd
      dsimp only
      rw [Api.covers_eq (hR c d hcd)]
  exact hfold .nil

end Entries

/-! ## Results -/

/-- The keep list does not depend on whose types are in it. -/
theorem keepListOf_map_fst (f : String → String) (resolved : List (String × List TypeReference)) :
    keepListOf (resolved.map fun x => (f x.1, x.2)) = keepListOf resolved := by
  unfold keepListOf
  rw [List.foldl_map]

section Results
variable {ρ : Renaming} {p q : Program} (h : p.Alike ρ q) (hp : (p.callSites.map CallSite.id).Nodup)
include h hp

theorem resolve_eq_ok_iff {site site' : CallSite} (hsite : site.Alike ρ (p.NamedAlike q) site')
    (limit : Int) (api : Option Api) (refs : List TypeReference) :
    (resolve p limit site api).result = .ok refs ↔ (resolve q limit site' api).result = .ok refs := by
  have hagree := agree_resolve h hp limit hsite api
  generalize (resolve p limit site api).result = x at hagree
  generalize (resolve q limit site' api).result = y at hagree
  cases hagree with
  | ok hrefs => rw [hrefs]
  | error _ => simp

/-- The same types, entry by entry. -/
theorem forall₂_resolve_iff (limit : Int) {entries entries' : List Entry}
    (hentries : List.Forall₂ (Entry.Rel (CallSite.Alike ρ (p.NamedAlike q))) entries entries')
    {found : List (List TypeReference)} :
    List.Forall₂ (fun e refs => (resolve p limit e.site (some e.api)).result = .ok refs) entries found ↔
      List.Forall₂ (fun e refs => (resolve q limit e.site (some e.api)).result = .ok refs)
        entries' found := by
  induction hentries generalizing found with
  | nil => simp
  | @cons e f _ _ hef _ ih =>
    have hhead : ∀ refs, (resolve p limit e.site (some e.api)).result = .ok refs ↔
        (resolve q limit f.site (some f.api)).result = .ok refs := by
      intro refs
      rw [hef.api]
      exact resolve_eq_ok_iff h hp hef.site limit _ refs
    rw [List.forall₂_cons_left_iff, List.forall₂_cons_left_iff]
    simp only [hhead, ih]

theorem exists_analyze_iff_of_alike (config : Config) : (∃ a, (analyze p config).result = .ok a) ↔
    ∃ b, (analyze q config).result = .ok b := by
  have hentries := rel_entries (fun _ _ hcd => hcd) h.callSites config.apis
  simp only [analyze_eq_ok]
  constructor
  · rintro ⟨_, found, hall, _⟩
    exact ⟨_, found, (forall₂_resolve_iff h hp config.maxDepth hentries).mp hall, rfl⟩
  · rintro ⟨_, found, hall, _⟩
    exact ⟨_, found, (forall₂_resolve_iff h hp config.maxDepth hentries).mpr hall, rfl⟩

theorem results_of_alike {config : Config} {a b : Analysis} (ha : (analyze p config).result = .ok a)
    (hb : (analyze q config).result = .ok b) :
    b.keepList = a.keepList ∧ b.resolved = a.resolved.map fun x => (ρ.callSite x.1, x.2) := by
  have hentries := rel_entries (fun _ _ hcd => hcd) h.callSites config.apis
  obtain ⟨found, hall, rfl⟩ := analyze_eq_ok.mp ha
  have hfound := (forall₂_resolve_iff h hp config.maxDepth hentries).mp hall
  obtain rfl : b = .gather (q.entries config.apis) found :=
    Except.ok.inj (hb.symm.trans (analyze_eq_ok.mpr ⟨found, hfound, rfl⟩))
  have hids : (q.entries config.apis).map (fun e => e.site.id) =
      ((p.entries config.apis).map fun e => e.site.id).map ρ.callSite := by
    rw [List.map_map]
    exact map_eq_map_of_forall₂ hentries fun _ _ hef => hef.site.id
  have hresolved : (Analysis.gather (q.entries config.apis) found).resolved =
      (Analysis.gather (p.entries config.apis) found).resolved.map fun x => (ρ.callSite x.1, x.2) := by
    unfold Analysis.gather
    dsimp only
    rw [hids, List.zip_map_left]
    rfl
  refine ⟨?_, hresolved⟩
  show keepListOf (Analysis.gather (q.entries config.apis) found).resolved = keepListOf _
  rw [hresolved]
  exact keepListOf_map_fst ρ.callSite _

end Results

end TypeOrigins
