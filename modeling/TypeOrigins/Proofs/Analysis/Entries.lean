import TypeOrigins.Analysis
import TypeOrigins.Proofs.Program.Callers
import TypeOrigins.Proofs.Report.Logged

/-! # The entries of a program

`discover` always answers. If the identifiers of the calls are distinct, a call is an entry if some
API covers it, under the first that does, and it is an entry once. -/

namespace TypeOrigins
set_option autoImplicit false

/-- Whether a call is bound to the type and the name of an API. -/
def Api.covers (a : Api) (c : CallSite) : Bool :=
  c.target.declaringType == a.declaringType && c.target.name == a.methodName

/-- The entries of a program, without what is said on the way. -/
def Program.entries (p : Program) (apis : List Api) : List Entry :=
  apis.foldl (fun entries a => addEntries a entries (p.callSites.filter a.covers)) []

theorem Program.findCallSites_api (p : Program) (a : Api) :
    p.findCallSites a.declaringType a.methodName none = p.callSites.filter a.covers := by
  unfold findCallSites
  congr 1
  funext c
  simp [Api.covers]

theorem result_scanEntries {ε : Type} (p : Program) (entries : List Entry) (apis : List Api) :
    (scanEntries p entries apis : Logged ε (List Entry)).result =
      .ok (apis.foldl (fun entries a => addEntries a entries (p.callSites.filter a.covers)) entries) := by
  induction apis generalizing entries with
  | nil => rfl
  | cons a rest ih =>
    rw [scanEntries, Logged.result_say_bind, p.findCallSites_api, ih, List.foldl_cons]

theorem result_discover {ε : Type} (p : Program) (apis : List Api) :
    (discover p apis : Logged ε (List Entry)).result = .ok (p.entries apis) := by
  unfold discover
  rw [Logged.result_bind_of_ok _ (result_scanEntries p [] apis), Logged.result_say_bind]
  rfl

/-! ## Calls that come in -/

theorem mem_addEntries (a : Api) (entries : List Entry) (sites : List CallSite)
    (hs : (sites.map CallSite.id).Nodup) (e : Entry) :
    e ∈ addEntries a entries sites ↔
      e ∈ entries ∨ (e.api = a ∧ e.site ∈ sites ∧ ∀ e' ∈ entries, e'.site.id ≠ e.site.id) := by
  induction sites generalizing entries with
  | nil => simp [addEntries]
  | cons c rest ih =>
    rw [List.map_cons, List.nodup_cons] at hs
    have hne : ∀ d ∈ rest, d.id ≠ c.id := fun d hd h => hs.1 (h ▸ List.mem_map_of_mem hd)
    unfold addEntries
    split
    · next hin =>
      obtain ⟨e', he', hid⟩ : ∃ e' ∈ entries, e'.site.id = c.id := by simpa using hin
      rw [ih entries hs.2]
      constructor
      · rintro (h | ⟨ha, hd, hnew⟩)
        · exact Or.inl h
        · exact Or.inr ⟨ha, List.mem_cons_of_mem c hd, hnew⟩
      · rintro (h | ⟨ha, hd, hnew⟩)
        · exact Or.inl h
        · rcases List.mem_cons.mp hd with hc | hd
          · exact absurd (hc ▸ hid) (hnew e' he')
          · exact Or.inr ⟨ha, hd, hnew⟩
    · next hout =>
      have hnew : ∀ e' ∈ entries, e'.site.id ≠ c.id := by simpa using hout
      rw [ih _ hs.2]
      simp only [List.mem_append, List.mem_cons, List.not_mem_nil, or_false]
      constructor
      · rintro ((h | rfl) | ⟨ha, hd, h⟩)
        · exact Or.inl h
        · exact Or.inr ⟨rfl, Or.inl rfl, hnew⟩
        · exact Or.inr ⟨ha, Or.inr hd, fun e' he' => h e' (Or.inl he')⟩
      · rintro (h | ⟨rfl, hc | hd, h⟩)
        · exact Or.inl (Or.inl h)
        · subst hc
          exact Or.inl (Or.inr rfl)
        · refine Or.inr ⟨rfl, hd, ?_⟩
          rintro e' (he' | rfl)
          · exact h e' he'
          · exact (hne _ hd).symm

theorem nodup_addEntries (a : Api) (entries : List Entry) (sites : List CallSite)
    (h : (entries.map fun e => e.site.id).Nodup) :
    ((addEntries a entries sites).map fun e => e.site.id).Nodup := by
  induction sites generalizing entries with
  | nil => exact h
  | cons c rest ih =>
    unfold addEntries
    split
    · exact ih entries h
    · next hout =>
      apply ih
      have hnew : ∀ e' ∈ entries, e'.site.id ≠ c.id := by simpa using hout
      rw [List.map_append, List.nodup_append]
      refine ⟨h, List.nodup_singleton _, ?_⟩
      intro x hx y hy
      obtain ⟨e', he', rfl⟩ := List.mem_map.mp hx
      rw [List.map_singleton, List.mem_singleton] at hy
      exact hy ▸ hnew e' he'

/-! ## All entries -/

namespace Program
variable {p : Program}

theorem nodup_entries (p : Program) (apis : List Api) :
    ((p.entries apis).map fun e => e.site.id).Nodup := by
  unfold entries
  have hfold : ∀ entries : List Entry, (entries.map fun e => e.site.id).Nodup →
      ((apis.foldl (fun entries a => addEntries a entries (p.callSites.filter a.covers)) entries).map
        fun e => e.site.id).Nodup := by
    induction apis with
    | nil => exact fun _ h => h
    | cons a rest ih => exact fun entries h => ih _ (nodup_addEntries a entries _ h)
  exact hfold [] List.nodup_nil

/-- The entries are those of the APIs looked at so far, which the fold carries along. -/
theorem mem_foldl_addEntries (hp : (p.callSites.map CallSite.id).Nodup) (before apis : List Api)
    (entries : List Entry)
    (h : ∀ e, e ∈ entries ↔ e.site ∈ p.callSites ∧ before.find? (·.covers e.site) = some e.api)
    (e : Entry) :
    e ∈ apis.foldl (fun entries a => addEntries a entries (p.callSites.filter a.covers)) entries ↔
      e.site ∈ p.callSites ∧ (before ++ apis).find? (·.covers e.site) = some e.api := by
  induction apis generalizing before entries with
  | nil => rw [List.append_nil, List.foldl_nil, h]
  | cons a rest ih =>
    have hfilter : ((p.callSites.filter a.covers).map CallSite.id).Nodup :=
      hp.sublist (List.filter_sublist.map _)
    rw [List.foldl_cons, ih (before ++ [a]), List.append_assoc, List.singleton_append]
    intro d
    rw [mem_addEntries a entries _ hfilter, h, List.find?_append]
    -- a call is new if no API before covers it
    have hnew : d.site ∈ p.callSites →
        ((∀ e' ∈ entries, e'.site.id ≠ d.site.id) ↔ before.find? (·.covers d.site) = none) := by
      intro hd
      constructor
      · intro hne
        cases hb : before.find? (·.covers d.site) with
        | none => rfl
        | some b => exact absurd rfl (hne ⟨d.site, b⟩ ((h _).mpr ⟨hd, hb⟩))
      · intro hnone e' he' hid
        obtain ⟨hc, hb⟩ := (h e').mp he'
        rw [List.inj_on_of_nodup_map hp hc hd hid, hnone] at hb
        cases hb
    by_cases hd : d.site ∈ p.callSites
    · cases hb : before.find? (·.covers d.site) with
      | some b => simp [hd, hnew hd, hb]
      | none =>
        cases ha : a.covers d.site with
        | true => simp [hd, hnew hd, hb, ha, eq_comm (a := a)]
        | false => simp [hd, ha]
    · simp [hd]

theorem mem_entries (hp : (p.callSites.map CallSite.id).Nodup) {apis : List Api} {e : Entry} :
    e ∈ p.entries apis ↔ e.site ∈ p.callSites ∧ apis.find? (·.covers e.site) = some e.api :=
  mem_foldl_addEntries hp [] apis [] (by simp) e

end Program

end TypeOrigins
