import Mathlib.Data.List.Induction
import TypeOrigins.Proofs.Analysis.Entries

/-! # The order of the entries

The entries of one more API are the calls it covers and no API before it does, and they come after all
others. So the entries stand in the order of the APIs that cover them first, those of one API in the
order of the program, and further APIs only add entries at the end. -/

namespace TypeOrigins
set_option autoImplicit false

theorem addEntries_eq_append (a : Api) (entries : List Entry) (sites : List CallSite)
    (hs : (sites.map CallSite.id).Nodup) :
    addEntries a entries sites =
      entries ++ (sites.filter fun c => !entries.any fun e => e.site.id == c.id).map (⟨·, a⟩) := by
  induction sites generalizing entries with
  | nil => simp [addEntries]
  | cons c rest ih =>
    rw [List.map_cons, List.nodup_cons] at hs
    unfold addEntries
    by_cases hin : (entries.any fun e => e.site.id == c.id) = true
    · rw [if_pos hin, ih entries hs.2, List.filter_cons_of_neg (by simp [hin])]
    · -- the identifiers of the calls that follow differ from that of `c`
      have hrest : (rest.filter fun d => !(entries ++ [(⟨c, a⟩ : Entry)]).any fun e => e.site.id == d.id) =
          rest.filter fun d => !entries.any fun e => e.site.id == d.id := by
        refine List.filter_congr fun d hd => ?_
        have hne : (c.id == d.id) = false :=
          beq_eq_false_iff_ne.mpr fun h => hs.1 (h ▸ List.mem_map_of_mem hd)
        simp [hne]
      rw [if_neg hin, ih _ hs.2, hrest, List.filter_cons_of_pos (by simpa using hin), List.map_cons,
        List.append_assoc, List.singleton_append]

theorem prefix_addEntries (a : Api) (entries : List Entry) (sites : List CallSite) :
    entries <+: addEntries a entries sites := by
  induction sites generalizing entries with
  | nil => exact List.prefix_refl entries
  | cons c rest ih =>
    unfold addEntries
    split
    · exact ih entries
    · exact (List.prefix_append _ _).trans (ih _)

theorem covers_of_find? {apis : List Api} {a : Api} {c : CallSite}
    (h : apis.find? (·.covers c) = some a) : a ∈ apis ∧ a.covers c = true := by
  refine ⟨List.mem_of_find?_eq_some h, ?_⟩
  simpa using List.find?_some h

theorem exists_find?_of_covers {apis : List Api} {a : Api} {c : CallSite} (ha : a ∈ apis)
    (h : a.covers c = true) : ∃ b, apis.find? (·.covers c) = some b :=
  Option.isSome_iff_exists.mp (List.find?_isSome.mpr ⟨a, ha, h⟩)

theorem Api.covers_iff {a : Api} {c : CallSite} : a.covers c = true ↔
    c.target.declaringType = a.declaringType ∧ c.target.name = a.methodName := by
  simp [covers]

namespace Program

theorem prefix_entries_append (p : Program) (apis more : List Api) :
    p.entries apis <+: p.entries (apis ++ more) := by
  induction more generalizing apis with
  | nil => simp only [List.append_nil, List.prefix_refl]
  | cons a rest ih =>
    have hone : p.entries apis <+: p.entries (apis ++ [a]) := by
      unfold entries
      rw [List.foldl_append]
      exact prefix_addEntries a _ _
    have hrest := ih (apis ++ [a])
    rw [List.append_assoc, List.singleton_append] at hrest
    exact hone.trans hrest

/-- Where an entry stands: by the first API that covers its call, then by the place of the call in the
program. -/
def EntryBefore (p : Program) (apis : List Api) (e f : Entry) : Prop :=
  apis.findIdx (·.covers e.site) < apis.findIdx (·.covers f.site) ∨
    (apis.findIdx (·.covers e.site) = apis.findIdx (·.covers f.site) ∧
      p.callSites.idxOf e.site < p.callSites.idxOf f.site)

variable {p : Program} (hp : (p.callSites.map CallSite.id).Nodup)
include hp

theorem any_entries {apis : List Api} {c : CallSite} (hc : c ∈ p.callSites) :
    ((p.entries apis).any fun e => e.site.id == c.id) = apis.any (·.covers c) := by
  rw [Bool.eq_iff_iff, List.any_eq_true, List.any_eq_true]
  constructor
  · rintro ⟨e, he, hid⟩
    obtain ⟨hsite, hfind⟩ := (mem_entries hp).mp he
    have hsame : e.site = c := List.inj_on_of_nodup_map hp hsite hc (by simpa using hid)
    rw [hsame] at hfind
    exact ⟨e.api, covers_of_find? hfind⟩
  · rintro ⟨a, ha, hcovers⟩
    obtain ⟨b, hfind⟩ := exists_find?_of_covers ha hcovers
    exact ⟨⟨c, b⟩, (mem_entries hp).mpr ⟨hc, hfind⟩, by simp⟩

/-- One more API. -/
theorem entries_append_singleton (apis : List Api) (a : Api) :
    p.entries (apis ++ [a]) = p.entries apis ++
      (p.callSites.filter fun c => a.covers c && !apis.any (·.covers c)).map (⟨·, a⟩) := by
  have hcovered : ((p.callSites.filter a.covers).map CallSite.id).Nodup :=
    hp.sublist (List.filter_sublist.map _)
  have hstep : p.entries (apis ++ [a]) = addEntries a (p.entries apis) (p.callSites.filter a.covers) := by
    unfold entries
    rw [List.foldl_append]
    rfl
  rw [hstep, addEntries_eq_append a _ _ hcovered, List.filter_filter]
  congr 2
  refine List.filter_congr fun c hc => ?_
  rw [any_entries hp hc, Bool.and_comm]

theorem pairwise_idxOf : p.callSites.Pairwise fun c d => p.callSites.idxOf c < p.callSites.idxOf d := by
  have hnodup := hp.of_map
  rw [List.pairwise_iff_getElem]
  intro i j hi hj hij
  rwa [hnodup.idxOf_getElem i hi, hnodup.idxOf_getElem j hj]

/-- The induction is on the APIs from the last on, since the fold adds the entries of the last API at
the end. -/
theorem pairwise_entries (apis : List Api) : (p.entries apis).Pairwise (p.EntryBefore apis) := by
  induction apis using List.reverseRecOn with
  | nil => exact List.Pairwise.nil
  | append_singleton apis a ih =>
    have hold : ∀ e ∈ p.entries apis, apis.findIdx (·.covers e.site) < apis.length ∧
        (apis ++ [a]).findIdx (·.covers e.site) = apis.findIdx (·.covers e.site) := by
      intro e he
      have hfind := ((mem_entries hp).mp he).2
      have hlt : apis.findIdx (·.covers e.site) < apis.length :=
        List.findIdx_lt_length.mpr ⟨e.api, covers_of_find? hfind⟩
      exact ⟨hlt, by rw [List.findIdx_append, if_pos hlt]⟩
    have hnew : ∀ c, a.covers c = true → apis.any (·.covers c) = false →
        (apis ++ [a]).findIdx (·.covers c) = apis.length := by
      intro c ha hnone
      have hidx : apis.findIdx (·.covers c) = apis.length :=
        List.findIdx_eq_length.mpr (by simpa using hnone)
      rw [List.findIdx_append, hidx, if_neg (Nat.lt_irrefl _)]
      simp [List.findIdx_cons, ha]
    rw [entries_append_singleton hp, List.pairwise_append]
    refine ⟨?_, ?_, ?_⟩
    · refine ih.imp_of_mem fun {e f} he hf h => ?_
      unfold EntryBefore
      rw [(hold e he).2, (hold f hf).2]
      exact h
    · rw [List.pairwise_map]
      refine ((pairwise_idxOf hp).filter _).imp_of_mem fun {c d} hc hd h => Or.inr ⟨?_, h⟩
      obtain ⟨hca, hcn⟩ : a.covers c = true ∧ apis.any (·.covers c) = false := by
        simpa using (List.mem_filter.mp hc).2
      obtain ⟨hda, hdn⟩ : a.covers d = true ∧ apis.any (·.covers d) = false := by
        simpa using (List.mem_filter.mp hd).2
      rw [hnew c hca hcn, hnew d hda hdn]
    · intro e he f hf
      obtain ⟨d, hd, rfl⟩ := List.mem_map.mp hf
      obtain ⟨hda, hdn⟩ : a.covers d = true ∧ apis.any (·.covers d) = false := by
        simpa using (List.mem_filter.mp hd).2
      refine Or.inl ?_
      rw [(hold e he).2, hnew d hda hdn]
      exact (hold e he).1

end Program

/-- The entries are the calls of the program whose target one of the APIs names, each once, under the
first such API, in the order of the APIs and then of the program. Further APIs only add entries at the
end. -/
theorem discover_lists_bound_calls {ε : Type} (p : Program) (hp : (p.callSites.map CallSite.id).Nodup)
    (apis : List Api) :
    ∃ entries, (discover p apis : Logged ε (List Entry)).result = .ok entries ∧
      (∀ c, c ∈ entries.map Entry.site ↔ c ∈ p.callSites ∧
        ∃ a ∈ apis, c.target.declaringType = a.declaringType ∧ c.target.name = a.methodName) ∧
      (entries.map Entry.site).Nodup ∧
      (∀ e ∈ entries, e.api.covers e.site = true ∧
        ∃ before after, apis = before ++ e.api :: after ∧ ∀ b ∈ before, b.covers e.site = false) ∧
      entries.Pairwise (p.EntryBefore apis) ∧
      ∀ more, ∃ added,
        (discover p (apis ++ more) : Logged ε (List Entry)).result = .ok (entries ++ added) := by
  refine ⟨p.entries apis, result_discover p apis, fun c => ?_, ?_, fun e he => ?_,
    Program.pairwise_entries hp apis, fun more => ?_⟩
  · simp only [List.mem_map, ← Api.covers_iff]
    constructor
    · rintro ⟨e, he, rfl⟩
      obtain ⟨hsite, hfind⟩ := (Program.mem_entries hp).mp he
      exact ⟨hsite, e.api, covers_of_find? hfind⟩
    · rintro ⟨hc, a, ha, hcovers⟩
      obtain ⟨b, hfind⟩ := exists_find?_of_covers ha hcovers
      exact ⟨⟨c, b⟩, (Program.mem_entries hp).mpr ⟨hc, hfind⟩, rfl⟩
  · have hids := p.nodup_entries apis
    have hmap : (p.entries apis).map (fun e => e.site.id) =
        ((p.entries apis).map Entry.site).map CallSite.id := by rw [List.map_map]; rfl
    rw [hmap] at hids
    exact hids.of_map
  · obtain ⟨hcovers, before, after, hsplit, hbefore⟩ :=
      List.find?_eq_some_iff_append.mp ((Program.mem_entries hp).mp he).2
    exact ⟨hcovers, before, after, hsplit, by simpa using hbefore⟩
  · obtain ⟨added, hadded⟩ := p.prefix_entries_append apis more
    exact ⟨added, by rw [result_discover, hadded]⟩

/-! ## Overlapping APIs

Two APIs, each of which is listed again with another argument, and calls of both in turn. -/

namespace Overlap

def loader (argument : Int) : Api where
  declaringType := "App.Plugins"
  methodName := "Load"
  valueArgumentIndex := argument

def activator (argument : Int) : Api := { Api.activator with valueArgumentIndex := argument }

def call (id declaringType name : String) : CallSite where
  id := id
  location := ⟨"Plugins.cs", 1, 0⟩
  target := ⟨name, declaringType, name⟩

def first : CallSite := call "first" "System.Activator" "CreateInstance"

def second : CallSite := call "second" "App.Plugins" "Load"

def third : CallSite := call "third" "App.Other" "Load"

def fourth : CallSite := call "fourth" "System.Activator" "CreateInstance"

def program : Program where
  callSites := [first, second, third, fourth]

def apis : List Api := [loader 2, activator 1, loader 0]

def entries : List Entry := [⟨second, loader 2⟩, ⟨first, activator 1⟩, ⟨fourth, activator 1⟩]

end Overlap

open Overlap in
theorem discover_lists_overlap :
    (program.callSites.map CallSite.id).Nodup ∧
      (discover program apis : Logged Failure (List Entry)).result = .ok entries ∧
      third ∉ entries.map Entry.site ∧ entries.Pairwise (program.EntryBefore apis) ∧
      ∃ added, (discover program (apis ++ [⟨"App.Other", "Load", 0, 0⟩, activator 0]) :
        Logged Failure (List Entry)).result = .ok (entries ++ added) := by
  have hids : (program.callSites.map CallSite.id).Nodup := by decide
  have hentries : (discover program apis : Logged Failure (List Entry)).result = .ok entries := by rfl
  obtain ⟨found, hfound, hmem, _, _, horder, hmore⟩ :=
    discover_lists_bound_calls (ε := Failure) program hids apis
  obtain rfl : entries = found := Except.ok.inj (hentries.symm.trans hfound)
  refine ⟨hids, hentries, ?_, horder, hmore _⟩
  intro hthird
  obtain ⟨_, a, ha, htype, _⟩ := (hmem third).mp hthird
  have ha' : a = loader 2 ∨ a = activator 1 ∨ a = loader 0 := by simpa [apis] using ha
  rcases ha' with rfl | rfl | rfl <;> exact absurd htype (by decide)

end TypeOrigins
