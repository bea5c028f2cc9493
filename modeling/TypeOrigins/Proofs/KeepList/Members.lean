import Mathlib.Data.List.Sort
import TypeOrigins.KeepList.Basic

/-! # The members of a keep list

A keep list is determined by its members, whatever the order in which they came in. Its groups hold
each of them once. -/

namespace TypeOrigins
set_option autoImplicit false

instance : Std.Irrefl TypeReference.Before := ⟨TypeReference.not_before_self⟩

instance : Std.Antisymm TypeReference.Before :=
  ⟨fun r _ h h' => absurd (h.trans h') r.not_before_self⟩

theorem TypeReference.nodup_of_pairwise {l : List TypeReference} (h : l.Pairwise Before) : l.Nodup := by
  refine h.imp ?_
  rintro r s hrs rfl
  exact r.not_before_self hrs

namespace KeepList

theorem ext_mem {k l : KeepList} (h : ∀ r, r ∈ k.references ↔ r ∈ l.references) : k = l := by
  have hrefs := k.increasing.eq_of_mem_iff l.increasing h
  cases k
  cases l
  simp_all

theorem mem_insert {k : KeepList} {r s : TypeReference} :
    s ∈ (k.insert r).references ↔ s = r ∨ s ∈ k.references :=
  TypeReference.mem_insertInto r s k.references

theorem mem_insertAll {k : KeepList} {refs : List TypeReference} {r : TypeReference} :
    r ∈ (k.insertAll refs).references ↔ r ∈ k.references ∨ r ∈ refs := by
  unfold insertAll
  induction refs generalizing k with
  | nil => simp
  | cons s rest ih =>
    rw [List.foldl_cons, ih, mem_insert, List.mem_cons, or_assoc, or_left_comm]

theorem mem_ofList {refs : List TypeReference} {r : TypeReference} :
    r ∈ (ofList refs).references ↔ r ∈ refs := by
  unfold ofList
  rw [mem_insertAll]
  simp [empty]

theorem mem_merge {k l : KeepList} {r : TypeReference} :
    r ∈ (k.merge l).references ↔ r ∈ k.references ∨ r ∈ l.references := mem_insertAll

/-! ## Groups -/

theorem assembliesOf_cons_cons (r s : TypeReference) (rest : List TypeReference) :
    assembliesOf (r :: s :: rest) =
      if r.assembly = s.assembly then assembliesOf (s :: rest)
      else r.assembly :: assembliesOf (s :: rest) := rfl

theorem mem_assembliesOf {l : List TypeReference} {a : String} :
    a ∈ assembliesOf l ↔ ∃ r ∈ l, r.assembly = a := by
  induction l with
  | nil => simp [assembliesOf]
  | cons r rest ih =>
    cases rest with
    | nil => simp [assembliesOf, eq_comm (a := a)]
    | cons s more =>
      rw [assembliesOf_cons_cons]
      split
      · next h =>
        rw [ih]
        constructor
        · rintro ⟨t, ht, hta⟩
          exact ⟨t, List.mem_cons_of_mem r ht, hta⟩
        · rintro ⟨t, ht, hta⟩
          rcases List.mem_cons.mp ht with rfl | ht
          · exact ⟨s, List.mem_cons_self, h ▸ hta⟩
          · exact ⟨t, ht, hta⟩
      · rw [List.mem_cons, ih]
        constructor
        · rintro (rfl | ⟨t, ht, hta⟩)
          · exact ⟨r, List.mem_cons_self, rfl⟩
          · exact ⟨t, List.mem_cons_of_mem r ht, hta⟩
        · rintro ⟨t, ht, hta⟩
          rcases List.mem_cons.mp ht with rfl | ht
          · exact Or.inl hta.symm
          · exact Or.inr ⟨t, ht, hta⟩

theorem pairwise_assembliesOf {l : List TypeReference} (h : l.Pairwise TypeReference.Before) :
    (assembliesOf l).Pairwise (· < ·) := by
  induction l with
  | nil => exact List.Pairwise.nil
  | cons r rest ih =>
    rw [List.pairwise_cons] at h
    cases rest with
    | nil => exact List.pairwise_singleton _ _
    | cons s more =>
      rw [assembliesOf_cons_cons]
      split
      · exact ih h.2
      · next hne =>
        refine List.pairwise_cons.mpr ⟨fun a ha => ?_, ih h.2⟩
        obtain ⟨t, ht, rfl⟩ := mem_assembliesOf.mp ha
        -- the assembly of `s` comes after that of `r`, and that of `t` is not before it
        have hrs : r.assembly < s.assembly := (h.1 s List.mem_cons_self).resolve_right fun hn => hne hn.1
        rcases List.mem_cons.mp ht with rfl | ht
        · exact hrs
        · rcases (List.pairwise_cons.mp h.2).1 t ht with hst | ⟨hst, _⟩
          · exact String.lt_trans hrs hst
          · exact hst ▸ hrs

/-- The groups, written out one after another, are the references in their order. -/
theorem flatMap_groups (k : KeepList) :
    (k.groups.flatMap fun g => g.2.map fun t => ⟨g.1, t⟩) = k.references := by
  have hgroup : ∀ a, (k.typesOf a).map (fun t => (⟨a, t⟩ : TypeReference)) =
      k.references.filter fun r => r.assembly == a := by
    intro a
    unfold typesOf
    rw [List.map_map]
    refine (List.map_congr_left fun r hr => ?_).trans (List.map_id _)
    have ha : r.assembly = a := by simpa using (List.mem_filter.mp hr).2
    subst ha
    rfl
  unfold groups
  rw [List.flatMap_map]
  simp only [hgroup]
  refine List.Pairwise.eq_of_mem_iff (List.pairwise_flatMap.mpr ⟨?_, ?_⟩) k.increasing fun r => ?_
  · exact fun a _ => k.increasing.filter _
  · refine (pairwise_assembliesOf k.increasing).imp ?_
    intro a b hab r hr s hs
    have hra : r.assembly = a := by simpa using (List.mem_filter.mp hr).2
    have hsb : s.assembly = b := by simpa using (List.mem_filter.mp hs).2
    exact Or.inl (hra ▸ hsb ▸ hab)
  · rw [List.mem_flatMap]
    constructor
    · rintro ⟨a, _, hr⟩
      exact (List.mem_filter.mp hr).1
    · intro hr
      exact ⟨r.assembly, mem_assembliesOf.mpr ⟨r, hr, rfl⟩, List.mem_filter.mpr ⟨hr, by simp⟩⟩

end KeepList

end TypeOrigins
