import Mathlib.Data.List.Nodup

/-! # Tables in the order in which their keys came in

A table is a list of keys with what stands under them. A key that is new comes last, and one that is
there keeps its place. -/

namespace TypeOrigins.Table
set_option autoImplicit false

variable {β : Type}

/-- The table with something else under a key, made of what stands there. -/
def alter (key : String) (change : Option β → β) : List (String × β) → List (String × β)
  | [] => [(key, change none)]
  | (k, b) :: rest =>
      if k = key then (k, change (some b)) :: rest else (k, b) :: alter key change rest

variable (key : String) (change : Option β → β)

theorem lookup_alter (t : List (String × β)) (k : String) :
    (alter key change t).lookup k = if k = key then some (change (t.lookup key)) else t.lookup k := by
  induction t with
  | nil =>
    by_cases h : k = key
    · simp [alter, h]
    · have hk : (k == key) = false := beq_eq_false_iff_ne.mpr h
      simp [alter, h, hk, List.lookup_cons]
  | cons entry rest ih =>
    obtain ⟨k', b⟩ := entry
    unfold alter
    by_cases hk' : k' = key
    · subst hk'
      by_cases h : k = k'
      · simp [h]
      · have hk : (k == k') = false := beq_eq_false_iff_ne.mpr h
        simp [h, hk, List.lookup_cons]
    · have hkey : (key == k') = false := beq_eq_false_iff_ne.mpr (Ne.symm hk')
      rw [if_neg hk', List.lookup_cons, ih]
      by_cases h : k = key
      · subst h
        simp [List.lookup_cons, hkey]
      · simp [h, List.lookup_cons]

theorem map_fst_alter (t : List (String × β)) :
    (alter key change t).map Prod.fst =
      if key ∈ t.map Prod.fst then t.map Prod.fst else t.map Prod.fst ++ [key] := by
  induction t with
  | nil => simp [alter]
  | cons entry rest ih =>
    obtain ⟨k, b⟩ := entry
    unfold alter
    by_cases h : k = key
    · simp [h]
    · have hkey : ¬ key = k := fun h' => h h'.symm
      rw [if_neg h, List.map_cons, ih]
      by_cases hin : key ∈ rest.map Prod.fst
      · simp [hin]
      · simp [hin, hkey]

theorem nodup_alter {t : List (String × β)} (h : (t.map Prod.fst).Nodup) :
    ((alter key change t).map Prod.fst).Nodup := by
  rw [map_fst_alter]
  split
  · exact h
  · next hnew =>
    rw [List.nodup_append]
    refine ⟨h, List.nodup_singleton key, ?_⟩
    rintro k hk k' hk' rfl
    exact hnew (List.mem_singleton.mp hk' ▸ hk)

theorem mem_alter {t : List (String × β)} {entry : String × β} (h : entry ∈ alter key change t) :
    entry = (key, change (t.lookup key)) ∨ entry ∈ t := by
  induction t with
  | nil => exact Or.inl (List.mem_singleton.mp h)
  | cons first rest ih =>
    obtain ⟨k, b⟩ := first
    unfold alter at h
    by_cases hk : k = key
    · subst hk
      rw [if_pos rfl, List.mem_cons] at h
      rcases h with rfl | h
      · exact Or.inl (by simp)
      · exact Or.inr (List.mem_cons_of_mem _ h)
    · have hkey : (key == k) = false := beq_eq_false_iff_ne.mpr (Ne.symm hk)
      rw [if_neg hk, List.mem_cons] at h
      rcases h with rfl | h
      · exact Or.inr List.mem_cons_self
      · rw [List.lookup_cons, hkey]
        exact (ih h).imp id (List.mem_cons_of_mem _)

theorem lookup_eq_some_iff_mem {t : List (String × β)} (h : (t.map Prod.fst).Nodup) {k : String} {b : β} :
    t.lookup k = some b ↔ (k, b) ∈ t := by
  constructor
  · intro hl
    obtain ⟨before, after, rfl, _⟩ := List.lookup_eq_some_iff.mp hl
    exact List.mem_append_right _ List.mem_cons_self
  · intro hin
    obtain ⟨before, after, rfl⟩ := List.append_of_mem hin
    refine List.lookup_eq_some_iff.mpr ⟨before, after, rfl, fun entry hentry => ?_⟩
    rw [List.map_append, List.nodup_append] at h
    have hne := h.2.2 entry.1 (List.mem_map_of_mem hentry) k (by simp)
    exact bne_iff_ne.mpr (Ne.symm hne)

/-- A table that lists something for each of some keys. -/
theorem alter_map {keys : List String} (h : keys.Nodup) (value : String → β) :
    alter key change (keys.map fun k => (k, value k)) =
      if key ∈ keys then
        keys.map fun k => (k, if k = key then change (some (value k)) else value k)
      else (keys.map fun k => (k, value k)) ++ [(key, change none)] := by
  induction keys with
  | nil => rfl
  | cons k rest ih =>
    rw [List.nodup_cons] at h
    rw [List.map_cons, alter, ih h.2]
    by_cases hk : k = key
    · subst hk
      have hrest : ∀ k' ∈ rest, k' ≠ k := by
        rintro k' hk' rfl
        exact h.1 hk'
      simp only [List.mem_cons, true_or, if_true, List.map_cons, List.cons.injEq, true_and]
      exact List.map_congr_left fun k' hk' => by rw [if_neg (hrest k' hk')]
    · have hkey : ¬ key = k := fun h' => hk h'.symm
      by_cases hin : key ∈ rest
      · simp [hk, hin]
      · simp [hk, hkey, hin]

end TypeOrigins.Table
