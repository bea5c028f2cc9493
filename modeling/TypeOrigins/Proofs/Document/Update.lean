import Mathlib.Data.List.Nodup
import TypeOrigins.Proofs.Document.Check

/-! # Fields put over others

Looking up a field after others were put over an object: the new value counts if there is one, and
the old one if not. Keys that are not known stay in their order. -/

namespace TypeOrigins.Document.Fields
set_option autoImplicit false

variable {fields others : Fields} {key : Key} {value d : Document} {name : String}

theorem get?_cons (f : Key × Document) (rest : Fields) (name : String) :
    get? (f :: rest) name = if f.1 = .name name then some f.2 else rest.get? name := by
  unfold get?
  by_cases h : f.1 = .name name
  · rw [List.find?_cons_of_pos (by simp [h]), if_pos h]
    rfl
  · rw [List.find?_cons_of_neg (by simp [h]), if_neg h]

theorem mem_of_get? (h : fields.get? name = some d) : (Key.name name, d) ∈ fields := by
  obtain ⟨f, hf, rfl⟩ := Option.map_eq_some_iff.mp h
  have hkey : f.1 = .name name := by simpa using List.find?_some hf
  rw [← hkey]
  exact List.mem_of_find?_eq_some hf

theorem get?_of_mem (hkeys : (fields.map Prod.fst).Nodup) (h : (Key.name name, d) ∈ fields) :
    fields.get? name = some d := by
  induction fields with
  | nil => cases h
  | cons f rest ih =>
    rw [List.map_cons, List.nodup_cons] at hkeys
    rw [get?_cons]
    rcases List.mem_cons.mp h with rfl | hrest
    · rw [if_pos rfl]
    · have hne : f.1 ≠ .name name := by
        intro hkey
        exact hkeys.1 (hkey ▸ List.mem_map_of_mem hrest)
      rw [if_neg hne]
      exact ih hkeys.2 hrest

theorem get?_eq_none (h : Key.name name ∉ fields.map Prod.fst) : fields.get? name = none := by
  rw [Option.eq_none_iff_forall_ne_some]
  intro d hd
  exact h (List.mem_map_of_mem (mem_of_get? hd))

/-! ## One field -/

theorem get?_put (fields : Fields) (key : Key) (value : Document) (name : String) :
    (fields.put key value).get? name = if key = .name name then some value else fields.get? name := by
  induction fields with
  | nil => exact get?_cons (key, value) [] name
  | cons f rest ih =>
    rw [put]
    by_cases hf : f.1 = key
    · rw [if_pos (by simpa using hf), get?_cons, get?_cons, hf]
      split <;> rfl
    · rw [if_neg (by simpa using hf), get?_cons, get?_cons, ih]
      by_cases hkey : key = .name name
      · have hne : f.1 ≠ .name name := by rwa [← hkey]
        rw [if_neg hne, if_pos hkey, if_pos hkey]
      · rw [if_neg hkey, if_neg hkey]

theorem keys_put (fields : Fields) (key : Key) (value : Document) :
    (fields.put key value).map Prod.fst =
      if key ∈ fields.map Prod.fst then fields.map Prod.fst else fields.map Prod.fst ++ [key] := by
  induction fields with
  | nil => rfl
  | cons f rest ih =>
    rw [put]
    by_cases hf : f.1 = key
    · simp [hf]
    · have hkey : ¬ key = f.1 := fun h => hf h.symm
      rw [if_neg (by simpa using hf), List.map_cons, ih]
      by_cases hin : key ∈ rest.map Prod.fst
      · simp [hin]
      · simp [hin, hkey]

theorem mem_put {f : Key × Document} (h : f ∈ fields.put key value) : f = (key, value) ∨ f ∈ fields := by
  induction fields with
  | nil => simpa [put] using h
  | cons g rest ih =>
    rw [put] at h
    split at h
    · rcases List.mem_cons.mp h with rfl | h
      · exact Or.inl rfl
      · exact Or.inr (List.mem_cons_of_mem g h)
    · rcases List.mem_cons.mp h with rfl | h
      · exact Or.inr List.mem_cons_self
      · exact (ih h).imp_right (List.mem_cons_of_mem g)

theorem nodup_put (h : (fields.map Prod.fst).Nodup) : ((fields.put key value).map Prod.fst).Nodup := by
  rw [keys_put]
  split
  · exact h
  next hnew =>
    rw [List.nodup_append]
    refine ⟨h, List.nodup_singleton key, ?_⟩
    rintro k hk k' hk' rfl
    exact hnew (List.mem_singleton.mp hk' ▸ hk)

/-! ## Several fields -/

theorem update_cons (fields : Fields) (f : Key × Document) (rest : Fields) :
    fields.update (f :: rest) = (fields.put f.1 f.2).update rest := rfl

theorem mem_update {f : Key × Document} (h : f ∈ fields.update others) : f ∈ fields ∨ f ∈ others := by
  induction others generalizing fields with
  | nil => exact Or.inl h
  | cons g rest ih =>
    rcases ih h with h | h
    · rcases mem_put h with rfl | h
      · exact Or.inr List.mem_cons_self
      · exact Or.inl h
    · exact Or.inr (List.mem_cons_of_mem g h)

theorem nodup_update (h : (fields.map Prod.fst).Nodup) : ((fields.update others).map Prod.fst).Nodup := by
  induction others generalizing fields with
  | nil => exact h
  | cons f rest ih => exact ih (nodup_put h)

theorem get?_update (hkeys : (others.map Prod.fst).Nodup) (fields : Fields) (name : String) :
    (fields.update others).get? name = (others.get? name).or (fields.get? name) := by
  induction others generalizing fields with
  | nil => rfl
  | cons f rest ih =>
    rw [List.map_cons, List.nodup_cons] at hkeys
    rw [update_cons, ih hkeys.2, get?_put, get?_cons]
    by_cases hf : f.1 = .name name
    · have hnone : get? rest name = none := get?_eq_none (hf ▸ hkeys.1)
      rw [if_pos hf, if_pos hf, hnone]
      rfl
    · rw [if_neg hf, if_neg hf]

/-! ## Keys that are not known -/

/-- The issues of the keys that are not known. -/
def strays (known : List String) (fields : Fields) : List Issue :=
  (fields.map Prod.fst).filterMap (strayKey? known)

variable {known : List String}

theorem filterMap_strayKey? (known : List String) (fields : Fields) :
    (fields.filterMap fun f => strayKey? known f.1) = fields.strays known := by
  unfold strays
  rw [List.filterMap_map]
  rfl

theorem noExtras_congr (h : fields.strays known = others.strays known) :
    noExtras fields known = noExtras others known := by
  unfold noExtras
  rw [filterMap_strayKey?, filterMap_strayKey?, h]

theorem noExtras_eq_valid {u : Unit} : noExtras fields known = .valid u ↔ fields.strays known = [] := by
  unfold noExtras
  rw [filterMap_strayKey?]
  split
  next hnil => exact ⟨fun _ => hnil, fun _ => rfl⟩
  next is hne =>
    constructor
    · intro h
      cases h
    · exact fun h => absurd h hne

theorem issues_noExtras (fields : Fields) (known : List String) :
    (noExtras fields known).issues = fields.strays known := by
  unfold noExtras
  rw [filterMap_strayKey?]
  split
  next hnil => exact hnil.symm
  · rfl

theorem strays_put (h : (strayKey? known key).isSome → key ∉ fields.map Prod.fst) :
    (fields.put key value).strays known = fields.strays known ++ (strayKey? known key).toList := by
  unfold strays
  rw [keys_put]
  cases hkey : strayKey? known key with
  | none =>
    split
    · simp
    · simp [hkey]
  | some i =>
    have hnew : key ∉ fields.map Prod.fst := h (by simp [hkey])
    rw [if_neg hnew]
    simp [hkey]

theorem strays_update (hkeys : (others.map Prod.fst).Nodup)
    (h : ∀ f ∈ others, (strayKey? known f.1).isSome → f.1 ∉ fields.map Prod.fst) :
    (fields.update others).strays known = fields.strays known ++ others.strays known := by
  induction others generalizing fields with
  | nil => exact (List.append_nil _).symm
  | cons f rest ih =>
    rw [List.map_cons, List.nodup_cons] at hkeys
    have hrest : ∀ g ∈ rest, (strayKey? known g.1).isSome → g.1 ∉ (fields.put f.1 f.2).map Prod.fst := by
      intro g hg hstray hin
      have hne : g.1 ≠ f.1 := fun heq => hkeys.1 (heq ▸ List.mem_map_of_mem hg)
      have hold := h g (List.mem_cons_of_mem f hg) hstray
      rw [keys_put] at hin
      split at hin
      · exact hold hin
      · rcases List.mem_append.mp hin with hin | hin
        · exact hold hin
        · exact hne (List.mem_singleton.mp hin)
    rw [update_cons, ih hkeys.2 hrest, strays_put (h f List.mem_cons_self), List.append_assoc]
    unfold strays
    rw [List.map_cons, List.filterMap_cons]
    cases strayKey? known f.1 <;> rfl

end TypeOrigins.Document.Fields
