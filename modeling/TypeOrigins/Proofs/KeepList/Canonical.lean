import Mathlib.Data.Finset.Card
import Mathlib.Data.List.Lattice
import TypeOrigins.Proofs.KeepList.RoundTrip
import TypeOrigins.Proofs.Program.Callers
import TypeOrigins.Proofs.Table

/-! # Keep lists as sets

A keep list is the set of the references that went into it, whatever the order and the operations that
brought it about, and merging is the union of sets. `Grouping` holds the same references as a table
from assemblies to the names that are kept of them. Such a table has no group without a name, so that
two tables are equal if and only if they hold the same references, and what is read off a table in
sorted order is what the keep list says. -/

namespace TypeOrigins
set_option autoImplicit false

/-! ## Laws of merging -/

namespace KeepList

theorem merge_comm (k l : KeepList) : k.merge l = l.merge k :=
  ext_mem fun r => by rw [mem_merge, mem_merge, or_comm]

theorem merge_assoc (k l m : KeepList) : (k.merge l).merge m = k.merge (l.merge m) :=
  ext_mem fun r => by simp only [mem_merge, or_assoc]

theorem merge_self (k : KeepList) : k.merge k = k :=
  ext_mem fun r => by rw [mem_merge, or_self]

theorem merge_empty (k : KeepList) : k.merge empty = k := rfl

theorem ofList_eq_ofList_iff {xs ys : List TypeReference} :
    ofList xs = ofList ys ↔ ∀ r, r ∈ xs ↔ r ∈ ys := by
  constructor
  · intro h r
    rw [← mem_ofList, h, mem_ofList]
  · intro h
    exact ext_mem fun r => by rw [mem_ofList, mem_ofList, h]

theorem merge_ofList (xs ys : List TypeReference) : (ofList xs).merge (ofList ys) = ofList (xs ++ ys) :=
  ext_mem fun r => by rw [mem_merge, mem_ofList, mem_ofList, mem_ofList, List.mem_append]

theorem ofList_toList (k : KeepList) : ofList k.toList = k :=
  ext_mem fun _ => mem_ofList

theorem contains_iff {k : KeepList} {r : TypeReference} : k.contains r = true ↔ r ∈ k.toList :=
  List.contains_iff_mem

end KeepList

theorem sortTexts_eq {l m : List String} (hl : l.Nodup) (hm : m.Pairwise (· < ·))
    (h : ∀ a, a ∈ l ↔ a ∈ m) : sortTexts l = m := by
  have hnodup : m.Nodup := hm.imp String.ne_of_lt
  have hperm : (sortTexts l).Perm m :=
    (perm_sortBy _ l).trans ((List.perm_ext_iff_of_nodup hl hnodup).mpr h)
  have hsorted : (sortTexts l).Pairwise (· ≤ ·) := by
    refine (pairwise_sortBy (fun a b => ?_) (fun a b c => ?_) l).imp fun h => of_decide_eq_true h
    · simpa using String.le_total a b
    · simpa using String.le_trans
  refine List.Perm.eq_of_pairwise (fun a b _ _ => String.le_antisymm) hsorted (hm.imp ?_) hperm
  exact fun hlt => String.not_lt.mp (String.lt_asymm hlt)

/-! ## References grouped by their assemblies -/

/-- The names that are kept of each assembly, in the order in which they came in. -/
abbrev Grouping := List (String × List String)

namespace Grouping

def names (t : Grouping) (a : String) : List String := (t.lookup a).getD []

def add (t : Grouping) (r : TypeReference) : Grouping :=
  Table.alter r.assembly (fun names => (names.getD []).insert r.typeName) t

def addAll (t : Grouping) (refs : List TypeReference) : Grouping := refs.foldl add t

def addGroup (t : Grouping) (group : String × List String) : Grouping :=
  Table.alter group.1 (fun names => group.2 ∪ names.getD []) t

def merge (t u : Grouping) : Grouping := u.foldl addGroup t

/-- How many names there are in all groups. -/
def size (t : Grouping) : Nat := t.foldr (fun group n => group.2.length + n) 0

/-- Equality of tables of sets: the same keys, with the same names under each. -/
def Same (t u : Grouping) : Prop :=
  (∀ a, a ∈ t.map Prod.fst ↔ a ∈ u.map Prod.fst) ∧ ∀ a n, n ∈ t.names a ↔ n ∈ u.names a

/-- One group for each assembly, with at least one name, and each name once. -/
structure Proper (t : Grouping) : Prop where
  keys : (t.map Prod.fst).Nodup
  nonempty : ∀ group ∈ t, group.2 ≠ []
  nodup : ∀ group ∈ t, group.2.Nodup

theorem names_alter (a : String) (change : Option (List String) → List String) (t : Grouping) (b : String) :
    names (Table.alter a change t) b = if b = a then change (t.lookup a) else t.names b := by
  unfold names
  rw [Table.lookup_alter]
  split <;> rfl

theorem Proper.nil : Proper [] := ⟨List.nodup_nil, by simp, by simp⟩

namespace Proper
variable {t u : Grouping}

theorem names_nodup (h : t.Proper) (a : String) : (t.names a).Nodup := by
  unfold names
  cases ha : t.lookup a with
  | none => exact List.nodup_nil
  | some ns => exact h.nodup _ ((Table.lookup_eq_some_iff_mem h.keys).mp ha)

/-- What stands under a key may be replaced by other names, if there are any. -/
theorem alter (h : t.Proper) {a : String} {change : Option (List String) → List String}
    (hne : change (t.lookup a) ≠ []) (hnodup : (change (t.lookup a)).Nodup) :
    Proper (Table.alter a change t) := by
  refine ⟨Table.nodup_alter a change h.keys, fun group hg => ?_, fun group hg => ?_⟩
  · rcases Table.mem_alter a change hg with rfl | hin
    · exact hne
    · exact h.nonempty group hin
  · rcases Table.mem_alter a change hg with rfl | hin
    · exact hnodup
    · exact h.nodup group hin

theorem add (h : t.Proper) (r : TypeReference) : (t.add r).Proper := by
  refine h.alter ?_ (h.names_nodup r.assembly).insert
  exact List.ne_nil_of_mem List.mem_insert_self

theorem addAll (h : t.Proper) (refs : List TypeReference) : (t.addAll refs).Proper := by
  unfold Grouping.addAll
  induction refs generalizing t with
  | nil => exact h
  | cons r rest ih => exact ih (h.add r)

theorem addGroup (h : t.Proper) {group : String × List String} (hne : group.2 ≠ []) :
    (t.addGroup group).Proper := by
  refine h.alter ?_ (List.Nodup.union group.2 (h.names_nodup group.1))
  obtain ⟨n, hn⟩ := List.exists_mem_of_ne_nil _ hne
  exact List.ne_nil_of_mem (List.mem_union_iff.mpr (Or.inl hn))

theorem merge (h : t.Proper) (hu : u.Proper) : (t.merge u).Proper := by
  have hne := hu.nonempty
  unfold Grouping.merge
  clear hu
  induction u generalizing t with
  | nil => exact h
  | cons group rest ih =>
    exact ih (h.addGroup (hne group List.mem_cons_self)) fun g hg => hne g (List.mem_cons_of_mem group hg)

end Proper

/-! ## The names in a table -/

theorem mem_names_iff {t : Grouping} (h : (t.map Prod.fst).Nodup) {a n : String} :
    n ∈ t.names a ↔ ∃ ns, (a, ns) ∈ t ∧ n ∈ ns := by
  unfold names
  constructor
  · intro hn
    cases ha : t.lookup a with
    | none => simp [ha] at hn
    | some ns =>
      rw [ha] at hn
      exact ⟨ns, (Table.lookup_eq_some_iff_mem h).mp ha, hn⟩
  · rintro ⟨ns, hin, hn⟩
    rw [(Table.lookup_eq_some_iff_mem h).mpr hin]
    exact hn

theorem mem_names_add {t : Grouping} {r : TypeReference} {a n : String} :
    n ∈ (t.add r).names a ↔ ⟨a, n⟩ = r ∨ n ∈ t.names a := by
  obtain ⟨assembly, typeName⟩ := r
  unfold add
  rw [names_alter]
  by_cases h : a = assembly
  · subst h
    simp [names, List.mem_insert_iff]
  · simp [h]

theorem mem_names_addAll {t : Grouping} {refs : List TypeReference} {a n : String} :
    n ∈ (t.addAll refs).names a ↔ n ∈ t.names a ∨ ⟨a, n⟩ ∈ refs := by
  unfold addAll
  induction refs generalizing t with
  | nil => simp
  | cons r rest ih => rw [List.foldl_cons, ih, mem_names_add, List.mem_cons, or_assoc, or_left_comm]

theorem mem_names_addGroup {t : Grouping} {group : String × List String} {a n : String} :
    n ∈ (t.addGroup group).names a ↔ n ∈ t.names a ∨ (a = group.1 ∧ n ∈ group.2) := by
  unfold addGroup
  rw [names_alter]
  by_cases h : a = group.1
  · subst h
    simp [names, List.mem_union_iff, or_comm]
  · simp [h]

theorem mem_names_merge {t u : Grouping} (hu : (u.map Prod.fst).Nodup) {a n : String} :
    n ∈ (t.merge u).names a ↔ n ∈ t.names a ∨ n ∈ u.names a := by
  have hfold : ∀ (u t : Grouping), n ∈ (u.foldl addGroup t).names a ↔
      n ∈ t.names a ∨ ∃ ns, (a, ns) ∈ u ∧ n ∈ ns := by
    intro u
    induction u with
    | nil => simp
    | cons group rest ih =>
      intro t
      rw [List.foldl_cons, ih, mem_names_addGroup, or_assoc]
      refine or_congr_right ⟨?_, ?_⟩
      · rintro (⟨rfl, hn⟩ | ⟨ns, hin, hn⟩)
        · exact ⟨group.2, List.mem_cons_self, hn⟩
        · exact ⟨ns, List.mem_cons_of_mem group hin, hn⟩
      · rintro ⟨ns, hin, hn⟩
        rcases List.mem_cons.mp hin with rfl | hin
        · exact Or.inl ⟨rfl, hn⟩
        · exact Or.inr ⟨ns, hin, hn⟩
  unfold merge
  rw [hfold, mem_names_iff hu]

/-! ## Tables of keep lists -/

/-- A table that holds the references of a keep list. -/
structure Represents (t : Grouping) (k : KeepList) : Prop extends t.Proper where
  mem : ∀ a n, n ∈ t.names a ↔ ⟨a, n⟩ ∈ k.references

namespace Represents
variable {t u : Grouping} {k l : KeepList}

theorem nil : Represents [] .empty := ⟨Proper.nil, fun _ _ => by simp [names, KeepList.empty]⟩

theorem add (h : t.Represents k) (r : TypeReference) : (t.add r).Represents (k.insert r) :=
  ⟨h.toProper.add r, fun a n => by rw [mem_names_add, h.mem, KeepList.mem_insert]⟩

theorem addAll (h : t.Represents k) (refs : List TypeReference) :
    (t.addAll refs).Represents (k.insertAll refs) :=
  ⟨h.toProper.addAll refs, fun a n => by rw [mem_names_addAll, h.mem, KeepList.mem_insertAll]⟩

theorem merge (h : t.Represents k) (hu : u.Represents l) : (t.merge u).Represents (k.merge l) :=
  ⟨h.toProper.merge hu.toProper, fun a n => by
    rw [mem_names_merge hu.keys, h.mem, hu.mem, KeepList.mem_merge]⟩

theorem mem_keys (h : t.Represents k) {a : String} : a ∈ t.map Prod.fst ↔ a ∈ k.assemblies := by
  constructor
  · intro ha
    obtain ⟨group, hin, rfl⟩ := List.mem_map.mp ha
    -- a group has a name, so its assembly has a reference
    obtain ⟨n, hn⟩ := List.exists_mem_of_ne_nil _ (h.nonempty group hin)
    have href := (h.mem group.1 n).mp ((mem_names_iff h.keys).mpr ⟨group.2, hin, hn⟩)
    exact KeepList.mem_assembliesOf.mpr ⟨_, href, rfl⟩
  · intro ha
    obtain ⟨r, hr, rfl⟩ := KeepList.mem_assembliesOf.mp ha
    obtain ⟨ns, hin, _⟩ := (mem_names_iff h.keys).mp ((h.mem r.assembly r.typeName).mpr hr)
    exact List.mem_map_of_mem hin

theorem same_iff (h : t.Represents k) (hu : u.Represents l) : t.Same u ↔ k = l := by
  constructor
  · rintro ⟨_, hnames⟩
    refine KeepList.ext_mem fun r => ?_
    rw [← h.mem r.assembly, hnames, hu.mem]
  · rintro rfl
    exact ⟨fun a => by rw [h.mem_keys, hu.mem_keys], fun a n => by rw [h.mem, hu.mem]⟩

theorem sorted_keys (h : t.Represents k) : sortTexts (t.map Prod.fst) = k.assemblies :=
  sortTexts_eq h.keys (KeepList.pairwise_assembliesOf k.increasing) fun _ => h.mem_keys

theorem sorted_names (h : t.Represents k) (a : String) : sortTexts (t.names a) = k.typesOf a :=
  sortTexts_eq (h.names_nodup a) (k.pairwise_typesOf a) fun n => by rw [h.mem, KeepList.mem_typesOf]

/-- Written out, the groups hold each reference once. -/
theorem perm_references (h : t.Represents k) :
    (t.flatMap fun group => group.2.map fun n => (⟨group.1, n⟩ : TypeReference)).Perm k.references := by
  refine (List.perm_ext_iff_of_nodup ?_ (TypeReference.nodup_of_pairwise k.increasing)).mpr fun r => ?_
  · refine List.nodup_flatMap.mpr ⟨fun group hg => ?_, ?_⟩
    · exact (h.nodup group hg).map fun m n hmn => (TypeReference.mk.inj hmn).2
    · refine (List.pairwise_map.mp h.keys).imp fun {g g'} hne r hr hr' => hne ?_
      obtain ⟨n, _, rfl⟩ := List.mem_map.mp hr
      obtain ⟨n', _, heq⟩ := List.mem_map.mp hr'
      exact (TypeReference.mk.inj heq).1.symm
  · rw [List.mem_flatMap, ← h.mem r.assembly r.typeName, mem_names_iff h.keys]
    constructor
    · rintro ⟨group, hg, hr⟩
      obtain ⟨n, hn, rfl⟩ := List.mem_map.mp hr
      exact ⟨group.2, hg, hn⟩
    · rintro ⟨ns, hin, hn⟩
      exact ⟨(r.assembly, ns), hin, List.mem_map.mpr ⟨r.typeName, hn, rfl⟩⟩

theorem size_eq (h : t.Represents k) : t.size = k.size := by
  have hcount : ∀ t : Grouping, t.size =
      (t.flatMap fun group => group.2.map fun n => (⟨group.1, n⟩ : TypeReference)).length := by
    intro t
    induction t with
    | nil => rfl
    | cons group rest ih =>
      rw [List.flatMap_cons, List.length_append, List.length_map, ← ih]
      rfl
  rw [hcount, h.perm_references.length_eq]
  rfl

end Represents

end Grouping

/-! ## How keep lists come about -/

namespace KeepList

/-- The operations that built a keep list. The list that is merged into another has a history of its
own. -/
inductive History where
  | ofList (refs : List TypeReference)
  | add (h : History) (r : TypeReference)
  | addAll (h : History) (refs : List TypeReference)
  | merge (h other : History)

namespace History

def keepList : History → KeepList
  | ofList refs => .ofList refs
  | add h r => h.keepList.insert r
  | addAll h refs => h.keepList.insertAll refs
  | merge h other => h.keepList.merge other.keepList

def grouping : History → Grouping
  | ofList refs => Grouping.addAll [] refs
  | add h r => h.grouping.add r
  | addAll h refs => h.grouping.addAll refs
  | merge h other => h.grouping.merge other.grouping

/-- All references that went in, in their order and with repetitions. -/
def added : History → List TypeReference
  | ofList refs => refs
  | add h r => h.added ++ [r]
  | addAll h refs => h.added ++ refs
  | merge h other => h.added ++ other.added

theorem represents (h : History) : h.grouping.Represents h.keepList := by
  induction h with
  | ofList refs => exact Grouping.Represents.nil.addAll refs
  | add h r ih => exact ih.add r
  | addAll h refs ih => exact ih.addAll refs
  | merge h other ih ih' => exact ih.merge ih'

theorem mem_keepList (h : History) {r : TypeReference} : r ∈ h.keepList.references ↔ r ∈ h.added := by
  induction h with
  | ofList refs => exact mem_ofList
  | add h s ih => rw [keepList, mem_insert, ih, added, List.mem_append, List.mem_singleton, or_comm]
  | addAll h refs ih => rw [keepList, mem_insertAll, ih, added, List.mem_append]
  | merge h other ih ih' => rw [keepList, mem_merge, ih, ih', added, List.mem_append]

theorem size_keepList (h : History) : h.keepList.size = h.added.toFinset.card := by
  have hset : h.added.toFinset = h.keepList.references.toFinset := by
    ext r
    rw [List.mem_toFinset, List.mem_toFinset, h.mem_keepList]
  rw [hset, List.toFinset_card_of_nodup (TypeReference.nodup_of_pairwise h.keepList.increasing)]
  rfl

end History

/-- A keep list is determined by the types in it. Merging is union, and however the types were added,
the list has each once and in order, and counts, groups and looks up what was added. -/
theorem keepList_is_canonical_set :
    (∀ xs ys, ofList xs = ofList ys ↔ ∀ r, r ∈ xs ↔ r ∈ ys) ∧
      (∀ k l m : KeepList, k.merge l = l.merge k ∧ (k.merge l).merge m = k.merge (l.merge m) ∧
        k.merge k = k ∧ k.merge empty = k ∧ empty.merge k = k) ∧
      (∀ xs ys, (ofList xs).merge (ofList ys) = ofList (xs ++ ys)) ∧
      (∀ g h : History, g.grouping.Same h.grouping ↔ g.keepList = h.keepList) ∧
      ∀ h : History,
        (∀ group ∈ h.grouping, group.2 ≠ []) ∧
        (∀ a ∈ h.keepList.assemblies, h.keepList.typesOf a ≠ []) ∧
        h.keepList.toList.Pairwise TypeReference.Before ∧
        (∀ r, r ∈ h.keepList.toList ↔ r ∈ h.added) ∧
        (∀ r, h.keepList.contains r = true ↔ r ∈ h.keepList.toList) ∧
        h.keepList.size = h.keepList.toList.length ∧
        h.keepList.size = h.added.toFinset.card ∧
        ofList h.keepList.toList = h.keepList ∧
        (h.keepList.groups.flatMap fun group => group.2.map fun n => ⟨group.1, n⟩) = h.keepList.toList ∧
        (∀ a n, ⟨a, n⟩ ∈ h.keepList.toList ↔ a ∈ h.keepList.assemblies ∧ n ∈ h.keepList.typesOf a) ∧
        sortTexts (h.grouping.map Prod.fst) = h.keepList.assemblies ∧
        (∀ a, sortTexts (h.grouping.names a) = h.keepList.typesOf a) ∧
        h.grouping.size = h.keepList.size := by
  refine ⟨fun _ _ => ofList_eq_ofList_iff, fun k l m => ?_, merge_ofList, fun g h => ?_, fun h => ?_⟩
  · exact ⟨k.merge_comm l, k.merge_assoc l m, k.merge_self, k.merge_empty, merge_comm empty k⟩
  · exact g.represents.same_iff h.represents
  · exact ⟨h.represents.nonempty, fun a => typesOf_ne_nil, h.keepList.increasing, fun r => h.mem_keepList,
      fun r => contains_iff, rfl, h.size_keepList, ofList_toList _, flatMap_groups _,
      fun a n => mem_iff_typesOf, h.represents.sorted_keys, h.represents.sorted_names,
      h.represents.size_eq⟩

/-- Two lists that share a reference, merged after one more has come in. -/
def pluginHistory : History :=
  .merge (.add (.ofList [⟨"Lib", "B"⟩, ⟨"App", "Z"⟩, ⟨"Lib", "B"⟩]) ⟨"Lib", "A"⟩)
    (.addAll (.ofList []) [⟨"App", "É"⟩, ⟨"App", "Z"⟩])

theorem keepList_is_canonical_set_plugins :
    pluginHistory.grouping = [("Lib", ["A", "B"]), ("App", ["É", "Z"])] ∧
      pluginHistory.keepList.toList = [⟨"App", "Z"⟩, ⟨"App", "É"⟩, ⟨"Lib", "A"⟩, ⟨"Lib", "B"⟩] ∧
      "App" ∈ pluginHistory.keepList.assemblies ∧ pluginHistory.keepList.typesOf "App" ≠ [] ∧
      pluginHistory.keepList.size = 4 ∧ pluginHistory.added.length = 6 ∧
      pluginHistory.grouping.size = 4 := by
  obtain ⟨_, _, _, _, hviews⟩ := keepList_is_canonical_set
  obtain ⟨_, htypes, _, _, _, hsize, _, _, _, _, _, _, hgrouping⟩ := hviews pluginHistory
  have hlist : pluginHistory.keepList.toList =
      [⟨"App", "Z"⟩, ⟨"App", "É"⟩, ⟨"Lib", "A"⟩, ⟨"Lib", "B"⟩] := by decide
  have happ : "App" ∈ pluginHistory.keepList.assemblies := by decide
  have hfour : pluginHistory.keepList.size = 4 := by rw [hsize, hlist]; rfl
  exact ⟨by decide, hlist, happ, htypes _ happ, hfour, rfl, hgrouping.trans hfour⟩

end KeepList

end TypeOrigins
