import Mathlib.Data.List.Infix
import TypeOrigins.Files.Tree

/-! # What changes in a file tree

Putting something at a place that a path leads to changes that place and no other. So directories
that are made on the way to a path are the only places that change, and a file that is written is
read back and leaves all other places as they were. -/

namespace TypeOrigins.FileTree
set_option autoImplicit false

/-! ## Places inside others -/

theorem isInside_iff {outer inner : List String} :
    isInside outer inner = true ↔ outer <+: inner ∧ outer ≠ inner := by
  unfold isInside
  rw [Bool.and_eq_true, decide_eq_true_eq, beq_iff_eq]
  constructor
  · rintro ⟨hlt, htake⟩
    refine ⟨List.prefix_iff_eq_take.mpr htake.symm, ?_⟩
    rintro rfl
    omega
  · rintro ⟨hpre, hne⟩
    have hle := hpre.length_le
    have hlen : outer.length ≠ inner.length := fun h => hne (hpre.eq_of_length h)
    exact ⟨by omega, (List.prefix_iff_eq_take.mp hpre).symm⟩

theorem isInside_step {outer place : List String} {part : String}
    (h : isInside outer (step place part) = true) : outer = place ∨ isInside outer place = true := by
  have hconcat : isInside outer (place ++ [part]) = true →
      outer = place ∨ isInside outer place = true := by
    intro h
    obtain ⟨hpre, hne⟩ := isInside_iff.mp h
    rcases List.prefix_concat_iff.mp hpre with heq | hpre
    · exact absurd heq hne
    · by_cases heq : outer = place
      · exact Or.inl heq
      · exact Or.inr (isInside_iff.mpr ⟨hpre, heq⟩)
  unfold step at h
  split at h
  · exact hconcat h
  · split at h
    · exact Or.inr h
    · split at h
      · exact hconcat h
      · obtain ⟨hpre, hne⟩ := isInside_iff.mp h
        have hpre' : outer <+: place := hpre.trans (List.dropLast_prefix place)
        by_cases heq : outer = place
        · exact Or.inl heq
        · exact Or.inr (isInside_iff.mpr ⟨hpre', heq⟩)

/-- Something is at every place that a place is inside of. -/
def Supported (t : FileTree) (place : List String) : Prop :=
  ∀ outer, isInside outer place = true → (t.node? outer).isSome = true

section Paths
variable {t t' : FileTree} {path : Path} {place place' : List String}

theorem isSome_node?_of_isRoot (t : FileTree) (h : isRoot place = true) :
    (t.node? place).isSome = true := by
  unfold node?
  split
  · rfl
  · rw [h, Bool.true_or, if_pos rfl]
    rfl

theorem supported_start (t : FileTree) (path : Path) : t.Supported (start path) := by
  intro outer h
  obtain ⟨hpre, hne⟩ := isInside_iff.mp h
  have hnil : outer = [] := by
    unfold start at hpre hne
    split at hpre
    · exact List.prefix_nil.mp hpre
    · rcases List.prefix_cons_iff.mp hpre with h | ⟨rest, rfl, hrest⟩
      · exact h
      · simp_all
  exact t.isSome_node?_of_isRoot (hnil ▸ rfl)

theorem supported_of_walk {parts : List String} (h : t.walk path place parts = .ok place')
    (hplace : t.Supported place) : t.Supported place' := by
  induction parts generalizing place with
  | nil =>
    cases h
    exact hplace
  | cons part rest ih =>
    unfold walk at h
    split at h
    · next hdir =>
      split at h
      · cases h
      · refine ih h fun outer hin => ?_
        rcases isInside_step hin with rfl | hin
        · rw [hdir]
          rfl
        · exact hplace outer hin
    · cases h
    · cases h

theorem locate_eq_ok : t.locate path = .ok place ↔
    Char.ofNat 0 ∉ path.display.toList ∧ path.display.utf8ByteSize ≤ pathLimit ∧
      t.walk path (start path) path.parts = .ok place := by
  unfold locate
  dsimp only
  by_cases hnull : Char.ofNat 0 ∈ path.display.toList
  · rw [if_pos (List.contains_iff_mem.mpr hnull)]
    simp [hnull]
  · rw [if_neg fun h => hnull (List.contains_iff_mem.mp h)]
    by_cases hsize : path.display.utf8ByteSize ≤ pathLimit
    · rw [if_neg (by omega)]
      simp [hnull, hsize]
    · rw [if_pos (by omega)]
      simp [hsize]

theorem supported_of_locate (h : t.locate path = .ok place) : t.Supported place :=
  supported_of_walk (locate_eq_ok.mp h).2.2 (t.supported_start path)

/-- A path leads to the same place as long as the directories on its way stay directories. -/
theorem locate_mono (hdir : ∀ q, t.node? q = some .directory → t'.node? q = some .directory)
    (h : t.locate path = .ok place) : t'.locate path = .ok place := by
  have hwalk : ∀ (parts from' : List String), t.walk path from' parts = .ok place →
      t'.walk path from' parts = .ok place := by
    intro parts
    induction parts with
    | nil => exact fun _ h => h
    | cons part rest ih =>
      intro from' h
      unfold walk at h ⊢
      split at h
      · next hd =>
        rw [hdir from' hd]
        dsimp only
        split at h
        · cases h
        · next hsize =>
          rw [if_neg hsize]
          exact ih _ h
      · cases h
      · cases h
  obtain ⟨hnull, hsize, hw⟩ := locate_eq_ok.mp h
  exact locate_eq_ok.mpr ⟨hnull, hsize, hwalk _ _ hw⟩

end Paths

/-! ## One place -/

theorem find?_set (t : FileTree) (place q : List String) (node : FileNode) :
    (t.set place node).nodes.find? (fun n => n.1 == q) =
      if q = place then some (place, node) else t.nodes.find? fun n => n.1 == q := by
  unfold set
  rw [List.find?_append, List.find?_filter]
  by_cases hq : q = place
  · subst hq
    have hnone : t.nodes.find? (fun n => decide ((n.1 != q) = true ∧ (n.1 == q) = true)) = none := by simp
    rw [hnone, if_pos rfl]
    simp
  · have hsame : (fun n : List String × FileNode => decide ((n.1 != place) = true ∧ (n.1 == q) = true)) =
        fun n => n.1 == q := by
      funext n
      by_cases hn : n.1 = q
      · simp [hn, hq]
      · simp [hn]
    have hlast : ([(place, node)] : List (List String × FileNode)).find? (fun n => n.1 == q) = none := by
      simp [Ne.symm hq]
    rw [hsame, if_neg hq, hlast, Option.or_none]

theorem any_isInside_set (t : FileTree) (place q : List String) (node : FileNode) :
    ((t.set place node).nodes.any fun n => isInside q n.1) =
      (isInside q place || t.nodes.any fun n => isInside q n.1) := by
  rw [Bool.eq_iff_iff, Bool.or_eq_true, List.any_eq_true, List.any_eq_true]
  unfold set
  constructor
  · rintro ⟨n, hn, hin⟩
    rcases List.mem_append.mp hn with hn | hn
    · exact Or.inr ⟨n, (List.mem_filter.mp hn).1, hin⟩
    · rw [List.mem_singleton.mp hn] at hin
      exact Or.inl hin
  · rintro (hin | ⟨n, hn, hin⟩)
    · exact ⟨(place, node), List.mem_append_right _ (List.mem_singleton_self _), hin⟩
    · by_cases heq : n.1 = place
      · rw [heq] at hin
        exact ⟨(place, node), List.mem_append_right _ (List.mem_singleton_self _), hin⟩
      · refine ⟨n, List.mem_append_left _ (List.mem_filter.mpr ⟨hn, ?_⟩), hin⟩
        simpa using heq

theorem node?_set {t : FileTree} {place : List String} (h : t.Supported place) (node : FileNode)
    (q : List String) :
    (t.set place node).node? q = if q = place then some node else t.node? q := by
  unfold node?
  rw [find?_set, any_isInside_set]
  by_cases hq : q = place
  · rw [if_pos hq, if_pos hq]
  · rw [if_neg hq, if_neg hq]
    cases hfind : t.nodes.find? fun n => n.1 == q with
    | some n => rfl
    | none =>
      dsimp only
      by_cases hin : isInside q place = true
      · -- the place that `q` is around was there before, so `q` was a directory already
        have hsome := h q hin
        unfold node? at hsome
        rw [hfind] at hsome
        by_cases hroot : (isRoot q || t.nodes.any fun n => isInside q n.1) = true
        · rw [if_pos hroot, if_pos]
          rw [Bool.or_eq_true] at hroot
          rcases hroot with hroot | hany
          · simp [hroot]
          · simp [hany]
        · rw [if_neg hroot] at hsome
          cases hsome
      · rw [Bool.not_eq_true] at hin
        rw [hin, Bool.false_or]

/-! ## Directories -/

/-- One tree came from another by making directories on the way to a path: nothing else is changed.
-/
structure Made (path : Path) (t t' : FileTree) : Prop where
  directories : ∀ q, t.node? q = some .directory → t'.node? q = some .directory
  changed : ∀ q, t'.node? q ≠ t.node? q → t.node? q = none ∧ t'.node? q = some .directory ∧
    ∃ parts, parts <+: path.parts ∧ t'.locate { path with parts := parts } = .ok q

namespace Made
variable {path : Path} {t t' t'' : FileTree}

theorem refl (path : Path) (t : FileTree) : Made path t t :=
  ⟨fun _ h => h, fun _ h => absurd rfl h⟩

theorem trans (h : Made path t t') (h' : Made path t' t'') : Made path t t'' := by
  refine ⟨fun q hq => h'.directories q (h.directories q hq), fun q hq => ?_⟩
  by_cases hsame : t'.node? q = t.node? q
  · rw [← hsame] at hq ⊢
    exact h'.changed q hq
  · obtain ⟨hnone, hdir, parts, hparts, hloc⟩ := h.changed q hsame
    exact ⟨hnone, h'.directories q hdir, parts, hparts, locate_mono h'.directories hloc⟩

theorem of_parent (h : Made path.parent t t') : Made path t t' := by
  refine ⟨h.directories, fun q hq => ?_⟩
  obtain ⟨hnone, hdir, parts, hparts, hloc⟩ := h.changed q hq
  exact ⟨hnone, hdir, parts, hparts.trans (List.dropLast_prefix _), hloc⟩

theorem of_ensureDirectory (h : t.ensureDirectory path = .ok t') : Made path t t' := by
  unfold ensureDirectory at h
  split at h
  · next hmake =>
    cases h
    unfold makeDirectory at hmake
    cases hloc : t.locate path with
    | error e =>
      rw [hloc] at hmake
      cases hmake
    | ok place =>
      rw [hloc] at hmake
      dsimp only [bind, Except.bind] at hmake
      split at hmake
      · cases hmake
      · next hnone =>
        cases hmake
        have hset := node?_set (supported_of_locate hloc) .directory
        have hdir : ∀ q, t.node? q = some .directory →
            (t.set place .directory).node? q = some .directory := by
          intro q hq
          rw [hset]
          split
          · rfl
          · exact hq
        refine ⟨hdir, fun q hq => ?_⟩
        rw [hset] at hq ⊢
        by_cases hplace : q = place
        · subst hplace
          exact ⟨hnone, if_pos rfl, path.parts, List.prefix_refl _, locate_mono hdir hloc⟩
        · rw [if_neg hplace] at hq
          exact absurd rfl hq
  · split at h
    · cases h
      exact refl path t
    · cases h

theorem attempt_ensureDirectory (path : Path) (t : FileTree) :
    Made path t (t.attempt (t.ensureDirectory path)).1 := by
  cases h : t.ensureDirectory path with
  | ok t' => exact of_ensureDirectory h
  | error e => exact refl path t

/-- Also where it stops half way. -/
theorem makeDirectories (fuel : ℕ) (t : FileTree) (path : Path) :
    Made path t (FileTree.makeDirectories fuel t path).1 := by
  induction fuel generalizing path with
  | zero => exact attempt_ensureDirectory path t
  | succ fuel ih =>
    unfold FileTree.makeDirectories
    split
    · dsimp only
      split
      · exact (ih path.parent).of_parent.trans (attempt_ensureDirectory path _)
      · exact (ih path.parent).of_parent
    · exact attempt_ensureDirectory path t

end Made

/-! ## Files -/

theorem write_eq_ok {t t' : FileTree} {path : Path} {bytes : List UInt8}
    (h : t.write path bytes = .ok t') : ∃ place, t.locate path = .ok place ∧
      t.node? place ≠ some .directory ∧ t' = t.set place (.file bytes) := by
  unfold write at h
  cases hloc : t.locate path with
  | error e =>
    rw [hloc] at h
    cases h
  | ok place =>
    rw [hloc] at h
    dsimp only [bind, Except.bind] at h
    split at h
    · cases h
    · next hdir =>
      cases h
      exact ⟨place, rfl, hdir, rfl⟩

section Written
variable {t t' : FileTree} {path : Path} {bytes : List UInt8}

theorem directories_of_write (h : t.write path bytes = .ok t') (q : List String)
    (hq : t.node? q = some .directory) : t'.node? q = some .directory := by
  obtain ⟨place, hloc, hdir, rfl⟩ := write_eq_ok h
  rw [node?_set (supported_of_locate hloc), if_neg]
  · exact hq
  · rintro rfl
    exact hdir hq

theorem locate_of_changed (h : t.write path bytes = .ok t') (q : List String)
    (hq : t'.node? q ≠ t.node? q) : t'.locate path = .ok q := by
  have hdir := directories_of_write h
  obtain ⟨place, hloc, _, rfl⟩ := write_eq_ok h
  rw [node?_set (supported_of_locate hloc)] at hq
  by_cases hplace : q = place
  · rw [hplace]
    exact locate_mono hdir hloc
  · rw [if_neg hplace] at hq
    exact absurd rfl hq

theorem read_of_write (h : t.write path bytes = .ok t') : t'.read path = .ok bytes := by
  have hdir := directories_of_write h
  obtain ⟨place, hloc, _, rfl⟩ := write_eq_ok h
  have hnode : (t.set place (.file bytes)).node? place = some (.file bytes) := by
    rw [node?_set (supported_of_locate hloc), if_pos rfl]
  unfold read
  rw [locate_mono hdir hloc]
  dsimp only [bind, Except.bind]
  rw [hnode]

end Written

/-! ## Files with their directories -/

/-- One tree came from another by writing bytes to a path: they are read there, and besides that
place only directories on the way to it that were missing are new. -/
structure Wrote (path : Path) (bytes : List UInt8) (t t' : FileTree) : Prop where
  read : t'.read path = .ok bytes
  changed : ∀ q, t'.node? q ≠ t.node? q → t'.locate path = .ok q ∨
    (t.node? q = none ∧ t'.node? q = some .directory ∧
      ∃ parts, parts <+: path.parent.parts ∧ t'.locate { path with parts := parts } = .ok q)

theorem Made.wrote {path : Path} {bytes : List UInt8} {t t' t'' : FileTree}
    (h : Made path.parent t t') (hw : t'.write path bytes = .ok t'') : Wrote path bytes t t'' := by
  refine ⟨read_of_write hw, fun q hq => ?_⟩
  by_cases hsame : t''.node? q = t'.node? q
  · rw [hsame] at hq
    obtain ⟨hnone, hdir, parts, hparts, hloc⟩ := h.changed q hq
    exact Or.inr ⟨hnone, hsame.trans hdir, parts, hparts, locate_mono (directories_of_write hw) hloc⟩
  · exact Or.inl (locate_of_changed hw q hsame)

end TypeOrigins.FileTree
