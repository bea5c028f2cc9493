import Mathlib.Data.List.TakeWhile
import TypeOrigins.Text.Blank

/-! # Trimmed texts and last occurrences

What trimming gives, said by its result alone: the text between two runs of the class that neither
starts nor ends with a character of it. And the place where a character occurs last. -/

namespace TypeOrigins.Text
set_option autoImplicit false

/-- A text `t` is `cs` without the characters of a class at its two ends. -/
structure Trims (p : Char → Bool) (cs t : List Char) : Prop where
  parts : ∃ before after, cs = before ++ t ++ after ∧ (∀ c ∈ before, p c = true) ∧ ∀ c ∈ after, p c = true
  first : ∀ c ∈ t.head?, p c = false
  last : ∀ c ∈ t.getLast?, p c = false

section Trim
variable {p : Char → Bool} {cs t : List Char}

theorem dropWhile_of_first (h : ∀ c ∈ cs.head?, p c = false) : cs.dropWhile p = cs := by
  cases cs with
  | nil => rfl
  | cons c rest =>
    have hc : ¬ p c = true := by simp [h c rfl]
    exact List.dropWhile_cons_of_neg hc

theorem first_dropWhile (p : Char → Bool) (cs : List Char) : ∀ c ∈ (cs.dropWhile p).head?, p c = false := by
  intro c hc
  have h := List.head?_dropWhile_not p cs
  rw [Option.mem_def.mp hc] at h
  simpa using h

theorem trims_trim (p : Char → Bool) (cs : List Char) : Trims p cs (trim p cs) := by
  have hfront : cs = cs.takeWhile p ++ cs.dropWhile p := List.takeWhile_append_dropWhile.symm
  have hback : cs.dropWhile p = trim p cs ++ ((cs.dropWhile p).reverse.takeWhile p).reverse := by
    rw [trim, ← List.reverse_append, List.takeWhile_append_dropWhile, List.reverse_reverse]
  refine ⟨⟨cs.takeWhile p, ((cs.dropWhile p).reverse.takeWhile p).reverse, ?_, ?_, ?_⟩, ?_, ?_⟩
  · rw [List.append_assoc, ← hback]
    exact hfront
  · exact fun c hc => List.mem_takeWhile_imp hc
  · exact fun c hc => List.mem_takeWhile_imp (List.mem_reverse.mp hc)
  · intro c hc
    -- what is left starts where the text without its front does
    apply first_dropWhile p cs
    rw [hback, List.head?_append, Option.mem_def.mp hc]
    rfl
  · intro c hc
    rw [trim, List.getLast?_reverse] at hc
    exact first_dropWhile p _ c hc

theorem Trims.trim_eq (h : Trims p cs t) : trim p cs = t := by
  obtain ⟨before, after, rfl, hbefore, hafter⟩ := h.parts
  rw [trim, List.append_assoc, List.dropWhile_append_of_pos hbefore]
  cases t with
  | nil =>
    rw [List.nil_append, List.dropWhile_eq_nil_iff.mpr hafter]
    rfl
  | cons c rest =>
    have hfront : (c :: rest ++ after).dropWhile p = c :: rest ++ after :=
      dropWhile_of_first (by simpa using h.first)
    rw [hfront, List.reverse_append, List.dropWhile_append_of_pos (by simpa using hafter),
      dropWhile_of_first (by rw [List.head?_reverse]; exact h.last), List.reverse_reverse]

theorem trims_iff : Trims p cs t ↔ trim p cs = t := by
  constructor
  · exact Trims.trim_eq
  · rintro rfl
    exact trims_trim p cs

/-- A text that neither starts nor ends with a character of the class is its own trimmed text. -/
theorem trim_of_ends (hfirst : ∀ c ∈ cs.head?, p c = false) (hlast : ∀ c ∈ cs.getLast?, p c = false) :
    trim p cs = cs :=
  Trims.trim_eq ⟨⟨[], [], by simp, by simp, by simp⟩, hfirst, hlast⟩

end Trim

/-! ## Last occurrences -/

/-- The place of a character after which it does not occur again. -/
def IsLast (c : Char) (cs : List Char) (i : ℕ) : Prop :=
  cs[i]? = some c ∧ ∀ j, cs[j]? = some c → j ≤ i

theorem isLast_iff {c : Char} {cs : List Char} {i : ℕ} :
    IsLast c cs i ↔ ∃ before after, cs = before ++ c :: after ∧ c ∉ after ∧ before.length = i := by
  constructor
  · rintro ⟨hi, hlast⟩
    obtain ⟨hlt, hget⟩ := List.getElem?_eq_some_iff.mp hi
    refine ⟨cs.take i, cs.drop (i + 1), ?_, ?_, List.length_take_of_le (Nat.le_of_lt hlt)⟩
    · rw [← hget, ← List.drop_eq_getElem_cons hlt, List.take_append_drop]
    · intro hin
      obtain ⟨k, hk⟩ := List.mem_iff_getElem?.mp hin
      rw [List.getElem?_drop] at hk
      have := hlast _ hk
      omega
  · rintro ⟨before, after, rfl, hnot, rfl⟩
    refine ⟨by simp, fun j hj => ?_⟩
    by_contra hlt
    -- a later place is one of what comes after
    have hlater : j = before.length + (j - before.length - 1 + 1) := by omega
    rw [hlater, List.getElem?_append_right (Nat.le_add_right _ _), Nat.add_sub_cancel_left,
      List.getElem?_cons_succ] at hj
    exact hnot (List.mem_of_getElem? hj)

end TypeOrigins.Text
