import TypeOrigins.Proofs.Text.Trimming
import TypeOrigins.Settings.Api

/-! # The notation of APIs

A text names an API if, without the blanks around it, it can be split at its last dot into two parts
that are not empty. The API is written as this text again, so reading and writing undo each other: on
texts without blanks around them, and on APIs that such a text can stand for. -/

namespace TypeOrigins.Api
set_option autoImplicit false

/-- An API that its text can stand for: the positions are the default ones, neither part is empty or
has a blank at its outer end, and the method has no dot. -/
structure Plain (a : Api) : Prop where
  typePosition : a.typeArgumentIndex = 0
  valuePosition : a.valueArgumentIndex = 0
  type_ne : a.declaringType ≠ ""
  type_first : ∀ c ∈ a.declaringType.toList.head?, Text.isBlank c = false
  name_ne : a.methodName ≠ ""
  name_dotless : '.' ∉ a.methodName.toList
  name_last : ∀ c ∈ a.methodName.toList.getLast?, Text.isBlank c = false

/-! ## Splitting at the last dot -/

theorem splitLastDot_append {before name : List Char} (h : '.' ∉ name) :
    splitLastDot (before ++ '.' :: name) = some (before, name) := by
  have hrev : (before ++ '.' :: name).reverse = name.reverse ++ '.' :: before.reverse := by simp
  have hname : ∀ c ∈ name.reverse, (c != '.') = true := by
    intro c hc
    have hne : c ≠ '.' := by
      rintro rfl
      exact h (List.mem_reverse.mp hc)
    simpa using hne
  have htake : (name.reverse ++ '.' :: before.reverse).takeWhile (· != '.') = name.reverse := by
    rw [List.takeWhile_append_of_pos hname, List.takeWhile_cons_of_neg (by simp), List.append_nil]
  have hdrop : (name.reverse ++ '.' :: before.reverse).dropWhile (· != '.') = '.' :: before.reverse := by
    rw [List.dropWhile_append_of_pos hname, List.dropWhile_cons_of_neg (by simp)]
  unfold splitLastDot
  rw [hrev, htake, hdrop]
  simp

theorem splitLastDot_eq_some {cs before name : List Char} :
    splitLastDot cs = some (before, name) ↔ cs = before ++ '.' :: name ∧ '.' ∉ name := by
  constructor
  · intro h
    have hfirst := Text.first_dropWhile (· != '.') cs.reverse
    have hjoin : cs.reverse.takeWhile (· != '.') ++ cs.reverse.dropWhile (· != '.') = cs.reverse :=
      List.takeWhile_append_dropWhile
    unfold splitLastDot at h
    dsimp only at h
    split at h
    · cases h
    next c rest hdrop =>
      obtain ⟨rfl, rfl⟩ := Prod.mk.inj (Option.some.inj h)
      -- the first character that is dropped is the dot
      rw [hdrop] at hfirst hjoin
      have hc : c = '.' := by simpa using hfirst c rfl
      subst hc
      refine ⟨?_, fun hin => ?_⟩
      · simpa using (congrArg List.reverse hjoin).symm
      · have hne := List.mem_takeWhile_imp (List.mem_reverse.mp hin)
        simp at hne
  · rintro ⟨rfl, hname⟩
    exact splitLastDot_append hname

/-! ## Reading -/

theorem parse?_eq_some {q : String} {a : Api} : parse? q = some a ↔
    ∃ before name, Text.trim Text.isBlank q.toList = before ++ '.' :: name ∧ '.' ∉ name ∧ before ≠ [] ∧
      name ≠ [] ∧ a = { declaringType := String.ofList before, methodName := String.ofList name } := by
  unfold parse?
  constructor
  · intro h
    split at h
    · cases h
    next before name hsplit =>
      obtain ⟨htext, hname⟩ := splitLastDot_eq_some.mp hsplit
      split at h
      · cases h
      next hparts =>
        simp only [Bool.or_eq_true, List.isEmpty_iff, not_or] at hparts
        exact ⟨before, name, htext, hname, hparts.1, hparts.2, (Option.some.inj h).symm⟩
  · rintro ⟨before, name, htext, hname, hbefore, hne, rfl⟩
    rw [splitLastDot_eq_some.mpr ⟨htext, hname⟩]
    simp [hbefore, hne]

theorem exists_parse?_iff {q : String} : (∃ a, parse? q = some a) ↔
    ∃ i, Text.IsLast '.' (Text.trim Text.isBlank q.toList) i ∧ 0 < i ∧
      i + 1 < (Text.trim Text.isBlank q.toList).length := by
  constructor
  · rintro ⟨a, ha⟩
    obtain ⟨before, name, htext, hname, hbefore, hne, _⟩ := parse?_eq_some.mp ha
    have hpos := List.length_pos_iff.mpr hbefore
    have hpos' := List.length_pos_iff.mpr hne
    refine ⟨before.length, Text.isLast_iff.mpr ⟨before, name, htext, hname, rfl⟩, hpos, ?_⟩
    rw [htext, List.length_append, List.length_cons]
    omega
  · rintro ⟨i, hi, hpos, hlt⟩
    obtain ⟨before, name, htext, hname, rfl⟩ := Text.isLast_iff.mp hi
    rw [htext, List.length_append, List.length_cons] at hlt
    refine ⟨_, parse?_eq_some.mpr ⟨before, name, htext, hname, ?_, ?_, rfl⟩⟩
    · exact List.ne_nil_of_length_pos hpos
    · exact List.ne_nil_of_length_pos (by omega)

/-! ## Writing -/

theorem toList_display (a : Api) : a.display.toList = a.declaringType.toList ++ '.' :: a.methodName.toList := by
  simp [display]

theorem head?_display {a : Api} (h : a.declaringType ≠ "") :
    a.display.toList.head? = a.declaringType.toList.head? := by
  obtain ⟨c, rest, hcs⟩ := List.exists_cons_of_ne_nil (l := a.declaringType.toList) (by simpa using h)
  rw [toList_display, hcs]
  rfl

theorem getLast?_display {a : Api} (h : a.methodName ≠ "") :
    a.display.toList.getLast? = a.methodName.toList.getLast? := by
  obtain ⟨c, rest, hcs⟩ := List.exists_cons_of_ne_nil (l := a.methodName.toList) (by simpa using h)
  rw [toList_display, hcs, List.getLast?_append, List.getLast?_cons_cons, List.getLast?_cons, Option.some_or]

section Read
variable {q : String} {a : Api} (h : parse? q = some a)
include h

theorem toList_display_of_parse? : a.display.toList = Text.trim Text.isBlank q.toList := by
  obtain ⟨before, name, htext, _, _, _, rfl⟩ := parse?_eq_some.mp h
  rw [toList_display, htext, String.toList_ofList, String.toList_ofList]

theorem plain_of_parse? : a.Plain := by
  have hends := Text.trims_trim Text.isBlank q.toList
  rw [← toList_display_of_parse? h] at hends
  obtain ⟨before, name, _, hname, hbefore, hne, rfl⟩ := parse?_eq_some.mp h
  have htype : String.ofList before ≠ "" := by simpa using hbefore
  have hmethod : String.ofList name ≠ "" := by simpa using hne
  have hfirst := hends.first
  have hlast := hends.last
  rw [head?_display htype] at hfirst
  rw [getLast?_display hmethod] at hlast
  exact ⟨rfl, rfl, htype, hfirst, hmethod, by simpa using hname, hlast⟩

end Read

theorem Plain.parse?_display {a : Api} (h : a.Plain) : parse? a.display = some a := by
  have htrim : Text.trim Text.isBlank a.display.toList = a.declaringType.toList ++ '.' :: a.methodName.toList := by
    rw [← toList_display]
    apply Text.trim_of_ends
    · rw [head?_display h.type_ne]
      exact h.type_first
    · rw [getLast?_display h.name_ne]
      exact h.name_last
  refine parse?_eq_some.mpr ⟨_, _, htrim, h.name_dotless, ?_, ?_, ?_⟩
  · simpa using h.type_ne
  · simpa using h.name_ne
  · cases a with
    | mk type name i j =>
      obtain rfl : i = 0 := h.typePosition
      obtain rfl : j = 0 := h.valuePosition
      rw [String.ofList_toList, String.ofList_toList]

/-! ## The round trip -/

/-- A text names an API exactly if, without the blanks around it, something stands before and after its
last point. The API is displayed as that text, and an API is parsed back from its display exactly if it
is plain. -/
theorem parse_undoes_display (q : String) :
    Text.Trims Text.isBlank q.toList (Text.trim Text.isBlank q.toList) ∧
      ((∃ a, parse? q = some a) ↔ ∃ i, Text.IsLast '.' (Text.trim Text.isBlank q.toList) i ∧ 0 < i ∧
        i + 1 < (Text.trim Text.isBlank q.toList).length) ∧
      (∀ a, parse? q = some a → a.display = String.ofList (Text.trim Text.isBlank q.toList) ∧
        '.' ∉ a.methodName.toList ∧ parse? a.display = parse? q) ∧
      ∀ a, parse? a.display = some a ↔ a.Plain := by
  refine ⟨Text.trims_trim _ _, exists_parse?_iff, fun a ha => ⟨?_, ?_, ?_⟩, fun a => ?_⟩
  · rw [← toList_display_of_parse? ha, String.ofList_toList]
  · exact (plain_of_parse? ha).name_dotless
  · rw [ha]
    exact (plain_of_parse? ha).parse?_display
  · exact ⟨plain_of_parse?, Plain.parse?_display⟩

/-- An em space, dots at both ends of the type, a blank inside, and an information separator. -/
theorem parse_undoes_display_dotted :
    parse? "\u2003.App . .Make\u001f" = some ⟨".App . ", "Make", 0, 0⟩ ∧
      display ⟨".App . ", "Make", 0, 0⟩ = ".App . .Make" ∧
      parse? ".App . .Make" = some ⟨".App . ", "Make", 0, 0⟩ ∧ parse? " .Make " = none := by
  obtain ⟨_, _, hread, _⟩ := parse_undoes_display "\u2003.App . .Make\u001f"
  have hparse : parse? "\u2003.App . .Make\u001f" = some ⟨".App . ", "Make", 0, 0⟩ := by decide
  obtain ⟨htext, _, hagain⟩ := hread _ hparse
  have hdisplay : display ⟨".App . ", "Make", 0, 0⟩ = ".App . .Make" := by decide
  rw [hdisplay] at hagain
  exact ⟨hparse, hdisplay, hagain.trans hparse, by decide⟩

end TypeOrigins.Api
