import Mathlib.Data.Nat.Digits.Defs
import TypeOrigins.Proofs.Text.Trimming
import TypeOrigins.Text.Numeral

/-! # What numerals spell

An integer is spelled by an optional sign and digits, with white space around. The reader of flags and
environment variables reads such a text as the integer it spells, and no other text. -/

namespace TypeOrigins.Text
set_option autoImplicit false

/-- A text of digits, a single low line allowed between two, and the values of the digits. -/
inductive DigitRun (value? : Char → Option ℕ) : List Char → List ℕ → Prop
  | single {c : Char} {d : ℕ} (h : value? c = some d) : DigitRun value? [c] [d]
  | next {c : Char} {d : ℕ} {cs : List Char} {ds : List ℕ} (h : value? c = some d)
      (rest : DigitRun value? cs ds) : DigitRun value? (c :: cs) (d :: ds)
  | grouped {c : Char} {d : ℕ} {cs : List Char} {ds : List ℕ} (h : value? c = some d)
      (rest : DigitRun value? cs ds) : DigitRun value? (c :: '_' :: cs) (d :: ds)

/-- A text spells an integer: with white space around, after a sign or none, stand at most `digitLimit`
decimal digits of any script, the most significant first. -/
def Spells (cs : List Char) (n : ℤ) : Prop :=
  ∃ body digits, DigitRun digitValue? body digits ∧ digits.length ≤ digitLimit ∧
    ((n = ((Nat.ofDigits 10 digits.reverse : ℕ) : ℤ) ∧
        (Trims isWhite cs body ∨ Trims isWhite cs ('+' :: body))) ∨
      (n = -((Nat.ofDigits 10 digits.reverse : ℕ) : ℤ) ∧ Trims isWhite cs ('-' :: body)))

theorem ofDigits_eq (ds : List ℕ) : ofDigits ds = Nat.ofDigits 10 ds.reverse := by
  rw [Nat.ofDigits_eq_foldr, List.foldr_reverse, ofDigits]
  simp only [Nat.cast_id, Nat.add_comm]

section Runs
variable {value? : Char → Option ℕ}

theorem DigitRun.exists_first {cs : List Char} {ds : List ℕ} (h : DigitRun value? cs ds) :
    ∃ c rest d, cs = c :: rest ∧ value? c = some d := by
  cases h with
  | single h => exact ⟨_, _, _, rfl, h⟩
  | next h _ => exact ⟨_, _, _, rfl, h⟩
  | grouped h _ => exact ⟨_, _, _, rfl, h⟩

theorem digitRun?_eq_some (hline : value? '_' = none) {cs : List Char} {ds : List ℕ} :
    digitRun? value? cs = some ds ↔ DigitRun value? cs ds := by
  fun_induction digitRun? value? cs generalizing ds with
  | case1 =>
    constructor
    · intro h
      cases h
    · intro h
      cases h
  | case2 c =>
    rw [Option.map_eq_some_iff]
    constructor
    · rintro ⟨d, hd, rfl⟩
      exact .single hd
    · intro h
      cases h with
      | single hd => exact ⟨_, hd, rfl⟩
      | next _ rest => cases rest
  | case3 c rest ih =>
    simp only [Option.bind_eq_bind, Option.bind_eq_some_iff, Option.some.injEq]
    constructor
    · rintro ⟨d, hd, ds', hds', rfl⟩
      exact .grouped hd (ih.mp hds')
    · intro h
      cases h with
      | next _ hrest =>
        -- the low line is no digit
        obtain ⟨_, _, _, hcons, hd⟩ := hrest.exists_first
        cases hcons
        rw [hline] at hd
        cases hd
      | grouped hd hrest => exact ⟨_, hd, _, ih.mpr hrest, rfl⟩
  | case4 c rest hne hnot ih =>
    simp only [Option.bind_eq_bind, Option.bind_eq_some_iff, Option.some.injEq]
    constructor
    · rintro ⟨d, hd, ds', hds', rfl⟩
      exact .next hd (ih.mp hds')
    · intro h
      cases h with
      | single _ => exact absurd rfl hne
      | next hd hrest => exact ⟨_, hd, _, ih.mpr hrest, rfl⟩
      | grouped _ _ => exact absurd rfl (hnot _)

end Runs

/-! ## Signs -/

theorem splitSign_of_digitRun {cs : List Char} {ds : List ℕ} (h : DigitRun digitValue? cs ds) :
    splitSign cs = (false, cs) := by
  have hminus : digitValue? '-' = none := by decide
  have hplus : digitValue? '+' = none := by decide
  obtain ⟨c, rest, d, rfl, hd⟩ := h.exists_first
  unfold splitSign
  split
  next hcons =>
    cases hcons
    rw [hminus] at hd
    cases hd
  next hcons =>
    cases hcons
    rw [hplus] at hd
    cases hd
  · rfl

theorem readInt?_eq_some_iff {cs : List Char} {n : ℤ} : readInt? cs = some n ↔
    ∃ ds, DigitRun digitValue? (splitSign (trim isWhite cs)).2 ds ∧ ds.length ≤ digitLimit ∧
      withSign (splitSign (trim isWhite cs)).1 (ofDigits ds) = n := by
  have hline : digitValue? '_' = none := by decide
  simp only [← digitRun?_eq_some hline]
  unfold readInt?
  dsimp only
  split
  next ds hds => simp [hds]
  next hnone => simp [hnone]

theorem readInt?_eq_some {cs : List Char} {n : ℤ} : readInt? cs = some n ↔ Spells cs n := by
  rw [readInt?_eq_some_iff]
  simp only [Spells, trims_iff, ← ofDigits_eq]
  constructor
  · rintro ⟨ds, hrun, hlimit, rfl⟩
    refine ⟨_, ds, hrun, hlimit, ?_⟩
    generalize trim isWhite cs = t
    unfold splitSign
    split
    · exact Or.inr ⟨rfl, rfl⟩
    · exact Or.inl ⟨rfl, Or.inr rfl⟩
    · exact Or.inl ⟨rfl, Or.inl rfl⟩
  · rintro ⟨body, ds, hrun, hlimit, ⟨rfl, htrim | htrim⟩ | ⟨rfl, htrim⟩⟩
    · rw [htrim, splitSign_of_digitRun hrun]
      exact ⟨ds, hrun, hlimit, rfl⟩
    · rw [htrim]
      exact ⟨ds, hrun, hlimit, rfl⟩
    · rw [htrim]
      exact ⟨ds, hrun, hlimit, rfl⟩

end TypeOrigins.Text
