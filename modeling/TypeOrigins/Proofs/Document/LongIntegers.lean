import Mathlib.Data.Int.Notation
import Mathlib.Data.Nat.Notation
import TypeOrigins.Proofs.Document.Check

/-! # Long integers in documents

A numeral of at most `digitLimit` digits is not long. A number field therefore reads a long integer
only off an integer of the document, which no text, float or truth value can stand for. -/

namespace TypeOrigins
set_option autoImplicit false

/-- An integer that occurs in a document, at any depth. -/
inductive Document.Carries (n : ℤ) : Document → Prop
  | int : Carries n (.int n)
  | item {items : List Document} {d : Document} (hd : d ∈ items) (h : Carries n d) :
      Carries n (.list items)
  | field {fields : Document.Fields} {key : Key} {d : Document} (hf : (key, d) ∈ fields)
      (h : Carries n d) : Carries n (.object fields)

/-- No integer in a document is long. -/
def Document.Short (d : Document) : Prop := ∀ n, d.Carries n → Text.isLong n = false

/-- An integer that a document can give as a number of something: it is not negative, and if it is
long it occurs there. -/
def Document.Gives (n : ℤ) (d : Document) : Prop := 0 ≤ n ∧ (Text.isLong n = true → d.Carries n)

namespace Text

/-! ## Numerals -/

theorem lt_ten_of_asciiDigit? {c : Char} {d : ℕ} (h : asciiDigit? c = some d) : d < 10 := by
  unfold asciiDigit? at h
  split at h
  case isTrue hrange =>
    simp only [Bool.and_eq_true, decide_eq_true_eq] at hrange
    obtain rfl := Option.some.inj h
    omega
  case isFalse => cases h

theorem foldl_digits_lt (ds : List ℕ) (hds : ∀ d ∈ ds, d < 10) (n k : ℕ) (hn : n < Nat.pow 10 k) :
    ds.foldl (fun n d => 10 * n + d) n < Nat.pow 10 (k + ds.length) := by
  induction ds generalizing n k with
  | nil => exact hn
  | cons d ds ih =>
    have hd := hds d List.mem_cons_self
    have hstep : 10 * n + d < Nat.pow 10 (k + 1) := by
      have hpow : Nat.pow 10 (k + 1) = Nat.pow 10 k * 10 := rfl
      omega
    have hlength : k + (d :: ds).length = k + 1 + ds.length := by
      rw [List.length_cons]
      omega
    rw [List.foldl_cons, hlength]
    exact ih (fun d' hd' => hds d' (List.mem_cons_of_mem d hd')) _ _ hstep

theorem ofDigits_lt (ds : List ℕ) (hds : ∀ d ∈ ds, d < 10) : ofDigits ds < Nat.pow 10 ds.length := by
  have h := foldl_digits_lt ds hds 0 0 Nat.zero_lt_one
  rwa [Nat.zero_add] at h

theorem natAbs_withSign (negative : Bool) (n : ℕ) : (withSign negative n).natAbs = n := by
  cases negative <;> simp [withSign]

theorem isLong_eq_false {n : ℤ} (h : n.natAbs < Nat.pow 10 digitLimit) : isLong n = false :=
  decide_eq_false (Nat.not_le_of_lt h)

theorem pow_ten_le {k m : ℕ} (h : k ≤ m) : Nat.pow 10 k ≤ Nat.pow 10 m :=
  Nat.pow_le_pow_right (by omega) h

theorem isLong_numeral {cs : List Char} (h : cs.length ≤ digitLimit) (negative : Bool) :
    isLong (withSign negative (ofDigits (cs.filterMap asciiDigit?))) = false := by
  have hlt := ofDigits_lt (cs.filterMap asciiDigit?) (by
    intro d hd
    obtain ⟨c, _, hc⟩ := List.mem_filterMap.mp hd
    exact lt_ten_of_asciiDigit? hc)
  have hlength : (cs.filterMap asciiDigit?).length ≤ digitLimit :=
    Nat.le_trans (List.length_filterMap_le _ _) h
  apply isLong_eq_false
  rw [natAbs_withSign]
  exact Nat.lt_of_lt_of_le hlt (pow_ten_le hlength)

theorem isLong_of_readPlain {cs : List Char} {n : ℤ} (h : readPlain cs = .ok n) :
    isLong n = false := by
  revert h
  fun_cases readPlain cs with
  | case2 =>
    intro h
    cases h
    decide +kernel
  | case7 negative body hsplit digits hlimit =>
    intro h
    cases h
    exact isLong_numeral (by omega) negative
  | _ =>
    intro h
    cases h

theorem isLong_of_readWhole {cs : List Char} {n : ℤ} (h : readWhole cs = .ok n) :
    isLong n = false := by
  unfold readWhole at h
  split at h
  · split at h
    next n' hplain =>
      cases h
      obtain ⟨ds, _, hds⟩ := Option.map_eq_some_iff.mp hplain
      exact isLong_of_readPlain hds
    · cases h
  · exact isLong_of_readPlain h

theorem isLong_of_fitsWord {n : ℤ} (h : fitsWord n = true) : isLong n = false := by
  have hword : Nat.pow 2 63 < Nat.pow 10 digitLimit := by decide +kernel
  unfold fitsWord at h
  simp only [Bool.and_eq_true, decide_eq_true_eq] at h
  have hle : n.natAbs ≤ Nat.pow 2 63 := by
    have hpow : Int.pow 2 63 = ((Nat.pow 2 63 : ℕ) : ℤ) := by decide
    omega
  exact isLong_eq_false (Nat.lt_of_le_of_lt hle hword)

end Text

/-! ## Number fields -/

theorem eq_int_of_checkAnyInt {d : Document} {n : ℤ} (h : checkAnyInt d = .valid n)
    (hlong : Text.isLong n = true) : d = .int n := by
  have hnot : Text.isLong n ≠ false := by simp [hlong]
  revert h
  fun_cases checkAnyInt d with
  | case1 m =>
    intro h
    cases h
    rfl
  | case2 b =>
    intro h
    cases h
    have hbit : Text.isLong (if b = true then 1 else 0) = false := by
      cases b <;> decide +kernel
    exact absurd hbit hnot
  | case5 x _ _ m hword =>
    intro h
    cases h
    have hfits := (Option.filter_eq_some_iff.mp hword).2
    simp only [Bool.and_eq_true] at hfits
    exact absurd (Text.isLong_of_fitsWord hfits.1) hnot
  | case7 s m hread =>
    intro h
    cases h
    exact absurd (Text.isLong_of_readWhole hread) hnot
  | _ =>
    intro h
    cases h

/-- A check whose values have a property only if the document gives an integer. -/
def Reveals {α : Type} (n : ℤ) (check : Document → Checked α) (P : α → Prop) : Prop :=
  ∀ d a, check d = .valid a → P a → d.Gives n

namespace Reveals

theorem number (n : ℤ) : Reveals n (checkIntFrom 0) (· = n) := by
  rintro d m h rfl
  unfold checkIntFrom Checked.andThen at h
  split at h
  next m' hm =>
    dsimp only at h
    split at h
    · cases h
    next hminimum =>
      cases h
      refine ⟨by omega, fun hlong => ?_⟩
      rw [eq_int_of_checkAnyInt hm hlong]
      exact .int
  · cases h

section Parts
variable {α : Type} {n : ℤ} {check : Document → Checked α} {P : α → Prop} (hcheck : Reveals n check P)
include hcheck

theorem list : Reveals n (checkList check) (fun as => ∃ a ∈ as, P a) := by
  rintro d as h ⟨a, ha, hP⟩
  unfold checkList at h
  split at h
  next ds =>
    obtain ⟨d, hd, hvalid⟩ := Checked.exists_of_mem_items h ha
    exact (hcheck d a hvalid hP).imp_right (.item hd ∘ ·)
  · cases h

theorem nullable : Reveals n (checkNullable check) (fun o => ∃ a ∈ o, P a) := by
  rintro d o h ⟨a, ha, hP⟩
  unfold checkNullable at h
  split at h
  · cases h
    cases ha
  · obtain ⟨a', ha', rfl⟩ := Checked.map_eq_valid.mp h
    cases ha
    exact hcheck d a ha' hP

variable {fields : Document.Fields} {name : String} {a : α}

theorem field {d : Document} (hd : fields.get? name = some d) (h : Checked.under name (check d) = .valid a)
    (hP : P a) : (Document.object fields).Gives n := by
  obtain ⟨f, hf, rfl⟩ := Option.map_eq_some_iff.mp hd
  exact (hcheck _ a (Checked.under_eq_valid.mp h) hP).imp_right
    (.field (List.mem_of_find?_eq_some hf) ∘ ·)

theorem required (h : requiredField fields name check = .valid a) (hP : P a) :
    (Document.object fields).Gives n := by
  unfold requiredField at h
  split at h
  · cases h
  next d hd => exact hcheck.field hd h hP

theorem optional {default : α} (h : optionalField fields name default check = .valid a)
    (hdefault : ¬ P default) (hP : P a) : (Document.object fields).Gives n := by
  unfold optionalField at h
  split at h
  · cases h
    exact absurd hP hdefault
  next d hd => exact hcheck.field hd h hP

end Parts

section Objects
variable {α : Type} {n : ℤ} {P : α → Prop}

theorem object {body : Document.Fields → Checked α}
    (hbody : ∀ fields a, body fields = .valid a → P a → (Document.object fields).Gives n) :
    Reveals n (checkObject body) P := by
  intro d a h hP
  unfold checkObject at h
  split at h
  next fields => exact hbody fields a h hP
  · cases h

theorem tagged {tags : List String} {body : String → Document.Fields → Checked α}
    (hbody : ∀ tag fields a, body tag fields = .valid a → P a → (Document.object fields).Gives n) :
    Reveals n (checkTagged tags body) P := by
  intro d a h hP
  unfold checkTagged at h
  split at h
  next fields =>
    split at h
    · cases h
    next tag _ =>
      split at h
      · exact hbody tag fields a (Checked.under_eq_valid.mp h) hP
      · cases h
    · cases h
  · cases h

end Objects

end Reveals

end TypeOrigins
