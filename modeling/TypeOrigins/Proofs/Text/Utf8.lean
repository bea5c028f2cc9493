import Mathlib.Data.Nat.Notation
import TypeOrigins.Text.Utf8

/-! # Bytes and characters

Bytes are read as characters if and only if they are the bytes of these characters. What is left of a
code point after its first bits are read comes six bits at a time: `dropSextets k n` is `n` without
its last `k` sextets, and `sextets k n` are these sextets as the bytes that follow. -/

namespace TypeOrigins.Text
set_option autoImplicit false

/-! ## Sextets -/

/-- A number without its last sextets. -/
def dropSextets : ℕ → ℕ → ℕ
  | 0, n => n
  | k + 1, n => dropSextets k n / 64

/-- The last sextets of a number, as bytes that continue a character. -/
def sextets : ℕ → ℕ → List UInt8
  | 0, _ => []
  | k + 1, n => UInt8.ofNat (dropSextets k n % 64 + 0x80) :: sextets k n

theorem sextets_of_pos {k : ℕ} (h : 0 < k) (n : ℕ) :
    sextets k n = UInt8.ofNat (dropSextets (k - 1) n % 64 + 0x80) :: sextets (k - 1) n := by
  cases k with
  | zero => omega
  | succ k => rfl

@[simp] theorem length_sextets (k n : ℕ) : (sextets k n).length = k := by
  induction k with
  | zero => rfl
  | succ k ih => simp [sextets, ih]

theorem toNat_ofNat {n : ℕ} (h : n < 256) : (UInt8.ofNat n).toNat = n := by
  rw [UInt8.toNat_ofNat']
  omega

theorem toNat_charOfNat {n : ℕ} (h : n.isValidChar) : (Char.ofNat n).toNat = n := by
  unfold Char.ofNat
  rw [dif_pos h]
  rfl

/-- How many bytes follow the first byte of a code point. -/
def tailCount (n : ℕ) : ℕ := if n ≤ 0x7f then 0 else if n ≤ 0x7ff then 1 else if n ≤ 0xffff then 2 else 3

/-- The first byte of a code point: a mark for the number of bytes, and its first bits. -/
def firstByte (n : ℕ) : ℕ :=
  (if n ≤ 0x7f then 0 else if n ≤ 0x7ff then 0xc0 else if n ≤ 0xffff then 0xe0 else 0xf0) +
    dropSextets (tailCount n) n

theorem encodeChar_eq_sextets {n : ℕ} (h : n.isValidChar) :
    String.utf8EncodeChar (Char.ofNat n) = UInt8.ofNat (firstByte n) :: sextets (tailCount n) n := by
  have hval : (Char.ofNat n).val.toNat = n := toNat_charOfNat h
  have hlast : n < 0x110000 := by rcases h with h | h <;> omega
  unfold String.utf8EncodeChar firstByte tailCount
  simp only [hval]
  split
  · simp [sextets, dropSextets]
  · split
    · have hone : n / 64 % 32 + 192 = 192 + n / 64 := by omega
      simp only [sextets, dropSextets, hone]
    · split
      · have htwo : n / 4096 % 16 + 224 = 224 + n / 64 / 64 := by omega
        simp only [sextets, dropSextets, htwo]
      · have hthree : n / 262144 % 8 + 240 = 240 + n / 64 / 64 / 64 := by omega
        have htwo : n / 4096 = n / 64 / 64 := by omega
        simp only [sextets, dropSextets, hthree, htwo]

theorem tailCount_cases (n : ℕ) :
    (n ≤ 0x7f ∧ tailCount n = 0 ∧ firstByte n = n) ∨
    (0x7f < n ∧ n ≤ 0x7ff ∧ tailCount n = 1 ∧ firstByte n = 0xc0 + n / 64) ∨
    (0x7ff < n ∧ n ≤ 0xffff ∧ tailCount n = 2 ∧ firstByte n = 0xe0 + n / 64 / 64) ∨
    (0xffff < n ∧ tailCount n = 3 ∧ firstByte n = 0xf0 + n / 64 / 64 / 64) := by
  unfold firstByte tailCount
  by_cases h₁ : n ≤ 0x7f
  · simp [h₁, dropSextets]
  · by_cases h₂ : n ≤ 0x7ff
    · simp [h₁, h₂, dropSextets]
      omega
    · by_cases h₃ : n ≤ 0xffff
      · simp [h₁, h₂, h₃, dropSextets]
        omega
      · simp [h₁, h₂, h₃, dropSextets]
        omega

/-! ## First bytes -/

namespace PartialChar

/-- A code point that a begun character may become: its first bits are those that were read, and the
next sextet is in range. -/
def Leads (p : PartialChar) (n : ℕ) : Prop :=
  dropSextets p.owed n = p.bits ∧
    (0 < p.owed → p.low ≤ dropSextets (p.owed - 1) n % 64 + 0x80 ∧
      dropSextets (p.owed - 1) n % 64 + 0x80 ≤ p.high)

/-- The next byte has the mark of a byte that continues a character. -/
def Expects (p : PartialChar) : Prop := 0x80 ≤ p.low ∧ p.high ≤ 0xbf

theorem expects_of_start? {b : UInt8} {p : PartialChar} (h : start? b = some p) : p.Expects := by
  unfold start? at h
  simp only [Bool.and_eq_true, decide_eq_true_eq, beq_iff_eq] at h
  unfold Expects
  generalize b.toNat = first at h
  iterate 8
    split at h
    · obtain rfl := Option.some.inj h
      simp
  cases h

theorem leads_iff {b : UInt8} {p : PartialChar} (h : start? b = some p) (n : ℕ) :
    p.Leads n ↔ n.isValidChar ∧ firstByte n = b.toNat ∧ tailCount n = p.owed := by
  have hcases := tailCount_cases n
  unfold start? at h
  simp only [Bool.and_eq_true, decide_eq_true_eq, beq_iff_eq] at h
  unfold Nat.isValidChar Leads
  generalize firstByte n = first at hcases ⊢
  generalize tailCount n = count at hcases ⊢
  generalize b.toNat = byte at h ⊢
  -- each range of first bytes against each length of characters
  iterate 8
    split at h
    · obtain rfl := Option.some.inj h
      simp only [dropSextets, Nat.sub_self, Nat.lt_irrefl, false_implies, and_true]
      omega
  cases h

theorem exists_start? {n : ℕ} (h : n.isValidChar) :
    ∃ p, start? (UInt8.ofNat (firstByte n)) = some p ∧ p.Leads n := by
  have hcases := tailCount_cases n
  have hlast : n < 0x110000 := by rcases h with h | h <;> omega
  have hbyte : (UInt8.ofNat (firstByte n)).toNat = firstByte n := toNat_ofNat (by omega)
  have hstart : ∃ p, start? (UInt8.ofNat (firstByte n)) = some p ∧ p.owed = tailCount n := by
    unfold start?
    simp only [hbyte, Bool.and_eq_true, decide_eq_true_eq, beq_iff_eq]
    generalize firstByte n = first at hcases ⊢
    generalize tailCount n = count at hcases ⊢
    iterate 8
      split
      · exact ⟨_, rfl, by dsimp only; omega⟩
    omega
  obtain ⟨p, hp, howed⟩ := hstart
  exact ⟨p, hp, (leads_iff hp n).mpr ⟨h, hbyte.symm, howed.symm⟩⟩

/-! ## Bytes that follow -/

theorem add?_eq_some {p p' : PartialChar} {b : UInt8} (h : p.add? b = some p') :
    p.low ≤ b.toNat ∧ b.toNat ≤ p.high ∧
      p' = ⟨p.bits * 64 + (b.toNat - 0x80), p.owed - 1, 0x80, 0xbf, p.seen ++ [b]⟩ := by
  unfold add? at h
  split at h
  case isTrue hrange =>
    simp only [Bool.and_eq_true, decide_eq_true_eq] at hrange
    exact ⟨hrange.1, hrange.2, (Option.some.inj h).symm⟩
  case isFalse => cases h

theorem leads_add? {p p' : PartialChar} {b : UInt8} (h : p.add? b = some p') (hp : p.Expects)
    (howed : 0 < p.owed) (n : ℕ) :
    p'.Leads n ↔ p.Leads n ∧ dropSextets (p.owed - 1) n % 64 + 0x80 = b.toNat := by
  obtain ⟨hlow, hhigh, rfl⟩ := add?_eq_some h
  obtain ⟨k, hk⟩ := Nat.exists_eq_add_of_lt howed
  obtain ⟨hmark, hend⟩ := hp
  have hdrop : dropSextets p.owed n = dropSextets (p.owed - 1) n / 64 := by
    rw [hk]
    simp [dropSextets]
  unfold Leads
  simp only [hdrop]
  omega

theorem add?_of_leads {p : PartialChar} {n : ℕ} (h : p.Leads n) (howed : 0 < p.owed) :
    ∃ p', p.add? (UInt8.ofNat (dropSextets (p.owed - 1) n % 64 + 0x80)) = some p' := by
  obtain ⟨hlow, hhigh⟩ := h.2 howed
  have hbyte : (UInt8.ofNat (dropSextets (p.owed - 1) n % 64 + 0x80)).toNat =
      dropSextets (p.owed - 1) n % 64 + 0x80 := toNat_ofNat (by omega)
  unfold add?
  rw [hbyte]
  simp [hlow, hhigh]

theorem leads_of_owed_eq_zero {p : PartialChar} (h : p.owed = 0) (n : ℕ) : p.Leads n ↔ n = p.bits := by
  simp [Leads, h, dropSextets]

theorem leads_cons_iff {p p' : PartialChar} {b : UInt8} (h : p.add? b = some p') (hp : p.Expects)
    (howed : 0 < p.owed) (n : ℕ) (bytes rest : List UInt8) :
    p.Leads n ∧ b :: bytes = sextets p.owed n ++ rest ↔
      p'.Leads n ∧ bytes = sextets p'.owed n ++ rest := by
  have howed' : p'.owed = p.owed - 1 := by rw [(add?_eq_some h).2.2]
  have hbyte : b = UInt8.ofNat (dropSextets (p.owed - 1) n % 64 + 0x80) ↔
      dropSextets (p.owed - 1) n % 64 + 0x80 = b.toNat := by
    rw [← UInt8.toNat_inj, toNat_ofNat (by omega), eq_comm]
  rw [sextets_of_pos howed, List.cons_append, List.cons.injEq, hbyte, leads_add? h hp howed, howed',
    and_assoc]

end PartialChar

/-! ## Reading -/

/-- After a first byte that owes more, reading goes on just if the owed bytes of a character follow. -/
theorem utf8Chars_open {p : PartialChar} (hp : p.Expects) (howed : 0 < p.owed) (position : ℕ)
    (done cs : List Char) (bytes : List UInt8) :
    utf8Chars position (some p) done bytes = .ok cs ↔
      ∃ n rest, (p.Leads n ∧ bytes = sextets p.owed n ++ rest) ∧
        utf8Chars (position + p.owed) none (Char.ofNat n :: done) rest = .ok cs := by
  induction bytes generalizing p position with
  | nil =>
    simp [utf8Chars, sextets_of_pos howed]
  | cons b bytes ih =>
    rw [utf8Chars]
    cases hadd : p.add? b with
    | none =>
      simp only [reduceCtorEq, false_iff]
      rintro ⟨n, rest, ⟨hn, hbytes⟩, -⟩
      obtain ⟨p', hp'⟩ := PartialChar.add?_of_leads hn howed
      rw [sextets_of_pos howed, List.cons_append, List.cons.injEq] at hbytes
      rw [← hbytes.1, hadd] at hp'
      cases hp'
    | some p' =>
      have hstep := PartialChar.add?_eq_some hadd
      have hp' : p'.Expects := by simp [hstep.2.2, PartialChar.Expects]
      have howed' : p'.owed = p.owed - 1 := by rw [hstep.2.2]
      simp only [PartialChar.leads_cons_iff hadd hp howed]
      by_cases hzero : p'.owed = 0
      · have hone : p.owed = 1 := by omega
        simp [hzero, hone, PartialChar.leads_of_owed_eq_zero hzero, sextets, and_assoc]
      · have hposition : position + p.owed = position + 1 + p'.owed := by omega
        simp only [beq_iff_eq, hzero, if_false, hposition]
        exact ih hp' (by omega) _

theorem encodeChar_toNat (c : Char) :
    String.utf8EncodeChar c = UInt8.ofNat (firstByte c.toNat) :: sextets (tailCount c.toNat) c.toNat := by
  have h := encodeChar_eq_sextets (n := c.toNat) c.valid
  rwa [Char.ofNat_toNat] at h

theorem utf8Chars_start {b : UInt8} {p : PartialChar} (h : PartialChar.start? b = some p)
    (position : ℕ) (done cs : List Char) (bytes : List UInt8) :
    utf8Chars position none done (b :: bytes) = .ok cs ↔
      ∃ n rest, (p.Leads n ∧ bytes = sextets p.owed n ++ rest) ∧
        utf8Chars (position + 1 + p.owed) none (Char.ofNat n :: done) rest = .ok cs := by
  rw [utf8Chars, h]
  by_cases hzero : p.owed = 0
  · simp [hzero, PartialChar.leads_of_owed_eq_zero hzero, sextets, and_assoc]
  · simp only [beq_iff_eq, hzero, if_false]
    exact utf8Chars_open (PartialChar.expects_of_start? h) (by omega) _ _ _ _

/-- Reading goes on just if the bytes of a character follow. -/
theorem utf8Chars_cons (position : ℕ) (done cs : List Char) (b : UInt8) (bytes : List UInt8) :
    utf8Chars position none done (b :: bytes) = .ok cs ↔
      ∃ c rest, b :: bytes = String.utf8EncodeChar c ++ rest ∧
        utf8Chars (position + (String.utf8EncodeChar c).length) none (c :: done) rest = .ok cs := by
  cases hstart : PartialChar.start? b with
  | none =>
    rw [utf8Chars, hstart]
    simp only [reduceCtorEq, false_iff]
    rintro ⟨c, rest, hbytes, -⟩
    obtain ⟨p, hp, -⟩ := PartialChar.exists_start? (n := c.toNat) c.valid
    rw [encodeChar_toNat, List.cons_append, List.cons.injEq] at hbytes
    rw [← hbytes.1, hstart] at hp
    cases hp
  | some p =>
    rw [utf8Chars_start hstart]
    constructor
    · rintro ⟨n, rest, ⟨hn, rfl⟩, hrest⟩
      obtain ⟨hvalid, hfirst, htail⟩ := (PartialChar.leads_iff hstart n).mp hn
      have hencode := encodeChar_eq_sextets hvalid
      rw [hfirst, UInt8.ofNat_toNat, htail] at hencode
      refine ⟨Char.ofNat n, rest, by simp [hencode], ?_⟩
      have hlength : position + (String.utf8EncodeChar (Char.ofNat n)).length =
          position + 1 + p.owed := by simp [hencode]; omega
      rwa [hlength]
    · rintro ⟨c, rest, hbytes, hrest⟩
      obtain ⟨p', hp', hleads⟩ := PartialChar.exists_start? (n := c.toNat) c.valid
      rw [encodeChar_toNat, List.cons_append, List.cons.injEq] at hbytes
      rw [← hbytes.1, hstart] at hp'
      obtain rfl := Option.some.inj hp'
      obtain ⟨-, -, htail⟩ := (PartialChar.leads_iff hstart _).mp hleads
      refine ⟨c.toNat, rest, ⟨hleads, by rw [hbytes.2, htail]⟩, ?_⟩
      have hlength : position + (String.utf8EncodeChar c).length = position + 1 + p.owed := by
        simp [encodeChar_toNat, htail]; omega
      rwa [Char.ofNat_toNat, ← hlength]

/-- Reading after some characters yields these and the characters whose bytes are read. -/
theorem utf8Chars_eq_ok (position : ℕ) (done cs : List Char) (bytes : List UInt8) :
    utf8Chars position none done bytes = .ok cs ↔
      ∃ tail, cs = done.reverse ++ tail ∧ encodeUtf8 tail = bytes := by
  -- on the number of bytes, since a character takes several
  induction hlength : bytes.length using Nat.strongRecOn generalizing position done bytes with
  | ind k ih =>
    cases bytes with
    | nil =>
      have hnil : ∀ tail, encodeUtf8 tail = [] ↔ tail = [] := by
        intro tail
        cases tail <;> simp [encodeUtf8, encodeChar_toNat]
      simp [utf8Chars, hnil, eq_comm]
    | cons b bytes =>
      rw [utf8Chars_cons]
      constructor
      · rintro ⟨c, rest, hbytes, hrest⟩
        have hshort : rest.length < k := by
          rw [← hlength, hbytes, encodeChar_toNat]
          simp only [List.cons_append, List.length_cons, List.length_append]
          omega
        obtain ⟨tail, rfl, rfl⟩ := (ih _ hshort _ _ _ rfl).mp hrest
        exact ⟨c :: tail, by simp, by simp [hbytes, encodeUtf8]⟩
      · rintro ⟨tail, rfl, hbytes⟩
        cases tail with
        | nil => simp [encodeUtf8] at hbytes
        | cons c tail =>
          have hcons : b :: bytes = String.utf8EncodeChar c ++ encodeUtf8 tail := by
            simp [← hbytes, encodeUtf8]
          have hshort : (encodeUtf8 tail).length < k := by
            rw [← hlength, hcons, encodeChar_toNat]
            simp only [List.cons_append, List.length_cons, List.length_append]
            omega
          exact ⟨c, encodeUtf8 tail, hcons, (ih _ hshort _ _ _ rfl).mpr ⟨tail, by simp, rfl⟩⟩

/-- Bytes are read as the characters whose bytes they are. -/
theorem decodeUtf8_eq_ok_iff {bytes : List UInt8} {cs : List Char} :
    decodeUtf8 bytes = .ok cs ↔ encodeUtf8 cs = bytes := by
  simp [decodeUtf8, utf8Chars_eq_ok]

end TypeOrigins.Text
