import TypeOrigins.Document.Json
import TypeOrigins.Proofs.Document.LongIntegers
import TypeOrigins.Proofs.Document.Update

/-! # Faults of JSON

Reading JSON meets a long integer only where so many digits stand in the text, and runs out of room
only where more brackets open than it has room for. No integer of a document that was read is long.
All of this follows from what each reader leaves of the text: a value that is short and an end of
the text, or a fault. -/

namespace TypeOrigins.Json
set_option autoImplicit false

open Text

/-- A run of digits in a text. -/
def HasDigits (n : ℕ) (cs : List Char) : Prop :=
  ∃ ds, ds.length = n ∧ (∀ c ∈ ds, isAsciiDigit c = true) ∧ ds <:+: cs

/-- How many brackets open in a text. -/
def openings (cs : List Char) : ℕ := cs.countP fun c => c == '[' || c == '{'

/-- What reading from a text may give: a good value with an end of the text, a place where the text is
not JSON, an integer with so many digits in the text, or collections for which there is no room. -/
inductive Reads {α : Type} (good : α → Prop) (room : ℕ) (cs : List Char) :
    Except Fault (α × Cursor) → Prop
  | value {a : α} {c : Cursor} (ha : good a) (hc : c.rest <:+ cs) : Reads good room cs (.ok (a, c))
  | malformed {reason : Reason} {position : ℕ} :
      Reads good room cs (.error (.malformed reason position))
  | longInteger {n : ℕ} (hn : digitLimit < n) (hds : HasDigits n cs) :
      Reads good room cs (.error (.longInteger n))
  | tooDeep {collection : Collection} (h : room < openings cs) :
      Reads good room cs (.error (.tooDeep collection))

section Reads
variable {α β : Type} {good : α → Prop} {good' : β → Prop} {room : ℕ} {cs : List Char}

theorem HasDigits.mono {n : ℕ} {cs' : List Char} (h : HasDigits n cs) (hcs : cs <:+: cs') :
    HasDigits n cs' := by
  obtain ⟨ds, hlength, hdigits, hin⟩ := h
  exact ⟨ds, hlength, hdigits, hin.trans hcs⟩

theorem openings_mono {cs' : List Char} (hcs : cs <:+ cs') : openings cs ≤ openings cs' :=
  hcs.sublist.countP_le

theorem Reads.mono {cs' : List Char} {x : Except Fault (α × Cursor)} (h : Reads good room cs x)
    (hcs : cs <:+ cs') : Reads good room cs' x := by
  cases h with
  | value ha hc => exact .value ha (hc.trans hcs)
  | malformed => exact .malformed
  | longInteger hn hds => exact .longInteger hn (hds.mono hcs.isInfix)
  | tooDeep h => exact .tooDeep (Nat.lt_of_lt_of_le h (openings_mono hcs))

/-- Behind a bracket there is room for one collection more. -/
theorem Reads.behind_bracket {b : Char} {rest : List Char} {x : Except Fault (α × Cursor)}
    (hb : b = '[' ∨ b = '{') (h : Reads good room cs x) (hcs : cs <:+ rest) :
    Reads good (room + 1) (b :: rest) x := by
  have hsuffix : cs <:+ b :: rest := hcs.trans (List.suffix_cons b rest)
  cases h with
  | value ha hc => exact .value ha (hc.trans hsuffix)
  | malformed => exact .malformed
  | longInteger hn hds => exact .longInteger hn (hds.mono hsuffix.isInfix)
  | tooDeep h =>
    have hopen : openings (b :: rest) = openings rest + 1 := by
      unfold openings
      rcases hb with rfl | rfl <;> rw [List.countP_cons_of_pos (by decide)]
    have hle := openings_mono hcs
    exact .tooDeep (by omega)

theorem Reads.bind {x : Except Fault (α × Cursor)} {f : α × Cursor → Except Fault (β × Cursor)}
    (hx : Reads good room cs x) (hf : ∀ a c, good a → c.rest <:+ cs → Reads good' room cs (f (a, c))) :
    Reads good' room cs (x >>= f) := by
  cases hx with
  | value ha hc => exact hf _ _ ha hc
  | malformed => exact .malformed
  | longInteger hn hds => exact .longInteger hn hds
  | tooDeep h => exact .tooDeep h

theorem Reads.map {x : Except Fault (α × Cursor)} {f : α → β} (hx : Reads good room cs x)
    (hf : ∀ a, good a → good' (f a)) :
    Reads good' room cs (x.map fun (a, c) => (f a, c)) := by
  cases hx with
  | value ha hc => exact .value (hf _ ha) hc
  | malformed => exact .malformed
  | longInteger hn hds => exact .longInteger hn hds
  | tooDeep h => exact .tooDeep h

end Reads

theorem rest_skip (c : Cursor) (n : ℕ) : (c.skip n).rest <:+ c.rest := List.drop_suffix n c.rest

theorem rest_skipSpace (c : Cursor) : c.skipSpace.rest <:+ c.rest := rest_skip c _

/-! ## Strings -/

/-- What an escape may give: a value, or a place where the text is not JSON. -/
inductive Escapes {α : Type} : Except Fault α → Prop
  | value (a : α) : Escapes (.ok a)
  | malformed {reason : Reason} {position : ℕ} : Escapes (.error (.malformed reason position))

theorem Escapes.bind {α β : Type} {x : Except Fault α} {f : α → Except Fault β} (hx : Escapes x)
    (hf : ∀ a, Escapes (f a)) : Escapes (x >>= f) := by
  cases hx with
  | value a => exact hf a
  | malformed => exact .malformed

theorem escapes_codeUnit (position : ℕ) (rest : List Char) : Escapes (codeUnit position rest) := by
  unfold codeUnit fail
  split
  · exact .value _
  · exact .malformed

theorem escapes_unicodeEscape (position : ℕ) (rest : List Char) :
    Escapes (unicodeEscape position rest) := by
  unfold unicodeEscape
  refine (escapes_codeUnit position rest).bind fun high => ?_
  dsimp only
  split
  · split
    · refine (escapes_codeUnit _ _).bind fun low => ?_
      split <;> exact .value _
    · exact .value _
  · exact .value _

theorem Escapes.reads {α β : Type} {good : β → Prop} {room : ℕ} {cs : List Char} {x : Except Fault α}
    {f : α → Except Fault (β × Cursor)} (hx : Escapes x) (hf : ∀ a, Reads good room cs (f a)) :
    Reads good room cs (x >>= f) := by
  cases hx with
  | value a => exact hf a
  | malformed => exact .malformed

theorem reads_stringTail (room opened fuel : ℕ) (done : List ReadChar) (c : Cursor) :
    Reads (fun _ => True) room c.rest (stringTail opened fuel done c) := by
  induction fuel generalizing done c with
  | zero => exact .malformed
  | succ fuel ih =>
    rw [stringTail]
    split
    · exact .malformed
    next rest hrest => exact .value trivial (hrest ▸ List.suffix_cons _ rest)
    · exact .malformed
    next rest hrest =>
      refine (escapes_unicodeEscape _ _).reads fun unit => ?_
      refine (ih _ _).mono ?_
      rw [hrest]
      exact (List.drop_suffix unit.2 rest).trans ⟨['\\', 'u'], rfl⟩
    next e rest _ hrest =>
      split
      · refine (ih _ _).mono ?_
        rw [hrest]
        exact ⟨['\\', e], rfl⟩
      · exact .malformed
    next ch rest _ _ _ _ hrest =>
      split
      · exact .malformed
      · refine (ih _ _).mono ?_
        rw [hrest]
        exact List.suffix_cons ch rest

theorem reads_string (room : ℕ) (c : Cursor) : Reads (fun _ => True) room c.rest (string c) :=
  reads_stringTail room _ _ _ c

/-! ## Numbers -/

theorem prefix_integerPart (cs : List Char) : integerPart cs <+: cs := by
  unfold integerPart
  split
  next rest => exact ⟨rest, rfl⟩
  · exact List.takeWhile_prefix _

theorem isAsciiDigit_of_mem_integerPart {cs : List Char} {c : Char} (h : c ∈ integerPart cs) :
    isAsciiDigit c = true := by
  unfold integerPart at h
  split at h
  · rw [List.mem_singleton.mp h]
    decide
  · exact List.all_eq_true.mp List.all_takeWhile c h

theorem short_of_not_carries {d : Document} (h : ∀ n, ¬ d.Carries n) : d.Short :=
  fun n hn => absurd hn (h n)

theorem short_int {n : ℤ} (h : isLong n = false) : (Document.int n).Short := by
  intro m hm
  cases hm
  exact h

theorem short_float (x : Binary64) : (Document.float x).Short := by
  intro m hm
  cases hm

theorem reads_number (room : ℕ) (c : Cursor) : Reads Document.Short room c.rest (number c) := by
  fun_cases number c with
  | case1 => exact .malformed
  | case2 negative body _ whole _ _ _ _ _ _ size _ hlength =>
    exact .value (short_int (isLong_numeral hlength negative)) (rest_skip c size)
  | case3 negative body hsplit whole _ _ _ _ _ _ _ hlength =>
    have hbody : body <:+ c.rest := by
      split at hsplit
      next rest hrest =>
        cases hsplit
        rw [hrest]
        exact List.suffix_cons _ body
      · cases hsplit
        exact List.suffix_refl _
    refine .longInteger (by omega) ⟨whole, rfl, ?_, ?_⟩
    · exact fun d hd => isAsciiDigit_of_mem_integerPart hd
    · exact (prefix_integerPart body).isInfix.trans hbody.isInfix
  | case4 => exact .value (short_float _) (rest_skip c _)

theorem short_of_mem_words {w : List Char × Document} (h : w ∈ words) : w.2.Short := by
  intro n hn
  simp only [words, List.mem_cons, List.not_mem_nil, or_false] at h
  rcases h with rfl | rfl | rfl | rfl | rfl | rfl <;> cases hn

theorem reads_scalar (room : ℕ) (c : Cursor) : Reads Document.Short room c.rest (scalar c) := by
  unfold scalar
  split
  next w hw => exact .value (short_of_mem_words (List.mem_of_find?_eq_some hw)) (rest_skip c _)
  · exact reads_number room c

/-! ## Values -/

theorem short_list {items : List Document} (h : ∀ d ∈ items, d.Short) : (Document.list items).Short := by
  intro n hn
  cases hn with
  | item hd hn => exact h _ hd n hn

theorem short_object {fields : Document.Fields} (h : ∀ f ∈ fields, f.2.Short) :
    (Document.object fields).Short := by
  intro n hn
  cases hn with
  | field hf hn => exact h _ hf n hn

/-- No integer of what was read is long. -/
def Reading.Short (r : Reading) : Prop := r.document.Short

/-- The three readers of values, which call each other with less fuel. -/
structure ReadsWithin (fuel : ℕ) : Prop where
  value (room : ℕ) (c : Cursor) : Reads Reading.Short room c.rest (value room fuel c)
  items {done : List Document} (hdone : ∀ d ∈ done, d.Short) (room : ℕ) (intact : Bool) (c : Cursor) :
    Reads Reading.Short room c.rest (items room fuel intact done c)
  members {done : Document.Fields} (hdone : ∀ f ∈ done, f.2.Short) (room : ℕ) (intact : Bool)
    (c : Cursor) : Reads Reading.Short room c.rest (members room fuel intact done c)

namespace ReadsWithin
variable {fuel : ℕ} (ih : ReadsWithin fuel)
include ih

theorem value_succ (room : ℕ) (c : Cursor) :
    Reads Reading.Short room c.rest (Json.value room (fuel + 1) c) := by
  unfold Json.value
  split
  next rest hrest =>
    have hsuffix : rest <:+ c.rest := hrest ▸ List.suffix_cons _ rest
    refine ((reads_string _ ⟨c.position + 1, rest⟩).mono hsuffix).bind fun s c' _ hc' => ?_
    exact .value (short_of_not_carries (by intro n hn; cases hn)) hc'
  next rest hrest =>
    refine .tooDeep ?_
    simp [openings, hrest]
  next rest room hrest =>
    rw [hrest]
    have hsuffix := rest_skipSpace ⟨c.position + 1, rest⟩
    dsimp only
    split
    · refine .value (short_list (by simp)) ?_
      exact ((rest_skip _ 1).trans hsuffix).trans (List.suffix_cons _ rest)
    · exact (ih.items (by simp) room true _).behind_bracket (Or.inl rfl) hsuffix
  next rest hrest =>
    refine .tooDeep ?_
    simp [openings, hrest]
  next rest room hrest =>
    rw [hrest]
    have hsuffix := rest_skipSpace ⟨c.position + 1, rest⟩
    dsimp only
    split
    · refine .value (short_object (by simp)) ?_
      exact ((rest_skip _ 1).trans hsuffix).trans (List.suffix_cons _ rest)
    · exact (ih.members (by simp) room true _).behind_bracket (Or.inr rfl) hsuffix
  · exact Reads.map (f := fun d => (⟨d, true⟩ : Reading)) (reads_scalar _ c) fun _ hd => hd

theorem items_succ {done : List Document} (hdone : ∀ d ∈ done, d.Short) (room : ℕ) (intact : Bool)
    (c : Cursor) : Reads Reading.Short room c.rest (Json.items room (fuel + 1) intact done c) := by
  rw [Json.items]
  refine (ih.value room c).bind fun v c₁ hv hc₁ => ?_
  have hsuffix := (rest_skipSpace c₁).trans hc₁
  have hdone' : ∀ d ∈ v.document :: done, Document.Short d := List.forall_mem_cons.mpr ⟨hv, hdone⟩
  dsimp only
  split
  · refine .value (short_list fun d hd => hdone' d (List.mem_reverse.mp hd)) ?_
    exact (rest_skip _ 1).trans hsuffix
  · refine (ih.items hdone' room _ _).mono ?_
    exact (rest_skipSpace _).trans ((rest_skip _ 1).trans hsuffix)
  · exact .malformed

theorem members_succ {done : Document.Fields} (hdone : ∀ f ∈ done, f.2.Short) (room : ℕ)
    (intact : Bool) (c : Cursor) :
    Reads Reading.Short room c.rest (Json.members room (fuel + 1) intact done c) := by
  rw [Json.members]
  split
  next rest hrest =>
    have hsuffix : rest <:+ c.rest := hrest ▸ List.suffix_cons _ rest
    refine ((reads_string room ⟨c.position + 1, rest⟩).mono hsuffix).bind fun name c₁ _ hc₁ => ?_
    have hafter := (rest_skipSpace c₁).trans hc₁
    dsimp only
    split
    · have hstart : ((c₁.skipSpace.skip 1).skipSpace).rest <:+ c.rest :=
        (rest_skipSpace _).trans ((rest_skip _ 1).trans hafter)
      refine ((ih.value room _).mono hstart).bind fun v c₃ hv hc₃ => ?_
      have hend := (rest_skipSpace c₃).trans hc₃
      have hdone' : ∀ f ∈ done.put (.name name.1) v.document, f.2.Short := by
        intro f hf
        rcases Document.Fields.mem_put hf with rfl | hf
        · exact hv
        · exact hdone f hf
      dsimp only
      split
      · exact .value (short_object hdone') ((rest_skip _ 1).trans hend)
      · refine (ih.members hdone' room _ _).mono ?_
        exact (rest_skipSpace _).trans ((rest_skip _ 1).trans hend)
      · exact .malformed
    · exact .malformed
  · exact .malformed

end ReadsWithin

theorem readsWithin (fuel : ℕ) : ReadsWithin fuel := by
  induction fuel with
  | zero => exact ⟨fun _ _ => .malformed, fun _ _ _ _ => .malformed, fun _ _ _ _ => .malformed⟩
  | succ fuel ih => exact ⟨ih.value_succ, ih.items_succ, ih.members_succ⟩

/-! ## Texts -/

/-- A text is read as a document without long integers, or it is not JSON at some place, or it holds
an integer of too many digits or more brackets than there is room for. -/
theorem read_cases (room : ℕ) (cs : List Char) :
    (∃ r, read room cs = .ok r ∧ r.Short) ∨
      (∃ reason position, read room cs = .error (.malformed reason position)) ∨
      (∃ n, read room cs = .error (.longInteger n) ∧ digitLimit < n ∧ HasDigits n cs) ∨
      ∃ c, read room cs = .error (.tooDeep c) ∧ room < openings cs := by
  have hreads : Reads Reading.Short room cs
      (value room (2 * cs.length + 4) (Cursor.skipSpace ⟨0, cs⟩)) :=
    ((readsWithin _).value room _).mono (rest_skipSpace ⟨0, cs⟩)
  unfold read
  split
  · exact Or.inr (Or.inl ⟨_, _, rfl⟩)
  · generalize value room (2 * cs.length + 4) (Cursor.skipSpace ⟨0, cs⟩) = result at hreads ⊢
    cases hreads with
    | malformed => exact Or.inr (Or.inl ⟨_, _, rfl⟩)
    | longInteger hn hds => exact Or.inr (Or.inr (Or.inl ⟨_, rfl, hn, hds⟩))
    | tooDeep h => exact Or.inr (Or.inr (Or.inr ⟨_, rfl, h⟩))
    | value hshort _ =>
      dsimp only [bind, Except.bind]
      split
      · exact Or.inl ⟨_, rfl, hshort⟩
      · exact Or.inr (Or.inl ⟨_, _, rfl⟩)

end TypeOrigins.Json
