import TypeOrigins.CommandLine.Run
import TypeOrigins.Proofs.Document.Json
import TypeOrigins.Proofs.Facts.Ordinals
import TypeOrigins.Proofs.Report.Logged
import TypeOrigins.Proofs.Text.Utf8

/-! # Faults of loading

A file that gives no program has a fault of its facts document, which is reported with the path of the
file as its source. The exceptions are stray faults, and there are six of them: a path with a null
character, bytes that are no text, a long integer in JSON, collections of JSON nested deeper than there
is room for, an error of the reader of YAML other than its refusal, and an ordinal of YAML that is out
of range and too long to be written. This holds with every reader of YAML and any room for JSON. Of a
text that spells something that no document is, nothing more is said. -/

namespace TypeOrigins
set_option autoImplicit false

/-! ## Paths -/

namespace FileTree
variable {t : FileTree} {path : Path}

theorem walk_ne_nullInPath (parts place : List String) : t.walk path place parts ≠ .error .nullInPath := by
  fun_induction walk t path place parts with
  | case3 place part rest _ _ ih => exact ih
  | _ => simp

theorem read_eq_nullInPath :
    t.read path = .error .nullInPath ↔ Char.ofNat 0 ∈ path.display.toList := by
  unfold read locate
  dsimp only
  by_cases hnull : Char.ofNat 0 ∈ path.display.toList
  · rw [if_pos (List.contains_iff_mem.mpr hnull)]
    exact iff_of_true rfl hnull
  · rw [if_neg fun h => hnull (List.contains_iff_mem.mp h)]
    refine iff_of_false ?_ hnull
    split
    · exact fun h => by cases h
    · cases hwalk : t.walk path (start path) path.parts with
      | error e =>
        intro h
        cases h
        exact walk_ne_nullInPath _ _ hwalk
      | ok place =>
        dsimp only [bind, Except.bind]
        split <;> simp

end FileTree

namespace Path

theorem head_eq_empty_of_intercalate {part : String} {rest : List String}
    (h : "/".intercalate (part :: rest) = "") : part = "" := by
  have hlist := congrArg String.toList h
  rw [String.toList_intercalate] at hlist
  cases rest with
  | nil => simpa [List.intercalate] using hlist
  | cons next rest => simp [List.intercalate] at hlist

/-- The path that a text spells is shown as some text: its parts are not empty. -/
theorem display_ofText_ne_empty (text : String) : (ofText text).display ≠ "" := by
  unfold display
  split
  · decide
  next hshown =>
    intro h
    obtain ⟨hroot, hjoined⟩ := String.append_eq_empty_iff.mp h
    cases hparts : (ofText text).parts with
    | nil =>
      rw [hroot, hparts] at hshown
      exact hshown rfl
    | cons part rest =>
      rw [hparts] at hjoined
      have hpart : part ∈ (ofText text).parts := by
        rw [hparts]
        exact List.mem_cons_self
      have hkept := (List.mem_filter.mp hpart).2
      rw [head_eq_empty_of_intercalate hjoined] at hkept
      exact absurd hkept (by decide)

end Path

/-! ## Texts of files -/

namespace Facts

/-- A text that a file holds, with its line ends made alike. -/
def TextAt (files : FileTree) (path : Path) (cs : List Char) : Prop :=
  ∃ raw, files.read path = .ok (Text.encodeUtf8 raw) ∧ cs = Text.unifyLines raw

/-- The program that a text describes. -/
def programIn (readers : Readers) (path : Path) (cs : List Char) : Except LoadFault Program :=
  match decode readers path cs with
  | .ok (.object fields) => (parse fields).mapError .ofFacts
  | .ok _ => .error (.facts .notMapping)
  | .error e => .error e

section Stages
variable {readers : Readers} {files : FileTree} {path : Path}

theorem read_cases (files : FileTree) (path : Path) :
    (∃ e, files.read path = .error e) ∨
      (∃ bytes f, files.read path = .ok bytes ∧ (∀ cs, Text.encodeUtf8 cs ≠ bytes) ∧
        Text.decodeUtf8 bytes = .error f) ∨
      ∃ cs, TextAt files path cs := by
  cases hread : files.read path with
  | error e => exact .inl ⟨e, rfl⟩
  | ok bytes =>
    cases hdecode : Text.decodeUtf8 bytes with
    | error f =>
      refine .inr (.inl ⟨bytes, f, rfl, fun cs hcs => ?_, hdecode⟩)
      rw [Text.decodeUtf8_eq_ok_iff.mpr hcs] at hdecode
      cases hdecode
    | ok raw =>
      rw [← Text.decodeUtf8_eq_ok_iff.mp hdecode] at hread
      exact .inr (.inr ⟨_, raw, hread, rfl⟩)

theorem result_load_of_unread {e : FileError} (h : files.read path = .error e) :
    (load readers files path).result = .error (.ofFile e) := by
  unfold load
  rw [h]
  exact Logged.result_bind_of_error _ rfl

theorem result_load_of_notText {bytes : List UInt8} {f : Text.Utf8Fault} (h : files.read path = .ok bytes)
    (hf : Text.decodeUtf8 bytes = .error f) : (load readers files path).result = .error (.notText f) := by
  unfold load
  rw [h, Logged.result_bind_of_ok _ rfl, hf]
  exact Logged.result_bind_of_error _ rfl

theorem result_load_of_text {cs : List Char} (h : TextAt files path cs) :
    (load readers files path).result = programIn readers path cs := by
  obtain ⟨raw, hread, rfl⟩ := h
  have hraw : Text.decodeUtf8 (Text.encodeUtf8 raw) = .ok raw := Text.decodeUtf8_eq_ok_iff.mpr rfl
  unfold load programIn
  rw [hread, Logged.result_bind_of_ok _ rfl, hraw, Logged.result_bind_of_ok _ rfl]
  cases hdecode : decode readers path (Text.unifyLines raw) with
  | error e => exact Logged.result_bind_of_error _ rfl
  | ok d =>
    rw [Logged.result_bind_of_ok _ rfl]
    cases d with
    | object fields =>
      dsimp only
      cases hparse : parse fields with
      | ok p => rfl
      | error f => rfl
    | _ => rfl

end Stages

/-! ## Stray faults -/

/-- A fault of a text that is no fault of a facts document. -/
inductive StrayInText (readers : Readers) (path : Path) (cs : List Char) : LoadFault → Prop
  | longInteger {n : ℕ} (hjson : isYaml path = false)
      (hread : Json.read readers.jsonRoom cs = .error (.longInteger n)) (hn : Text.digitLimit < n)
      (hdigits : Json.HasDigits n cs) : StrayInText readers path cs (.longInteger n)
  | tooDeep {c : Json.Collection} (hjson : isYaml path = false)
      (hread : Json.read readers.jsonRoom cs = .error (.tooDeep c))
      (hroom : readers.jsonRoom < Json.openings cs) : StrayInText readers path cs (.tooDeep c)
  | reader {e : ReaderError} (hyaml : isYaml path = true) (hread : readers.yaml cs = .error (.error e)) :
      StrayInText readers path cs (.reader e)
  | unwritable {fields : Document.Fields} {p : Program} {f : IntegrityFault} {k : ℕ}
      (hyaml : isYaml path = true) (hread : readers.yaml cs = .ok (.object fields))
      (hp : checkProgram fields = .valid p) (hf : integrityFault? p = some f)
      (hw : f.isWritable = false) (hk : Text.isLong k = true)
      (hcarries : (Document.object fields).Carries k) : StrayInText readers path cs .unwritable

/-- A fault of a file that is no fault of a facts document. -/
inductive Stray (readers : Readers) (files : FileTree) (path : Path) : LoadFault → Prop
  | nullInPath (h : Char.ofNat 0 ∈ path.display.toList) : Stray readers files path .nullInPath
  | notText {bytes : List UInt8} {f : Text.Utf8Fault} (hread : files.read path = .ok bytes)
      (hbytes : ∀ cs, Text.encodeUtf8 cs ≠ bytes) (hf : Text.decodeUtf8 bytes = .error f) :
      Stray readers files path (.notText f)
  | text {cs : List Char} {e : LoadFault} (htext : TextAt files path cs)
      (h : StrayInText readers path cs e) : Stray readers files path e

/-- A text spells something that no document is. -/
def Beyond (readers : Readers) (path : Path) (cs : List Char) : Prop :=
  isYaml path = true ∧ readers.yaml cs = .error .beyond ∨
    isYaml path = false ∧ ∃ fields, Json.read readers.jsonRoom cs = .ok ⟨.object fields, false⟩

section Stray
variable {readers : Readers} {path : Path} {cs : List Char} {fields : Document.Fields} {e : LoadFault}

theorem parse_eq_broken {f : IntegrityFault} : parse fields = .error (.broken f) ↔
    ∃ p, checkProgram fields = .valid p ∧ integrityFault? p = some f := by
  cases hcheck : checkProgram fields with
  | valid p =>
    rw [parse_eq_error (shape_eq_ok.mpr hcheck)]
    simp
  | invalid issues =>
    have hparse : parse fields = .error (.invalid issues) := by
      unfold parse shape
      rw [hcheck]
      rfl
    simp [hparse]

theorem stray_parse (h : (parse fields).mapError .ofFacts = .error e) (he : ∀ f, e ≠ .facts f) :
    e = .unwritable ∧ ∃ p f k, checkProgram fields = .valid p ∧ integrityFault? p = some f ∧
      f.isWritable = false ∧ Text.isLong (k : ℕ) = true ∧ (Document.object fields).Carries k := by
  cases hparse : parse fields with
  | ok p =>
    rw [hparse] at h
    cases h
  | error fault =>
    rw [hparse] at h
    obtain rfl : LoadFault.ofFacts fault = e := Except.error.inj h
    revert he
    fun_cases LoadFault.ofFacts fault with
    | case1 f hw => exact fun he => absurd rfl (he _)
    | case2 f hw =>
      intro _
      obtain ⟨p, hp, hf⟩ := parse_eq_broken.mp hparse
      have hw' : f.isWritable = false := by simpa using hw
      obtain ⟨k, hk, hcarries⟩ := (holds_of_integrityFault? hf).carries_of_not_writable hp hw'
      exact ⟨rfl, p, f, k, hp, hf, hw', hk, hcarries⟩
    | case3 f _ => exact fun he => absurd rfl (he _)

theorem StrayInText.programIn_eq (h : StrayInText readers path cs e) :
    programIn readers path cs = .error e := by
  unfold programIn decode
  cases h with
  | longInteger hjson hread hn hdigits =>
    rw [hjson, hread]
    rfl
  | tooDeep hjson hread hroom =>
    rw [hjson, hread]
    rfl
  | reader hyaml hread =>
    rw [hyaml, hread]
    rfl
  | unwritable hyaml hread hp hf hw hk hcarries =>
    have hparse := parse_eq_broken.mpr ⟨_, hp, hf⟩
    rw [hyaml, hread]
    change (parse _).mapError LoadFault.ofFacts = _
    rw [hparse]
    simp [Except.mapError, LoadFault.ofFacts, hw]

theorem StrayInText.ne_facts (h : StrayInText readers path cs e) (f : FactsFault) : e ≠ .facts f := by
  cases h <;> simp

theorem Beyond.programIn_eq (h : Beyond readers path cs) : programIn readers path cs = .error .beyond := by
  unfold programIn decode
  rcases h with ⟨hyaml, hread⟩ | ⟨hjson, fields, hread⟩
  · rw [hyaml, hread]
    rfl
  · rw [hjson, hread]
    rfl

theorem stray_or_beyond_of_yaml (hyaml : isYaml path = true) (h : programIn readers path cs = .error e)
    (he : ∀ f, e ≠ .facts f) : StrayInText readers path cs e ∨ e = .beyond ∧ Beyond readers path cs := by
  unfold programIn decode at h
  rw [if_pos hyaml] at h
  cases hread : readers.yaml cs with
  | ok d =>
    rw [hread] at h
    cases d with
    | object fields =>
      obtain ⟨rfl, p, f, k, hp, hf, hw, hk, hcarries⟩ := stray_parse h he
      exact Or.inl (.unwritable hyaml hread hp hf hw hk hcarries)
    | _ => exact absurd (Except.error.inj h).symm (he _)
  | error fault =>
    rw [hread] at h
    cases fault with
    | refused => exact absurd (Except.error.inj h).symm (he _)
    | error err =>
      obtain rfl : LoadFault.reader err = e := Except.error.inj h
      exact Or.inl (.reader hyaml hread)
    | beyond => exact Or.inr ⟨(Except.error.inj h).symm, Or.inl ⟨hyaml, hread⟩⟩

theorem stray_or_beyond_of_json (hjson : isYaml path = false) (h : programIn readers path cs = .error e)
    (he : ∀ f, e ≠ .facts f) : StrayInText readers path cs e ∨ e = .beyond ∧ Beyond readers path cs := by
  unfold programIn decode at h
  rw [hjson] at h
  rcases Json.read_cases readers.jsonRoom cs with ⟨⟨d, intact⟩, hread, hshort⟩ |
    ⟨reason, position, hread⟩ | ⟨n, hread, hn, hdigits⟩ | ⟨c, hread, hroom⟩
  · rw [hread] at h
    cases d with
    | object fields =>
      cases intact with
      | true =>
        -- an ordinal that cannot be written would be a long integer of the document
        obtain ⟨_, p, f, k, _, _, _, hk, hcarries⟩ := stray_parse h he
        have hnot := hshort k hcarries
        rw [hk] at hnot
        cases hnot
      | false => exact Or.inr ⟨(Except.error.inj h).symm, Or.inr ⟨hjson, fields, hread⟩⟩
    | _ => exact absurd (Except.error.inj h).symm (he _)
  · rw [hread] at h
    exact absurd (Except.error.inj h).symm (he _)
  · rw [hread] at h
    obtain rfl : LoadFault.longInteger n = e := Except.error.inj h
    exact Or.inl (.longInteger hjson hread hn hdigits)
  · rw [hread] at h
    obtain rfl : LoadFault.tooDeep c = e := Except.error.inj h
    exact Or.inl (.tooDeep hjson hread hroom)

variable {files : FileTree}

/-- The failures that are no faults of a facts document are stray, or the text is beyond documents. -/
theorem load_stray_cases (h : (load readers files path).result = .error e) (he : ∀ f, e ≠ .facts f) :
    Stray readers files path e ∨
      e = .beyond ∧ ∃ cs, TextAt files path cs ∧ Beyond readers path cs := by
  rcases read_cases files path with ⟨fault, hread⟩ | ⟨bytes, fault, hread, hbytes, hdecode⟩ | ⟨cs, htext⟩
  · rw [result_load_of_unread hread] at h
    cases fault with
    | nullInPath =>
      cases h
      exact Or.inl (.nullInPath (FileTree.read_eq_nullInPath.mp hread))
    | _ => exact absurd (Except.error.inj h).symm (he _)
  · rw [result_load_of_notText hread hdecode] at h
    cases h
    exact Or.inl (.notText hread hbytes hdecode)
  · rw [result_load_of_text htext] at h
    have hcases : StrayInText readers path cs e ∨ e = .beyond ∧ Beyond readers path cs := by
      cases hyaml : isYaml path with
      | true => exact stray_or_beyond_of_yaml hyaml h he
      | false => exact stray_or_beyond_of_json hyaml h he
    exact hcases.imp (.text htext) fun ⟨hbeyond, hcs⟩ => ⟨hbeyond, cs, htext, hcs⟩

theorem Stray.load_eq (h : Stray readers files path e) :
    (load readers files path).result = .error e ∧ (∀ f, e ≠ .facts f) ∧ e ≠ .beyond := by
  cases h with
  | nullInPath h => exact ⟨result_load_of_unread (FileTree.read_eq_nullInPath.mpr h), by simp, by simp⟩
  | notText hread _ hf => exact ⟨result_load_of_notText hread hf, by simp, by simp⟩
  | text htext h =>
    refine ⟨(result_load_of_text htext).trans h.programIn_eq, h.ne_facts, ?_⟩
    cases h <;> simp

theorem stray_iff : Stray readers files path e ↔
    (load readers files path).result = .error e ∧ (∀ f, e ≠ .facts f) ∧ e ≠ .beyond := by
  constructor
  · exact Stray.load_eq
  · rintro ⟨h, he, hbeyond⟩
    rcases load_stray_cases h he with hstray | ⟨rfl, _⟩
    · exact hstray
    · exact absurd rfl hbeyond

theorem load_eq_beyond : (load readers files path).result = .error .beyond ↔
    ∃ cs, TextAt files path cs ∧ Beyond readers path cs := by
  constructor
  · intro h
    rcases load_stray_cases h (by simp) with hstray | ⟨_, hcs⟩
    · exact absurd rfl hstray.load_eq.2.2
    · exact hcs
  · rintro ⟨cs, htext, hcs⟩
    exact (result_load_of_text htext).trans hcs.programIn_eq

theorem programIn_eq_ok {p : Program} : programIn readers path cs = .ok p ↔
    ∃ fields, decode readers path cs = .ok (.object fields) ∧ checkProgram fields = .valid p ∧ WellFormed p := by
  simp only [wellFormed_iff_sound, ← parse_eq_ok]
  unfold programIn
  split
  next fields hdecode =>
    cases hparse : parse fields <;> simp [hdecode, hparse, Except.mapError]
  next d hobject hdecode =>
    constructor
    · intro h
      cases h
    · rintro ⟨fields, hfields, _⟩
      exact absurd (Except.ok.inj (hdecode.symm.trans hfields)) (hobject fields)
  next e hdecode => simp [hdecode]

theorem load_eq_ok {p : Program} : (load readers files path).result = .ok p ↔
    ∃ cs fields, TextAt files path cs ∧ decode readers path cs = .ok (.object fields) ∧
      checkProgram fields = .valid p ∧ WellFormed p := by
  constructor
  · intro h
    rcases read_cases files path with ⟨fault, hread⟩ | ⟨bytes, fault, hread, _, hdecode⟩ | ⟨cs, htext⟩
    · rw [result_load_of_unread hread] at h
      cases h
    · rw [result_load_of_notText hread hdecode] at h
      cases h
    · rw [result_load_of_text htext] at h
      obtain ⟨fields, hfields⟩ := programIn_eq_ok.mp h
      exact ⟨cs, fields, htext, hfields⟩
  · rintro ⟨cs, fields, htext, hfields⟩
    rw [result_load_of_text htext]
    exact programIn_eq_ok.mpr ⟨fields, hfields⟩

end Stray

/-! ## Sources -/

theorem problem_of_facts (i : CommandLine.Invocation) (hpath : i.facts.display ≠ "") (f : FactsFault)
    (naming : Problem.Naming) :
    ((CommandLine.loadTrouble i (.facts f)).problem naming).code = some "facts.invalid" ∧
      ((CommandLine.loadTrouble i (.facts f)).problem naming).detail = f.message ∧
      ((CommandLine.loadTrouble i (.facts f)).problem naming).extras =
        ([("source", .text i.facts.display)] : Document.Fields) := by
  have hsource : Problem.nonEmpty? (some i.facts.display) = some i.facts.display := by
    simp [Problem.nonEmpty?, Option.filter, hpath]
  refine ⟨rfl, rfl, ?_⟩
  change Problem.sourceExtras (some i.facts.display) = _
  rw [Problem.sourceExtras, hsource]

end Facts

end TypeOrigins
