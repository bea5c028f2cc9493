import Mathlib.Data.List.TakeWhile
import TypeOrigins.KeepList.Descriptor
import TypeOrigins.Proofs.KeepList.Members

/-! # Reading descriptors

A reader of the document that `render` writes. It knows the tags of the format, either quote around
an attribute, and the references for characters; white space between tags does not count, and white
space that stands as such in an attribute is read as a blank. What it reads off a descriptor are the
tags that were written, with their names as they were. -/

namespace TypeOrigins.Descriptor
set_option autoImplicit false

/-! ## Attribute values -/

/-- The references, by name. -/
def referenceTable : List (List Char × Char) :=
  [(['a', 'm', 'p'], '&'), (['l', 't'], '<'), (['g', 't'], '>'), (['q', 'u', 'o', 't'], '"'),
    (['a', 'p', 'o', 's'], '\''), (['#', '1', '0'], '\n'), (['#', '1', '3'], '\r'), (['#', '9'], '\t')]

/-- A character of an attribute value as it is read. -/
def normalChar (c : Char) : Char := if c = '\n' ∨ c = '\r' ∨ c = '\t' then ' ' else c

/-- The value up to the quote that ends it, and what follows. Inside a reference, the part of its
name that was read is kept, the last character first. -/
def readValue (quote : Char) : Option (List Char) → List Char → Option (List Char × List Char)
  | _, [] => none
  | none, c :: rest =>
      if c = quote then some ([], rest)
      else if c = '<' then none
      else if c = '&' then readValue quote (some []) rest
      else (readValue quote none rest).map fun v => (normalChar c :: v.1, v.2)
  | some name, c :: rest =>
      if c = ';' then
        (referenceTable.lookup name.reverse).bind fun d =>
          (readValue quote none rest).map fun v => (d :: v.1, v.2)
      else readValue quote (some (c :: name)) rest

/-- A value between quotes of either kind, and what follows. -/
def readQuoted : List Char → Option (String × List Char)
  | [] => none
  | c :: rest =>
      if c = '"' ∨ c = '\'' then (readValue c none rest).map fun v => (String.ofList v.1, v.2)
      else none

section Values

theorem readValue_escapeChar {quote c : Char} (hq : quote = '"' ∨ quote = '\'') (hc : c ≠ quote)
    (rest : List Char) :
    readValue quote none (escapeChar c ++ rest) =
      (readValue quote none rest).map fun v => (c :: v.1, v.2) := by
  unfold escapeChar
  split
  case h_7 h₁ h₂ h₃ h₄ h₅ h₆ =>
    have h₁' : c ≠ '&' := h₁
    have h₂' : c ≠ '<' := h₂
    have hn : normalChar c = c := by
      unfold normalChar
      rw [if_neg]
      rintro (h | h | h)
      · exact h₄ h
      · exact h₅ h
      · exact h₆ h
    rw [List.singleton_append, readValue, if_neg hc, if_neg h₂', if_neg h₁', hn]
  all_goals
    rcases hq with rfl | rfl
    · rfl
    · rfl

theorem readValue_escapeQuote (c : Char) (rest : List Char) :
    readValue '"' none ((escapeChar c).flatMap escapeQuote ++ rest) =
      (readValue '"' none rest).map fun v => (c :: v.1, v.2) := by
  by_cases hc : c = '"'
  · subst hc
    rfl
  · have hsame : (escapeChar c).flatMap escapeQuote = escapeChar c := by
      unfold escapeChar
      split
      case h_7 =>
        unfold escapeQuote
        rw [List.flatMap_singleton]
        split
        · exact absurd rfl hc
        · rfl
      all_goals rfl
    rw [hsame]
    exact readValue_escapeChar (Or.inl rfl) hc rest

/-- A value is read off if each of its characters is. -/
theorem readValue_flatMap (quote : Char) (write : Char → List Char) (name rest : List Char)
    (h : ∀ c ∈ name, ∀ cs, readValue quote none (write c ++ cs) =
      (readValue quote none cs).map fun v => (c :: v.1, v.2)) :
    readValue quote none (name.flatMap write ++ quote :: rest) = some (name, rest) := by
  induction name with
  | nil => rw [List.flatMap_nil, List.nil_append, readValue, if_pos rfl]
  | cons c more ih =>
    rw [List.flatMap_cons, List.append_assoc, h c List.mem_cons_self,
      ih fun d hd => h d (List.mem_cons_of_mem c hd)]
    rfl

theorem readQuoted_quotedName (name : String) (rest : List Char) :
    readQuoted ((quotedName name).toList ++ rest) = some (name, rest) := by
  -- a quote that the written name does not hold is not in the name either
  have hfree : ∀ quote, (quote = '"' ∨ quote = '\'') →
      (name.toList.flatMap escapeChar).contains quote = false → ∀ c ∈ name.toList, c ≠ quote := by
    rintro quote hq hno c hc rfl
    have hin : c ∈ name.toList.flatMap escapeChar := by
      refine List.mem_flatMap.mpr ⟨c, hc, ?_⟩
      rcases hq with rfl | rfl <;> decide
    rw [← List.contains_iff_mem, hno] at hin
    cases hin
  unfold quotedName
  dsimp only
  split
  · split
    · have hread := readValue_flatMap '"' (fun c => (escapeChar c).flatMap escapeQuote) name.toList rest
        fun c _ => readValue_escapeQuote c
      rw [← List.flatMap_assoc] at hread
      simp [readQuoted, hread, String.toList_ofList]
    · next hno =>
      have hread := readValue_flatMap '\'' escapeChar name.toList rest fun c hc =>
        readValue_escapeChar (Or.inr rfl) (hfree _ (Or.inr rfl) (by simpa using hno) c hc)
      simp [readQuoted, hread, String.toList_ofList]
  · next hno =>
    have hread := readValue_flatMap '"' escapeChar name.toList rest fun c hc =>
      readValue_escapeChar (Or.inl rfl) (hfree _ (Or.inl rfl) (by simpa using hno) c hc)
    simp [readQuoted, hread, String.toList_ofList]

end Values

/-! ## Tags -/

/-- The tags of the format. -/
inductive Tag where
  | declaration
  | linkerStart
  | linkerEnd
  | assemblyStart (name : String)
  | assemblyEnd
  | type (name : String)
deriving DecidableEq, Repr

namespace Tag

/-- How a tag is written. -/
def text : Tag → String
  | declaration => Descriptor.declaration
  | linkerStart => "<linker>"
  | linkerEnd => "</linker>"
  | assemblyStart name => "<assembly fullname=" ++ quotedName name ++ ">"
  | assemblyEnd => "</assembly>"
  | type name => "<type fullname=" ++ quotedName name ++ "/>"

theorem text_assemblyStart (name : String) :
    (assemblyStart name).text = "<assembly fullname=" ++ quotedName name ++ ">" := rfl

theorem text_type (name : String) : (type name).text = "<type fullname=" ++ quotedName name ++ "/>" :=
  rfl

/-- What stands before a tag on its line. -/
def indent : Tag → String
  | assemblyStart _ | assemblyEnd => "  "
  | type _ => "    "
  | _ => ""

/-- A tag without a name. -/
def readPlain (t : Tag) (cs : List Char) : Option (Tag × List Char) :=
  (t.text.toList.isPrefixOf? cs).map fun rest => (t, rest)

/-- A tag with a name between two texts. -/
def readNamed (make : String → Tag) (start finish : String) (cs : List Char) :
    Option (Tag × List Char) :=
  (start.toList.isPrefixOf? cs).bind fun rest => (readQuoted rest).bind fun v =>
    (finish.toList.isPrefixOf? v.2).map fun after => (make v.1, after)

/-- The tag at the front, and what follows it. -/
def read (cs : List Char) : Option (Tag × List Char) :=
  readPlain declaration cs <|> readPlain linkerStart cs <|> readPlain linkerEnd cs <|>
    readPlain assemblyEnd cs <|> readNamed assemblyStart "<assembly fullname=" ">" cs <|>
    readNamed type "<type fullname=" "/>" cs

theorem isPrefixOf?_append (start rest : List Char) : start.isPrefixOf? (start ++ rest) = some rest :=
  List.isPrefixOf?_eq_some_iff_append_eq.mpr rfl

theorem readPlain_text (t : Tag) (rest : List Char) :
    readPlain t (t.text.toList ++ rest) = some (t, rest) := by
  rw [readPlain, isPrefixOf?_append, Option.map_some]

theorem readNamed_quotedName (make : String → Tag) (start finish name : String) (rest : List Char) :
    readNamed make start finish ((start ++ quotedName name ++ finish).toList ++ rest) =
      some (make name, rest) := by
  unfold readNamed
  rw [String.toList_append, String.toList_append, List.append_assoc, List.append_assoc,
    isPrefixOf?_append, Option.bind_some, readQuoted_quotedName, Option.bind_some,
    isPrefixOf?_append, Option.map_some]

theorem toList_text_assemblyStart (name : String) (rest : List Char) : ∃ cs,
    (assemblyStart name).text.toList ++ rest = '<' :: 'a' :: cs := by
  rw [text_assemblyStart, String.toList_append, String.toList_append, List.append_assoc, List.append_assoc]
  exact ⟨_, rfl⟩

theorem toList_text_type (name : String) (rest : List Char) : ∃ cs,
    (type name).text.toList ++ rest = '<' :: 't' :: cs := by
  rw [text_type, String.toList_append, String.toList_append, List.append_assoc, List.append_assoc]
  exact ⟨_, rfl⟩

theorem exists_text_eq_cons (t : Tag) : ∃ cs, t.text.toList = '<' :: cs := by
  cases t with
  | declaration | linkerStart | linkerEnd | assemblyEnd => exact ⟨_, rfl⟩
  | assemblyStart name =>
    obtain ⟨cs, hcs⟩ := toList_text_assemblyStart name []
    exact ⟨_, by rw [← List.append_nil (text _).toList, hcs]⟩
  | type name =>
    obtain ⟨cs, hcs⟩ := toList_text_type name []
    exact ⟨_, by rw [← List.append_nil (text _).toList, hcs]⟩

/-- The texts of any two tags differ in their second or third character, so that only the reader
of a tag takes it. -/
theorem read_text (t : Tag) (rest : List Char) : read (t.text.toList ++ rest) = some (t, rest) := by
  unfold read
  cases t with
  | declaration | linkerStart | linkerEnd | assemblyEnd =>
    rw [readPlain_text]
    rfl
  | assemblyStart name =>
    have hnamed : readNamed assemblyStart "<assembly fullname=" ">" ((assemblyStart name).text.toList ++ rest) =
        some (assemblyStart name, rest) := readNamed_quotedName _ _ _ _ _
    rw [hnamed]
    obtain ⟨cs, hcs⟩ := toList_text_assemblyStart name rest
    rw [hcs]
    rfl
  | type name =>
    have hnamed : readNamed type "<type fullname=" "/>" ((type name).text.toList ++ rest) =
        some (type name, rest) := readNamed_quotedName _ _ _ _ _
    rw [hnamed]
    obtain ⟨cs, hcs⟩ := toList_text_type name rest
    rw [hcs]
    rfl

end Tag

/-! ## Documents -/

/-- The tags of a document, with white space anywhere between them. -/
def readTags (cs : List Char) : Option (List Tag) :=
  match cs.dropWhile Char.isWhitespace with
  | [] => some []
  | c :: rest =>
      (Tag.read (c :: rest)).bind fun t =>
        if _h : t.2.length < cs.length then (readTags t.2).map (t.1 :: ·) else none
termination_by cs.length

theorem readTags_text (blank : List Char) (hb : ∀ c ∈ blank, c.isWhitespace) (t : Tag)
    (rest : List Char) : readTags (blank ++ (t.text.toList ++ rest)) = (readTags rest).map (t :: ·) := by
  obtain ⟨cs, hcs⟩ := t.exists_text_eq_cons
  have hskip : (blank ++ (t.text.toList ++ rest)).dropWhile Char.isWhitespace = t.text.toList ++ rest := by
    rw [List.dropWhile_append_of_pos hb, hcs, List.cons_append, List.dropWhile_cons_of_neg (by decide)]
  have hlen : rest.length < (blank ++ (t.text.toList ++ rest)).length := by
    rw [hcs]
    simp only [List.length_append, List.length_cons]
    omega
  rw [readTags, hskip, hcs, List.cons_append]
  dsimp only
  rw [← List.cons_append, ← hcs, Tag.read_text, Option.bind_some, dif_pos hlen]

/-- A document with one tag on each line. -/
def document (tags : List Tag) : List Char := tags.flatMap fun t => (t.indent ++ t.text ++ "\n").toList

theorem readTags_document (tags : List Tag) : readTags (document tags) = some tags := by
  -- the line feed of the line before counts as white space of the next
  have hfeed : ∀ blank, (∀ c ∈ blank, Char.isWhitespace c) →
      readTags (blank ++ document tags) = some tags := by
    induction tags with
    | nil =>
      intro blank hb
      rw [document, List.flatMap_nil, List.append_nil, readTags, List.dropWhile_eq_nil_iff.mpr hb]
    | cons t rest ih =>
      intro blank hb
      have hindent : ∀ c ∈ blank ++ t.indent.toList, Char.isWhitespace c := by
        intro c hc
        rcases List.mem_append.mp hc with hc | hc
        · exact hb c hc
        · cases t <;> simp_all [Tag.indent]
      have hsplit : blank ++ document (t :: rest) =
          (blank ++ t.indent.toList) ++ (t.text.toList ++ (['\n'] ++ document rest)) := by
        simp [document]
      have hline : ∀ c ∈ ['\n'], Char.isWhitespace c := by
        intro c hc
        rw [List.mem_singleton.mp hc]
        rfl
      rw [hsplit, readTags_text _ hindent, ih ['\n'] hline, Option.map_some]
  exact hfeed [] (by simp)

/-! ## The descriptor of a keep list -/

/-- The tags of one assembly. -/
def assemblyTags (group : String × List String) : List Tag :=
  [.assemblyStart group.1] ++ group.2.map .type ++ [.assemblyEnd]

/-- The tags of a descriptor. -/
def tags (k : KeepList) : List Tag :=
  [.declaration, .linkerStart] ++ k.groups.flatMap assemblyTags ++ [.linkerEnd]

theorem assemblyLines_eq (group : String × List String) :
    assemblyLines group = (assemblyTags group).map fun t => t.indent ++ t.text := by
  have hopen : "  <assembly fullname=" = "  " ++ "<assembly fullname=" := rfl
  have htype : "    <type fullname=" = "    " ++ "<type fullname=" := rfl
  have hclose : "  </assembly>" = "  " ++ "</assembly>" := rfl
  simp only [assemblyLines, assemblyTags, hopen, htype, hclose, List.map_append, List.map_cons,
    List.map_nil, List.map_map, String.append_assoc]
  rfl

theorem lines_eq (k : KeepList) : lines k = (tags k).map fun t => t.indent ++ t.text := by
  simp only [lines, tags, List.map_append, List.map_flatMap, ← assemblyLines_eq]
  rfl

theorem intercalate_append_feed {l : List (List Char)} (h : l ≠ []) :
    ['\n'].intercalate l ++ ['\n'] = l.flatMap fun line => line ++ ['\n'] := by
  induction l with
  | nil => exact absurd rfl h
  | cons line rest ih =>
    cases rest with
    | nil => simp [List.intercalate]
    | cons next more =>
      rw [List.flatMap_cons, ← ih (by simp)]
      simp [List.intercalate]

theorem render_eq_document (k : KeepList) : (render k).toList = document (tags k) := by
  have hfeed : "\n".toList = ['\n'] := rfl
  unfold render document
  rw [String.toList_append, String.toList_intercalate, hfeed, intercalate_append_feed (by simp [lines]),
    lines_eq, List.map_map, List.flatMap_map]
  simp only [Function.comp_apply, String.toList_append, hfeed]

/-! ## Elements -/

/-- The types that tags name, each under the assembly that is open. -/
def typesIn : Option String → List Tag → List TypeReference
  | _, [] => []
  | _, .assemblyStart a :: rest => typesIn (some a) rest
  | _, .assemblyEnd :: rest => typesIn none rest
  | some a, .type t :: rest => ⟨a, t⟩ :: typesIn (some a) rest
  | scope, _ :: rest => typesIn scope rest

/-- The type elements of a document, each with the name of the assembly around it. -/
def typeElements (text : String) : Option (List TypeReference) :=
  (readTags text.toList).map (typesIn none)

theorem typesIn_assemblyTags (group : String × List String) (rest : List Tag) :
    typesIn none (assemblyTags group ++ rest) =
      (group.2.map fun t => ⟨group.1, t⟩) ++ typesIn none rest := by
  have htypes : ∀ names : List String, typesIn (some group.1) (names.map .type ++ (.assemblyEnd :: rest)) =
      (names.map fun t => ⟨group.1, t⟩) ++ typesIn none rest := by
    intro names
    induction names with
    | nil => rfl
    | cons t more ih =>
      rw [List.map_cons, List.map_cons, List.cons_append, List.cons_append, ← ih]
      rfl
  rw [← htypes]
  simp [assemblyTags, typesIn]

theorem typeElements_render (k : KeepList) : typeElements (render k) = some k.references := by
  have hgroups : ∀ groups : List (String × List String),
      typesIn none (groups.flatMap assemblyTags ++ [.linkerEnd]) =
        groups.flatMap fun g => g.2.map fun t => ⟨g.1, t⟩ := by
    intro groups
    induction groups with
    | nil => rfl
    | cons g rest ih =>
      rw [List.flatMap_cons, List.append_assoc, typesIn_assemblyTags, ih, List.flatMap_cons]
  unfold typeElements
  rw [render_eq_document, readTags_document, Option.map_some, ← k.flatMap_groups, ← hgroups]
  rfl

end TypeOrigins.Descriptor
