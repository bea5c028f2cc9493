import TypeOrigins.Proofs.Analysis.Exactness
import TypeOrigins.Proofs.KeepList.RoundTrip
import TypeOrigins.Proofs.Origin.Declared

/-! # Characters of descriptors

XML leaves out most control characters: they may not stand in a document, not even as references. What
a descriptor adds around its names is legal, and so is every reference in them, but a character that
is not legal is written as it is. A descriptor is therefore legal if and only if all names of its keep
list are. Nothing on the way from the facts to the descriptor refuses such a name. -/

namespace TypeOrigins
set_option autoImplicit false

namespace Descriptor

/-- The characters of XML 1.0. -/
def isXmlChar (c : Char) : Bool :=
  c == '\t' || c == '\n' || c == '\r' || (0x20 ≤ c.toNat && c.toNat ≤ 0xD7FF) ||
    (0xE000 ≤ c.toNat && c.toNat ≤ 0xFFFD) || (0x10000 ≤ c.toNat && c.toNat ≤ 0x10FFFF)

def isLegal (text : String) : Bool := text.toList.all isXmlChar

/-- Reading as a conforming reader does it, which refuses a document with a character that is not
legal. -/
def readStrict (text : String) : Option (List (String × List String)) :=
  if isLegal text then read text else none

theorem isLegal_eq_true {text : String} :
    isLegal text = true ↔ ∀ c, isXmlChar c = false → c ∉ text.toList := by
  rw [isLegal, List.all_eq_true]
  refine forall_congr' fun c => ?_
  cases isXmlChar c <;> simp

/-! ## Names and tags -/

/-- The name that stands in a tag. -/
def Tag.name? : Tag → Option String
  | assemblyStart name | type name => some name
  | _ => none

theorem mem_flatMap_escape {c : Char} {escape : Char → List Char} (h : ∀ d, c ∈ escape d ↔ c = d)
    {cs : List Char} : c ∈ cs.flatMap escape ↔ c ∈ cs := by
  simp only [List.mem_flatMap, h, exists_eq_right']

section Characters
variable {c : Char} (hc : isXmlChar c = false)
include hc

theorem not_mem_of_isLegal {text : String} (h : isLegal text = true) : c ∉ text.toList :=
  isLegal_eq_true.mp h c hc

theorem ne_of_isXmlChar {d : Char} (hd : isXmlChar d = true) : c ≠ d := by
  rintro rfl
  rw [hc] at hd
  cases hd

theorem mem_between {start finish text : String} (hs : isLegal start = true) (hf : isLegal finish = true) :
    c ∈ (start ++ text ++ finish).toList ↔ c ∈ text.toList := by
  simp [not_mem_of_isLegal hc hs, not_mem_of_isLegal hc hf]

theorem mem_escapeChar {d : Char} : c ∈ escapeChar d ↔ c = d := by
  unfold escapeChar
  split
  case h_7 => exact List.mem_singleton
  all_goals exact iff_of_false (not_mem_of_isLegal hc rfl) (ne_of_isXmlChar hc rfl)

theorem mem_escapeQuote {d : Char} : c ∈ escapeQuote d ↔ c = d := by
  unfold escapeQuote
  split
  case h_2 => exact List.mem_singleton
  all_goals exact iff_of_false (not_mem_of_isLegal hc rfl) (ne_of_isXmlChar hc rfl)

theorem mem_quoted {quote : Char} (hquote : isXmlChar quote = true) {cs : List Char} :
    c ∈ (String.ofList (quote :: cs ++ [quote])).toList ↔ c ∈ cs := by
  simp [ne_of_isXmlChar hc hquote]

theorem mem_quotedName {name : String} : c ∈ (quotedName name).toList ↔ c ∈ name.toList := by
  have hbody : c ∈ name.toList.flatMap escapeChar ↔ c ∈ name.toList :=
    mem_flatMap_escape fun _ => mem_escapeChar hc
  unfold quotedName
  dsimp only
  split
  · split
    · rw [mem_quoted hc rfl, mem_flatMap_escape fun _ => mem_escapeQuote hc, hbody]
    · rw [mem_quoted hc rfl, hbody]
  · rw [mem_quoted hc rfl, hbody]

theorem mem_line {t : Tag} : c ∈ (t.indent ++ t.text ++ "\n").toList ↔ ∃ n ∈ t.name?, c ∈ n.toList := by
  cases t with
  | declaration | linkerStart | linkerEnd | assemblyEnd =>
    refine iff_of_false (not_mem_of_isLegal hc rfl) ?_
    rintro ⟨n, hn, _⟩
    cases hn
  | assemblyStart name =>
    rw [Tag.indent, mem_between hc rfl rfl, Tag.text_assemblyStart, mem_between hc rfl rfl, mem_quotedName hc]
    simp [Tag.name?]
  | type name =>
    rw [Tag.indent, mem_between hc rfl rfl, Tag.text_type, mem_between hc rfl rfl, mem_quotedName hc]
    simp [Tag.name?]

theorem mem_document {tags : List Tag} : c ∈ document tags ↔ ∃ t ∈ tags, ∃ n ∈ t.name?, c ∈ n.toList := by
  unfold document
  simp only [List.mem_flatMap, mem_line hc]

end Characters

/-! ## Keep lists -/

theorem filterMap_name?_assemblyTags (g : String × List String) :
    (assemblyTags g).filterMap Tag.name? = g.1 :: g.2 := by
  have htypes : (g.2.map Tag.type).filterMap Tag.name? = g.2 := by
    rw [List.filterMap_map]
    exact List.filterMap_some
  simp [assemblyTags, htypes, Tag.name?]

theorem filterMap_name?_tags (k : KeepList) :
    (tags k).filterMap Tag.name? = k.groups.flatMap fun g => g.1 :: g.2 := by
  have hstart : [Tag.declaration, .linkerStart].filterMap Tag.name? = [] := rfl
  have hend : [Tag.linkerEnd].filterMap Tag.name? = [] := rfl
  unfold tags
  rw [List.filterMap_append, List.filterMap_append, hstart, hend, List.nil_append, List.append_nil,
    List.filterMap_flatMap]
  simp only [filterMap_name?_assemblyTags]

theorem mem_flatMap_groups {k : KeepList} {n : String} :
    (n ∈ k.groups.flatMap fun g => g.1 :: g.2) ↔ ∃ r ∈ k.references, n = r.assembly ∨ n = r.typeName := by
  rw [List.mem_flatMap]
  constructor
  · rintro ⟨g, hg, hn⟩
    obtain ⟨a, ha, rfl⟩ := List.mem_map.mp hg
    rcases List.mem_cons.mp hn with rfl | hn
    · obtain ⟨r, hr, rfl⟩ := KeepList.mem_assembliesOf.mp ha
      exact ⟨r, hr, Or.inl rfl⟩
    · exact ⟨_, KeepList.mem_typesOf.mp hn, Or.inr rfl⟩
  · rintro ⟨r, hr, hn⟩
    have ha : r.assembly ∈ k.assemblies := KeepList.mem_assembliesOf.mpr ⟨r, hr, rfl⟩
    refine ⟨_, List.mem_map_of_mem ha, List.mem_cons.mpr (hn.imp id ?_)⟩
    rintro rfl
    exact KeepList.mem_typesOf.mpr hr

/-- A character that is not legal stands in a descriptor if and only if it stands in a name. -/
theorem mem_render {k : KeepList} {c : Char} (hc : isXmlChar c = false) :
    c ∈ (render k).toList ↔ ∃ r ∈ k.references, c ∈ r.assembly.toList ∨ c ∈ r.typeName.toList := by
  have hnames : c ∈ (render k).toList ↔ ∃ n ∈ (tags k).filterMap Tag.name?, c ∈ n.toList := by
    rw [render_eq_document, mem_document hc]
    simp only [List.mem_filterMap, Option.mem_def]
    constructor
    · rintro ⟨t, ht, n, hn, hin⟩
      exact ⟨n, ⟨t, ht, hn⟩, hin⟩
    · rintro ⟨n, ⟨t, ht, hn⟩, hin⟩
      exact ⟨t, ht, n, hn, hin⟩
  rw [hnames, filterMap_name?_tags]
  simp only [mem_flatMap_groups]
  constructor
  · rintro ⟨n, ⟨r, hr, rfl | rfl⟩, hin⟩
    · exact ⟨r, hr, Or.inl hin⟩
    · exact ⟨r, hr, Or.inr hin⟩
  · rintro ⟨r, hr, hin | hin⟩
    · exact ⟨_, ⟨r, hr, Or.inl rfl⟩, hin⟩
    · exact ⟨_, ⟨r, hr, Or.inr rfl⟩, hin⟩

end Descriptor

/-- Both names of a reference are made of characters of XML. -/
def TypeReference.isLegal (r : TypeReference) : Bool :=
  Descriptor.isLegal r.assembly && Descriptor.isLegal r.typeName

namespace Descriptor

theorem isLegal_render (k : KeepList) : isLegal (render k) = k.references.all TypeReference.isLegal := by
  rw [Bool.eq_iff_iff, isLegal_eq_true, List.all_eq_true]
  simp only [TypeReference.isLegal, Bool.and_eq_true, isLegal_eq_true]
  constructor
  · intro h r hr
    refine ⟨fun c hc hin => h c hc ?_, fun c hc hin => h c hc ?_⟩
    · exact (mem_render hc).mpr ⟨r, hr, Or.inl hin⟩
    · exact (mem_render hc).mpr ⟨r, hr, Or.inr hin⟩
  · intro h c hc hin
    obtain ⟨r, hr, hin | hin⟩ := (mem_render hc).mp hin
    · exact (h r hr).1 c hc hin
    · exact (h r hr).2 c hc hin

theorem readStrict_render (k : KeepList) :
    readStrict (render k) = if k.references.all TypeReference.isLegal then some k.groups else none := by
  rw [readStrict, isLegal_render, read_render]

end Descriptor

/-! ## Where the names come from -/

section Analyses
variable {p : Program} {config : Config} {a : Analysis}

theorem exists_mentions_of_keepList (hp : (p.callSites.map CallSite.id).Nodup)
    (ha : (analyze p config).result = .ok a) {r : TypeReference} (hr : r ∈ a.keepList.references) :
    ∃ owner ts, Facts.Mentions p owner (.named r.typeName r.assembly ts) := by
  obtain ⟨x, hx, hrx⟩ := (mem_keepList_of_analyze ha).mp hr
  obtain ⟨e, he, _, hresolve⟩ := (mem_resolved_of_analyze ha).mp hx
  obtain ⟨y, ts, hs, _⟩ := exists_names_of_resolve hp ((Program.mem_entries hp).mp he).1 hresolve hrx
  obtain ⟨owner, hin⟩ := exists_mentions_of_subjectAt hs
  exact ⟨owner, ts, hin⟩

end Analyses

/-! ## Legal descriptors -/

/-- An illegal character stands in a descriptor exactly if it stands in a name that is kept. So a
strict reader takes the descriptor exactly if all kept names are legal, which is so if all names in the
document are. -/
theorem descriptor_legal_iff_names_legal (fields : Document.Fields) (p : Program) (hp : Facts.parse fields = .ok p)
    (config : Config) (a : Analysis) (ha : (analyze p config).result = .ok a) :
    (∀ c, Descriptor.isXmlChar c = false → (c ∈ a.render.toList ↔
      ∃ r ∈ a.keepList.toList, c ∈ r.assembly.toList ∨ c ∈ r.typeName.toList)) ∧
      Descriptor.isLegal a.render = a.keepList.toList.all TypeReference.isLegal ∧
      (Descriptor.readStrict a.render =
        if a.keepList.toList.all TypeReference.isLegal then some a.keepList.groups else none) ∧
      (∀ r ∈ a.keepList.toList, ∃ owner ts, Facts.Mentions p owner (.named r.typeName r.assembly ts)) ∧
      ((∀ owner (r : TypeReference) ts, Facts.Mentions p owner (.named r.typeName r.assembly ts) →
        r.isLegal = true) → Descriptor.isLegal a.render = true) := by
  have hids := (Facts.parse_eq_ok.mp hp).2.ids.callSites
  have hlegal : Descriptor.isLegal a.render = a.keepList.toList.all TypeReference.isLegal :=
    Descriptor.isLegal_render a.keepList
  refine ⟨fun c hc => Descriptor.mem_render hc, hlegal, Descriptor.readStrict_render a.keepList,
    fun r hr => exists_mentions_of_keepList hids ha hr, fun hall => ?_⟩
  rw [hlegal, List.all_eq_true]
  intro r hr
  obtain ⟨owner, ts, hin⟩ := exists_mentions_of_keepList hids ha hr
  exact hall owner r ts hin

/-! ## One call

A call with the type of any name at all. -/

namespace Facts.OneCall

def named (name : String) : Expression := .typeOf {} (.named name "App" [])

def namedDocument (name : String) : Document :=
  .object [("kind", .text "typeof"), ("type", .object [("kind", .text "named"), ("full_name", .text name),
    ("assembly", .text "App")])]

def found (name : String) : Analysis where
  keepList := .ofList [⟨"App", name⟩]
  entries := [⟨call (named name), Api.activator⟩]
  resolved := [("create", [⟨"App", name⟩])]

theorem parse_named (name : String) : parse (fields (namedDocument name)) = .ok (program (named name)) := by rfl

theorem analyze_named (name : String) : (analyze (program (named name)) {}).result = .ok (found name) := by rfl

/-- No character is refused on the way, and none that is not legal is replaced. -/
theorem mem_render_found {c : Char} (hc : Descriptor.isXmlChar c = false) {name : String} (h : c ∈ name.toList) :
    c ∈ (found name).render.toList ∧ Descriptor.readStrict (found name).render = none := by
  have hin : c ∈ (found name).render.toList :=
    (Descriptor.mem_render hc).mpr ⟨_, List.mem_cons_self, Or.inr h⟩
  exact ⟨hin, if_neg fun hlegal => Descriptor.not_mem_of_isLegal hc hlegal hin⟩

/-- A tab, a line feed and markup, which become references, and a byte order mark, which is legal. -/
def oddName : String := "App.\t<\uFEFFWidget>\n"

/-- A control character, which neither becomes a reference nor is legal. -/
def controlName : String := "App.\u0001Widget"

end Facts.OneCall

open Facts.OneCall in
theorem descriptor_legal_for_oddName :
    Facts.parse (fields (namedDocument oddName)) = .ok (program (named oddName)) ∧
      (analyze (program (named oddName)) {}).result = .ok (found oddName) ∧
      Descriptor.isLegal (found oddName).render = true ∧
      Descriptor.readStrict (found oddName).render = some [("App", [oddName])] := by
  obtain ⟨_, hlegal, hread, _⟩ :=
    descriptor_legal_iff_names_legal _ _ (parse_named oddName) _ _ (analyze_named oddName)
  exact ⟨parse_named _, analyze_named _, hlegal.trans (by decide), hread.trans (by decide)⟩

open Facts.OneCall in
theorem descriptor_not_legal_for_controlName :
    Facts.parse (fields (namedDocument controlName)) = .ok (program (named controlName)) ∧
      (analyze (program (named controlName)) {}).result = .ok (found controlName) ∧
      Descriptor.isXmlChar '\u0001' = false ∧ '\u0001' ∈ (found controlName).render.toList ∧
      Descriptor.readStrict (found controlName).render = none :=
  ⟨parse_named _, analyze_named _, by decide, mem_render_found (by decide) (by decide)⟩

end TypeOrigins
