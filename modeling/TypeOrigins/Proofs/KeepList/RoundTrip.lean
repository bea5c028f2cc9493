import TypeOrigins.Proofs.KeepList.Reading

/-! # Descriptors and keep lists

Reading undoes writing: the assemblies and types that a reader finds in a descriptor are those of the
keep list, in increasing order, whatever characters their names hold. So keep lists with one
descriptor are equal. A written name holds none of the characters that end an attribute, a tag or a
line, hence a descriptor has as many tags and lines as the keep list asks for. -/

namespace TypeOrigins
set_option autoImplicit false

/-! ## Groups of a keep list -/

namespace KeepList
variable {k : KeepList} {a : String}

theorem mem_typesOf {t : String} : t ∈ k.typesOf a ↔ ⟨a, t⟩ ∈ k.references := by
  unfold typesOf
  rw [List.mem_map]
  constructor
  · rintro ⟨r, hr, rfl⟩
    obtain ⟨hin, ha⟩ := List.mem_filter.mp hr
    have ha' : r.assembly = a := by simpa using ha
    subst ha'
    exact hin
  · intro h
    exact ⟨⟨a, t⟩, List.mem_filter.mpr ⟨h, by simp⟩, rfl⟩

theorem mem_iff_typesOf {t : String} : ⟨a, t⟩ ∈ k.references ↔ a ∈ k.assemblies ∧ t ∈ k.typesOf a := by
  rw [mem_typesOf]
  constructor
  · exact fun h => ⟨mem_assembliesOf.mpr ⟨_, h, rfl⟩, h⟩
  · exact fun h => h.2

theorem typesOf_ne_nil (h : a ∈ k.assemblies) : k.typesOf a ≠ [] := by
  obtain ⟨r, hr, rfl⟩ := mem_assembliesOf.mp h
  exact List.ne_nil_of_mem (mem_typesOf.mpr hr)

theorem pairwise_typesOf (k : KeepList) (a : String) : (k.typesOf a).Pairwise (· < ·) := by
  unfold typesOf
  rw [List.pairwise_map]
  refine (k.increasing.filter _).imp_of_mem ?_
  intro r s hr hs hrs
  have hra : r.assembly = a := by simpa using (List.mem_filter.mp hr).2
  have hsa : s.assembly = a := by simpa using (List.mem_filter.mp hs).2
  rcases hrs with hlt | ⟨_, hlt⟩
  · rw [hra, hsa] at hlt
    exact absurd hlt (String.lt_irrefl a)
  · exact hlt

theorem eq_of_groups {l : KeepList} (h : k.groups = l.groups) : k = l := by
  have href : k.references = l.references := by rw [← k.flatMap_groups, h, l.flatMap_groups]
  cases k
  cases l
  cases href
  rfl

end KeepList

namespace Descriptor

/-! ## Reading a whole descriptor -/

/-- The assemblies that the tags of a root name, with their types, up to its end. The assembly that
is open is kept with the types read so far. -/
def readAssemblies : Option (String × List String) → List Tag → Option (List (String × List String))
  | none, [.linkerEnd] => some []
  | none, .assemblyStart a :: rest => readAssemblies (some (a, [])) rest
  | some (a, types), .type t :: rest => readAssemblies (some (a, types ++ [t])) rest
  | some group, .assemblyEnd :: rest => (readAssemblies none rest).map (group :: ·)
  | _, _ => none

/-- The assemblies of a document with their types, in the order in which they stand. -/
def read (text : String) : Option (List (String × List String)) :=
  match readTags text.toList with
  | some (.declaration :: .linkerStart :: rest) => readAssemblies none rest
  | some (.linkerStart :: rest) => readAssemblies none rest
  | _ => none

theorem readAssemblies_types (a : String) (before types : List String) (rest : List Tag) :
    readAssemblies (some (a, before)) (types.map .type ++ .assemblyEnd :: rest) =
      (readAssemblies none rest).map ((a, before ++ types) :: ·) := by
  induction types generalizing before with
  | nil => rw [List.append_nil, List.map_nil, List.nil_append, readAssemblies]
  | cons t more ih =>
    rw [List.map_cons, List.cons_append, readAssemblies, ih, List.append_assoc, List.singleton_append]

theorem readAssemblies_groups (groups : List (String × List String)) :
    readAssemblies none (groups.flatMap assemblyTags ++ [.linkerEnd]) = some groups := by
  induction groups with
  | nil => rfl
  | cons g rest ih =>
    have hsplit : (g :: rest).flatMap assemblyTags ++ [.linkerEnd] =
        .assemblyStart g.1 :: (g.2.map .type ++ .assemblyEnd :: (rest.flatMap assemblyTags ++ [.linkerEnd])) := by
      simp [assemblyTags]
    rw [hsplit, readAssemblies, readAssemblies_types, ih]
    rfl

theorem read_render (k : KeepList) : read (render k) = some k.groups := by
  unfold read
  rw [render_eq_document, readTags_document]
  exact readAssemblies_groups k.groups

theorem render_inj {k l : KeepList} : render k = render l ↔ k = l := by
  constructor
  · intro h
    have hread := read_render k
    rw [h, read_render l, Option.some.injEq] at hread
    exact KeepList.eq_of_groups hread.symm
  · intro h
    rw [h]

/-! ## Written names -/

/-- The characters that make tags and lines. -/
def isMarkup (c : Char) : Bool := c == '<' || c == '>' || c == '\n' || c == '\r' || c == '\t'

theorem all_escapeChar (c : Char) : ((escapeChar c).all fun d => !isMarkup d) = true := by
  unfold escapeChar
  split
  case h_7 _ h₂ h₃ h₄ h₅ h₆ => simpa [isMarkup] using ⟨⟨⟨⟨h₂, h₃⟩, h₄⟩, h₅⟩, h₆⟩
  all_goals rfl

theorem all_escapeQuote {c : Char} (h : isMarkup c = false) :
    ((escapeQuote c).all fun d => d != '"' && !isMarkup d) = true := by
  unfold escapeQuote
  split
  case h_2 hq => simpa [h] using hq
  all_goals rfl

/-- A written name is a text between quotes that holds neither the quote nor a character of tags and
lines. -/
theorem exists_quotedName (name : String) : ∃ quote body,
    (quotedName name).toList = quote :: (body ++ [quote]) ∧ (quote = '"' ∨ quote = '\'') ∧
      ∀ c ∈ body, c ≠ quote ∧ isMarkup c = false := by
  have hbody : ∀ c ∈ name.toList.flatMap escapeChar, isMarkup c = false := by
    intro c hc
    obtain ⟨d, _, hd⟩ := List.mem_flatMap.mp hc
    simpa using List.all_eq_true.mp (all_escapeChar d) c hd
  have hfree : ∀ quote, (name.toList.flatMap escapeChar).contains quote = false →
      ∀ c ∈ name.toList.flatMap escapeChar, c ≠ quote ∧ isMarkup c = false := by
    rintro quote hno c hc
    refine ⟨?_, hbody c hc⟩
    rintro rfl
    rw [← List.contains_iff_mem, hno] at hc
    cases hc
  unfold quotedName
  dsimp only
  split
  · split
    · refine ⟨'"', _, String.toList_ofList, Or.inl rfl, ?_⟩
      intro c hc
      obtain ⟨d, hd, hcd⟩ := List.mem_flatMap.mp hc
      simpa using List.all_eq_true.mp (all_escapeQuote (hbody d hd)) c hcd
    · next hno =>
      exact ⟨'\'', _, String.toList_ofList, Or.inr rfl, hfree _ (by simpa using hno)⟩
  · next hno =>
    exact ⟨'"', _, String.toList_ofList, Or.inl rfl, hfree _ (by simpa using hno)⟩

theorem count_quotedName (name : String) {c : Char} (hc : isMarkup c = true) :
    (quotedName name).toList.count c = 0 := by
  obtain ⟨quote, body, htext, hquote, hbody⟩ := exists_quotedName name
  have hne : c ≠ quote := by
    rintro rfl
    rcases hquote with rfl | rfl <;> cases hc
  have hnot : c ∉ body := by
    intro hin
    rw [(hbody c hin).2] at hc
    cases hc
  rw [htext, List.count_eq_zero]
  simp [hne, hnot]

/-! ## Tags and lines -/

theorem isMarkup_cases {c : Char} (h : isMarkup c = true) :
    c = '<' ∨ c = '>' ∨ c = '\n' ∨ c = '\r' ∨ c = '\t' := by
  simpa [isMarkup, or_assoc] using h

/-- A tag on its line has one bracket of either kind, and the line ends once. -/
theorem count_line (t : Tag) {c : Char} (hc : isMarkup c = true) :
    (t.indent ++ t.text ++ "\n").toList.count c = ['<', '>', '\n'].count c := by
  cases t with
  | declaration | linkerStart | linkerEnd | assemblyEnd =>
    rcases isMarkup_cases hc with rfl | rfl | rfl | rfl | rfl <;> rfl
  | assemblyStart name =>
    rw [Tag.text_assemblyStart, Tag.indent]
    simp only [String.toList_append, List.count_append, count_quotedName name hc]
    rcases isMarkup_cases hc with rfl | rfl | rfl | rfl | rfl <;> rfl
  | type name =>
    rw [Tag.text_type, Tag.indent]
    simp only [String.toList_append, List.count_append, count_quotedName name hc]
    rcases isMarkup_cases hc with rfl | rfl | rfl | rfl | rfl <;> rfl

theorem count_document (tags : List Tag) {c : Char} (hc : isMarkup c = true) :
    (document tags).count c = tags.length * ['<', '>', '\n'].count c := by
  unfold document
  induction tags with
  | nil => rw [List.flatMap_nil, List.count_nil, List.length_nil, Nat.zero_mul]
  | cons t rest ih =>
    rw [List.flatMap_cons, List.count_append, count_line t hc, ih, List.length_cons, Nat.succ_mul, Nat.add_comm]

theorem length_tags (k : KeepList) : (tags k).length = 3 + 2 * k.assemblies.length + k.size := by
  have hgroups : ∀ groups : List (String × List String), (groups.flatMap assemblyTags).length =
      2 * groups.length + (groups.flatMap fun g => g.2.map fun t => (⟨g.1, t⟩ : TypeReference)).length := by
    intro groups
    induction groups with
    | nil => rfl
    | cons g rest ih =>
      simp only [List.flatMap_cons, List.length_append, List.length_map, List.length_cons, ih, assemblyTags,
        List.length_nil]
      omega
  have hlen : k.groups.length = k.assemblies.length := List.length_map _
  unfold tags KeepList.size
  simp only [List.length_append, hgroups, k.flatMap_groups, hlen, List.length_cons, List.length_nil]
  omega

theorem count_render (k : KeepList) {c : Char} (hc : isMarkup c = true) :
    (render k).toList.count c =
      (3 + 2 * k.assemblies.length + k.size) * ['<', '>', '\n'].count c := by
  rw [render_eq_document, count_document _ hc, length_tags]

/-! ## The round trip -/

/-- Reading a descriptor gives back the keep list that it was rendered from, assembly by assembly and
type by type in order. The names in it are quoted so that no character of markup comes from them. -/
theorem read_undoes_render (k : KeepList) :
    read (render k) = some (k.assemblies.map fun a => (a, k.typesOf a)) ∧
      k.assemblies.Pairwise (· < ·) ∧
      (∀ a ∈ k.assemblies, k.typesOf a ≠ [] ∧ (k.typesOf a).Pairwise (· < ·)) ∧
      (∀ a t, ⟨a, t⟩ ∈ k.toList ↔ a ∈ k.assemblies ∧ t ∈ k.typesOf a) ∧
      (∀ l, render k = render l ↔ k = l) ∧
      (∀ name, ∃ quote body, (quotedName name).toList = quote :: (body ++ [quote]) ∧
        (quote = '"' ∨ quote = '\'') ∧ ∀ c ∈ body, c ≠ quote ∧ isMarkup c = false) ∧
      ∀ c, isMarkup c = true → (render k).toList.count c =
        (3 + 2 * k.assemblies.length + k.size) * ['<', '>', '\n'].count c := by
  refine ⟨read_render k, KeepList.pairwise_assembliesOf k.increasing, ?_, ?_, ?_, exists_quotedName, ?_⟩
  · exact fun a ha => ⟨KeepList.typesOf_ne_nil ha, k.pairwise_typesOf a⟩
  · exact fun a t => KeepList.mem_iff_typesOf
  · exact fun l => render_inj
  · exact fun c hc => count_render k hc

/-- Names with quotes of both kinds, with markup, with line breaks, and with what looks like
references. -/
def oddNames : KeepList :=
  .ofList [⟨"a'b", "\"'&quot;"⟩, ⟨"<App>", "T"⟩, ⟨"<App>", "&amp;\"/>\n"⟩, ⟨"<App>", "\r&#13;\t"⟩]

theorem read_undoes_render_oddNames :
    read (render oddNames) =
        some [("<App>", ["\r&#13;\t", "&amp;\"/>\n", "T"]), ("a'b", ["\"'&quot;"])] ∧
      "<App>" ∈ oddNames.assemblies ∧ (oddNames.typesOf "<App>").Pairwise (· < ·) ∧
      (render oddNames).toList.count '<' = 11 ∧ (render oddNames).toList.count '\r' = 0 := by
  obtain ⟨hread, _, htypes, _, _, _, hcount⟩ := read_undoes_render oddNames
  have hgroups : (oddNames.assemblies.map fun a => (a, oddNames.typesOf a)) =
      [("<App>", ["\r&#13;\t", "&amp;\"/>\n", "T"]), ("a'b", ["\"'&quot;"])] := by decide
  have hin : "<App>" ∈ oddNames.assemblies := by decide
  refine ⟨hread.trans (congrArg some hgroups), hin, (htypes _ hin).2, ?_, ?_⟩
  · exact hcount '<' rfl
  · exact hcount '\r' rfl

end Descriptor

end TypeOrigins
