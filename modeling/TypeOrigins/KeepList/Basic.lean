import TypeOrigins.Text.Quoted

/-! # Keep lists

The types a linker must keep: a finite set of references, each an assembly and the name of a type in
it. A keep list holds its references in strictly increasing order, so that two keep lists with the
same references are equal. -/

namespace TypeOrigins
set_option autoImplicit false

/-- A type that can be loaded: its assembly and its full name. -/
structure TypeReference where
  assembly : String
  typeName : String
deriving DecidableEq, Repr

namespace TypeReference

/-- The text of a reference. -/
def display (r : TypeReference) : String := "[" ++ r.assembly ++ "]" ++ r.typeName

/-- References in the order of their assemblies, then of their type names, by code point. -/
def Before (r s : TypeReference) : Prop :=
  r.assembly < s.assembly ∨ (r.assembly = s.assembly ∧ r.typeName < s.typeName)

instance (r s : TypeReference) : Decidable (r.Before s) :=
  inferInstanceAs (Decidable (_ ∨ _))

theorem Before.trans {r s t : TypeReference} (h : r.Before s) (h' : s.Before t) : r.Before t := by
  rcases h with h | ⟨ha, hn⟩
  · rcases h' with h' | ⟨ha', _⟩
    · exact Or.inl (String.lt_trans h h')
    · exact Or.inl (ha' ▸ h)
  · rcases h' with h' | ⟨ha', hn'⟩
    · exact Or.inl (ha ▸ h')
    · exact Or.inr ⟨ha.trans ha', String.lt_trans hn hn'⟩

theorem not_before_self (r : TypeReference) : ¬ r.Before r := by
  rintro (h | ⟨_, h⟩)
  · exact String.lt_irrefl _ h
  · exact String.lt_irrefl _ h

/-- Of two different references one comes before the other. -/
theorem before_of_not_before {r s : TypeReference} (hne : r ≠ s) (h : ¬ r.Before s) :
    s.Before r := by
  by_cases ha : r.assembly = s.assembly
  · refine Or.inr ⟨ha.symm, ?_⟩
    by_cases hn : s.typeName < r.typeName
    · exact hn
    · exfalso
      by_cases hn' : r.typeName < s.typeName
      · exact h (Or.inr ⟨ha, hn'⟩)
      · have heq := String.le_antisymm (String.not_lt.mp hn) (String.not_lt.mp hn')
        apply hne
        cases r
        cases s
        simp_all
  · by_cases hlt : s.assembly < r.assembly
    · exact Or.inl hlt
    · exfalso
      by_cases hlt' : r.assembly < s.assembly
      · exact h (Or.inl hlt')
      · exact ha (String.le_antisymm (String.not_lt.mp hlt) (String.not_lt.mp hlt'))

/-- The list with `r` at its place, unless it is there already. -/
def insertInto (r : TypeReference) : List TypeReference → List TypeReference
  | [] => [r]
  | s :: rest =>
      if r = s then s :: rest
      else if r.Before s then r :: s :: rest
      else s :: insertInto r rest

theorem mem_insertInto (r t : TypeReference) (l : List TypeReference) :
    t ∈ insertInto r l ↔ t = r ∨ t ∈ l := by
  induction l with
  | nil => simp [insertInto]
  | cons s rest ih =>
      unfold insertInto
      split
      · next h => subst h; simp
      · split
        · simp
        · simp only [List.mem_cons, ih]
          constructor
          · rintro (h | h | h)
            · exact Or.inr (Or.inl h)
            · exact Or.inl h
            · exact Or.inr (Or.inr h)
          · rintro (h | h | h)
            · exact Or.inr (Or.inl h)
            · exact Or.inl h
            · exact Or.inr (Or.inr h)

theorem pairwise_insertInto (r : TypeReference) (l : List TypeReference)
    (h : l.Pairwise Before) : (insertInto r l).Pairwise Before := by
  induction l with
  | nil => simp [insertInto]
  | cons s rest ih =>
      rw [List.pairwise_cons] at h
      unfold insertInto
      split
      · exact List.pairwise_cons.mpr h
      · next hne =>
        split
        · next hlt =>
          refine List.pairwise_cons.mpr ⟨?_, List.pairwise_cons.mpr h⟩
          intro t ht
          rcases List.mem_cons.mp ht with rfl | ht'
          · exact hlt
          · exact hlt.trans (h.1 t ht')
        · next hnlt =>
          refine List.pairwise_cons.mpr ⟨?_, ih h.2⟩
          intro t ht
          rcases (mem_insertInto r t rest).mp ht with rfl | ht'
          · exact before_of_not_before hne hnlt
          · exact h.1 t ht'

end TypeReference

/-- A set of references. -/
structure KeepList where
  references : List TypeReference
  increasing : references.Pairwise TypeReference.Before

namespace KeepList

/-- The keep list without references. -/
def empty : KeepList := ⟨[], List.Pairwise.nil⟩

instance : Inhabited KeepList := ⟨empty⟩

instance : DecidableEq KeepList := fun k l =>
  if h : k.references = l.references then isTrue (by cases k; cases l; simp_all)
  else isFalse (by intro e; exact h (by rw [e]))

/-- The keep list with one more reference. -/
def insert (k : KeepList) (r : TypeReference) : KeepList :=
  ⟨r.insertInto k.references, TypeReference.pairwise_insertInto r k.references k.increasing⟩

/-- The keep list with more references. -/
def insertAll (k : KeepList) (refs : List TypeReference) : KeepList :=
  refs.foldl insert k

/-- The keep list of some references. -/
def ofList (refs : List TypeReference) : KeepList := empty.insertAll refs

/-- The keep list with the references of another. -/
def merge (k l : KeepList) : KeepList := k.insertAll l.references

/-- The references, in increasing order. -/
def toList (k : KeepList) : List TypeReference := k.references

/-- How many references there are. -/
def size (k : KeepList) : Nat := k.references.length

/-- Whether a reference is in the keep list. -/
def contains (k : KeepList) (r : TypeReference) : Bool := k.references.contains r

/-- The assemblies of references in which those of one assembly stand together, each once. -/
def assembliesOf : List TypeReference → List String
  | [] => []
  | r :: rest =>
      match rest with
      | [] => [r.assembly]
      | s :: _ =>
          if r.assembly = s.assembly then assembliesOf rest
          else r.assembly :: assembliesOf rest

/-- The assemblies, in increasing order. -/
def assemblies (k : KeepList) : List String := assembliesOf k.references

/-- The type names kept of an assembly, in increasing order. -/
def typesOf (k : KeepList) (assembly : String) : List String :=
  (k.references.filter fun r => r.assembly == assembly).map (·.typeName)

/-- The assemblies with their type names. -/
def groups (k : KeepList) : List (String × List String) :=
  k.assemblies.map fun a => (a, k.typesOf a)

/-- The keep list as text. -/
def display (k : KeepList) : String :=
  let group (g : String × List String) : String :=
    Text.quoted g.1 ++ ": [" ++ ", ".intercalate (g.2.map Text.quoted) ++ "]"
  "KeepList(\x7b" ++ ", ".intercalate (k.groups.map group) ++ "\x7d)"

end KeepList

end TypeOrigins
