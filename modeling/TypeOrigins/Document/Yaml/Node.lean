import TypeOrigins.Document.Yaml.Token

/-! # YAML nodes

A list of tokens as a tree of scalars, sequences and mappings, each with its tag. An alias stands
for the node with its anchor. A text holds one document or none. Reading a node leaves fewer tokens,
which the feed that it gives says by its type. -/

namespace TypeOrigins.Yaml
set_option autoImplicit false

/-- A node. -/
inductive Node where
  | scalar (tag : Tag) (text : List Char)
  | sequence (tag : Tag) (items : List Node)
  | mapping (tag : Tag) (pairs : List (Node × Node))

namespace Node

/-- The node of an empty place. -/
def empty : Node := .scalar .null []

end Node

/-- The tokens that are left, the fault at their end, the anchors so far, of which one whose node is
not complete has none, and what the handles of tags stand for. -/
structure Feed where
  tokens : List Token
  ending : Fault
  anchors : List (String × Option Node) := []
  handles : List (String × String) := []

namespace Feed

/-- How many tokens are left. -/
def size (f : Feed) : Nat := f.tokens.length

/-- The feeds with at least `n` tokens less. -/
abbrev After (f : Feed) (n : Nat) := { g : Feed // g.size + n ≤ f.size }

/-- The next token and the feed after it. -/
def split (f : Feed) : Except Fault (Token × f.After 1) :=
  match h : f.tokens with
  | t :: rest => .ok (t, ⟨{ f with tokens := rest }, by simp [size, h]⟩)
  | [] => .error f.ending

/-- The feed after a token that has to be next. -/
def expect (f : Feed) (t : Token) : Except Fault (f.After 1) := do
  let (t', g) ← f.split
  if t' = t then .ok g else .error .malformed

/-- The feed after a comma that has to be next. -/
def comma (f : Feed) : Except Fault (f.After 0) := do
  let ⟨g, hg⟩ ← f.expect .flowEntry
  .ok ⟨g, by omega⟩

/-- The node of an alias. One that stands in its own node is not read. -/
def resolve (f : Feed) (name : String) : Except Fault Node :=
  match f.anchors.lookup name with
  | some (some n) => .ok n
  | some none => .error .beyond
  | none => .error .malformed

/-- The feed with a new anchor. -/
def declare (f : Feed) : Option String → Except Fault (f.After 0)
  | none => .ok ⟨f, Nat.le_refl _⟩
  | some name =>
      if (f.anchors.lookup name).isSome then .error .malformed
      else .ok ⟨{ f with anchors := (name, none) :: f.anchors }, Nat.le_refl _⟩

/-- The feed with the node of an anchor. -/
def complete (f : Feed) (n : Node) : Option String → f.After 0
  | none => ⟨f, Nat.le_refl _⟩
  | some name => ⟨{ f with anchors := (name, some n) :: f.anchors }, Nat.le_refl _⟩

/-- The full name of a tag. -/
def tagName (f : Feed) (handle : Option String) (rest : String) : Except Fault String :=
  match handle with
  | none => .ok rest
  | some h =>
      match f.handles.lookup h with
      | some stem => .ok (stem ++ rest)
      | none => .error .malformed

/-- How many tokens a mark before a node takes. -/
def width (mark : Option String) : Nat := if mark.isSome then 1 else 0

/-- The tag before a node, if one is next. -/
def takeTag (f : Feed) : Except Fault ((tag : Option String) × f.After (width tag)) := do
  let (t, g) ← f.split
  match t with
  | .tag handle rest => do
      let name ← f.tagName handle rest
      .ok ⟨some name, g⟩
  | _ => .ok ⟨none, f, Nat.le_refl _⟩

/-- The anchor before a node, if one is next. -/
def takeAnchor (f : Feed) : Except Fault ((anchor : Option String) × f.After (width anchor)) := do
  let (t, g) ← f.split
  match t with
  | .anchor name => .ok ⟨some name, g⟩
  | _ => .ok ⟨none, f, Nat.le_refl _⟩

/-- The anchor and the tag before a node, and the feed after them. -/
structure Properties (f : Feed) where
  anchor : Option String
  tag : Option String
  rest : f.After (width anchor + width tag)

/-- The anchor and the tag before a node, in either order. -/
def takeProperties (f : Feed) : Except Fault f.Properties := do
  let ⟨anchor, f₁, h₁⟩ ← f.takeAnchor
  let ⟨tag, f₂, h₂⟩ ← f₁.takeTag
  if anchor.isNone && tag.isSome then do
    let ⟨anchor', f₃, h₃⟩ ← f₂.takeAnchor
    .ok ⟨anchor', tag, f₃, by omega⟩
  else .ok ⟨anchor, tag, f₂, by omega⟩

end Feed

/-- The tag of a collection: the given one, unless it leaves the choice open. -/
def collectionTag (given : Option String) (own : Tag) : Tag :=
  match given with
  | none => own
  | some name => if name == "!" then own else Tag.ofName name

/-- The tag of a scalar. A plain scalar without one has the tag of its form. -/
def scalarTag (given : Option String) (plain : Bool) (text : List Char) : Tag :=
  match given with
  | none => if plain then Tag.ofPlain text else .text
  | some name => if name == "!" then Tag.ofPlain text else Tag.ofName name

/-- Whether a token ends an entry of a block mapping. -/
def endsBlockEntry : Token → Bool
  | .key | .value | .blockEnd => true
  | _ => false

/-- Whether a token ends an entry of a flow collection that `closing` ends. -/
def endsFlowEntry (closing t : Token) : Bool := t == .flowEntry || t == closing

mutual

/-- A node. Block collections are taken if `block`, and a sequence that is not indented if
`unindented`. -/
def node (block unindented : Bool) (f : Feed) : Except Fault (Node × f.After 1) := do
  let (t, g) ← f.split
  match t with
  | .alias name => do
      let n ← f.resolve name
      .ok (n, g)
  | _ => do
      let ⟨anchor, tag, f₁, h₁⟩ ← f.takeProperties
      let ⟨f₂, h₂⟩ ← f₁.declare anchor
      let (n, ⟨f₃, h₃⟩) ← content block unindented (Feed.width anchor + Feed.width tag) tag f₂
      let ⟨f₄, h₄⟩ := f₃.complete n anchor
      .ok (n, ⟨f₄, by omega⟩)
termination_by (f.size, 1)
decreasing_by
  rw [Prod.lex_def]
  dsimp only
  omega

/-- A node after the marks before it. One with marks may be empty. -/
def content (block unindented : Bool) (marks : Nat) (tag : Option String) (f : Feed) :
    Except Fault (Node × f.After (1 - marks)) := do
  let (t, ⟨g, hg⟩) ← f.split
  match t with
  | .scalar plain text => .ok (.scalar (scalarTag tag plain text) text, ⟨g, by omega⟩)
  | .flowSequenceStart => do
      let (items, ⟨h, hh⟩) ← flowItems true [] g
      .ok (.sequence (collectionTag tag .sequence) items, ⟨h, by omega⟩)
  | .flowMappingStart => do
      let (pairs, ⟨h, hh⟩) ← flowPairs true [] g
      .ok (.mapping (collectionTag tag .mapping) pairs, ⟨h, by omega⟩)
  | _ =>
      if unindented && t == .blockEntry then do
        let (n, ⟨h, hh⟩) ← blockItem true g
        let (items, ⟨k, hk⟩) ← blockItems true [n] h
        .ok (.sequence (collectionTag tag .sequence) items, ⟨k, by omega⟩)
      else if block && t == .blockSequenceStart then do
        let (items, ⟨h, hh⟩) ← blockItems false [] g
        .ok (.sequence (collectionTag tag .sequence) items, ⟨h, by omega⟩)
      else if block && t == .blockMappingStart then do
        let (pairs, ⟨h, hh⟩) ← blockPairs [] g
        .ok (.mapping (collectionTag tag .mapping) pairs, ⟨h, by omega⟩)
      else if h : 0 < marks then .ok (.scalar (scalarTag tag true []) [], ⟨f, by omega⟩)
      else .error .malformed
termination_by (f.size, 0)

/-- An item of a block sequence, after its mark. -/
def blockItem (unindented : Bool) (f : Feed) : Except Fault (Node × f.After 0) := do
  let (t, _) ← f.split
  if t == .blockEntry || t == .blockEnd || (unindented && endsBlockEntry t) then
    .ok (Node.empty, ⟨f, Nat.le_refl _⟩)
  else do
    let (n, ⟨g, hg⟩) ← node true false f
    .ok (n, ⟨g, by omega⟩)
termination_by (f.size, 2)

/-- The items of a block sequence; `done` holds those before, the last first. One that is not
indented ends with its last item. -/
def blockItems (unindented : Bool) (done : List Node) (f : Feed) :
    Except Fault (List Node × f.After 0) := do
  let (t, ⟨g, hg⟩) ← f.split
  if t == .blockEntry then do
    let (n, ⟨h, hh⟩) ← blockItem unindented g
    let (items, ⟨k, hk⟩) ← blockItems unindented (n :: done) h
    .ok (items, ⟨k, by omega⟩)
  else if unindented then .ok (done.reverse, ⟨f, Nat.le_refl _⟩)
  else if t == .blockEnd then .ok (done.reverse, ⟨g, by omega⟩)
  else .error .malformed
termination_by (f.size, 3)

/-- A part of an entry of a block mapping, after its mark. -/
def blockPart (f : Feed) : Except Fault (Node × f.After 0) := do
  let (t, _) ← f.split
  if endsBlockEntry t then .ok (Node.empty, ⟨f, Nat.le_refl _⟩)
  else do
    let (n, ⟨g, hg⟩) ← node true true f
    .ok (n, ⟨g, by omega⟩)
termination_by (f.size, 2)

/-- The value of an entry of a block mapping, if it has one. -/
def blockValue (f : Feed) : Except Fault (Node × f.After 0) := do
  let (t, ⟨g, hg⟩) ← f.split
  if t == .value then do
    let (v, ⟨h, hh⟩) ← blockPart g
    .ok (v, ⟨h, by omega⟩)
  else .ok (Node.empty, ⟨f, Nat.le_refl _⟩)
termination_by (f.size, 0)

/-- The pairs of a block mapping. -/
def blockPairs (done : List (Node × Node)) (f : Feed) :
    Except Fault (List (Node × Node) × f.After 0) := do
  let (t, ⟨g, hg⟩) ← f.split
  if t == .key then do
    let (k, ⟨f₁, h₁⟩) ← blockPart g
    let (v, ⟨f₂, h₂⟩) ← blockValue f₁
    let (pairs, ⟨f₃, h₃⟩) ← blockPairs ((k, v) :: done) f₂
    .ok (pairs, ⟨f₃, by omega⟩)
  else if t == .blockEnd then .ok (done.reverse, ⟨g, by omega⟩)
  else .error .malformed
termination_by (f.size, 3)

/-- A part of an entry of a flow collection that `closing` ends, after its mark. -/
def flowPart (closing : Token) (key : Bool) (f : Feed) : Except Fault (Node × f.After 0) := do
  let (t, _) ← f.split
  if endsFlowEntry closing t || (key && t == .value) then .ok (Node.empty, ⟨f, Nat.le_refl _⟩)
  else do
    let (n, ⟨g, hg⟩) ← node false false f
    .ok (n, ⟨g, by omega⟩)
termination_by (f.size, 2)

/-- A pair of a flow collection that `closing` ends, after the mark of its key. -/
def flowPair (closing : Token) (f : Feed) : Except Fault ((Node × Node) × f.After 0) := do
  let (k, ⟨f₁, h₁⟩) ← flowPart closing true f
  let (t, ⟨g, hg⟩) ← f₁.split
  if t == .value then do
    let (v, ⟨f₂, h₂⟩) ← flowPart closing false g
    .ok ((k, v), ⟨f₂, by omega⟩)
  else .ok ((k, Node.empty), ⟨f₁, h₁⟩)
termination_by (f.size, 3)

/-- The items of a flow sequence. A pair among them is a mapping of its own. -/
def flowItems (first : Bool) (done : List Node) (f : Feed) :
    Except Fault (List Node × f.After 0) := do
  let (t, ⟨g, hg⟩) ← f.split
  if t == .flowSequenceEnd then .ok (done.reverse, ⟨g, by omega⟩)
  else do
    let ⟨f₁, h₁⟩ ← if first then .ok ⟨f, Nat.le_refl _⟩ else f.comma
    let (t₁, ⟨g₁, hg₁⟩) ← f₁.split
    if t₁ == .flowSequenceEnd then .ok (done.reverse, ⟨g₁, by omega⟩)
    else if t₁ == .key then do
      let (pair, ⟨f₂, h₂⟩) ← flowPair .flowSequenceEnd g₁
      let (items, ⟨f₃, h₃⟩) ← flowItems false (.mapping .mapping [pair] :: done) f₂
      .ok (items, ⟨f₃, by omega⟩)
    else do
      let (n, ⟨f₂, h₂⟩) ← node false false f₁
      let (items, ⟨f₃, h₃⟩) ← flowItems false (n :: done) f₂
      .ok (items, ⟨f₃, by omega⟩)
termination_by (f.size, 4)
decreasing_by
  all_goals
    rw [Prod.lex_def]
    dsimp only
    omega

/-- The pairs of a flow mapping. A key may come without a value. -/
def flowPairs (first : Bool) (done : List (Node × Node)) (f : Feed) :
    Except Fault (List (Node × Node) × f.After 0) := do
  let (t, ⟨g, hg⟩) ← f.split
  if t == .flowMappingEnd then .ok (done.reverse, ⟨g, by omega⟩)
  else do
    let ⟨f₁, h₁⟩ ← if first then .ok ⟨f, Nat.le_refl _⟩ else f.comma
    let (t₁, ⟨g₁, hg₁⟩) ← f₁.split
    if t₁ == .flowMappingEnd then .ok (done.reverse, ⟨g₁, by omega⟩)
    else if t₁ == .key then do
      let (pair, ⟨f₂, h₂⟩) ← flowPair .flowMappingEnd g₁
      let (pairs, ⟨f₃, h₃⟩) ← flowPairs false (pair :: done) f₂
      .ok (pairs, ⟨f₃, by omega⟩)
    else do
      let (k, ⟨f₂, h₂⟩) ← node false false f₁
      let (pairs, ⟨f₃, h₃⟩) ← flowPairs false ((k, Node.empty) :: done) f₂
      .ok (pairs, ⟨f₃, by omega⟩)
termination_by (f.size, 4)
decreasing_by
  all_goals
    rw [Prod.lex_def]
    dsimp only
    omega

end

/-! ## Documents -/

/-- The handles that every document has. -/
def commonHandles : List (String × String) := [("!", "!"), ("!!", tagStem)]

/-- The directives before a document. The version is given once and starts with one; a handle is
given once. -/
def directives (versioned : Bool) (handles : List (String × String)) :
    List Token → Except Fault (List (String × String) × List Token)
  | .directive (.version major) :: rest =>
      if versioned || major != 1 then .error .malformed else directives true handles rest
  | .directive (.handle name stem) :: rest =>
      if (handles.lookup name).isSome then .error .malformed
      else directives versioned ((name, stem) :: handles) rest
  | .directive .other :: rest => directives versioned handles rest
  | tokens => .ok (handles, tokens)

/-- Whether a token is outside all documents. -/
def isOutside : Token → Bool
  | .directive _ | .documentStart | .documentEnd | .streamEnd => true
  | _ => false

/-- The node of the document that is next, after its start line if it has one. -/
def documentNode (f : Feed) : Except Fault (Node × Feed) := do
  let (t, _) ← f.split
  match t with
  | .directive _ | .documentStart => do
      let (handles, tokens) ← directives false [] f.tokens
      let f₀ := { f with tokens := tokens, handles := handles ++ commonHandles }
      let ⟨f₁, _⟩ ← f₀.expect .documentStart
      let (t₁, _) ← f₁.split
      if isOutside t₁ then .ok (Node.empty, f₁)
      else (node true false f₁).map fun (n, g) => (n, g.1)
  | _ => (node true false { f with handles := commonHandles }).map fun (n, g) => (n, g.1)

/-- The place after the end lines of documents. -/
def skipEnds : List Token → List Token
  | .documentEnd :: rest => skipEnds rest
  | tokens => tokens

/-- The node of the one document of a list of tokens, if there is one; `ending` is the fault at the
end of the tokens. -/
def Node.ofTokens? (tokens : List Token) (ending : Fault) : Except Fault (Option Node) :=
  match tokens with
  | [.streamEnd] => .ok none
  | _ => do
      let (n, f) ← documentNode { tokens := tokens, ending := ending }
      let _ ← { f with tokens := skipEnds f.tokens }.expect .streamEnd
      .ok (some n)

end TypeOrigins.Yaml
