import TypeOrigins.Document.Basic
import TypeOrigins.Document.Yaml.Node

/-! # YAML

Reading documents written in YAML 1.1. A mapping may take over the pairs of others through the key
`<<`; of equal keys the last counts, in the place of the first. A key that is not a scalar, a tag
that is not known, and a tag of another kind of node are refused.

This stands for a reader of another library, whose text is not part of this development: which
texts are YAML, what they spell and in which order their faults are met is taken from the language
and from how that reader answers. Its answer here is `Fault.beyond` where it gives a value that no
document is, or where it fails for want of room: an alias inside the node that it stands for, a
binary scalar, half of a surrogate pair, and collections nested in more than `nestingLimit` others.
A set, whose items have no order there, lists them as they come. What is proved of the loading of
files is proved for every reader. -/

namespace TypeOrigins.Yaml
set_option autoImplicit false

/-! ## Merged mappings -/

/-- A node in which every mapping has the pairs that it takes over. One that would take over
something else is in conflict. -/
inductive Tree where
  | scalar (tag : Tag) (text : List Char)
  | sequence (tag : Tag) (items : List Tree)
  | mapping (tag : Tag) (pairs : List (Tree × Tree))
  | conflict (tag : Tag)

namespace Tree

/-- Whether a node is the key that takes over the pairs of others. -/
def isMerge : Tree → Bool
  | .scalar .merge _ => true
  | _ => false

/-- A key of a mapping, where the value mark is a plain text. -/
def plainKey : Tree → Tree
  | .scalar .value text => .scalar .text text
  | t => t

/-- The pairs of several mappings, those of the last first. -/
def pairsOfAll : List Tree → Option (List (Tree × Tree))
  | [] => some []
  | .mapping _ pairs :: rest => (pairsOfAll rest).map (· ++ pairs)
  | _ :: _ => none

/-- The pairs to take over: those of a mapping, or of all in a sequence. -/
def taken : Tree → Option (List (Tree × Tree))
  | .mapping _ pairs => some pairs
  | .sequence _ items => pairsOfAll items
  | _ => none

/-- The pairs of a mapping with those it takes over in front; `merged` and `kept` hold those so
far. -/
def merge (merged kept : List (Tree × Tree)) : List (Tree × Tree) → Option (List (Tree × Tree))
  | [] => some (merged ++ kept)
  | (k, v) :: rest =>
      if k.isMerge then (taken v).bind fun more => merge (merged ++ more) kept rest
      else merge merged (kept ++ [(plainKey k, v)]) rest

mutual

/-- A node with the pairs taken over in it. -/
def ofNode : Node → Tree
  | .scalar tag text => .scalar tag text
  | .sequence tag items => .sequence tag (ofNodes items)
  | .mapping tag pairs =>
      match merge [] [] (ofPairs pairs) with
      | some pairs => .mapping tag pairs
      | none => .conflict tag

/-- Nodes with the pairs taken over in them. -/
def ofNodes : List Node → List Tree
  | [] => []
  | n :: rest => ofNode n :: ofNodes rest

/-- Keys and values with the pairs taken over in them. -/
def ofPairs : List (Node × Node) → List (Tree × Tree)
  | [] => []
  | (k, v) :: rest => (ofNode k, ofNode v) :: ofPairs rest

end

/-! ## Faults in their order -/

/-- The one pair of each item of a list of pairs. -/
def itemPairs : List Tree → Except Fault (List (Tree × Tree))
  | [] => .ok []
  | .mapping _ [pair] :: rest => (itemPairs rest).map (pair :: ·)
  | _ :: _ => .error .malformed

/-- What is wrong with a node when its place is reached: a scalar is read, and of a collection the
tag has to be one for collections. -/
def glance : Tree → Option Fault
  | .scalar .sequence _ | .scalar .mapping _ | .scalar .set _ | .scalar .pairs _ => some .malformed
  | .scalar tag text =>
      match Scalar.ofText tag text with
      | .ok _ => none
      | .error f => some f
  | .sequence .sequence _ | .sequence .pairs _ => none
  | .mapping .mapping _ | .mapping .set _ | .conflict .mapping | .conflict .set => none
  | _ => some .malformed

/-- The first fault of nodes in their order. -/
def glanceAll (nodes : List Tree) : Option Fault := nodes.findSome? glance

/-- What is wrong with a key: it has to be a scalar. -/
def glanceKey : Tree → Option Fault
  | .scalar tag text => glance (.scalar tag text)
  | n => some ((glance n).getD .malformed)

/-- The first fault of keys and values in their order. -/
def glancePairs (pairs : List (Tree × Tree)) : Option Fault :=
  pairs.findSome? fun p => (glanceKey p.1).or (glance p.2)

/-- The faults of two nodes level by level, those of the first before those of the second. -/
def sideBySide : List (Option Fault) → List (Option Fault) → List (Option Fault)
  | [], levels => levels
  | levels, [] => levels
  | f :: rest, f' :: rest' => f.or f' :: sideBySide rest rest'

mutual

/-- The first faults inside a node, level by level. -/
def levels : Tree → List (Option Fault)
  | .scalar _ _ => []
  | .sequence .sequence items => glanceAll items :: levelsOfAll items
  | .sequence _ items =>
      match itemPairs items with
      | .ok pairs => glanceAll (pairs.flatMap fun p => [p.1, p.2]) :: levelsOfItems items
      | .error f => [some f]
  | .mapping _ pairs => glancePairs pairs :: levelsOfPairs pairs
  | .conflict _ => [some .malformed]

/-- The first faults inside nodes. -/
def levelsOfAll : List Tree → List (Option Fault)
  | [] => []
  | t :: rest => sideBySide (levels t) (levelsOfAll rest)

/-- The first faults inside the keys and values of a list of pairs. -/
def levelsOfItems : List Tree → List (Option Fault)
  | .mapping _ [(k, v)] :: rest =>
      sideBySide (sideBySide (levels k) (levels v)) (levelsOfItems rest)
  | _ => []

/-- The first faults inside values. -/
def levelsOfPairs : List (Tree × Tree) → List (Option Fault)
  | [] => []
  | (_, v) :: rest => sideBySide (levels v) (levelsOfPairs rest)

end

/-- The first fault of a node: its own, and then those inside it, level by level. -/
def fault? (t : Tree) : Option Fault := t.glance.or (t.levels.findSome? id)

end Tree

/-! ## Documents -/

/-- A scalar as a document. -/
def Scalar.document : Scalar → Document
  | .null => .null
  | .bool b => .bool b
  | .int n => .int n
  | .float x => .float x
  | .text s => .text s
  | .moment _ => .moment

/-- A scalar as a key. -/
def Scalar.key : Scalar → Key
  | .text s => .name s
  | s => .other s.wording

/-- The fields after a key has been given a value: an equal key keeps its place and its wording. -/
def putKey (fields : List (Scalar × Document)) (key : Scalar) (value : Document) :
    List (Scalar × Document) :=
  match fields with
  | [] => [(key, value)]
  | f :: rest =>
      if f.1.sameKey key then (f.1, value) :: rest else f :: putKey rest key value

namespace Tree

mutual

/-- The document of a node. -/
def document : Tree → Except Fault Document
  | .scalar tag text => (Scalar.ofText tag text).map Scalar.document
  | .sequence .sequence items => (documents items).map .list
  | .sequence _ items => (pairDocuments items).map .list
  | .mapping .set pairs =>
      (fields [] pairs).map fun fields => .list (fields.map fun f => f.1.document)
  | .mapping _ pairs =>
      (fields [] pairs).map fun fields => .object (fields.map fun f => (f.1.key, f.2))
  | .conflict _ => .error .malformed

/-- The documents of nodes. -/
def documents : List Tree → Except Fault (List Document)
  | [] => .ok []
  | t :: rest => do
      let d ← document t
      let ds ← documents rest
      .ok (d :: ds)

/-- The documents of a list of pairs. -/
def pairDocuments : List Tree → Except Fault (List Document)
  | [] => .ok []
  | .mapping _ [(k, v)] :: rest => do
      let key ← document k
      let value ← document v
      let ds ← pairDocuments rest
      .ok (.list [key, value] :: ds)
  | _ :: _ => .error .malformed

/-- The fields of pairs; `done` holds those before. -/
def fields (done : List (Scalar × Document)) :
    List (Tree × Tree) → Except Fault (List (Scalar × Document))
  | [] => .ok done
  | (.scalar tag text, v) :: rest => do
      let key ← Scalar.ofText tag text
      let value ← document v
      fields (putKey done key value) rest
  | _ :: _ => .error .malformed

end

end Tree

/-! ## Texts -/

/-- How many collections may be nested in each other. -/
def nestingLimit : Nat := 200

/-- How deep a token changes the nesting of collections. -/
def Token.opens : Token → Int
  | .blockSequenceStart | .blockMappingStart | .flowSequenceStart | .flowMappingStart => 1
  | .blockEnd | .flowSequenceEnd | .flowMappingEnd => -1
  | _ => 0

/-- Whether tokens go deeper than a limit from a depth. -/
def goesDeeper (limit depth : Int) : List Token → Bool
  | [] => false
  | t :: rest => limit < depth + t.opens || goesDeeper limit (depth + t.opens) rest

/-- The document a text spells. An empty text is nothing. -/
def read (cs : List Char) : Except Fault Document := do
  let (tokens, fault) := tokensOf cs
  if goesDeeper nestingLimit 0 tokens then .error .beyond
  else do
    let n ← Node.ofTokens? tokens (fault.getD .malformed)
    match n.map Tree.ofNode with
    | none => .ok .null
    | some t =>
        match t.fault? with
        | some f => .error f
        | none => t.document

end TypeOrigins.Yaml
