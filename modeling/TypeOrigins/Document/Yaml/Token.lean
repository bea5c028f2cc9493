import TypeOrigins.Document.Yaml.Scalar
import TypeOrigins.Text.Utf8

/-! # YAML tokens

A text as a list of tokens. Indentation becomes tokens that open and close block collections, and a
colon makes a key of what stands before it on its line, if that is not longer than
`keyLimit` characters. Scanning goes on to the end of the text or to the first fault. -/

namespace TypeOrigins.Yaml
set_option autoImplicit false

open Text

/-! ## Tokens -/

/-- A directive: the version of the language, a handle for tags, or another one. -/
inductive Directive where
  | version (major : Nat)
  | handle (name stem : String)
  | other
deriving DecidableEq, Repr

/-- A token. A tag has a handle, or it is written out in full. -/
inductive Token where
  | streamEnd
  | directive (d : Directive)
  | documentStart
  | documentEnd
  | blockSequenceStart
  | blockMappingStart
  | blockEnd
  | flowSequenceStart
  | flowSequenceEnd
  | flowMappingStart
  | flowMappingEnd
  | flowEntry
  | blockEntry
  | key
  | value
  | alias (name : String)
  | anchor (name : String)
  | tag (handle : Option String) (rest : String)
  | scalar (plain : Bool) (text : List Char)
deriving DecidableEq, Repr

/-! ## Places -/

/-- A place in a text: the characters ahead, how many are behind, the line and the column. -/
structure Cursor where
  rest : List Char
  index : Nat := 0
  line : Nat := 0
  column : Nat := 0
deriving DecidableEq, Repr

/-- Whether a character ends a line. -/
def isBreak (c : Char) : Bool :=
  c == '\n' || c == '\u0085' || c == '\u2028' || c == '\u2029'

/-- Whether a character is a space, a tab, or the end of a line. -/
def isGap (c : Char) : Bool := isSpaceOrTab c || isBreak c

/-- Whether a text is at its end or at a character of a class. -/
def endsAt (p : Char → Bool) : List Char → Bool
  | [] => true
  | c :: _ => p c

/-- The line end that a character stands for. -/
def breakChar (c : Char) : Char := if c == '\u0085' then '\n' else c

namespace Cursor

/-- The place after one character. A byte order mark has no width. -/
def next (c : Cursor) : Cursor :=
  match c.rest with
  | [] => c
  | ch :: rest =>
      if isBreak ch then ⟨rest, c.index + 1, c.line + 1, 0⟩
      else if ch == '\ufeff' then ⟨rest, c.index + 1, c.line, c.column⟩
      else ⟨rest, c.index + 1, c.line, c.column + 1⟩

/-- The place after some characters. -/
def skip : (n : Nat) → Cursor → Cursor
  | 0, c => c
  | n + 1, c => skip n c.next

/-- The place after the characters of a class. -/
def skipWhile (p : Char → Bool) (c : Cursor) : Cursor := c.skip (c.rest.takeWhile p).length

/-- Whether a line starts here that divides documents. -/
def atMarker (c : Cursor) : Bool :=
  match c.rest with
  | '-' :: '-' :: '-' :: rest => endsAt isGap rest
  | '.' :: '.' :: '.' :: rest => endsAt isGap rest
  | _ => false

end Cursor

/-! ## Quoted scalars -/

/-- The line ends ahead, with the spaces and tabs before, between and after them dropped. No line
may divide documents. The fuel bounds the characters ahead. -/
def gapLines : (fuel : Nat) → Cursor → Except Fault (List Char × Cursor)
  | 0, _ => .error .malformed
  | fuel + 1, c =>
      if c.atMarker then .error .malformed
      else
        let c₁ := c.skipWhile isSpaceOrTab
        match c₁.rest with
        | ch :: _ =>
            if isBreak ch then do
              let (breaks, c₂) ← gapLines fuel c₁.next
              .ok (breakChar ch :: breaks, c₂)
            else .ok ([], c₁)
        | [] => .ok ([], c₁)

/-- A line end and the further ones after it, folded: a single one becomes a space, and of several
the first is dropped. A line or paragraph separator is kept. -/
def foldLines (first : Char) (more : List Char) : List Char :=
  if first != '\n' then first :: more
  else if more.isEmpty then [' ']
  else more

/-- The character of an escape that is one letter. -/
def letterEscape? : Char → Option Char
  | '0' => some (Char.ofNat 0)
  | 'a' => some (Char.ofNat 7)
  | 'b' => some (Char.ofNat 8)
  | 't' => some '\t'
  | '\t' => some '\t'
  | 'n' => some '\n'
  | 'v' => some (Char.ofNat 11)
  | 'f' => some (Char.ofNat 12)
  | 'r' => some '\r'
  | 'e' => some (Char.ofNat 27)
  | ' ' => some ' '
  | '"' => some '"'
  | '\\' => some '\\'
  | '/' => some '/'
  | 'N' => some '\u0085'
  | '_' => some '\u00a0'
  | 'L' => some '\u2028'
  | 'P' => some '\u2029'
  | _ => none

/-- How many hexadecimal digits an escape takes. -/
def escapeWidth? : Char → Option Nat
  | 'x' => some 2
  | 'u' => some 4
  | 'U' => some 8
  | _ => none

/-- The character with a code point. Half of a surrogate pair is not read. -/
def charOf (n : Nat) : Except Fault Char :=
  if n < 0x110000 then
    if 0xd800 ≤ n && n ≤ 0xdfff then .error .beyond else .ok (Char.ofNat n)
  else if n < 0x80000000 then .error (.scalar .codePoint)
  else .error (.scalar .hugeCodePoint)

/-- What the escape after a backslash stands for, and the place after it. -/
def escape (c : Cursor) : Except Fault (List Char × Cursor) :=
  match c.rest with
  | [] => .error .malformed
  | e :: rest =>
      match letterEscape? e, escapeWidth? e with
      | some ch, _ => .ok ([ch], c.next)
      | none, some width => do
          let ds := rest.take width
          if ds.length != width || !ds.all (fun d => (hexDigit? d).isSome) then .error .malformed
          else do
            let ch ← charOf (ofBase 16 ds)
            .ok ([ch], c.skip (width + 1))
      | none, none =>
          if isBreak e then gapLines (rest.length + 1) c.next else .error .malformed

/-- A scalar between quotes, after the first; `done` holds its characters so far, the last first. -/
def quotedText (double : Bool) : (fuel : Nat) → (done : List Char) → Cursor →
    Except Fault (List Char × Cursor)
  | 0, _, _ => .error .malformed
  | fuel + 1, done, c =>
      match c.rest with
      | [] => .error .malformed
      | ch :: rest =>
          if double && ch == '"' then .ok (done.reverse, c.next)
          else if double && ch == '\\' then do
            let (chars, c₁) ← escape c.next
            quotedText double fuel (chars.reverse ++ done) c₁
          else if !double && ch == '\'' then
            match rest with
            | '\'' :: _ => quotedText double fuel ('\'' :: done) (c.skip 2)
            | _ => .ok (done.reverse, c.next)
          else if isGap ch then
            let spaces := c.rest.takeWhile isSpaceOrTab
            let c₁ := c.skip spaces.length
            match c₁.rest with
            | [] => .error .malformed
            | b :: _ =>
                if isBreak b then do
                  let (more, c₂) ← gapLines (c₁.rest.length + 1) c₁.next
                  quotedText double fuel ((foldLines (breakChar b) more).reverse ++ done) c₂
                else quotedText double fuel (spaces.reverse ++ done) c₁
          else quotedText double fuel (ch :: done) c.next

/-! ## Plain scalars -/

/-- The characters that have a meaning in flow collections. -/
def isFlowMark (c : Char) : Bool := c == ',' || c == '[' || c == ']' || c == '{' || c == '}'

/-- Whether a plain scalar cannot go on with the characters ahead. -/
def plainEnds (flow : Bool) : List Char → Bool
  | [] => true
  | c :: rest =>
      isGap c || (c == ':' && endsAt (fun d => isGap d || (flow && isFlowMark d)) rest) ||
        (flow && (c == '?' || isFlowMark c))

/-- The characters of a plain scalar up to the next space. -/
def plainRun (flow : Bool) : List Char → List Char
  | [] => []
  | c :: rest => if plainEnds flow (c :: rest) then [] else c :: plainRun flow rest

/-- Whether a plain scalar can start here. -/
def plainStarts (flow : Bool) : List Char → Bool
  | [] => false
  | c :: rest =>
      if "-?:,[]\x7b\x7d#&*!|>'\"%@\x60".toList.contains c || isGap c then
        !endsAt isGap rest && (c == '-' || (!flow && (c == '?' || c == ':')))
      else true

/-- The line ends and spaces inside a plain scalar after the first line end: the line ends, and the
place after them, or nothing at a line that divides documents. -/
def plainLines : (fuel : Nat) → Cursor → Option (List Char) × Cursor
  | 0, c => (none, c)
  | fuel + 1, c =>
      if c.atMarker then (none, c)
      else
        let c₁ := c.skipWhile (· == ' ')
        match c₁.rest with
        | ch :: _ =>
            if isBreak ch then
              let (breaks, c₂) := plainLines fuel c₁.next
              (breaks.map (breakChar ch :: ·), c₂)
            else (some [], c₁)
        | [] => (some [], c₁)

/-- What is between two runs of a plain scalar: the characters it becomes, the place after it, and
whether a line ended. -/
def plainGap (c : Cursor) : List Char × Cursor × Bool :=
  let spaces := c.rest.takeWhile (· == ' ')
  let c₁ := c.skip spaces.length
  match c₁.rest with
  | ch :: rest =>
      if isBreak ch then
        match plainLines (rest.length + 1) c₁.next with
        | (some more, c₂) => (foldLines (breakChar ch) more, c₂, true)
        | (none, c₂) => ([], c₂, true)
      else (spaces, c₁, false)
  | [] => (spaces, c₁, false)

/-- Whether a comment starts here. -/
def atComment : List Char → Bool
  | '#' :: _ => true
  | _ => false

/-- A plain scalar, whose further lines start at `indent` or after it unless it is in a flow
collection: its text, the place after it, and whether a line ended last. `gap` is what stands
between `done`, its characters so far with the last first, and the place. -/
def plainText (flow : Bool) (indent : Int) : (fuel : Nat) → (done gap : List Char) →
    (ended : Bool) → Cursor → List Char × Cursor × Bool
  | 0, done, _, ended, c => (done.reverse, c, ended)
  | fuel + 1, done, gap, ended, c =>
      let run := plainRun flow c.rest
      if atComment c.rest || run.isEmpty then (done.reverse, c, ended)
      else
        let done' := run.reverse ++ (gap.reverse ++ done)
        let (gap', c', ended') := plainGap (c.skip run.length)
        if gap'.isEmpty || atComment c'.rest || (!flow && (c'.column : Int) < indent) then
          (done'.reverse, c', ended')
        else plainText flow indent fuel done' gap' ended' c'

/-! ## Block scalars -/

/-- What becomes of the line ends after a block scalar: the last is kept, none is, or all are. -/
inductive Chomping where
  | clip
  | strip
  | keep
deriving DecidableEq, Repr

/-- The mark for the line ends after a block scalar. -/
def chomping? : Char → Option Chomping
  | '+' => some .keep
  | '-' => some .strip
  | _ => none

/-- A digit that says how far a block scalar is indented. Zero is refused. -/
def increment (c : Char) : Except Fault (Option Nat) :=
  match asciiDigit? c with
  | some 0 => .error .malformed
  | some n => .ok (some n)
  | none => .ok none

/-- The marks after the sign of a block scalar, in either order. -/
def blockMarks (c : Cursor) : Except Fault (Chomping × Option Nat × Cursor) :=
  match c.rest with
  | [] => .ok (.clip, none, c)
  | a :: rest =>
      match chomping? a with
      | some chomping =>
          match rest with
          | b :: _ => do
              let n ← increment b
              .ok (chomping, n, if n.isSome then c.skip 2 else c.next)
          | [] => .ok (chomping, none, c.next)
      | none => do
          let n ← increment a
          match n, rest with
          | some _, b :: _ =>
              match chomping? b with
              | some chomping => .ok (chomping, n, c.skip 2)
              | none => .ok (.clip, n, c.next)
          | some _, [] => .ok (.clip, n, c.next)
          | none, _ => .ok (.clip, none, c)

/-- The place after the rest of a line that holds nothing but spaces and a comment. -/
def endLine (c : Cursor) : Except Fault Cursor :=
  let c₁ := c.skipWhile (· == ' ')
  let c₂ := if atComment c₁.rest then c₁.skipWhile (fun ch => !isBreak ch) else c₁
  if endsAt isBreak c₂.rest then .ok c₂.next else .error .malformed

/-- The empty lines at the start of a block scalar, the greatest column among their ends and the
start of the text, and the place there. -/
def leadingLines : (fuel : Nat) → (widest : Nat) → Cursor → List Char × Nat × Cursor
  | 0, widest, c => ([], widest, c)
  | fuel + 1, widest, c =>
      match c.rest with
      | ch :: _ =>
          if ch == ' ' then
            let c₁ := c.next
            leadingLines fuel (max widest c₁.column) c₁
          else if isBreak ch then
            let (breaks, widest', c₁) := leadingLines fuel widest c.next
            (breakChar ch :: breaks, widest', c₁)
          else ([], widest, c)
      | [] => ([], widest, c)

/-- The place after the spaces before a column. -/
def skipIndent (column : Nat) (c : Cursor) : Cursor :=
  c.skip ((c.rest.take (column - c.column)).takeWhile (· == ' ')).length

/-- The empty lines ahead in a block scalar that is indented to a column, and the place after them
and the indentation. -/
def emptyLines (column : Nat) : (fuel : Nat) → Cursor → List Char × Cursor
  | 0, c => ([], c)
  | fuel + 1, c =>
      let c₁ := skipIndent column c
      match c₁.rest with
      | ch :: _ =>
          if isBreak ch then
            let (breaks, c₂) := emptyLines column fuel c₁.next
            (breakChar ch :: breaks, c₂)
          else ([], c₁)
      | [] => ([], c₁)

/-- Whether a text starts with a space or a tab. -/
def startsBlank : List Char → Bool
  | c :: _ => isSpaceOrTab c
  | [] => false

/-- The lines of a block scalar; `done` holds its characters so far, the last first, `ended` the
last line end, and `breaks` the empty lines before the place. -/
def blockLines (folded : Bool) (column : Nat) : (fuel : Nat) → (done ended breaks : List Char) →
    Cursor → List Char × List Char × List Char × Cursor
  | 0, done, ended, breaks, c => (done, ended, breaks, c)
  | fuel + 1, done, ended, breaks, c =>
      if c.column != column || c.rest.isEmpty then (done, ended, breaks, c)
      else
        let line := c.rest.takeWhile fun ch => !isBreak ch
        let c₁ := c.skip line.length
        let ended' :=
          match c₁.rest with
          | ch :: _ => [breakChar ch]
          | [] => []
        let (breaks', c₂) := emptyLines column (c₁.rest.length + 1) c₁.next
        let done' := line.reverse ++ (breaks.reverse ++ done)
        if c₂.column != column || c₂.rest.isEmpty then (done', ended', breaks', c₂)
        else if folded && ended' == ['\n'] && !startsBlank line && !startsBlank c₂.rest then
          let joint := if breaks'.isEmpty then [' '] else []
          blockLines folded column fuel (joint ++ done') ended' breaks' c₂
        else blockLines folded column fuel (ended' ++ done') ended' breaks' c₂

/-- A block scalar in a collection that is indented to `indent`, after its sign. -/
def blockText (folded : Bool) (indent : Int) (c : Cursor) : Except Fault (List Char × Cursor) := do
  let (chomping, step, c₁) ← blockMarks c
  if !endsAt (fun ch => ch == ' ' || isBreak ch) c₁.rest then .error .malformed
  else do
    let c₂ ← endLine c₁
    let least := (max (indent + 1) 1).toNat
    let (breaks, column, c₃) :=
      match step with
      | none =>
          let (breaks, widest, c₃) := leadingLines (c₂.rest.length + 1) 0 c₂
          (breaks, max least widest, c₃)
      | some n =>
          let column := least + n - 1
          let (breaks, c₃) := emptyLines column (c₂.rest.length + 1) c₂
          (breaks, column, c₃)
    let (done, ended, breaks', c₄) := blockLines folded column (c₃.rest.length + 1) [] [] breaks c₃
    let text := done.reverse ++
      match chomping with
      | .clip => ended
      | .strip => []
      | .keep => ended ++ breaks'
    .ok (text, c₄)

/-! ## Names, tags and directives -/

/-- Whether a character may stand in a name. -/
def isNameChar (c : Char) : Bool :=
  isAsciiDigit c || ('A' ≤ c && c ≤ 'Z') || ('a' ≤ c && c ≤ 'z') || c == '-' || c == '_'

/-- The name after the sign of an anchor or an alias. -/
def anchorName (c : Cursor) : Except Fault (String × Cursor) :=
  let name := c.rest.takeWhile isNameChar
  let c₁ := c.skip name.length
  let isEnd (ch : Char) : Bool := isGap ch || "?:,]\x7d%@\x60".toList.contains ch
  if name.isEmpty || !endsAt isEnd c₁.rest then .error .malformed
  else .ok (String.ofList name, c₁)

/-- Whether a character may stand in the name of a tag. -/
def isTagChar (c : Char) : Bool := isNameChar c || ";/?:@&=+$,.!~*'()[]".toList.contains c

/-- The bytes of escapes in the name of a tag. -/
def escapedBytes : List Char → Except Fault (List UInt8 × Nat)
  | '%' :: a :: b :: rest =>
      match hexDigit? a, hexDigit? b with
      | some m, some n => do
          let (bytes, count) ← escapedBytes rest
          .ok (UInt8.ofNat (16 * m + n) :: bytes, count + 3)
      | _, _ => .error .malformed
  | '%' :: _ => .error .malformed
  | _ => .ok ([], 0)

/-- The name of a tag or what it starts with; `done` holds its characters so far, the last first. -/
def tagText : (fuel : Nat) → (done : List Char) → Cursor → Except Fault (String × Cursor)
  | 0, _, _ => .error .malformed
  | fuel + 1, done, c =>
      match c.rest with
      | ch :: _ =>
          if ch == '%' then do
            let (bytes, count) ← escapedBytes c.rest
            match decodeUtf8 bytes with
            | .ok chars => tagText fuel (chars.reverse ++ done) (c.skip count)
            | .error _ => .error .malformed
          else if isTagChar ch then tagText fuel (ch :: done) c.next
          else if done.isEmpty then .error .malformed
          else .ok (String.ofList done.reverse, c)
      | [] => if done.isEmpty then .error .malformed else .ok (String.ofList done.reverse, c)

/-- The handle of a tag, at its first mark. -/
def tagHandle (c : Cursor) : Except Fault (String × Cursor) :=
  match c.rest with
  | '!' :: ' ' :: _ => .ok ("!", c.next)
  | '!' :: rest =>
      let name := rest.takeWhile isNameChar
      match rest.drop name.length with
      | '!' :: _ => .ok (String.ofList ('!' :: name ++ ['!']), c.skip (name.length + 2))
      | _ => .error .malformed
  | _ => .error .malformed

/-- Whether a space, a line end or the end of the text is ahead. -/
def atSpaceOrBreak (c : Cursor) : Bool := endsAt (fun ch => ch == ' ' || isBreak ch) c.rest

/-- A tag, at its mark. -/
def tagToken (c : Cursor) : Except Fault (Token × Cursor) := do
  let (token, c₁) ←
    match c.rest.drop 1 with
    | '<' :: _ => do
        let (name, c₁) ← tagText (c.rest.length + 1) [] (c.skip 2)
        match c₁.rest with
        | '>' :: _ => .ok (Token.tag none name, c₁.next)
        | _ => .error .malformed
    | rest =>
        if endsAt isGap rest then .ok (Token.tag none "!", c.next)
        else do
          let word := rest.takeWhile fun ch => ch != ' ' && !isBreak ch
          let (handle, c₁) ← if word.contains '!' then tagHandle c else .ok ("!", c.next)
          let (name, c₂) ← tagText (c.rest.length + 1) [] c₁
          .ok (Token.tag (some handle) name, c₂)
  if atSpaceOrBreak c₁ then .ok (token, c₁) else .error .malformed

/-- A number in a version. Its digits may be too many. -/
def versionNumber (c : Cursor) : Except Fault (Nat × Cursor) :=
  let ds := c.rest.takeWhile isAsciiDigit
  if ds.isEmpty then .error .malformed
  else if digitLimit < ds.length then .error (.scalar (.longInteger ds.length))
  else .ok (ofBase 10 ds, c.skip ds.length)

/-- The version of the language, after its name. -/
def versionDirective (c : Cursor) : Except Fault (Directive × Cursor) := do
  let (major, c₁) ← versionNumber (c.skipWhile (· == ' '))
  match c₁.rest with
  | '.' :: _ => do
      let (_, c₂) ← versionNumber c₁.next
      if atSpaceOrBreak c₂ then .ok (.version major, c₂) else .error .malformed
  | _ => .error .malformed

/-- A handle for tags, after its name. -/
def handleDirective (c : Cursor) : Except Fault (Directive × Cursor) := do
  let (handle, c₁) ← tagHandle (c.skipWhile (· == ' '))
  match c₁.rest with
  | ' ' :: _ => do
      let (stem, c₂) ← tagText (c₁.rest.length + 1) [] (c₁.skipWhile (· == ' '))
      if atSpaceOrBreak c₂ then .ok (.handle handle stem, c₂) else .error .malformed
  | _ => .error .malformed

/-- A directive with its line, after its mark. -/
def directiveLine (c : Cursor) : Except Fault (Directive × Cursor) := do
  let name := c.rest.takeWhile isNameChar
  let c₁ := c.skip name.length
  if name.isEmpty || !atSpaceOrBreak c₁ then .error .malformed
  else do
    let (d, c₂) ←
      if name == "YAML".toList then versionDirective c₁
      else if name == "TAG".toList then handleDirective c₁
      else .ok (.other, c₁.skipWhile fun ch => !isBreak ch)
    let c₃ ← endLine c₂
    .ok (d, c₃)

/-! ## The scanner -/

/-- The most characters between the start of a key and its colon. -/
def keyLimit : Nat := 1024

/-- A token that may turn out to be a key: how many tokens are before it, whether it has to be a
key, and where it starts. -/
structure PossibleKey where
  number : Nat
  required : Bool
  start : Cursor
deriving DecidableEq, Repr

/-- The state of scanning: the place, the depth of flow collections, the indentation and those
around it, whether a key may start, the possible keys by their depth, and the tokens so far, the
last first, with their number. -/
structure Scanner where
  cursor : Cursor
  flowLevel : Nat := 0
  indent : Int := -1
  outer : List Int := []
  keyAllowed : Bool := true
  keys : List (Nat × PossibleKey) := []
  tokens : List Token := []
  count : Nat := 0
deriving DecidableEq, Repr

namespace Scanner

/-- Whether the place is in a flow collection. -/
def inFlow (s : Scanner) : Bool := s.flowLevel != 0

/-- One more token. -/
def push (s : Scanner) (t : Token) : Scanner :=
  { s with tokens := t :: s.tokens, count := s.count + 1 }

/-- One more token, before all but the first `number`. -/
def insert (s : Scanner) (number : Nat) (t : Token) : Scanner :=
  let later := s.count - number
  { s with tokens := s.tokens.take later ++ t :: s.tokens.drop later, count := s.count + 1 }

/-- One more token, which is as long as some characters. -/
def take (s : Scanner) (length : Nat) (t : Token) : Scanner :=
  { s with cursor := s.cursor.skip length }.push t

/-- Whether a possible key is out of reach of a colon at the place. -/
def isStale (s : Scanner) (k : PossibleKey) : Bool :=
  k.start.line != s.cursor.line || keyLimit < s.cursor.index - k.start.index

/-- Gives up the possible keys that are out of reach. -/
def dropStaleKeys (s : Scanner) : Except Fault Scanner :=
  let stale := s.keys.filter fun k => s.isStale k.2
  if stale.any fun k => k.2.required then .error .malformed
  else .ok { s with keys := s.keys.filter fun k => !s.isStale k.2 }

/-- Gives up the possible key at the present depth. -/
def dropKey (s : Scanner) : Except Fault Scanner :=
  if s.keys.any fun k => k.1 == s.flowLevel && k.2.required then .error .malformed
  else .ok { s with keys := s.keys.filter fun k => k.1 != s.flowLevel }

/-- Notes that the next token may be a key. In block style one at the indentation has to be. -/
def noteKey (s : Scanner) : Except Fault Scanner :=
  if s.keyAllowed then do
    let s₁ ← s.dropKey
    let required := !s.inFlow && s.indent == s.cursor.column
    .ok { s₁ with keys := (s.flowLevel, ⟨s.count, required, s.cursor⟩) :: s₁.keys }
  else .ok s

/-- Closes the block collections that are indented beyond a column; `outer` are the indentations
around the present one. -/
def unwindFrom (column : Int) (s : Scanner) : (outer : List Int) → Scanner
  | [] => s
  | i :: outer =>
      if column < s.indent then
        unwindFrom column { s.push .blockEnd with indent := i, outer := outer } outer
      else s

/-- Closes the block collections that are indented beyond a column. -/
def unwind (s : Scanner) (column : Int) : Scanner :=
  if s.inFlow then s else unwindFrom column s s.outer

/-- Whether a column opens a block collection. -/
def opens (s : Scanner) (column : Nat) : Bool := s.indent < column

/-- The scanner with one more indentation. -/
def indentTo (s : Scanner) (column : Nat) : Scanner :=
  { s with indent := column, outer := s.indent :: s.outer }

/-- A line that divides documents, or a directive: all collections end before it. -/
def toMargin (s : Scanner) : Except Fault Scanner := do
  let s₁ ← (s.unwind (-1)).dropKey
  .ok { s₁ with keyAllowed := false }

/-- The start of a flow collection. -/
def openFlow (s : Scanner) (t : Token) : Except Fault Scanner := do
  let s₁ ← s.noteKey
  .ok ({ s₁ with flowLevel := s.flowLevel + 1, keyAllowed := true }.take 1 t)

/-- The end of a flow collection. -/
def closeFlow (s : Scanner) (t : Token) : Except Fault Scanner := do
  if !s.inFlow then .error .malformed
  else do
    let s₁ ← s.dropKey
    .ok ({ s₁ with flowLevel := s.flowLevel - 1, keyAllowed := false }.take 1 t)

/-- A comma between the items of a flow collection. -/
def flowComma (s : Scanner) : Except Fault Scanner := do
  let s₁ ← s.dropKey
  .ok ({ s₁ with keyAllowed := true }.take 1 .flowEntry)

/-- A dash or a question mark that starts an item or a key: in block style it may open a
collection. -/
def blockMark (s : Scanner) (opening mark : Token) (keyAllowed : Bool) : Except Fault Scanner := do
  let s₁ ←
    if s.inFlow then .ok s
    else if !s.keyAllowed then .error .malformed
    else if s.opens s.cursor.column then .ok ((s.indentTo s.cursor.column).push opening)
    else .ok s
  let s₂ ← s₁.dropKey
  .ok ({ s₂ with keyAllowed := keyAllowed }.take 1 mark)

/-- A colon: what stands before it is a key if it may be one. -/
def colon (s : Scanner) : Except Fault Scanner :=
  match s.keys.find? fun k => k.1 == s.flowLevel with
  | some (_, k) =>
      let s₁ := { s with keys := s.keys.filter fun k => k.1 != s.flowLevel }.insert k.number .key
      let s₂ :=
        if !s.inFlow && s.opens k.start.column then
          (s₁.insert k.number .blockMappingStart).indentTo k.start.column
        else s₁
      .ok ({ s₂ with keyAllowed := false }.take 1 .value)
  | none => s.blockMark .blockMappingStart .value (!s.inFlow)

/-- A token that may be a key, read by `read` from its place. -/
def scalarToken (s : Scanner) (read : Cursor → Except Fault (Token × Cursor)) :
    Except Fault Scanner := do
  let s₁ ← s.noteKey
  let (t, c) ← read s.cursor
  .ok ({ s₁ with keyAllowed := false, cursor := c }.push t)

/-- A block scalar, at its sign. -/
def blockScalar (s : Scanner) (folded : Bool) : Except Fault Scanner := do
  let s₁ ← s.dropKey
  let (text, c) ← blockText folded s.indent s.cursor.next
  .ok ({ s₁ with keyAllowed := true, cursor := c }.push (.scalar false text))

/-- A plain scalar. A key may follow it if a line ended after it. -/
def plainScalar (s : Scanner) : Except Fault Scanner := do
  let s₁ ← s.noteKey
  let (text, c, ended) :=
    plainText s.inFlow (s.indent + 1) (s.cursor.rest.length + 1) [] [] false s.cursor
  .ok ({ s₁ with keyAllowed := ended, cursor := c }.push (.scalar true text))

/-- The place after spaces, comments and line ends, and whether a line ended on the way. -/
def skipGap : (fuel : Nat) → (ended : Bool) → Cursor → Cursor × Bool
  | 0, ended, c => (c, ended)
  | fuel + 1, ended, c =>
      let c₁ := c.skipWhile (· == ' ')
      let c₂ := if atComment c₁.rest then c₁.skipWhile (fun ch => !isBreak ch) else c₁
      if c₂.rest.isEmpty || !endsAt isBreak c₂.rest then (c₂, ended)
      else skipGap fuel true c₂.next

/-- Goes to the next token. In block style a key may start on a new line. -/
def approach (s : Scanner) : Except Fault Scanner := do
  let (c, ended) := skipGap (s.cursor.rest.length + 1) false s.cursor
  let s₁ ← { s with cursor := c, keyAllowed := s.keyAllowed || (ended && !s.inFlow) }.dropStaleKeys
  .ok (s₁.unwind c.column)

/-- The end of the text. -/
def finish (s : Scanner) : Except Fault Scanner := do
  let s₁ ← s.toMargin
  .ok (s₁.push .streamEnd)

/-- The token at the place, by its first character. -/
def token (s : Scanner) (ch : Char) (rest : List Char) : Except Fault Scanner :=
  let c := s.cursor
  if ch == '%' && c.column == 0 then do
    let s₁ ← s.toMargin
    let (d, c₁) ← directiveLine c.next
    .ok ({ s₁ with cursor := c₁ }.push (.directive d))
  else if c.column == 0 && c.atMarker then do
    let s₁ ← s.toMargin
    .ok (s₁.take 3 (if ch == '-' then .documentStart else .documentEnd))
  else if ch == '[' then s.openFlow .flowSequenceStart
  else if ch == '{' then s.openFlow .flowMappingStart
  else if ch == ']' then s.closeFlow .flowSequenceEnd
  else if ch == '}' then s.closeFlow .flowMappingEnd
  else if ch == ',' then s.flowComma
  else if ch == '-' && endsAt isGap rest then s.blockMark .blockSequenceStart .blockEntry true
  else if ch == '?' && (s.inFlow || endsAt isGap rest) then
    s.blockMark .blockMappingStart .key (!s.inFlow)
  else if ch == ':' && (s.inFlow || endsAt isGap rest) then s.colon
  else if ch == '*' then
    s.scalarToken fun c => (anchorName c.next).map fun (n, c₁) => (.alias n, c₁)
  else if ch == '&' then
    s.scalarToken fun c => (anchorName c.next).map fun (n, c₁) => (.anchor n, c₁)
  else if ch == '!' then s.scalarToken tagToken
  else if ch == '|' && !s.inFlow then s.blockScalar false
  else if ch == '>' && !s.inFlow then s.blockScalar true
  else if ch == '\'' || ch == '"' then
    s.scalarToken fun c =>
      (quotedText (ch == '"') (c.rest.length + 1) [] c.next).map fun (text, c₁) =>
        (.scalar false text, c₁)
  else if plainStarts s.inFlow (ch :: rest) then s.plainScalar
  else .error .malformed

/-- Scans on: the tokens, the last first, and the fault that ended them, if one did. -/
def run : (fuel : Nat) → Scanner → List Token × Option Fault
  | 0, s => (s.tokens, some .malformed)
  | fuel + 1, s =>
      match s.approach with
      | .error f => (s.tokens, some f)
      | .ok s₁ =>
          match s₁.cursor.rest with
          | [] =>
              match s₁.finish with
              | .ok s₂ => (s₂.tokens, none)
              | .error f => (s₁.tokens, some f)
          | ch :: rest =>
              match s₁.token ch rest with
              | .ok s₂ => run fuel s₂
              | .error f => (s₁.tokens, some f)

end Scanner

/-- Whether a character may stand in a text. -/
def isAllowed (c : Char) : Bool :=
  let n := c.toNat
  n == 0x09 || n == 0x0a || n == 0x0d || (0x20 ≤ n && n ≤ 0x7e) || n == 0x85 ||
    (0xa0 ≤ n && n ≤ 0xd7ff) || (0xe000 ≤ n && n ≤ 0xfffd) || 0x10000 ≤ n

/-- The tokens of a text, and the fault that ended them, if one did. A byte order mark at the start
is passed over. -/
def tokensOf (cs : List Char) : List Token × Option Fault :=
  if !cs.all isAllowed then ([], some .malformed)
  else
    let start : Cursor := { rest := cs }
    let first :=
      match cs with
      | '\ufeff' :: _ => start.next
      | _ => start
    let (tokens, fault) := Scanner.run (cs.length + 2) { cursor := first }
    (tokens.reverse, fault)

end TypeOrigins.Yaml
