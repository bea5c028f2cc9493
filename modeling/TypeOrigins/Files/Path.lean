import TypeOrigins.Text.LowerCase

/-! # Paths

Paths of files: a root, which is empty for a path from the current directory, and parts. Empty parts
and parts that stand for the same directory are left out; a part that stands for the parent is kept.
-/

namespace TypeOrigins
set_option autoImplicit false

/-- A path. -/
structure Path where
  root : String := ""
  parts : List String := []
deriving DecidableEq, Repr

namespace Path

/-- The pieces of a text between slashes. -/
def splitSlashes : List Char → List (List Char)
  | [] => [[]]
  | c :: rest =>
      if c = '/' then [] :: splitSlashes rest
      else
        match splitSlashes rest with
        | [] => [[c]]
        | piece :: pieces => (c :: piece) :: pieces

/-- The root that a text starts with: two slashes, and not three, are a root of their own. -/
def rootOf : List Char → String
  | '/' :: '/' :: '/' :: _ => "/"
  | '/' :: '/' :: _ => "//"
  | '/' :: _ => "/"
  | _ => ""

/-- The path a text spells. -/
def ofText (s : String) : Path where
  root := rootOf s.toList
  parts := ((splitSlashes s.toList).map String.ofList).filter fun part =>
    !part.isEmpty && part != "."

/-- The text of a path. -/
def display (p : Path) : String :=
  if p.root.isEmpty && p.parts.isEmpty then "."
  else p.root ++ "/".intercalate p.parts

/-- The path of the directory a path is in. The last directory is in itself. -/
def parent (p : Path) : Path := { p with parts := p.parts.dropLast }

/-- The last part. -/
def name (p : Path) : String := p.parts.getLast?.getD ""

/-- The ending of the name from its last dot on, unless that is the first or the last character. -/
def suffix (p : Path) : String :=
  let cs := p.name.toList
  let ending := (cs.reverse.takeWhile (· != '.')).reverse
  let start := cs.length - ending.length
  if 1 < start && !ending.isEmpty then String.ofList ('.' :: ending) else ""

/-- The ending in lower case. -/
def lowerSuffix (p : Path) : String := Text.lower p.suffix

end Path

end TypeOrigins
