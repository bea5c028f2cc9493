import TypeOrigins.Files.Path
import TypeOrigins.Text.Utf8

/-! # File trees

The files a command can see, as a value: what is at each place, where a place is a list of names
from the current directory. Reading and writing follow the rules of a file system: parents must be
directories, a directory cannot be read or written as a file, names and paths have limits to their
length, and faults name the path as it was given. -/

namespace TypeOrigins
set_option autoImplicit false

/-- What can be at a place. -/
inductive FileNode where
  | file (bytes : List UInt8)
  | directory
deriving DecidableEq, Repr

/-- Why a file cannot be reached. -/
inductive FileError where
  | notFound (path : Path)
  | exists (path : Path)
  | notDirectory (path : Path)
  | isDirectory (path : Path)
  | nameTooLong (path : Path)
  | nullInPath
deriving DecidableEq, Repr

/-- The wording of a fault. -/
def FileError.message : FileError → String
  | .notFound p => "[Errno 2] No such file or directory: " ++ Text.quoted p.display
  | .exists p => "[Errno 17] File exists: " ++ Text.quoted p.display
  | .notDirectory p => "[Errno 20] Not a directory: " ++ Text.quoted p.display
  | .isDirectory p => "[Errno 21] Is a directory: " ++ Text.quoted p.display
  | .nameTooLong p => "[Errno 36] File name too long: " ++ Text.quoted p.display
  | .nullInPath => "embedded null byte"

/-- The most bytes a name in a path may have. -/
def nameLimit : Nat := 255

/-- The most bytes a path may have. -/
def pathLimit : Nat := 4095

/-- Files and directories by their places. The directory of anything in the tree is there too. -/
structure FileTree where
  nodes : List (List String × FileNode) := []
deriving DecidableEq, Repr

namespace FileTree

/-- Whether one place is inside another. -/
def isInside (outer inner : List String) : Bool :=
  outer.length < inner.length && inner.take outer.length == outer

/-- Whether a place is a directory in every tree: a root, the current directory, or one around it.
-/
def isRoot (place : List String) : Bool :=
  place == ["/"] || place == ["//"] || place.all (· == "..")

/-- The place that one part leads to. -/
def step (place : List String) (part : String) : List String :=
  if part != ".." then place ++ [part]
  else if place == ["/"] || place == ["//"] then place
  else if isRoot place then place ++ [part]
  else place.dropLast

/-- What is at a place. -/
def node? (t : FileTree) (place : List String) : Option FileNode :=
  match t.nodes.find? fun n => n.1 == place with
  | some n => some n.2
  | none =>
      if isRoot place || t.nodes.any (fun n => isInside place n.1) then some .directory
      else none

/-- The place that parts lead to from a directory. Every part but the last has to be a directory,
and none may be too long. -/
def walk (t : FileTree) (path : Path) (place : List String) :
    List String → Except FileError (List String)
  | [] => .ok place
  | part :: rest =>
      match t.node? place with
      | some .directory =>
          if nameLimit < part.utf8ByteSize then .error (.nameTooLong path)
          else walk t path (step place part) rest
      | some (.file _) => .error (.notDirectory path)
      | none => .error (.notFound path)

/-- The place that a path starts at. -/
def start (path : Path) : List String := if path.root.isEmpty then [] else [path.root]

/-- The place of a path. A path that holds the null character, or is too long, leads nowhere. -/
def locate (t : FileTree) (path : Path) : Except FileError (List String) :=
  let text := path.display
  if text.toList.contains (Char.ofNat 0) then .error .nullInPath
  else if pathLimit < text.utf8ByteSize then .error (.nameTooLong path)
  else walk t path (start path) path.parts

/-- The path to a place. -/
def pathTo (place : List String) : Path :=
  match place with
  | [] => {}
  | part :: rest => if part == "/" || part == "//" then ⟨part, rest⟩ else ⟨"", place⟩

/-- The bytes of the file at a path. -/
def read (t : FileTree) (path : Path) : Except FileError (List UInt8) := do
  let place ← t.locate path
  match t.node? place with
  | some (.file bytes) => .ok bytes
  | some .directory => .error (.isDirectory path)
  | none => .error (.notFound path)

/-- The tree with something else at a place. -/
def set (t : FileTree) (place : List String) (node : FileNode) : FileTree :=
  { nodes := (t.nodes.filter fun n => n.1 != place) ++ [(place, node)] }

/-- The tree with a new directory, whose parent has to be there. -/
def makeDirectory (t : FileTree) (path : Path) : Except FileError FileTree := do
  let place ← t.locate path
  match t.node? place with
  | some _ => .error (.exists path)
  | none => .ok (t.set place .directory)

/-- Whether a path leads to a directory. -/
def isDirectory (t : FileTree) (path : Path) : Bool :=
  match t.locate path with
  | .ok place => t.node? place == some .directory
  | .error _ => false

/-- The tree with a directory, which may be there already. -/
def ensureDirectory (t : FileTree) (path : Path) : Except FileError FileTree :=
  match t.makeDirectory path with
  | .ok t' => .ok t'
  | .error e => if t.isDirectory path then .ok t else .error e

/-- The tree after a change, and the fault if it failed. A change that fails leaves the tree as it
was. -/
def attempt (t : FileTree) : Except FileError FileTree → FileTree × Option FileError
  | .ok t' => (t', none)
  | .error e => (t, some e)

/-- The tree after making a directory and all its parents, of which some may be there already, and
the fault that stopped this. Parents that were made before a fault stay. The fuel bounds the parts
of the path. -/
def makeDirectories : (fuel : Nat) → FileTree → Path → FileTree × Option FileError
  | 0, t, path => t.attempt (t.ensureDirectory path)
  | fuel + 1, t, path =>
      match t.ensureDirectory path with
      | .error (.notFound _) =>
          let r := makeDirectories fuel t path.parent
          match r.2 with
          | none => r.1.attempt (r.1.ensureDirectory path)
          | some _ => r
      | r => t.attempt r

/-- The tree with the bytes of a file replaced, or a new file. -/
def write (t : FileTree) (path : Path) (bytes : List UInt8) : Except FileError FileTree := do
  let place ← t.locate path
  match t.node? place with
  | some .directory => .error (.isDirectory path)
  | _ => .ok (t.set place (.file bytes))

/-- The files of one tree that another does not have, or has with other bytes. -/
def changedFiles (before after : FileTree) : List (List String × List UInt8) :=
  after.nodes.filterMap fun n =>
    match n.2 with
    | .file bytes => if before.node? n.1 == some (.file bytes) then none else some (n.1, bytes)
    | .directory => none

/-- The directories of one tree that another does not have. -/
def newDirectories (before after : FileTree) : List (List String) :=
  after.nodes.filterMap fun n =>
    match n.2 with
    | .file _ => none
    | .directory => if before.node? n.1 == some .directory then none else some n.1

end FileTree

end TypeOrigins
