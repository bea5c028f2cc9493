import TypeOrigins.CommandLine.Run

/-! # The program

The outer layer: it looks at the files that the command line names, runs the command on what it saw,
and carries out what the command says. -/

namespace TypeOrigins.Terminal
set_option autoImplicit false

open CommandLine

/-- What is at a path, if anything. -/
def look (path : String) : IO (Option FileNode) := do
  try
    let bytes ← IO.FS.readBinFile path
    return some (.file bytes.toList)
  catch e =>
    match e with
    | .noFileOrDirectory _ _ _ => return none
    | _ => return some .directory

/-- What is on the way along parts, from a place that is a directory. -/
def survey (place : List String) : List String → IO (List (List String × FileNode))
  | [] => return []
  | part :: rest => do
      let next := FileTree.step place part
      match ← look (FileTree.pathTo next).display with
      | none => return []
      | some (.file bytes) => return [(next, .file bytes)]
      | some .directory => return (next, .directory) :: (← survey next rest)

/-- The files that paths lead to. -/
def surveyAll : List Path → IO (List (List String × FileNode))
  | [] => return []
  | path :: rest => return (← survey (FileTree.start path) path.parts) ++ (← surveyAll rest)

/-- A random identifier in five groups of hexadecimal digits. -/
def freshIdentifier : IO String := do
  let digits (n : Nat) : IO String := do
    let k ← IO.rand 0 (Nat.pow 16 n - 1)
    return String.ofList (Text.hexDigits n k)
  let variant ← IO.rand 8 11
  return "-".intercalate
    [← digits 8, ← digits 4, "4" ++ (← digits 3),
      String.ofList (Text.hexDigits 1 variant) ++ (← digits 3), ← digits 12]

/-- What tells one problem of a run from another. -/
def problemKey (p : Problem) : String :=
  Json.write (.list [.text p.type, .text p.detail, (p.extras.get? "call_site").getD .null])

/-- A fresh identifier for each problem. -/
def freshNames : List Event → IO (List (String × String))
  | [] => return []
  | .troubleReported t :: rest => do
      let name ← freshIdentifier
      return (problemKey (t.problem fun _ => ""), name) :: (← freshNames rest)
  | _ :: rest => freshNames rest

/-- Shows events, each on a line of its own. -/
def showEvents (naming : Problem.Naming) : List Event → IO Unit
  | [] => return
  | e :: rest => do
      IO.eprintln ("[" ++ e.level.word ++ "] " ++ e.source ++ ": " ++ e.message naming)
      showEvents naming rest

/-- Makes directories. -/
def makeDirectories : List (List String) → IO Unit
  | [] => return
  | place :: rest => do
      IO.FS.createDirAll (FileTree.pathTo place).display
      makeDirectories rest

/-- Writes files. -/
def store : List (List String × List UInt8) → IO Unit
  | [] => return
  | (place, bytes) :: rest => do
      let path := FileTree.pathTo place
      IO.FS.createDirAll path.parent.display
      IO.FS.writeBinFile path.display ⟨bytes.toArray⟩
      store rest

/-- Runs the program on the words of its command line. -/
def run (words : List String) : IO UInt32 := do
  let environment ← IO.getEnv "LINKERKEEP_WORKERS"
  let nodes ←
    match Invocation.ofWords words with
    | .ok i => surveyAll i.paths
    | .error _ => pure []
  let files : FileTree := ⟨nodes⟩
  let outcome := CommandLine.run files environment words
  let names ← freshNames outcome.events
  showEvents (fun p => (names.lookup (problemKey p)).getD "") outcome.events
  unless outcome.usageFault.isEmpty do IO.eprintln outcome.usageFault
  IO.print outcome.output
  makeDirectories (FileTree.newDirectories files outcome.files)
  store (FileTree.changedFiles files outcome.files)
  return UInt32.ofNat outcome.exit

end TypeOrigins.Terminal

/-- The program. -/
def main (words : List String) : IO UInt32 := TypeOrigins.Terminal.run words
