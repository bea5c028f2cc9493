import TypeOrigins.CommandLine.Action
import TypeOrigins.CommandLine.Invocation
import TypeOrigins.Facts.Loading
import TypeOrigins.Settings.File

/-! # Running commands

A command as an action on the files it can see and on standard output, and the whole program: from
the files, the number of workers that the environment gives and the words of the command line, to an
exit code, the text on standard output, the events to show, and the files afterwards. -/

namespace TypeOrigins.CommandLine
set_option autoImplicit false

/-! ## Settings of an invocation -/

/-- A command that stopped on something that is no problem of its own kind. -/
def failure (i : Invocation) (message : String) : Trouble := .command i.command.word message

/-- What is said of a flag without the value that it needs. -/
def noValueMessage (wanted : String) : String :=
  "'list' object has no attribute '" ++ wanted ++ "'"

/-- The APIs that the flags of an invocation name. -/
def parseApis (i : Invocation) : List (Option String) → Except Trouble (List Api)
  | [] => .ok []
  | none :: _ => .error (failure i (noValueMessage "strip"))
  | some text :: rest =>
      match Api.parse? text with
      | none => .error (.settings (SettingsFault.message (.badApi text)) none)
      | some a => (parseApis i rest).map (a :: ·)

/-- Integers as documents: an absent one is null, and a flag without a value is an empty list. -/
def intDocument : Given Int → Document
  | .absent => .null
  | .empty => .list []
  | .value n => .int n

/-- The settings that flags override. -/
def overrides (i : Invocation) (apis : List Api) : Document.Fields :=
  [("apis", if apis.isEmpty then .null else .list (apis.map Settings.apiDocument)),
    ("max_depth", intDocument i.maxDepth), ("workers", intDocument i.workers),
    ("collect_failures", if i.collectFailures then .bool true else .null)]

/-- The settings of an invocation: those of its file or the defaults, and its flags over them. -/
def settingsFor (files : FileTree) (i : Invocation) : Except Trouble Settings := do
  let base ←
    match i.config with
    | none => .ok {}
    | some path =>
        (Settings.ofFile files path).mapError fun e =>
          match e with
          | .settings f => .settings f.message (some path.display)
          | _ => failure i e.message
  let apis ← parseApis i i.apis
  (base.override (overrides i apis)).mapError fun f => .settings f.message none

/-- The configuration of an invocation. -/
def configFor (files : FileTree) (environment : Option String) (i : Invocation) :
    Logged Trouble Config := do
  let settings ← Logged.lift (settingsFor files i)
  settings.config environment

/-- The trouble of a file that gives no program. -/
def loadTrouble (i : Invocation) : Facts.LoadFault → Trouble
  | .facts f => .facts f.message (some i.facts.display)
  | e => failure i e.message

/-- The program of an invocation. -/
def programFor (files : FileTree) (i : Invocation) : Logged Trouble Program :=
  (Facts.load .standard files i.facts).mapError (loadTrouble i)

/-! ## The commands -/

/-- Writes a descriptor to a path, whose directory is made if it is not there. -/
def writeDescriptor (i : Invocation) (path : Path) (text : String) : Action Unit := do
  let trouble (e : FileError) : Trouble := failure i e.message
  Action.change (fun files => files.makeDirectories path.parts.length path.parent) trouble
  Action.change (fun files => files.attempt (files.write path (Text.encodeUtf8 text.toList)))
    trouble
  Action.say (.descriptorWritten path.display (Text.encodeUtf8 text.toList).length)

/-- Prints a descriptor, or writes it to the file that is asked for. -/
def emitDescriptor (i : Invocation) (text : String) : Action Unit :=
  match i.output with
  | .absent => Action.print text
  | .empty => Action.stop (failure i (noValueMessage "parent"))
  | .value path => writeDescriptor i path text

/-- The trouble of an analysis. A failure that surfaces as an error of another kind stops the
command. -/
def analysisTrouble (i : Invocation) (e : AnalysisError) : Trouble :=
  match e with
  | .failed f =>
      match f.raised with
      | .ok _ => e.trouble
      | .error s => failure i s.message
  | .collected _ => e.trouble

/-- Analyses a program and emits its descriptor. -/
def runAnalyze (environment : Option String) (i : Invocation) : Action Unit := do
  let config ← Action.look fun files => configFor files environment i
  Action.say (.analysisStarted i.facts.display (config.apis.map Api.display) config.maxDepth
    config.workers config.collectFailures)
  let program ← Action.look fun files => programFor files i
  let analysis ← Action.look fun _ => (analyze program config).mapError (analysisTrouble i)
  emitDescriptor i analysis.render

/-- The word for how an entry is told its type. -/
def entryShape (e : Entry) : String := if e.site.isGeneric then "generic" else "value"

/-- An entry as a line of text. -/
def entryLine (e : Entry) : String :=
  "\t".intercalate [e.site.location.display, e.api.display, entryShape e, e.site.id] ++ "\n"

/-- An entry as a document. -/
def entryDocument (e : Entry) : Document :=
  .object [("id", .text e.site.id), ("location", .text e.site.location.display),
    ("api", .text e.api.display), ("method_id", .text e.site.target.methodId),
    ("shape", .text (entryShape e))]

/-- Prints entries as lines of text, up to one whose position cannot be written. -/
def printLines (i : Invocation) : List Entry → Action Unit
  | [] => pure ()
  | e :: rest =>
      if e.site.location.isWritable then do
        Action.print (entryLine e)
        printLines i rest
      else Action.stop (failure i Text.longIntegerMessage)

/-- Prints entries as one document, if all their positions can be written. -/
def printDocument (i : Invocation) (entries : List Entry) : Action Unit :=
  if entries.all fun e => e.site.location.isWritable then
    Action.print (Json.writeLines 0 (.list (entries.map entryDocument)) ++ "\n")
  else Action.stop (failure i Text.longIntegerMessage)

/-- Lists the entries of a program. -/
def runCallSites (environment : Option String) (i : Invocation) : Action Unit := do
  let config ← Action.look fun files => configFor files environment i
  let program ← Action.look fun files => programFor files i
  let entries ← Action.look fun _ => discover program config.apis
  if i.json then printDocument i entries else printLines i entries

/-- Runs the command of an invocation. -/
def runCommand (environment : Option String) (i : Invocation) : Action Unit :=
  match i.command with
  | .analyze => runAnalyze environment i
  | .callSites => runCallSites environment i

/-! ## The program -/

/-- The least level that is shown. -/
def threshold (verbosity : Nat) : Level :=
  match verbosity with
  | 0 => .warning
  | 1 => .info
  | _ => .debug

/-- The failures that a trouble is about, each of which is reported before it. -/
def failuresWithin : Trouble → List Failure
  | .analysis failures => failures
  | _ => []

/-- The reports of a trouble. -/
def reports (t : Trouble) : List Trouble := (failuresWithin t).map .resolution ++ [t]

/-- What the program does: the exit code, the text for standard output, the events that are shown,
the line about a fault of usage, and the files afterwards. -/
structure Outcome where
  exit : Nat
  output : String := ""
  events : List Event := []
  usageFault : String := ""
  files : FileTree

/-- What the flags of a command are, line by line. -/
def helpText (command : Option Command) : String :=
  let line (f : Flag) : String :=
    "  " ++ ", ".intercalate f.names ++ (if f.takesValue then " VALUE" else "") ++ "\n"
  let head :=
    match command with
    | none => "usage: " ++ programName ++ " [flags] command\n\ncommands:\n" ++
        String.join (Command.all.map fun c => "  " ++ c.word ++ "\n")
    | some c => "usage: " ++ programName ++ " " ++ c.word ++ " [flags] facts\n"
  head ++ "\nflags:\n" ++
    String.join ((match command with
      | none => programFlags
      | some c => c.flags).map line)

/-- Runs the program on the words of a command line. -/
def run (files : FileTree) (environment : Option String) (words : List String) : Outcome :=
  match Invocation.ofWords words with
  | .error (.help command) => { exit := 0, output := helpText command, files := files }
  | .error (.fault command f) => { exit := 2, usageFault := faultLine command f, files := files }
  | .ok i =>
      let r := runCommand environment i { files := files }
      let shown (events : List Event) : List Event :=
        events.filter fun e => (threshold i.verbosity).rank ≤ e.level.rank
      match r.1.result with
      | .ok () =>
          { exit := 0, output := r.2.output, events := shown r.1.events, files := r.2.files }
      | .error t =>
          { exit := 1, output := r.2.output,
            events := shown (r.1.events ++ (reports t).map .troubleReported), files := r.2.files }

end TypeOrigins.CommandLine
