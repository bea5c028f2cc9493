import TypeOrigins.CommandLine.Flag

/-! # Invocations

What the words of a command line ask for: which command, on which facts, with which settings. Flags
and the operand of a command come in any order; the flags before the command are those of the whole
program. -/

namespace TypeOrigins.CommandLine
set_option autoImplicit false

/-- The commands. -/
inductive Command where
  | analyze
  | callSites
deriving DecidableEq, Repr

namespace Command

/-- The word for a command. -/
def word : Command → String
  | analyze => "analyze"
  | callSites => "call-sites"

/-- All commands. -/
def all : List Command := [analyze, callSites]

/-- The command that a word names. -/
def ofWord? (w : String) : Option Command := all.find? fun c => c.word == w

/-- The flags of a command. -/
def flags : Command → List Flag
  | analyze => [.help, .config, .api, .output, .maxDepth, .workers, .collectFailures]
  | callSites => [.help, .config, .api, .json]

end Command

/-- The flags before the command. -/
def programFlags : List Flag := [.help, .verbose]

/-- The name of the program. -/
def programName : String := "linkerkeep"

/-- What a flag that takes a value was given: it is absent, it came without a value, or with one. -/
inductive Given (α : Type) where
  | absent
  | empty
  | value (a : α)
deriving DecidableEq, Repr

/-- What a flag that came with or without a value was given. -/
def Given.ofOption {α : Type} : Option α → Given α
  | none => .empty
  | some a => .value a

/-- The value, if there is one. -/
def Given.value? {α : Type} : Given α → Option α
  | .value a => some a
  | _ => none

/-- A well-formed command line. An API that came without a text is kept as such. -/
structure Invocation where
  command : Command
  facts : Path
  verbosity : Nat := 0
  config : Option Path := none
  apis : List (Option String) := []
  output : Given Path := .absent
  maxDepth : Given Int := .absent
  workers : Given Int := .absent
  collectFailures : Bool := false
  json : Bool := false
deriving DecidableEq, Repr

/-- The invocation with one more setting. The last of several values counts, and all APIs do. -/
def Invocation.apply (i : Invocation) : Setting → Invocation
  | .help => i
  | .verbose => { i with verbosity := i.verbosity + 1 }
  | .config path => { i with config := path }
  | .api text => { i with apis := i.apis ++ [text] }
  | .output path => { i with output := .ofOption path }
  | .maxDepth n => { i with maxDepth := .ofOption n }
  | .workers n => { i with workers := .ofOption n }
  | .collectFailures => { i with collectFailures := true }
  | .json => { i with json := true }

/-- The paths that an invocation names. -/
def Invocation.paths (i : Invocation) : List Path :=
  i.facts :: i.config.toList ++ i.output.value?.toList

/-- Why there is no invocation: help is asked for, of a command or of the program, or the words are
at fault there. -/
inductive Stop where
  | help (command : Option Command)
  | fault (command : Option Command) (f : UsageFault)
deriving DecidableEq, Repr

/-- The line that a fault is reported with. -/
def faultLine (command : Option Command) (f : UsageFault) : String :=
  let name :=
    match command with
    | none => programName
    | some c => programName ++ " " ++ c.word
  name ++ ": error: " ++ f.message

/-- What is read so far: the settings, the operand, and the words that fit nowhere. -/
structure Progress where
  settings : List Setting := []
  operand : Option String := none
  strays : List String := []
deriving DecidableEq, Repr

/-- The settings of flags, one after another. Help stops them. -/
def settingsOf (command : Option Command) :
    List (Flag × Option String) → Except Stop (List Setting)
  | [] => .ok []
  | (f, value) :: rest =>
      match f.setting value with
      | .error e => .error (.fault command e)
      | .ok .help => .error (.help command)
      | .ok s => do
          let more ← settingsOf command rest
          return s :: more

/-- Progress after a word of flags. -/
def Progress.take (p : Progress) (command : Option Command) (t : Taken) : Except Stop Progress := do
  let settings ← settingsOf command t.given
  return { p with settings := p.settings ++ settings }

/-- The next word, if it is an operand. -/
def nextOperand : List (String × Reading) → Option String
  | (word, .operand) :: _ => some word
  | _ => none

/-- The flags of a word, which takes the next one if it needs to. -/
def takeWord (flags : List Flag) (next : Option String) : Reading → Except UsageFault Taken
  | .flag f => takeFlag next f
  | .longFlagWith f text => takeLong f text
  | .shortFlagWith f text => takeShort flags next f text
  | .operand | .endOfFlags | .unknownFlag => .ok {}

/-- Whether the next word marks the end of the flags. -/
def endsFlags : List (String × Reading) → Bool
  | (_, .endOfFlags) :: _ => true
  | _ => false

/-- The words after a command: its flags, and one operand. A mark that the flags end goes with the
operand before or after it. With `skip` the first word is used already. -/
def readCommand (command : Command) :
    (p : Progress) → (skip : Bool) → List (String × Reading) → Except Stop Progress
  | p, _, [] => .ok p
  | p, true, _ :: rest => readCommand command p false rest
  | p, false, (word, r) :: rest =>
      let stray := { p with strays := p.strays ++ [word] }
      match r with
      | .operand =>
          if p.operand.isSome then readCommand command stray false rest
          else readCommand command { p with operand := some word } (endsFlags rest) rest
      | .endOfFlags =>
          if p.operand.isNone && !rest.isEmpty then readCommand command p false rest
          else readCommand command stray false rest
      | .unknownFlag => readCommand command stray false rest
      | .flag _ | .longFlagWith _ _ | .shortFlagWith _ _ =>
          match takeWord command.flags (nextOperand rest) r with
          | .error e => .error (.fault (some command) e)
          | .ok t =>
              match p.take (some command) t with
              | .error stop => .error stop
              | .ok p' => readCommand command p' t.usedNext rest

/-- The words before the command, and the words from the command on. -/
def readProgram (p : Progress) :
    List (String × Reading) → Except Stop (Progress × Option (String × List String))
  | [] => .ok (p, none)
  | (word, .operand) :: rest => .ok (p, some (word, rest.map (·.1)))
  | (word, .endOfFlags) :: rest =>
      match rest with
      | [] => .ok (p, none)
      | _ :: _ => .ok (p, some (word, rest.map (·.1)))
  | (word, .unknownFlag) :: rest => readProgram { p with strays := p.strays ++ [word] } rest
  | (_, r) :: rest =>
      match takeWord programFlags none r with
      | .error e => .error (.fault none e)
      | .ok t =>
          match p.take none t with
          | .error stop => .error stop
          | .ok p' => readProgram p' rest

/-- The invocation that words spell. -/
def Invocation.ofWords (words : List String) : Except Stop Invocation := do
  let readings ← (readWords programFlags words).mapError (.fault none)
  let (before, rest) ← readProgram {} readings
  match rest with
  | none => .error (.fault none (.missingOperand "command"))
  | some (word, more) =>
      match Command.ofWord? word with
      | none => .error (.fault none (.unknownCommand word (Command.all.map Command.word)))
      | some command => do
          let readings ← (readWords command.flags more).mapError (.fault (some command))
          let after ← readCommand command {} false readings
          match after.operand with
          | none => .error (.fault (some command) (.missingOperand "facts"))
          | some facts =>
              match before.strays ++ after.strays with
              | [] =>
                  return (before.settings ++ after.settings).foldl Invocation.apply
                    { command := command, facts := Path.ofText facts }
              | strays => .error (.fault none (.unrecognized strays))

end TypeOrigins.CommandLine
