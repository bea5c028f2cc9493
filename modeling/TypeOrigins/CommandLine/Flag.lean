import TypeOrigins.Files.Path
import TypeOrigins.Text.Numeral
import TypeOrigins.Text.Quoted

/-! # Flags

The flags of the command line and how a word is read as one. A long name may be cut short as long as
it fits one flag only; a value may follow an equals sign, or stand right after a short name; short
flags that take no value may share a word. Two dashes joined to a flag are no value. -/

namespace TypeOrigins.CommandLine
set_option autoImplicit false

/-- A flag. -/
inductive Flag where
  | help
  | verbose
  | config
  | api
  | output
  | maxDepth
  | workers
  | collectFailures
  | json
deriving DecidableEq, Repr

namespace Flag

/-- The names of a flag. -/
def names : Flag → List String
  | help => ["-h", "--help"]
  | verbose => ["-v", "--verbose"]
  | config => ["--config"]
  | api => ["--api"]
  | output => ["-o", "--output"]
  | maxDepth => ["--max-depth"]
  | workers => ["--workers"]
  | collectFailures => ["--collect-failures"]
  | json => ["--json"]

/-- Whether a value comes with a flag. -/
def takesValue : Flag → Bool
  | config | api | output | maxDepth | workers => true
  | help | verbose | collectFailures | json => false

/-- A flag in messages: all its names. -/
def display (f : Flag) : String := "/".intercalate f.names

end Flag

/-- What a flag sets. A flag that takes a value may come without one. -/
inductive Setting where
  | help
  | verbose
  | config (path : Option Path)
  | api (text : Option String)
  | output (path : Option Path)
  | maxDepth (n : Option Int)
  | workers (n : Option Int)
  | collectFailures
  | json
deriving DecidableEq, Repr

/-- Why words are no command line. -/
inductive UsageFault where
  | ambiguous (word : String) (candidates : List String)
  | unusedValue (flag : Flag) (value : String)
  | missingValue (flag : Flag)
  | notInteger (flag : Flag) (text : String)
  | unknownCommand (word : String) (known : List String)
  | missingOperand (name : String)
  | unrecognized (words : List String)
deriving DecidableEq, Repr

/-- The wording of a fault. -/
def UsageFault.message : UsageFault → String
  | .ambiguous word candidates =>
      "ambiguous option: " ++ word ++ " could match " ++ ", ".intercalate candidates
  | .unusedValue f value =>
      "argument " ++ f.display ++ ": ignored explicit argument " ++ Text.quoted value
  | .missingValue f => "argument " ++ f.display ++ ": expected one argument"
  | .notInteger f text =>
      "argument " ++ f.display ++ ": invalid int value: " ++ Text.quoted text
  | .unknownCommand word known =>
      "argument command: invalid choice: " ++ Text.quoted word ++ " (choose from " ++
        ", ".intercalate (known.map Text.quoted) ++ ")"
  | .missingOperand name => "the following arguments are required: " ++ name
  | .unrecognized words => "unrecognized arguments: " ++ " ".intercalate words

/-- What a flag with its value sets. -/
def Flag.setting (f : Flag) (value : Option String) : Except UsageFault Setting :=
  let integer (set : Option Int → Setting) : Except UsageFault Setting :=
    match value with
    | none => .ok (set none)
    | some text =>
        match Text.readInt? text.toList with
        | some n => .ok (set (some n))
        | none => .error (.notInteger f text)
  match f with
  | .help => .ok .help
  | .verbose => .ok .verbose
  | .config => .ok (.config (value.map Path.ofText))
  | .api => .ok (.api value)
  | .output => .ok (.output (value.map Path.ofText))
  | .maxDepth => integer .maxDepth
  | .workers => integer .workers
  | .collectFailures => .ok .collectFailures
  | .json => .ok .json

/-! ## Words -/

/-- How a word reads: as an operand, as the mark after which all words are operands, as a flag, as a
flag with a text joined to its long or short name, or as a flag that is not known. Text is joined to
a name by an equals sign, and to a short name also directly. -/
inductive Reading where
  | operand
  | endOfFlags
  | flag (f : Flag)
  | longFlagWith (f : Flag) (text : List Char)
  | shortFlagWith (f : Flag) (text : List Char)
  | unknownFlag
deriving DecidableEq, Repr

/-- The names of some flags, each with its flag. -/
def namesOf (flags : List Flag) : List (List Char × Flag) :=
  flags.flatMap fun f => f.names.map fun n => (n.toList, f)

/-- The flag with a name. -/
def flagNamed? (flags : List Flag) (name : List Char) : Option Flag :=
  ((namesOf flags).find? fun n => n.1 == name).map (·.2)

/-- The text before the first equals sign, and the text after it if there is one. -/
def splitEquals (cs : List Char) : List Char × Option (List Char) :=
  match cs.dropWhile (· != '=') with
  | [] => (cs, none)
  | _ :: value => (cs.takeWhile (· != '='), some value)

/-- A non-empty text of digits of any script. A line break may end it. -/
def isDigits (cs : List Char) : Bool :=
  let body := if cs.getLast? == some '\n' then cs.dropLast else cs
  !body.isEmpty && body.all fun c => (Text.digitValue? c).isSome

/-- Whether a word is a negative number, with or without a fraction. -/
def isNegativeNumber : List Char → Bool
  | '-' :: rest =>
      isDigits rest ||
        match rest.dropWhile fun c => (Text.digitValue? c).isSome with
        | '.' :: fraction => isDigits fraction
        | _ => false
  | _ => false

/-- A word with a dash that names no flag: a number and a word with a space are operands. -/
def readStray (cs : List Char) : Reading :=
  if isNegativeNumber cs || cs.contains ' ' then .operand else .unknownFlag

/-- A word that starts with a part of a long name. -/
def readCut (flags : List Flag) (cs : List Char) : Except UsageFault Reading :=
  let (name, value) := splitEquals cs
  match (namesOf flags).filter fun n => name.isPrefixOf n.1 with
  | [] => .ok (readStray cs)
  | [(_, f)] =>
      match value with
      | none => .ok (.flag f)
      | some v => .ok (.longFlagWith f v)
  | candidates =>
      .error (.ambiguous (String.ofList cs) (candidates.map fun n => String.ofList n.1))

/-- A word as one of some flags, or as an operand. -/
def readWord (flags : List Flag) (word : String) : Except UsageFault Reading :=
  match word.toList with
  | '-' :: c :: rest =>
      match flagNamed? flags ('-' :: c :: rest) with
      | some f => .ok (.flag f)
      | none =>
          let (name, value) := splitEquals ('-' :: c :: rest)
          match flagNamed? flags name, value with
          | some f, some v => .ok (if c = '-' then .longFlagWith f v else .shortFlagWith f v)
          | _, _ =>
              if c = '-' then readCut flags ('-' :: c :: rest)
              else
                match flagNamed? flags ['-', c] with
                | some f => .ok (.shortFlagWith f rest)
                | none => .ok (readStray ('-' :: c :: rest))
  | _ => .ok .operand

/-- All words with their readings. After the first word of two dashes every word is an operand. -/
def readWords (flags : List Flag) : List String → Except UsageFault (List (String × Reading))
  | [] => .ok []
  | word :: rest =>
      if word == "--" then .ok ((word, .endOfFlags) :: rest.map fun w => (w, .operand))
      else do
        let r ← readWord flags word
        let more ← readWords flags rest
        return (word, r) :: more

/-! ## Flags with their values -/

/-- What a word of flags gives: the flags with their values, and whether the next word was taken as
the value of the last. -/
structure Taken where
  given : List (Flag × Option String) := []
  usedNext : Bool := false
deriving DecidableEq, Repr

/-- A flag that stands alone: its value is the next word, if that is an operand. -/
def takeFlag (next : Option String) (f : Flag) : Except UsageFault Taken :=
  if f.takesValue then
    match next with
    | some value => .ok { given := [(f, some value)], usedNext := true }
    | none => .error (.missingValue f)
  else .ok { given := [(f, none)] }

/-- A flag with the value that is joined to it. Two dashes are none: the library that reads the words
drops two dashes from the values of every flag in the release that the program is run with, and takes
joined ones for a value in later releases. -/
def takeValue (f : Flag) (text : List Char) : Taken :=
  let value := if text = ['-', '-'] then none else some (String.ofList text)
  { given := [(f, value)] }

/-- A long flag with a text joined to it. -/
def takeLong (f : Flag) (text : List Char) : Except UsageFault Taken :=
  if f.takesValue then .ok (takeValue f text)
  else .error (.unusedValue f (String.ofList text))

/-- A short flag with a text joined to it: its value, or further short flags. -/
def takeShort (flags : List Flag) (next : Option String) (f : Flag) :
    List Char → Except UsageFault Taken
  | [] => if f.takesValue then .ok (takeValue f []) else .error (.unusedValue f "")
  | c :: rest =>
      if f.takesValue then .ok (takeValue f (c :: rest))
      else
        match flagNamed? flags ['-', c] with
        | none => .error (.unusedValue f (String.ofList (c :: rest)))
        | some g => do
            let t ← if rest.isEmpty then takeFlag next g else takeShort flags next g rest
            return { t with given := (f, none) :: t.given }

end TypeOrigins.CommandLine
