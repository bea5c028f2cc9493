import TypeOrigins.Document.Yaml
import TypeOrigins.Facts.Integrity
import TypeOrigins.Facts.Shape
import TypeOrigins.Files.Tree
import TypeOrigins.Report.Event

/-! # Loading programs

A facts document becomes a program in two steps: its shape is checked, and then the integrity of
what it describes. A document in a file is JSON, or YAML if the name of the file says so. Loading
takes the reader of YAML, which is the work of others, as a parameter. -/

namespace TypeOrigins.Facts
set_option autoImplicit false

/-- Why a facts document is no program. -/
inductive FactsFault where
  | unreadable (e : FileError)
  | undecodable (message : String)
  | notMapping
  | invalid (issues : List Issue)
  | broken (fault : IntegrityFault)
deriving DecidableEq, Repr

namespace FactsFault

/-- The wording of a fault. -/
def message : FactsFault → String
  | unreadable e => "cannot read facts document: " ++ e.message
  | undecodable m => "cannot decode facts document" ++ m
  | notMapping => "facts document must be a mapping"
  | invalid issues => issuesMessage "ProgramFactsDoc" issues
  | broken f => f.message

/-- The issues a fault lists. -/
def issues? : FactsFault → Option (List Issue)
  | invalid issues => some issues
  | _ => none

end FactsFault

/-! ## Readers -/

/-- An error of a reader that is not its word for a text that it refuses: its kind and its wording. -/
structure ReaderError where
  kind : String
  message : String
deriving DecidableEq, Repr

/-- Why a reader gives no document: it refuses the text, it breaks off with an error of another kind,
or the text spells something that no document is. -/
inductive ReaderFault where
  | refused
  | error (e : ReaderError)
  | beyond
deriving DecidableEq, Repr

/-- What the notations of files are read with: a reader of YAML, of which nothing is supposed, and
how deep the reader of JSON can go into lists and objects. -/
structure Readers where
  yaml : List Char → Except ReaderFault Document
  jsonRoom : Nat

/-- The kind of the error that a scalar without a value makes. -/
def scalarErrorKind : Yaml.ScalarFault → String
  | .noNumber => "IndexError"
  | .noTruth _ => "KeyError"
  | .noMoment => "AttributeError"
  | .hugeCodePoint | .hugeUnit => "OverflowError"
  | _ => "ValueError"

/-- The fault of a text that is not read as YAML. -/
def ReaderFault.ofYaml : Yaml.Fault → ReaderFault
  | .malformed => .refused
  | .scalar f => .error ⟨scalarErrorKind f, f.message⟩
  | .beyond => .beyond

/-- The readers that the program runs with. How deep JSON can go depends on the calls it is read in;
this is about as deep as it goes from a command. -/
def Readers.standard : Readers where
  yaml cs := (Yaml.read cs).mapError .ofYaml
  jsonRoom := 990

/-- Why a file gives no program: its document is at fault, its path is none, its bytes are no text,
it holds an integer with too many digits or collections nested too deep, its reader broke off, its
fault cannot be written, or it spells something that no document is. -/
inductive LoadFault where
  | facts (fault : FactsFault)
  | nullInPath
  | notText (fault : Text.Utf8Fault)
  | longInteger (digits : Nat)
  | tooDeep (collection : Json.Collection)
  | reader (e : ReaderError)
  | unwritable
  | beyond
deriving DecidableEq, Repr

namespace LoadFault

/-- The wording of a fault. -/
def message : LoadFault → String
  | .facts f => f.message
  | .nullInPath => FileError.message .nullInPath
  | .notText f => f.message
  | .longInteger digits => Text.longNumeralMessage digits
  | .tooDeep c => c.tooDeepMessage
  | .reader e => e.message
  | .unwritable => Text.longIntegerMessage
  | .beyond => "facts document is beyond what is read"

/-- The fault of a document that is no program. -/
def ofFacts : FactsFault → LoadFault
  | .broken f => if f.isWritable then .facts (.broken f) else .unwritable
  | f => .facts f

/-- The fault of a file that cannot be read. -/
def ofFile : FileError → LoadFault
  | .nullInPath => .nullInPath
  | e => .facts (.unreadable e)

/-- The fault of a text that is not YAML. -/
def ofYaml : ReaderFault → LoadFault
  | .refused => .facts (.undecodable "")
  | .error e => .reader e
  | .beyond => .beyond

/-- The fault of a text that is not JSON. -/
def ofJson (cs : List Char) : Json.Fault → LoadFault
  | .malformed reason position =>
      .facts (.undecodable (": " ++ reason.messageAt cs position))
  | .longInteger digits => .longInteger digits
  | .tooDeep c => .tooDeep c

end LoadFault

/-! ## Programs -/

/-- The program that the fields of a document describe, whether or not it is sound. -/
def shape (fields : Document.Fields) : Except FactsFault Program :=
  match checkProgram fields with
  | .valid p => .ok p
  | .invalid is => .error (.invalid is)

/-- The sound program that the fields of a document describe. -/
def parse (fields : Document.Fields) : Except FactsFault Program := do
  let p ← shape fields
  match integrityFault? p with
  | none => .ok p
  | some f => .error (.broken f)

/-- Whether the name of a file says that it holds YAML. -/
def isYaml (path : Path) : Bool :=
  path.lowerSuffix == ".yaml" || path.lowerSuffix == ".yml"

/-- The document of a text that was read as JSON. Fields with a string that is no text are beyond
documents. -/
def intactDocument : Json.Reading → Except LoadFault Document
  | ⟨.object _, false⟩ => .error .beyond
  | r => .ok r.document

/-- The document a text spells, in the notation that the name of its file says. -/
def decode (readers : Readers) (path : Path) (cs : List Char) : Except LoadFault Document :=
  if isYaml path then (readers.yaml cs).mapError .ofYaml
  else ((Json.read readers.jsonRoom cs).mapError (.ofJson cs)).bind intactDocument

/-- The program of a file. -/
def load (readers : Readers) (files : FileTree) (path : Path) : Logged LoadFault Program := do
  let bytes ← Logged.lift ((files.read path).mapError .ofFile)
  let cs ← Logged.lift ((Text.decodeUtf8 bytes).mapError .notText)
  let document ← Logged.lift (decode readers path (Text.unifyLines cs))
  match document with
  | .object fields => do
      let p ← Logged.lift ((parse fields).mapError .ofFacts)
      Logged.say (.factsLoaded path.display p.methodTable.length p.callSites.length)
      return p
  | _ => .fail (.facts .notMapping)

end TypeOrigins.Facts
