import TypeOrigins.Document.Toml
import TypeOrigins.Document.Yaml
import TypeOrigins.Files.Tree
import TypeOrigins.Settings.Basic

/-! # Settings files

Settings from a file: TOML or YAML, as its name says. An empty YAML document is an empty mapping. -/

namespace TypeOrigins.Settings
set_option autoImplicit false

/-- Why a file gives no settings: they are at fault, its path is none, it holds an integer with too
many digits or another scalar that has no value, or it is beyond what is read. -/
inductive ReadFault where
  | settings (fault : SettingsFault)
  | nullInPath
  | longInteger (digits : Nat)
  | scalar (fault : Yaml.ScalarFault)
  | beyond
deriving DecidableEq, Repr

namespace ReadFault

/-- The wording of a fault. -/
def message : ReadFault → String
  | .settings f => f.message
  | .nullInPath => FileError.message .nullInPath
  | .longInteger digits => Text.longNumeralMessage digits
  | .scalar f => f.message
  | .beyond => "settings file is beyond what is read"

/-- The fault of a file that cannot be read. -/
def ofFile : FileError → ReadFault
  | .nullInPath => .nullInPath
  | e => .settings (.unreadable e.message)

/-- The fault of a text that is not YAML. -/
def ofYaml : Yaml.Fault → ReadFault
  | .malformed => .settings .unparsable
  | .scalar f => .scalar f
  | .beyond => .beyond

end ReadFault

/-- The document a text spells, in the notation that the name of its file says. -/
def decode (path : Path) (cs : List Char) : Except ReadFault Document :=
  let suffix := path.lowerSuffix
  if suffix == ".toml" then
    match Toml.read cs with
    | .ok fields => .ok (.object fields)
    | .error .malformed => .error (.settings .unparsable)
    | .error (.longInteger digits) => .error (.longInteger digits)
  else if suffix == ".yaml" || suffix == ".yml" then
    match Yaml.read cs with
    | .ok d => .ok (if d.isEmpty then .object [] else d)
    | .error f => .error (.ofYaml f)
  else .error (.settings (.unsupportedFormat suffix))

/-- The settings of a file. -/
def ofFile (files : FileTree) (path : Path) : Except ReadFault Settings := do
  let bytes ← (files.read path).mapError .ofFile
  let cs ← (Text.decodeUtf8 bytes).mapError fun f => .settings (.unreadable f.message)
  let document ← decode path (Text.unifyLines cs)
  match document with
  | .object fields => (ofMapping fields).mapError .settings
  | _ => .error (.settings .notMapping)

end TypeOrigins.Settings
