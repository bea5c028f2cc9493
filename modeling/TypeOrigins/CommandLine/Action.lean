import TypeOrigins.Files.Tree
import TypeOrigins.Report.Event

/-! # Actions

What a command does to the world it runs in: it looks at the files, says events, prints to standard
output and changes files, and it ends with a value or a trouble. What was printed and changed before
a trouble stays. -/

namespace TypeOrigins.CommandLine
set_option autoImplicit false

/-- What a command can change: the files, and the text on standard output. -/
structure World where
  files : FileTree
  output : String := ""
deriving DecidableEq, Repr

/-- A part of a command: from the world before it to what it says, how it ends, and the world after
it. -/
def Action (α : Type) : Type := World → Logged Trouble α × World

namespace Action

/-- A value, with nothing done. -/
def ok {α : Type} (a : α) : Action α := fun w => (.ok a, w)

/-- One action, then another on its value. -/
def bind {α β : Type} (x : Action α) (f : α → Action β) : Action β := fun w =>
  let first := x w
  match first.1.result with
  | .ok a =>
      let second := f a first.2
      (⟨first.1.events ++ second.1.events, second.1.result⟩, second.2)
  | .error t => (⟨first.1.events, .error t⟩, first.2)

instance : Monad Action where
  pure := ok
  bind := bind

/-- What the files give, which are only looked at. -/
def look {α : Type} (f : FileTree → Logged Trouble α) : Action α := fun w => (f w.files, w)

/-- Stops with a trouble. -/
def stop {α : Type} (t : Trouble) : Action α := fun w => (.fail t, w)

/-- Says one event. -/
def say (e : Event) : Action Unit := fun w => (.say e, w)

/-- Prints a text. -/
def print (text : String) : Action Unit := fun w => (.ok (), { w with output := w.output ++ text })

/-- Changes the files. The trouble of a change that stopped is told from its fault. -/
def change (change : FileTree → FileTree × Option FileError) (trouble : FileError → Trouble) :
    Action Unit := fun w =>
  let r := change w.files
  let w' := { w with files := r.1 }
  match r.2 with
  | none => (.ok (), w')
  | some e => (.fail (trouble e), w')

end Action

end TypeOrigins.CommandLine
