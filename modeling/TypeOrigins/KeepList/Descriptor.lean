import TypeOrigins.KeepList.Basic

/-! # Linker descriptors

The document that tells a linker what to keep: one element for each assembly and, inside it, one for
each type, with the names as attributes. A name is written so that it cannot end its attribute:
markup characters and line breaks become references, and the quote is one that the name does not
hold, or else its own double quotes become references too. -/

namespace TypeOrigins.Descriptor
set_option autoImplicit false

/-- One character of a name. -/
def escapeChar : Char → List Char
  | '&' => "&amp;".toList
  | '<' => "&lt;".toList
  | '>' => "&gt;".toList
  | '\n' => "&#10;".toList
  | '\r' => "&#13;".toList
  | '\t' => "&#9;".toList
  | c => [c]

/-- A double quote as a reference; every other character as it is. -/
def escapeQuote : Char → List Char
  | '"' => "&quot;".toList
  | c => [c]

/-- A name as an attribute value with its quotes. -/
def quotedName (name : String) : String :=
  let body := name.toList.flatMap escapeChar
  if body.contains '"' then
    if body.contains '\'' then String.ofList ('"' :: body.flatMap escapeQuote ++ ['"'])
    else String.ofList ('\'' :: body ++ ['\''])
  else String.ofList ('"' :: body ++ ['"'])

/-- The first line. -/
def declaration : String := "<?xml version=\"1.0\" encoding=\"utf-8\"?>"

/-- The lines of one assembly. -/
def assemblyLines (group : String × List String) : List String :=
  ["  <assembly fullname=" ++ quotedName group.1 ++ ">"] ++
    group.2.map (fun t => "    <type fullname=" ++ quotedName t ++ "/>") ++ ["  </assembly>"]

/-- The lines of a descriptor. -/
def lines (k : KeepList) : List String :=
  [declaration, "<linker>"] ++ k.groups.flatMap assemblyLines ++ ["</linker>"]

/-- The descriptor of a keep list. -/
def render (k : KeepList) : String :=
  "\n".intercalate (lines k) ++ "\n"

end TypeOrigins.Descriptor
