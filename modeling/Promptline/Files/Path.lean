set_option autoImplicit false

/-! # Paths

A path is bytes: names between slashes. Nothing says that the bytes spell any text. -/

namespace Promptline

/-- The bytes of a path, or of one name in it. -/
abbrev Path := List UInt8

namespace Path

/-- The byte of `/`. -/
def slash : UInt8 := 0x2F

/-- The path with the bytes of a text. -/
def ofString (s : String) : Path :=
  s.toUTF8.toList

/-- Whether the path starts at the root. -/
def isAbsolute (p : Path) : Bool :=
  p.head? == some slash

/-- The names between slashes, empty ones included. -/
def components (p : Path) : List Path :=
  p.splitOn slash

/-- The path `p` with `q` behind it, and one slash in between. An absolute `q` stands alone. -/
def join (p q : Path) : Path :=
  if q.isAbsolute then q
  else if p.isEmpty then q
  else if p.getLast? = some slash then p ++ q
  else p ++ [slash] ++ q

/-- The current directory, and the directory above. -/
def here : Path := [0x2E]
def above : Path := [0x2E, 0x2E]

/-! ## Parent and last name -/

/-- The names that count: empty ones are left out, and single dots, except at the beginning. -/
def normalNames (p : Path) : List Path :=
  match p.components with
  | [] => []
  | first :: rest =>
    let rest := rest.filter fun name => !name.isEmpty && name != here
    if first.isEmpty then rest else first :: rest

/-- The last name, unless the path ends above, at the current directory or at the root. -/
def fileName? (p : Path) : Option Path :=
  match p.normalNames.getLast? with
  | none => none
  | some name => if name = above || name = here then none else some name

/-- Names with slashes between them. -/
def ofNames (names : List Path) : Path :=
  [slash].intercalate names

/-- The path without its last name; the root and the empty path have no parent. -/
def parent? (p : Path) : Option Path :=
  match p.normalNames with
  | [] => none
  | names =>
    some ((if p.isAbsolute then [slash] else []) ++ ofNames names.dropLast)

end Path

end Promptline
