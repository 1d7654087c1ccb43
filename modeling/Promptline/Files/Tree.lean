import Promptline.Files.Path

set_option autoImplicit false

/-! # File trees

A tree of directories, files and symbolic links, as a process sees it that looks for commands and
completes names. The tree is kept as a list of its nodes by place, from the root on. Absolute paths
start at the root, and relative ones at the current directory of the process, which is anywhere in
the tree. -/

namespace Promptline

/-- What the process may do in a directory. -/
structure Access where
  /-- Read what names there are. -/
  list : Bool := true
  /-- Look up what stands under a name. -/
  search : Bool := true
  deriving DecidableEq, Repr

/-- What stands at a place of the tree. -/
inductive Node where
  | file (mode : Nat) (content : List UInt8)
  | directory (access : Access)
  | link (target : Path)
  /-- A device, a pipe or a socket. -/
  | special
  deriving DecidableEq, Repr

def Node.isDirectory : Node → Bool
  | directory _ => true
  | _ => false

/-- Why a path leads nowhere. -/
inductive FileError where
  | notFound
  | notADirectory
  | tooManyLinks
  | nameTooLong
  | invalidPath
  | permissionDenied
  deriving DecidableEq, Repr

/-- Places with what stands there, and the place of the current directory. A place is the names that
    lead to it from the root. -/
structure FileTree where
  nodes : List (List Path × Node)
  current : List Path
  deriving Repr

namespace FileTree

/-- The tree of a process that starts in an empty directory. As for any process, there is a link to
    this directory under a name that does not depend on where it is. -/
def empty : FileTree :=
  { nodes :=
      [([], .directory {}),
        ([Path.ofString "home"], .directory {}),
        ([Path.ofString "proc"], .directory {}),
        ([Path.ofString "proc", Path.ofString "self"], .directory {}),
        ([Path.ofString "proc", Path.ofString "self", Path.ofString "cwd"],
          .link (Path.ofString "/home"))]
    current := [Path.ofString "home"] }

/-- What stands at a place. -/
def node? (t : FileTree) (place : List Path) : Option Node :=
  t.nodes.lookup place

def isDirectoryAt (t : FileTree) (place : List Path) : Bool :=
  (t.node? place).any Node.isDirectory

/-! ## Following paths -/

/-- Where a path starts that is met at a place, and the names along it. The names of an absolute
    path start at the root; the first of them is empty and leads nowhere else. -/
def departure (place : List Path) (p : Path) : List Path × List Path :=
  (if p.isAbsolute then [] else place, p.components)

/-- The longest name that a directory can hold. -/
def maxNameLength : Nat := 255

/-- Walks along names from a place, and hands over to `follow` at a link. The directory above the
    root is the root itself. -/
def walkWith (t : FileTree) (follow : List Path → List Path → Except FileError (List Path))
    (place : List Path) : List Path → Except FileError (List Path)
  | [] => .ok place
  | name :: rest =>
    match t.node? place with
    | none => .error .notFound
    | some (.directory access) =>
      if name.isEmpty then walkWith t follow place rest
      else if !access.search then .error .permissionDenied
      else if name = Path.here then walkWith t follow place rest
      else if name = Path.above then walkWith t follow place.dropLast rest
      else if maxNameLength < name.length then .error .nameTooLong
      else match t.node? (place ++ [name]) with
        | none => .error .notFound
        | some (.link target) =>
          let (place', names) := departure place target
          follow place' (names ++ rest)
        | some _ => walkWith t follow (place ++ [name]) rest
    | some _ => .error .notADirectory

/-- Walks along names from a place through at most `links` links. -/
def walk (t : FileTree) : Nat → List Path → List Path → Except FileError (List Path)
  | 0 => t.walkWith fun _ _ => .error .tooManyLinks
  | links + 1 => t.walkWith (t.walk links)

/-- How many links are followed on the way along one path. -/
def maxLinks : Nat := 40

/-- The longest path that is followed. -/
def maxPathLength : Nat := 4095

/-- The place that a path leads to. -/
def resolve (t : FileTree) (p : Path) : Except FileError (List Path) :=
  if p.contains 0 then .error .invalidPath
  else if p.isEmpty then .error .notFound
  else if maxPathLength < p.length then .error .nameTooLong
  else
    let (place, names) := departure t.current p
    t.walk maxLinks place names

/-- What a path leads to. -/
def stat? (t : FileTree) (p : Path) : Option Node :=
  match t.resolve p with
  | .error _ => none
  | .ok place => t.node? place

/-- Whether a path leads to a directory. -/
def isDirectory (t : FileTree) (p : Path) : Bool :=
  (t.stat? p).any Node.isDirectory

/-- Whether a mode lets anyone execute the file. -/
def isExecutableMode (mode : Nat) : Bool :=
  mode &&& 0o111 != 0

/-- Whether a path leads to a file that may be executed. -/
def isExecutable (t : FileTree) (p : Path) : Bool :=
  match t.stat? p with
  | some (.file mode _) => isExecutableMode mode
  | _ => false

/-- What a file holds. -/
def content? (t : FileTree) (p : Path) : Option (List UInt8) :=
  match t.stat? p with
  | some (.file _ content) => some content
  | _ => none

/-- The name that a place has right below another. -/
def nameBelow? (place child : List Path) : Option Path :=
  match child.getLast? with
  | some name => if child.dropLast = place then some name else none
  | none => none

/-- The names in the directory that a path leads to. -/
def list (t : FileTree) (p : Path) : Except FileError (List Path) :=
  match t.resolve p with
  | .error e => .error e
  | .ok place =>
    match t.node? place with
    | none => .error .notFound
    | some (.directory access) =>
      if access.list then .ok (t.nodes.filterMap fun (child, _) => nameBelow? place child)
      else .error .permissionDenied
    | some _ => .error .notADirectory

/-! ## Changing the tree

Nothing that the process writes or removes is refused it. -/

/-- Puts a node at a place, instead of what stood there. -/
def set (t : FileTree) (place : List Path) (n : Node) : FileTree :=
  { t with nodes := t.nodes.filter (fun entry => entry.1 != place) ++ [(place, n)] }

/-- Makes the directories along names from a place that are not there yet. Links are followed. -/
def makeAlong (t : FileTree) (place : List Path) : List Path → FileTree × List Path
  | [] => (t, place)
  | name :: rest =>
    if name.isEmpty || name = Path.here then makeAlong t place rest
    else if name = Path.above then makeAlong t place.dropLast rest
    else
      let below := place ++ [name]
      match t.node? below with
      | none => makeAlong (t.set below (.directory {})) below rest
      | some (.link _) =>
        match t.walk maxLinks place [name] with
        | .ok target => makeAlong t target rest
        | .error _ => makeAlong t below rest
      | some _ => makeAlong t below rest

/-- Makes the directory that a path names, and those above it. -/
def makeDirectory (t : FileTree) (p : Path) : FileTree × List Path :=
  let (place, names) := departure t.current p
  t.makeAlong place names

/-- The place of a path whose last name need not exist; the directories above it are made. -/
def makeParent (t : FileTree) (p : Path) : FileTree × List Path :=
  let (place, names) := departure t.current p
  let (t', parent) := t.makeAlong place names.dropLast
  (t', parent ++ [names.getLast?.getD []])

/-- Puts a node at a path. Directories above it are made. -/
def put (t : FileTree) (p : Path) (n : Node) : FileTree :=
  let (t', place) := t.makeParent p
  t'.set place n

/-- Removes what stands at a path. -/
def remove (t : FileTree) (p : Path) : FileTree :=
  let (t', place) := t.makeParent p
  { t' with nodes := t'.nodes.filter fun entry => entry.1 != place }

/-- The mode of a file that a program makes. -/
def newFileMode : Nat := 0o644

/-- The place to make a file at whose last name leads nowhere yet: a new name in an existing
    directory. A link that leads nowhere is followed, through at most `links` links. -/
def newPlace (t : FileTree) : Nat → List Path → List Path → Except FileError (List Path)
  | links, place, names =>
    match names.getLast? with
    | none => .error .notFound
    | some name =>
      if name.isEmpty then .error .permissionDenied
      else match t.walk maxLinks place names.dropLast with
        | .error e => .error e
        | .ok parent =>
          if !t.isDirectoryAt parent then .error .notADirectory
          else match t.node? (parent ++ [name]), links with
            | some (.link _), 0 => .error .tooManyLinks
            | some (.link target), links + 1 =>
              let (place', names') := departure parent target
              newPlace t links place' names'
            | _, _ => .ok (parent ++ [name])

/-- Where writing to a path goes: the place it leads to, or a new one in an existing directory. -/
def writePlace (t : FileTree) (p : Path) : Except FileError (List Path) :=
  match t.resolve p with
  | .ok place => if t.isDirectoryAt place then .error .permissionDenied else .ok place
  | .error .notFound =>
    let (place, names) := departure t.current p
    t.newPlace maxLinks place names
  | .error e => .error e

/-- Writes a file: over what it holds, or behind it. A device keeps nothing. -/
def write (t : FileTree) (p : Path) (append : Bool) (bytes : List UInt8) :
    Except FileError FileTree :=
  match t.writePlace p with
  | .error e => .error e
  | .ok place =>
    match t.node? place with
    | some (.file mode content) =>
      .ok (t.set place (.file mode (if append then content ++ bytes else bytes)))
    | some .special => .ok t
    | _ => .ok (t.set place (.file newFileMode bytes))

end FileTree

end Promptline
