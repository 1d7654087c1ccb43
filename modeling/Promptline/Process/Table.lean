import Promptline.Process.Error

set_option autoImplicit false

/-! # The process table

Running processes by group, so that all processes of a statement can be waited for or stopped
together. Group numbers, and the places in a group, are handed out in order and never again. What
a process is does not matter here: the table holds handles. -/

namespace Promptline

/-- A process: its group, and its place in the group. -/
structure ProcessId where
  group : UInt16
  index : UInt16
  deriving DecidableEq, Repr

namespace ProcessId

/-- Both halves as one number, the group in the upper one. -/
def packed (p : ProcessId) : UInt32 :=
  (p.group.toUInt32 <<< 16) ||| p.index.toUInt32

/-- The process with a packed number. -/
def ofPacked (n : UInt32) : ProcessId where
  group := (n >>> 16).toUInt16
  index := (n &&& 0xFFFF).toUInt16

/-- How a process is shown. -/
def shown (p : ProcessId) : String :=
  toString p.group.toNat ++ ":" ++ toString p.index.toNat

end ProcessId

/-- The processes of one group. -/
structure ProcessGroup (α : Type) where
  /-- How many places were handed out. -/
  issued : Nat
  /-- The handles by place, the latest first. -/
  members : List (UInt16 × α)
  deriving DecidableEq, Repr

namespace ProcessGroup

variable {α : Type}

/-- The group before its first process. -/
def empty : ProcessGroup α :=
  { issued := 0, members := [] }

/-- The handles in the order of their places. -/
def handles (g : ProcessGroup α) : List α :=
  g.members.reverse.map (·.2)

def size (g : ProcessGroup α) : Nat :=
  g.members.length

/-- The handle at a place. -/
def handle? (g : ProcessGroup α) (index : UInt16) : Option α :=
  g.members.lookup index

/-- The group without the handle at a place; the place stays handed out. -/
def remove (g : ProcessGroup α) (index : UInt16) : ProcessGroup α :=
  { g with members := g.members.filter fun m => m.1 != index }

end ProcessGroup

structure ProcessTable (α : Type) where
  /-- How many group numbers were handed out. -/
  issuedGroups : Nat
  /-- The groups by number, in increasing order. -/
  groups : List (UInt16 × ProcessGroup α)
  deriving DecidableEq, Repr

namespace ProcessTable

variable {α : Type}

/-- The table before any group. -/
def empty : ProcessTable α :=
  { issuedGroups := 0, groups := [] }

/-- A group that holds, or held, a process. -/
def group? (t : ProcessTable α) (group : UInt16) : Option (ProcessGroup α) :=
  t.groups.lookup group

/-- Puts a group in its place by number, instead of what was there. -/
def setGroup (group : UInt16) (g : ProcessGroup α) :
    List (UInt16 × ProcessGroup α) → List (UInt16 × ProcessGroup α)
  | [] => [(group, g)]
  | (other, h) :: rest =>
    if group < other then (group, g) :: (other, h) :: rest
    else if other < group then (other, h) :: setGroup group g rest
    else (group, g) :: rest

/-- Hands out the next group number. The group comes to be with its first process. -/
def newGroup (t : ProcessTable α) : Except ProcessError (UInt16 × ProcessTable α) :=
  if t.issuedGroups < ProcessError.limit then
    .ok (UInt16.ofNat t.issuedGroups, { t with issuedGroups := t.issuedGroups + 1 })
  else .error .groupIdsExhausted

/-- Puts a handle at the next place of a group. -/
def add (t : ProcessTable α) (group : UInt16) (handle : α) :
    Except ProcessError (ProcessId × ProcessTable α) :=
  let g := (t.group? group).getD .empty
  if g.issued < ProcessError.limit then
    let index := UInt16.ofNat g.issued
    let g' := { issued := g.issued + 1, members := (index, handle) :: g.members }
    .ok ({ group, index }, { t with groups := setGroup group g' t.groups })
  else .error (.groupFull group)

/-- Takes one process out of the table. -/
def remove (t : ProcessTable α) (p : ProcessId) : Option (α × ProcessTable α) :=
  match t.group? p.group with
  | none => none
  | some g =>
    match g.handle? p.index with
    | none => none
    | some handle =>
      some (handle, { t with groups := setGroup p.group (g.remove p.index) t.groups })

/-- Takes a whole group out of the table: how many handles it held. -/
def removeGroup (t : ProcessTable α) (group : UInt16) : Option Nat × ProcessTable α :=
  ((t.group? group).map ProcessGroup.size,
    { t with groups := t.groups.filter fun entry => entry.1 != group })

/-- How many handles a group holds. -/
def groupSize? (t : ProcessTable α) (group : UInt16) : Option Nat :=
  (t.group? group).map ProcessGroup.size

/-- The numbers of the groups, in increasing order. -/
def groupIds (t : ProcessTable α) : List UInt16 :=
  t.groups.map (·.1)

/-- The handles of a group in the order of their places. -/
def handles? (t : ProcessTable α) (group : UInt16) : Option (List α) :=
  (t.group? group).map ProcessGroup.handles

end ProcessTable

end Promptline
