/-!
# Disks

A disk holds files and directories, one of which is the directory in which a run works.
A place is the list of names on the way down to it from the root; the empty list is the
root. An entry has a mode, which says what its owner and what others may do with it.
-/

namespace GrammarTable

/-- The names on the way down to a file or directory. -/
abbrev Disk.Place := List String

inductive Disk.Content where
  | file (bytes : ByteArray)
  | directory

structure Disk.Entry where
  content : Disk.Content
  mode : Nat
  /-- Whether the entry belongs to the user for whom the run works. -/
  owned : Bool

structure Disk where
  /-- The place of the working directory. -/
  home : Disk.Place
  entries : List (Disk.Place × Disk.Entry)

namespace Disk

/-- What a user may be allowed to do. Searching a directory is to go through it to the
entries in it; writing it is to change which entries there are. -/
inductive Right where
  | read
  | write
  | search
  deriving DecidableEq, Repr

/-- The weight of the bit for a right in a digit of a mode. -/
def Right.weight : Right → Nat
  | .read => 4
  | .write => 2
  | .search => 1

/-- A new file of the user: readable by all, writable by its owner. -/
def newFile (bytes : ByteArray) : Entry :=
  ⟨.file bytes, 0o644, true⟩

def newDirectory : Entry :=
  ⟨.directory, 0o755, true⟩

def foreignDirectory (mode : Nat) : Entry :=
  ⟨.directory, mode, false⟩

/-- A disk with an empty working directory and the directories above it, which belong to
someone else. -/
def empty (home : Place) : Disk :=
  ⟨home, ((List.range home.length).map fun depth =>
    (home.take depth, foreignDirectory 0o755)) ++ [(home, newDirectory)]⟩

def Entry.isDirectory (entry : Entry) : Bool :=
  match entry.content with
  | .file _ => false
  | .directory => true

def Entry.permissions (entry : Entry) : Nat :=
  entry.mode % 0o1000

/-- The digit of the mode that holds for the user: the first of the permission bits for
an owner, the last for anyone else. -/
def Entry.digit (entry : Entry) : Nat :=
  if entry.owned then entry.permissions / 0o100 else entry.permissions % 0o10

def Entry.allows (entry : Entry) (right : Right) : Bool :=
  entry.digit / right.weight % 2 == 1

def entry? (disk : Disk) (place : Place) : Option Entry :=
  (disk.entries.find? fun known => known.1 == place).map Prod.snd

def allows (disk : Disk) (place : Place) (right : Right) : Bool :=
  match disk.entry? place with
  | none => false
  | some entry => entry.allows right

/-- The disk with something at a place, in the stead of what stood there. -/
def put (disk : Disk) (place : Place) (entry : Entry) : Disk :=
  if disk.entries.any fun known => known.1 == place then
    { disk with
      entries := disk.entries.map fun known =>
        if known.1 == place then (place, entry) else known }
  else { disk with entries := disk.entries ++ [(place, entry)] }

def remove (disk : Disk) (place : Place) : Disk :=
  { disk with entries := disk.entries.filter fun known => known.1 != place }

def namesLength (disk : Disk) : Nat :=
  disk.entries.foldl (fun total entry =>
    entry.1.foldl (fun total name => total + name.length) total) 0

/-- A name that is longer than every name on the disk. -/
def freshName (disk : Disk) : String :=
  String.ofList ('.' :: List.replicate disk.namesLength 't')

end Disk

end GrammarTable
