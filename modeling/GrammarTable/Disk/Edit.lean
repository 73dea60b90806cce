import GrammarTable.Calendar
import GrammarTable.Disk.Replace
import GrammarTable.Files.Access

/-!
# Working on a disk

Plain changes to a disk, the list of what it holds, and the access to files that a disk
gives to a run.
-/

namespace GrammarTable.Disk

open Files

def add (disk : Disk) (holder place : Place) (entry : Entry) : Except Fault Disk :=
  if disk.allows holder .write then .ok (disk.put place entry) else .error .denied

/-- Write a file. One that is there keeps its mode. A path that ends with a slash can only
lead to a directory. -/
def write (disk : Disk) (path : String) (bytes : ByteArray) : Except Fault Disk :=
  match disk.locateHolder path with
  | .error fault => .error fault
  | .ok holder =>
      if Path.endsInSlash path then .error .isDirectory
      else
        match disk.step holder (Path.lastName path) with
        | .error fault => .error fault
        | .ok place =>
            match disk.entry? place with
            | none => disk.add holder place (newFile bytes)
            | some entry =>
                if entry.isDirectory then .error .isDirectory
                else if !entry.allows .write then .error .denied
                else .ok (disk.put place { entry with content := .file bytes })

def makeDirectory (disk : Disk) (path : String) : Except Fault Disk :=
  match disk.locateHolder path with
  | .error fault => .error fault
  | .ok holder =>
      match disk.step holder (Path.lastName path) with
      | .error fault => .error fault
      | .ok place =>
          match disk.entry? place with
          | some _ => .error .occupied
          | none => disk.add holder place newDirectory

/-- Make the first directory of a list. If something is missing on the way to it, the
others of the list are made before. A directory that is there will do. On a fault the
directories made so far stay. -/
def makeFirst (disk : Disk) : List String → Except Fault Unit × Disk
  | [] => (.ok (), disk)
  | path :: paths =>
      match disk.makeDirectory path with
      | .ok made => (.ok (), made)
      | .error .missing =>
          match disk.makeFirst paths with
          | (.error fault, disk) => (.error fault, disk)
          | (.ok (), disk) =>
              match disk.makeDirectory path with
              | .ok made => (.ok (), made)
              | .error fault =>
                  (if disk.isDirectory path then .ok () else .error fault, disk)
      | .error fault => (if disk.isDirectory path then .ok () else .error fault, disk)

def makeDirectories (disk : Disk) (path : String) : Except Fault Unit × Disk :=
  if path = "" then (.ok (), disk) else disk.makeFirst (path :: Path.above path)

/-- Give what a path leads to another mode, which only its owner may do. -/
def changeMode (disk : Disk) (path : String) (mode : Nat) : Except Fault Disk :=
  match disk.locate path with
  | .error fault => .error fault
  | .ok (place, entry) =>
      if entry.owned then .ok (disk.put place { entry with mode := mode })
      else .error .notOwner

/-- Whether listing a directory, and the directories below it, comes to the entry that
some names lead to from there. Directories that the user may not read stay closed. -/
def lists (disk : Disk) (directory : Place) : List String → Bool
  | [] => true
  | [_] => disk.allows directory .read
  | name :: names =>
      disk.allows directory .read && disk.allows directory .search &&
        disk.lists (directory ++ [name]) names

/-- The path of an entry from the directory that its place starts at; that of a directory
ends with a slash. -/
def entryPath (place : Place) (entry : Entry) : String :=
  if entry.isDirectory then "/".intercalate place ++ "/" else "/".intercalate place

def pathBelow? (disk : Disk) (place : Place) (entry : Entry) : Option String :=
  let names := place.drop disk.home.length
  if disk.home.isPrefixOf place && !names.isEmpty && disk.lists disk.home names then
    some (entryPath names entry)
  else none

/-- The paths of all entries below the working directory that a listing comes to, in
order. The listing starts from a path, so the user must have the right to search the
working directory. -/
def paths (disk : Disk) : List String :=
  if disk.allows disk.home .search then
    (disk.entries.filterMap fun (place, entry) => disk.pathBelow? place entry).mergeSort
  else []

def access (moment : Calendar.Moment) : Access (StateM Disk) where
  read := fun path => do return (← get).read path
  replace := fun path text => modifyGet fun disk => disk.replace path text.toUTF8
  now := pure moment

end GrammarTable.Disk
