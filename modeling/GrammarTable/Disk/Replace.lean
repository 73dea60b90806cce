import GrammarTable.Disk.Walk

/-!
# Replacing files

A file gets a new content through a temporary file beside it, which takes its place by
renaming. So the user must have the right to write the directory, but needs no right to
the old file. The new file has the mode of the old one. If renaming fails the temporary
file goes away, and the disk is what it was.
-/

namespace GrammarTable.Disk

open Files

/-- The form of a temporary file's name, with other signs in the stead of the crosses. -/
def temporaryForm : String :=
  ".tmpXXXXXX"

def absolute (disk : Disk) (path : String) : String :=
  if Path.isAbsolute path then path
  else "/" ++ "/".intercalate disk.home ++ "/" ++ path

/-- The place of the directory in which a temporary file for a path is made. That file
has a path from the root, which must be neither too long nor hold a zero byte, and the
user must have the right to make files in the directory. -/
def locateParent (disk : Disk) (path : String) : Except Fault Place :=
  let directory := Path.parent path
  match refusal? (disk.absolute directory ++ "/" ++ temporaryForm) with
  | some fault => .error fault
  | none =>
      match disk.walk (disk.start directory) (Path.names directory ++ ["."]) with
      | .error fault => .error fault
      | .ok place => if disk.allows place .write then .ok place else .error .denied

def modeFor (disk : Disk) (path : String) : Nat :=
  match disk.find path with
  | .ok entry => entry.mode
  | .error _ => (newFile .empty).mode

/-- The place that something can be renamed to by a path. A path with a zero byte is an
argument that renaming does not take. A final slash asks for a directory, a final dot is
in use, and a directory is not replaced by a file. -/
def locateTarget (disk : Disk) (path : String) : Except Fault Place :=
  let last := Path.lastName path
  match disk.locateHolder path with
  | .error .zeroByte => .error .invalid
  | .error fault => .error fault
  | .ok holder =>
      match disk.step holder last with
      | .error fault => .error fault
      | .ok target =>
          if last = "." ∨ last = ".." then .error .busy
          else if Path.endsInSlash path then .error .notDirectory
          else
            match disk.entry? target with
            | none => .ok target
            | some entry => if entry.isDirectory then .error .isDirectory else .ok target

def rename (disk : Disk) (source : Place) (path : String) : Except Fault Disk :=
  match disk.entry? source, disk.locateTarget path with
  | none, _ => .error .missing
  | some _, .error fault => .error fault
  | some entry, .ok target => .ok ((disk.remove source).put target entry)

def replace (disk : Disk) (path : String) (bytes : ByteArray) :
    Except Fault Unit × Disk :=
  match disk.locateParent path with
  | .error fault => (.error fault, disk)
  | .ok parent =>
      let temporary := parent ++ [disk.freshName]
      let written := disk.put temporary { newFile bytes with mode := disk.modeFor path }
      match written.rename temporary path with
      | .error fault => (.error fault, written.remove temporary)
      | .ok renamed => (.ok (), renamed)

end GrammarTable.Disk
