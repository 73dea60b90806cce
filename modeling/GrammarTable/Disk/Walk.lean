import GrammarTable.Disk.Basic
import GrammarTable.Files.Fault
import GrammarTable.Path

/-!
# Walks

A path leads along its names from the working directory, or from the root if it starts
with a slash. Every step starts from a directory that the user may search. Names and paths
have a greatest length, and no path holds a zero byte.
-/

namespace GrammarTable.Disk

open Files

def nameLimit : Nat :=
  255

def pathLimit : Nat :=
  4095

/-- Why a path leads nowhere, whatever the disk holds. -/
def refusal? (path : String) : Option Fault :=
  if path.toList.contains '\x00' then some .zeroByte
  else if path = "" then some .missing
  else if pathLimit < path.utf8ByteSize then some .tooLong
  else none

def start (disk : Disk) (path : String) : Place :=
  if Path.isAbsolute path then [] else disk.home

/-- Go one step on from a place. What is above the root is the root. -/
def step (disk : Disk) (place : Place) (name : String) : Except Fault Place :=
  match disk.entry? place with
  | none => .error .missing
  | some entry =>
      if !entry.isDirectory then .error .notDirectory
      else if !entry.allows .search then .error .denied
      else if name = "." then .ok place
      else if name = ".." then .ok place.dropLast
      else if nameLimit < name.utf8ByteSize then .error .tooLong
      else .ok (place ++ [name])

def walk (disk : Disk) (place : Place) : List String → Except Fault Place
  | [] => .ok place
  | name :: names =>
      match disk.step place name with
      | .error fault => .error fault
      | .ok next => disk.walk next names

/-- The entry that a path leads to, with its place. A final slash asks for a directory. -/
def locate (disk : Disk) (path : String) : Except Fault (Place × Entry) :=
  match refusal? path with
  | some fault => .error fault
  | none =>
      match disk.walk (disk.start path) (Path.names path) with
      | .error fault => .error fault
      | .ok place =>
          match disk.entry? place with
          | none => .error .missing
          | some entry =>
              if Path.endsInSlash path && !entry.isDirectory then .error .notDirectory
              else .ok (place, entry)

/-- The place of the directory in which the last name on a path stands. -/
def locateHolder (disk : Disk) (path : String) : Except Fault Place :=
  match refusal? path with
  | some fault => .error fault
  | none => disk.walk (disk.start path) ((Path.names path).dropLast ++ ["."])

def find (disk : Disk) (path : String) : Except Fault Entry :=
  (disk.locate path).map Prod.snd

def isDirectory (disk : Disk) (path : String) : Bool :=
  match disk.find path with
  | .ok entry => entry.isDirectory
  | .error _ => false

/-- The bytes of the file that a path leads to. The user must have the right to read even
what turns out to be a directory. -/
def readBytes (disk : Disk) (path : String) : Except Fault ByteArray :=
  match disk.find path with
  | .error fault => .error fault
  | .ok entry =>
      if !entry.allows .read then .error .denied
      else
        match entry.content with
        | .directory => .error .isDirectory
        | .file bytes => .ok bytes

def read (disk : Disk) (path : String) : Except Fault String :=
  match disk.readBytes path with
  | .error fault => .error fault
  | .ok bytes =>
      match String.fromUTF8? bytes with
      | some text => .ok text
      | none => .error .undecodable

end GrammarTable.Disk
