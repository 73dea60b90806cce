import GrammarTable.CommandLine.Execute
import Std.Time.DateTime.Timestamp

/-!
# Program

The program on real files: it carries out the command line that it is given, tells what
there is to tell on the standard error and ends with the exit code of the report.
-/

namespace GrammarTable.Program

open Files

/-- Whether the code of an error is a given one. Some operations give it with its sign
turned. -/
def hasCode (code given : UInt32) : Bool :=
  given == code || 0 - given == code

def faultOf : IO.Error → Fault
  | .noFileOrDirectory _ _ _ => .missing
  | .permissionDenied _ code _ => if hasCode 1 code then .notOwner else .denied
  | .resourceBusy _ _ => .busy
  | .inappropriateType file? code details =>
      if hasCode 20 code then .notDirectory
      else if hasCode 21 code then .isDirectory
      else .other (toString (IO.Error.inappropriateType file? code details))
  | .invalidArgument file? code details =>
      if hasCode 36 code then .tooLong
      else .other (toString (IO.Error.invalidArgument file? code details))
  | error => .other (toString error)

def orFault {α : Type} (act : IO α) : IO (Except Fault α) := do
  try return .ok (← act) catch error => return .error (faultOf error)

def readText (path : String) : IO (Except Fault String) := do
  match ← orFault (IO.FS.readBinFile path) with
  | .error fault => return .error fault
  | .ok bytes =>
      match String.fromUTF8? bytes with
      | some text => return .ok text
      | none => return .error .undecodable

def temporaryBeside (path : String) : IO String := do
  let clock ← IO.monoNanosNow
  return Path.parent path ++ "/.tmp" ++ toString clock

/-- What a path leads to before it gets a new text. -/
inductive Old where
  /-- No file, or none that can have a second name. -/
  | absent
  /-- A file that the user may not write. -/
  | readOnly
  /-- A file that the user may write, open under a second name. -/
  | writable (handle : IO.FS.Handle)

/-- Look at the file of a path, which gets a second name if it can be written. -/
def lookAtOld (path second : String) : IO Old := do
  match ← orFault (IO.FS.hardLink path second) with
  | .error _ => return .absent
  | .ok () =>
      match ← orFault (IO.FS.Handle.mk second .readWrite) with
      | .ok handle => return .writable handle
      | .error _ =>
          IO.FS.removeFile second
          return .readOnly

/-- The access rights under which the temporary file takes its place: those of a new file, those
of a file for reading only, or none but the owner's until the old ones are back. -/
def Old.rights : Old → IO.FileRight
  | .absent =>
      { user := { read := true, write := true }
        group := { read := true }
        other := { read := true } }
  | .readOnly =>
      { user := { read := true }
        group := { read := true }
        other := { read := true } }
  | .writable _ => { user := { read := true, write := true } }

/-- Bring back the access rights of the old file. Nothing here can tell what they are, so the
old file itself gets the text, by its second name, and then takes its place again. -/
def Old.restore (path second text : String) : Old → IO Unit
  | .absent => return ()
  | .readOnly => return ()
  | .writable handle => do
      handle.truncate
      handle.putStr text
      handle.flush
      IO.FS.rename second path

/-- Give a file a new text by renaming a temporary file that holds the whole of it. On a fault up
to there all is as it was. The access rights come back behind it, and a fault in that leaves the
new text in place. -/
def replaceText (path text : String) : IO (Except Fault Unit) :=
  orFault do
    let temporary ← temporaryBeside path
    let second := temporary ++ "o"
    let handle ← IO.FS.Handle.mk temporary .writeNew
    let old ←
      try
        handle.putStr text
        handle.flush
        let old ← lookAtOld path second
        IO.setAccessRights temporary old.rights
        IO.FS.rename temporary path
        pure old
      catch error =>
        discard (orFault (IO.FS.removeFile temporary))
        discard (orFault (IO.FS.removeFile second))
        throw error
    try old.restore path second text
    catch error =>
      discard (orFault (IO.FS.removeFile second))
      throw error

def present : IO Calendar.Moment := do
  let now ← Std.Time.Timestamp.now
  return ⟨now.val.second.val, now.val.nano.val.toNat⟩

def access : Access IO :=
  ⟨readText, replaceText, present⟩

end GrammarTable.Program

def main (words : List String) : IO UInt32 := do
  let report ← GrammarTable.CommandLine.execute GrammarTable.Program.access words
  for message in report.messages do
    IO.eprintln message
  return report.exitCode.toUInt32
