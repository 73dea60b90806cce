/-!
# Faults of files

Why a file cannot be read or written, in the words of the operating system.
-/

namespace GrammarTable.Files

inductive Fault where
  /-- A file or directory on the way is not there. -/
  | missing
  /-- The user lacks a right. -/
  | denied
  /-- Only the owner may do this. -/
  | notOwner
  /-- Something on the way is not a directory. -/
  | notDirectory
  /-- A directory stands where a file is wanted. -/
  | isDirectory
  /-- Something stands where a directory is to be made. -/
  | occupied
  /-- A directory that is in use cannot be replaced. -/
  | busy
  /-- A name or a path has too many bytes. -/
  | tooLong
  /-- A path with a zero byte cannot be opened. -/
  | zeroByte
  /-- A path with a zero byte cannot be renamed to. -/
  | invalid
  /-- The bytes are no text. -/
  | undecodable
  /-- Anything else, in words. -/
  | other (words : String)
  deriving DecidableEq, Repr

def Fault.words : Fault → String
  | .missing => "No such file or directory (os error 2)"
  | .denied => "Permission denied (os error 13)"
  | .notOwner => "Operation not permitted (os error 1)"
  | .notDirectory => "Not a directory (os error 20)"
  | .isDirectory => "Is a directory (os error 21)"
  | .occupied => "File exists (os error 17)"
  | .busy => "Device or resource busy (os error 16)"
  | .tooLong => "File name too long (os error 36)"
  | .zeroByte => "file name contained an unexpected NUL byte"
  | .invalid => "Invalid argument (os error 22)"
  | .undecodable => "stream did not contain valid UTF-8"
  | .other words => words

end GrammarTable.Files
