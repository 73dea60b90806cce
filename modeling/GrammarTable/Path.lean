/-!
# Paths

Pieces of a path stand between slashes. The file name is the last piece that moves
somewhere, and an extension starts at the last dot of the name, unless nothing stands
before that dot. The parent of a path is what stands before its file name.
-/

namespace GrammarTable.Path

/-- The pieces between slashes, empty ones too, after those found so far; the pieces
and the characters of the piece at hand are kept latest first. -/
def piecesOnto (found : List (List Char)) (piece : List Char) :
    List Char → List (List Char)
  | [] => (piece.reverse :: found).reverse
  | c :: rest =>
      if c = '/' then piecesOnto (piece.reverse :: found) [] rest
      else piecesOnto found (c :: piece) rest

def names (path : String) : List String :=
  ((piecesOnto [] [] path.toList).filter fun piece => !piece.isEmpty).map String.ofList

/-- The pieces that move somewhere: neither empty nor a single dot. -/
def pieces (path : String) : List String :=
  (names path).filter fun name => name != "."

def endsInSlash (path : String) : Bool :=
  path.toList.getLast? == some '/'

def isAbsolute (path : String) : Bool :=
  path.toList.head? == some '/'

/-- The last name on the path; the root and the empty path are where they are. -/
def lastName (path : String) : String :=
  (names path).getLastD "."

def isStill (piece : List Char) : Bool :=
  piece.isEmpty || piece == ['.']

/-- The beginnings of a path that end with a piece that moves somewhere, longest first.
The pieces of the path and of its beginnings are given last first. -/
def beginnings : List (List Char) → List (List (List Char))
  | [] => []
  | piece :: pieces =>
      if isStill piece then beginnings pieces
      else (piece :: pieces) :: beginnings pieces

def shorterBeginnings (path : String) : List (List (List Char)) :=
  (beginnings (piecesOnto [] [] path.toList).reverse).drop 1

/-- The path whose pieces are given last first. -/
def ofPieces (pieces : List (List Char)) : String :=
  String.ofList (['/'].intercalate pieces.reverse)

/-- The paths of the directories on the way to what the path leads to, nearest first. -/
def above (path : String) : List String :=
  (shorterBeginnings path).map ofPieces

def parent (path : String) : String :=
  match shorterBeginnings path with
  | [] => if isAbsolute path then "/" else "."
  | pieces :: _ => ofPieces pieces

def fileName? (path : String) : Option String :=
  match (pieces path).getLast? with
  | some ".." => none
  | last => last

/-- What follows the last dot of a name, if something stands before that dot. -/
def afterDot? (name : List Char) : Option (List Char) :=
  match name.reverse.dropWhile (fun c => c != '.') with
  | _ :: _ :: _ => some (name.reverse.takeWhile (fun c => c != '.')).reverse
  | _ => none

def extension? (path : String) : Option String :=
  (fileName? path).bind fun name => (afterDot? name.toList).map String.ofList

end GrammarTable.Path
