import ProofRelay.Bytes.Utf8
import ProofRelay.Fault
import ProofRelay.Files.Path

/-!
File trees as seen from a working directory: which directories and files there are and what they hold.
Operations refuse what a file system refuses, with its numbers and texts.
-/

namespace ProofRelay

/-- What stands at a place in a file tree. -/
inductive FileEntry where
  | directory
  | file (content : Bytes)
  /-- A file that cannot be read. -/
  | unreadable
  /-- A file that cannot even be looked at. -/
  | broken
deriving DecidableEq, Repr

/-- A place in a file tree: the names on the way from the working directory. -/
abbrev Place := List String

structure FileTree where
  entries : List (Place × FileEntry) := []

namespace FileTree

/-- Directories that are always there: the working one, those above it, and the topmost one. -/
def isFixed (at_ : Place) : Bool := at_.all (· == "..") || at_ == ["/"]

def find? (t : FileTree) (at_ : Place) : Option FileEntry :=
  if isFixed at_ then some .directory else t.entries.lookup at_

def put (t : FileTree) (at_ : Place) (e : FileEntry) : FileTree :=
  ⟨(at_, e) :: t.entries.filter fun p => p.1 != at_⟩

/-- Removes a place and all below it. -/
def remove (t : FileTree) (at_ : Place) : FileTree :=
  ⟨t.entries.filter fun p => !at_.isPrefixOf p.1⟩

/-- The names directly below a place. -/
def names (t : FileTree) (at_ : Place) : List String :=
  t.entries.filterMap fun p =>
    if p.1.dropLast == at_ && p.1.length == at_.length + 1 then p.1.getLast? else none

def above (at_ : Place) : Place :=
  if at_ == ["/"] then at_ else if isFixed at_ then at_ ++ [".."] else at_.dropLast

/-- Where a walk along a path ends. -/
inductive Arrival where
  | present (at_ : Place) (e : FileEntry)
  /-- Nothing is there, in a directory that is. -/
  | absent (at_ : Place)
  /-- A directory on the way is not there. -/
  | noParent
  | belowFile
  | tooLong

/-- The most bytes a name may have. -/
def nameLimit : Nat := 255

def isTooLong (name : String) : Bool := nameLimit < (Utf8.encode name).length

def walk (t : FileTree) (at_ : Place) : List String → Arrival
  | [] => .present at_ ((t.find? at_).getD .directory)
  | part :: rest =>
    if part == ".." then walk t (above at_) rest
    else if isTooLong part then .tooLong
    else
      match t.find? (at_ ++ [part]) with
      | some .directory => walk t (at_ ++ [part]) rest
      | some e => if rest.isEmpty then .present (at_ ++ [part]) e else .belowFile
      | none => if rest.isEmpty then .absent (at_ ++ [part]) else .noParent

def start (p : Path) : Place := if p.root.isEmpty then [] else ["/"]

def arrive (t : FileTree) (p : Path) : Arrival := t.walk (start p) p.parts

def noSuchFile (p : Path) : Fault := .system 2 "No such file or directory" (some p.toString)

def fileExists (p : Path) : Fault := .system 17 "File exists" (some p.toString)

def notDirectory (p : Path) : Fault := .system 20 "Not a directory" (some p.toString)

def isDirectory (p : Path) : Fault := .system 21 "Is a directory" (some p.toString)

def nameTooLong (p : Path) : Fault := .system 36 "File name too long" (some p.toString)

def unreadable : Fault := .system 5 "Input/output error" none

def brokenFile (p : Path) : Fault := .system 5 "Input/output error" (some p.toString)

/-- No path holds a zero character. -/
def checkPath (p : Path) : Except Fault Unit :=
  if p.toString.toList.any (· == Char.ofNat 0) then .error (.value "embedded null byte") else .ok ()

/-- The content of a file. -/
def read (t : FileTree) (p : Path) : Except Fault Bytes := do
  checkPath p
  match t.arrive p with
  | .present _ (.file content) => .ok content
  | .present _ .directory => .error (isDirectory p)
  | .present _ .unreadable => .error unreadable
  | .present _ .broken => .error (brokenFile p)
  | .absent _ | .noParent => .error (noSuchFile p)
  | .belowFile => .error (notDirectory p)
  | .tooLong => .error (nameTooLong p)

/-- A path leads nowhere where a part of the way is missing, but not where the system cannot tell. -/
def isFile (t : FileTree) (p : Path) : Except Fault Bool :=
  match t.arrive p with
  | .present _ .directory => .ok false
  | .present _ .broken => .error (brokenFile p)
  | .present _ _ => .ok true
  | .absent _ | .noParent | .belowFile => .ok false
  | .tooLong => .error (nameTooLong p)

/-- Surrogates that stand for bytes outside UTF-8 in the name of a file. -/
def isEscapedByte (p : CodePoint) : Bool := 0xDC80 ≤ p.val && p.val ≤ 0xDCFF

/-- The fault of a name with a surrogate that stands for no byte; it covers the surrogates that follow. -/
def unencodable? (t : Text) : Option Fault :=
  let position := (t.takeWhile fun p => !p.isSurrogate || isEscapedByte p).length
  match t.drop position with
  | [] => none
  | p :: rest =>
    let more := (rest.takeWhile CodePoint.isSurrogate).length
    let place :=
      if more = 0 then "character " ++ Text.quoted [p] ++ " in position " ++ Decimal.ofNat position
      else "characters in position " ++ Decimal.ofNat position ++ "-" ++ Decimal.ofNat (position + more)
    some ⟨.unicodeEncode, "'utf-8' codec can't encode " ++ place ++ ": surrogates not allowed"⟩

/-- The content of a file whose path may hold surrogates. The names of all files are UTF-8, so no file has a
name with other bytes in it. -/
def readAt (t : FileTree) (path : Text) : Except Fault Bytes :=
  match unencodable? (Path.spelled path), path.toString? with
  | some f, _ => .error f
  | none, some s => t.read (.ofString s)
  | none, none =>
    if path.any (· == CodePoint.ofNat 0) then .error (.value "embedded null byte")
    else .error (.system 2 "No such file or directory" (some (Path.spelled path)))

/-- Writes a whole file, over an old one if there is one. -/
def write (t : FileTree) (p : Path) (content : Bytes) : Except Fault FileTree := do
  checkPath p
  match t.arrive p with
  | .present _ .directory => .error (isDirectory p)
  | .present _ .broken => .error (brokenFile p)
  | .present at_ _ | .absent at_ => .ok (t.put at_ (.file content))
  | .noParent => .error (noSuchFile p)
  | .belowFile => .error (notDirectory p)
  | .tooLong => .error (nameTooLong p)

/-- Makes the directories on the way along a path, from a directory. -/
def makeAll (t : FileTree) (at_ : Place) : List String → FileTree
  | [] => t
  | part :: rest =>
    if part == ".." then makeAll t (above at_) rest
    else
      match t.find? (at_ ++ [part]) with
      | none => makeAll (t.put (at_ ++ [part]) .directory) (at_ ++ [part]) rest
      | some _ => makeAll t (at_ ++ [part]) rest

/-- Makes a directory and those above it, as far as they are not there. -/
def makeDirectory (t : FileTree) (p : Path) : Except Fault FileTree := do
  checkPath p
  match t.arrive p with
  | .present _ .directory => .ok t
  | .present _ _ => .error (fileExists p)
  | .absent _ | .noParent => .ok (t.makeAll (start p) p.parts)
  | .belowFile => .error (notDirectory p)
  | .tooLong => .error (nameTooLong p)

/-- Removes what a path leads to, if anything. -/
def discard (t : FileTree) (p : Path) : FileTree :=
  match t.arrive p with
  | .present at_ _ => t.remove at_
  | _ => t

/-- A tree with these files, and the directories they need. -/
def ofFiles (files : List (String × Bytes)) : FileTree :=
  files.foldl (fun t f =>
    let p := Path.ofString f.1
    let t := t.makeAll (start p) p.parts.dropLast
    t.put (start p ++ p.parts) (.file f.2)) {}

end FileTree

end ProofRelay
