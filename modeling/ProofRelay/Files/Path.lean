import ProofRelay.Text.Quoted

/-!
Paths of files. A path is kept in a simple form: empty parts and single dots are dropped, double dots
stay. Two slashes at the start, and no more, are a root of their own.
-/

namespace ProofRelay

structure Path where
  /-- Empty for a relative path. -/
  root : String := ""
  parts : List String
deriving DecidableEq, Repr

namespace Path

/-- The parts of a text between slashes, and the slashes. -/
def splitSlashes {α : Type} [BEq α] (slash : α) (s : List α) : List (List α) :=
  s.splitBy fun a b => a != slash && b != slash

/-- The parts that count. -/
def plainParts {α : Type} [BEq α] (slash dot : α) (s : List α) : List (List α) :=
  (splitSlashes slash s).filter fun p => p != [slash] && p != [dot]

def partsOf (s : List Char) : List String := (plainParts '/' '.' s).map String.ofList

/-- The root of a path that starts with so many slashes. -/
def rootAfter : Nat → String
  | 0 => ""
  | 2 => "//"
  | _ => "/"

def rootOf (s : List Char) : String := rootAfter (s.takeWhile (· == '/')).length

def ofString (s : String) : Path := ⟨rootOf s.toList, partsOf s.toList⟩

def toString (p : Path) : String :=
  if p.root.isEmpty && p.parts.isEmpty then "." else p.root ++ String.intercalate "/" p.parts

/-- The simple form of a path that may hold surrogates. -/
def spelled (t : Text) : Text :=
  let slash := CodePoint.ofChar '/'
  let root := Text.ofString (rootAfter (t.takeWhile (· == slash)).length)
  let parts := plainParts slash (CodePoint.ofChar '.') t
  if root.isEmpty && parts.isEmpty then Text.ofString "." else root ++ [slash].intercalate parts

/-- The file of this name in a directory. -/
def child (p : Path) (name : String) : Path := { p with parts := p.parts ++ [name] }

def name (p : Path) : String := p.parts.getLast?.getD ""

def parent (p : Path) : Path := { p with parts := p.parts.dropLast }

end Path

end ProofRelay
