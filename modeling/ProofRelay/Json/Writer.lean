import ProofRelay.Bytes.Hex
import ProofRelay.Fault
import ProofRelay.Json.Value

/-!
The canonical text of a document: ASCII only, members ordered by name, one space after each comma and
colon. Characters beyond ASCII are written as escapes of their UTF-16 units. A document has no text if an
integer in it has too many digits, or if it nests deeper than there are levels left for the writer.
-/

namespace ProofRelay.Json

def hexUnit (n : Nat) : List Char :=
  ['\\', 'u', Bytes.hexDigit (n / 4096 % 16), Bytes.hexDigit (n / 256 % 16), Bytes.hexDigit (n / 16 % 16),
   Bytes.hexDigit (n % 16)]

def writePoint (p : CodePoint) : List Char :=
  let n := p.val
  if n = 0x22 then ['\\', '"']
  else if n = 0x5C then ['\\', '\\']
  else if n = 0x0A then ['\\', 'n']
  else if n = 0x0D then ['\\', 'r']
  else if n = 0x09 then ['\\', 't']
  else if n = 0x08 then ['\\', 'b']
  else if n = 0x0C then ['\\', 'f']
  else if 0x20 ≤ n && n < 0x7F then [Char.ofNat n]
  else if n < 0x10000 then hexUnit n
  else hexUnit (0xD800 + (n - 0x10000) / 1024) ++ hexUnit (0xDC00 + (n - 0x10000) % 1024)

def writeText (s : Text) : List Char := '"' :: (s.flatMap writePoint ++ ['"'])

/-- Names are ordered by their code points. -/
def nameLe (a b : Text) : Bool := !(b < a)

/-- Orders what belongs to members by their names. -/
def sortByName {α : Type} (members : List (Text × α)) : List (Text × α) :=
  members.mergeSort fun a b => nameLe a.1 b.1

def joinComma : List (List Char) → List Char
  | [] => []
  | [s] => s
  | s :: rest => s ++ ',' :: ' ' :: joinComma rest

mutual

def writeChars : Json → List Char
  | .null => "null".toList
  | .bool true => "true".toList
  | .bool false => "false".toList
  | .int n => (Decimal.ofInt n).toList
  | .real x => (Decimal.inDocument.write x).toList
  | .str s => writeText s
  | .arr items => '[' :: (joinComma (writeItems items) ++ [']'])
  | .obj members =>
    '{' :: (joinComma ((sortByName (writeMembers members)).map Prod.snd) ++ ['}'])

def writeItems : List Json → List (List Char)
  | [] => []
  | v :: rest => writeChars v :: writeItems rest

/-- Each member's name, for ordering, with its text. -/
def writeMembers : List (Text × Json) → List (Text × List Char)
  | [] => []
  | (k, v) :: rest => (k, writeText k ++ ':' :: ' ' :: writeChars v) :: writeMembers rest

end

/-- What can stand in the way of going through a value. -/
inductive Obstacle where
  | digits
  | nesting
deriving DecidableEq, Repr

/-- A way to go through a value and all that is nested in it. -/
structure Passage where
  /-- Whether a value takes up a level also if nothing can be nested in it. -/
  countsAll : Bool
  /-- Whether members come in the order of their names, and not in their own. -/
  sorts : Bool

namespace Passage

/-- The obstacle of a value in which nothing can be nested. -/
def atLeaf (p : Passage) (levels : Nat) (n : Option Int) : Option Obstacle :=
  if p.countsAll && levels == 0 then some .nesting
  else if n.all Decimal.fits then none else some .digits

def arrange {α : Type} (p : Passage) (members : List (Text × α)) : List (Text × α) :=
  if p.sorts then sortByName members else members

mutual

/-- The first obstacle on the way through a value, with so many levels left. -/
def obstacle? (p : Passage) (levels : Nat) : Json → Option Obstacle
  | .arr items => if levels = 0 then some .nesting else (inItems p (levels - 1) items).findSome? id
  | .obj members =>
    if levels = 0 then some .nesting else (p.arrange (inMembers p (levels - 1) members)).head?.map Prod.snd
  | .int n => p.atLeaf levels (some n)
  | .null | .bool _ | .real _ | .str _ => p.atLeaf levels none

def inItems (p : Passage) (levels : Nat) : List Json → List (Option Obstacle)
  | [] => []
  | v :: rest => obstacle? p levels v :: inItems p levels rest

/-- The members with an obstacle. -/
def inMembers (p : Passage) (levels : Nat) : List (Text × Json) → List (Text × Obstacle)
  | [] => []
  | (k, v) :: rest =>
    match obstacle? p levels v with
    | some o => (k, o) :: inMembers p levels rest
    | none => inMembers p levels rest

end

end Passage

/-- Reports an obstacle to what is being done. -/
def Obstacle.fault (doing : String) : Obstacle → Fault
  | .digits => Decimal.unwritable
  | .nesting => .tooDeep doing

/-- The levels that are left for the values of a document where nothing else is nested. -/
def usualLevels : Nat := 990

/-- How a writer goes through a document. -/
def Passage.writing : Passage := ⟨false, true⟩

/-- The text of a document, for a writer with so many levels left. -/
def write (levels : Nat) (v : Json) : Except Fault String :=
  match Passage.writing.obstacle? levels v with
  | none => .ok (String.ofList (writeChars v))
  | some o => .error (o.fault "encoding a JSON object")

end ProofRelay.Json
