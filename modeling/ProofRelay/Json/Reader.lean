import ProofRelay.Bytes.Hex
import ProofRelay.Json.Value
import ProofRelay.Number.Decimal

/-!
Reading a document from text. A defect is reported with its place: where in the text it stands, and on
which line and column. Besides the numbers of JSON the reader takes the names of the infinite and
undefined numbers; of two members with one name the later value holds. A reader may have limits, on the
digits of an integer and on how deep values nest.
-/

namespace ProofRelay.Json

/-- What a reader can find wrong. -/
inductive Defect where
  | byteOrderMark
  | value
  | name
  | colon
  | comma
  | extra
  | unterminated
  | control
  | escape
  | unicodeEscape
deriving DecidableEq, Repr

def Defect.message : Defect → String
  | .byteOrderMark => "Unexpected UTF-8 BOM (decode using utf-8-sig)"
  | .value => "Expecting value"
  | .name => "Expecting property name enclosed in double quotes"
  | .colon => "Expecting ':' delimiter"
  | .comma => "Expecting ',' delimiter"
  | .extra => "Extra data"
  | .unterminated => "Unterminated string starting at"
  | .control => "Invalid control character at"
  | .escape => "Invalid \\escape"
  | .unicodeEscape => "Invalid \\uXXXX escape"

/-- What can hold other values. -/
inductive Holder where
  | object
  | array
deriving DecidableEq, Repr

def Holder.name : Holder → String
  | .object => "object"
  | .array => "array"

/-- Why reading stopped: a defect with the number of code points left there, an integer with too many digits, or
a value nested too deep. -/
inductive Stop where
  | defect (d : Defect) (left : Nat)
  | digits (count : Nat)
  | nesting (holder : Holder)
deriving DecidableEq, Repr

/-- What a reader takes: the most digits of an integer, and the most levels of values in values. -/
structure Limits where
  digits : Option Nat
  levels : Option Nat

namespace Limits

def none : Limits := ⟨.none, .none⟩

/-- Whether an integer has more digits than a reader takes. -/
def exceeded (l : Limits) (count : Nat) : Bool := l.digits.any (· < count)

/-- The limits for the values in a value, unless there is no level left for them. -/
def inside? (l : Limits) : Option Limits :=
  match l.levels with
  | .none => some l
  | some 0 => .none
  | some (n + 1) => some { l with levels := some n }

end Limits

abbrev Read (α : Type) := Except Stop (α × Text)

def fail {α : Type} (d : Defect) (at_ : Text) : Read α := .error (.defect d at_.length)

def isSpace (p : CodePoint) : Bool := p.val == 0x20 || p.val == 0x09 || p.val == 0x0A || p.val == 0x0D

def skipSpace (t : Text) : Text := t.dropWhile isSpace

def point (c : Char) : CodePoint := .ofChar c

/-- What is left after the given characters, if the text starts with them. -/
def after? (word : String) (t : Text) : Option Text :=
  let w := Text.ofString word
  if w.isPrefixOf t then some (t.drop w.length) else none

def hexPoint? (p : CodePoint) : Option Nat := p.toChar?.bind Bytes.hexValue?

/-- Four hexadecimal digits that are not the last of the text. -/
def hexUnit? : Text → Option (Nat × Text)
  | a :: b :: c :: d :: e :: rest => do
    let a ← hexPoint? a
    let b ← hexPoint? b
    let c ← hexPoint? c
    let d ← hexPoint? d
    return (4096 * a + 256 * b + 16 * c + d, e :: rest)
  | _ => none

def joinSurrogates (hi lo : Nat) : CodePoint :=
  CodePoint.ofNat (0x10000 + (hi - 0xD800) * 1024 + (lo - 0xDC00))

def simpleEscape? (p : CodePoint) : Option CodePoint :=
  if p = point '"' || p = point '\\' || p = point '/' then some p
  else if p = point 'b' then some (CodePoint.ofNat 8)
  else if p = point 'f' then some (CodePoint.ofNat 12)
  else if p = point 'n' then some (CodePoint.ofNat 10)
  else if p = point 'r' then some (CodePoint.ofNat 13)
  else if p = point 't' then some (CodePoint.ofNat 9)
  else none

/-- The low half of a pair of escapes, looked for after the high half in `rest`. -/
inductive LowHalf where
  | none
  | bad (at_ : Text)
  | found (unit : Nat) (rest : Text)

def lowHalf (rest : Text) : LowHalf :=
  match rest with
  | b :: u :: tail =>
    if b = point '\\' && u = point 'u' && 5 ≤ tail.length then
      match hexUnit? tail with
      | some (n, r) => if 0xDC00 ≤ n && n ≤ 0xDFFF then .found n r else .none
      | Option.none => .bad (u :: tail)
    else .none
  | _ => .none

/-- The point after a backslash, given the text from the backslash on. -/
def readEscape (start : Text) : Text → Read CodePoint
  | _ :: u :: rest =>
    if u = point 'u' then
      match hexUnit? rest with
      | none => fail .unicodeEscape (u :: rest)
      | some (n, r) =>
        if 0xD800 ≤ n && n ≤ 0xDBFF then
          match lowHalf r with
          | .none => .ok (CodePoint.ofNat n, r)
          | .bad place => fail .unicodeEscape place
          | .found m r' => .ok (joinSurrogates n m, r')
        else .ok (CodePoint.ofNat n, r)
    else
      match simpleEscape? u with
      | some p => .ok (p, rest)
      | none => .error (.defect .escape (rest.length + 2))
  | _ => fail .unterminated start

/-- The rest of a string after its opening quote; `start` is the text from that quote on. -/
def readString (start : Text) : Nat → List CodePoint → Text → Read Text
  | 0, _, _ => fail .unterminated start
  | _, _, [] => fail .unterminated start
  | fuel + 1, done, p :: rest =>
    if p = point '"' then .ok (done.reverse, rest)
    else if p = point '\\' then
      match readEscape start (p :: rest) with
      | .error e => .error e
      | .ok (q, r) => readString start fuel (q :: done) r
    else if p.val < 0x20 then fail .control (p :: rest)
    else readString start fuel (p :: done) rest

def isDigit (p : CodePoint) : Bool := 0x30 ≤ p.val && p.val ≤ 0x39

def digitsOf (ds : Text) : Nat := ds.foldl (fun n p => 10 * n + (p.val - 0x30)) 0

/-- A fraction: a point with at least one digit after it. -/
def fraction? : Text → Option (Text × Text)
  | p :: rest =>
    if p = point '.' then
      let ds := rest.takeWhile isDigit
      if ds.isEmpty then none else some (ds, rest.dropWhile isDigit)
    else none
  | [] => none

/-- An exponent: a mark, an optional sign and at least one digit. -/
def exponent? : Text → Option (Int × Text)
  | p :: rest =>
    if p = point 'e' || p = point 'E' then
      let (negative, body) := match rest with
        | q :: tail => if q = point '-' then (true, tail) else if q = point '+' then (false, tail) else (false, rest)
        | [] => (false, rest)
      let ds := body.takeWhile isDigit
      if ds.isEmpty then none
      else some ((if negative then -(digitsOf ds : Int) else digitsOf ds), body.dropWhile isDigit)
    else none
  | [] => none

/-- Digits without a leading zero, unless zero is the only one. -/
def wholePart? : Text → Option (Text × Text)
  | p :: rest =>
    if p = point '0' then some ([p], rest)
    else if isDigit p then some (p :: rest.takeWhile isDigit, rest.dropWhile isDigit)
    else none
  | [] => none

def readNumber (l : Limits) (t : Text) : Read Json :=
  let (negative, body) := match t with
    | p :: rest => if p = point '-' then (true, rest) else (false, t)
    | [] => (false, t)
  match wholePart? body with
  | none => fail .value t
  | some (ds, rest) =>
    let (fs, rest) := (fraction? rest).getD ([], rest)
    match exponent? rest with
    | some (e, rest) =>
      .ok (.real (⟨negative, digitsOf (ds ++ fs), e - fs.length⟩ : Decimal.Reading).value, rest)
    | none =>
      if fs.isEmpty then
        if l.exceeded ds.length then .error (.digits ds.length)
        else .ok (.int (if negative then -(digitsOf ds : Int) else digitsOf ds), rest)
      else .ok (.real (⟨negative, digitsOf (ds ++ fs), -(fs.length : Int)⟩ : Decimal.Reading).value, rest)

/-- The words that stand for a value. -/
def words : List (String × Json) :=
  [("null", .null), ("true", .bool true), ("false", .bool false), ("NaN", .real Binary64.nan),
   ("Infinity", .real (Binary64.infinity false)), ("-Infinity", .real (Binary64.infinity true))]

def readWord? (t : Text) : Option (Json × Text) :=
  words.findSome? fun (w, v) => (after? w t).map fun rest => (v, rest)

mutual

/-- A value, with fuel for the values nested in it. -/
def readValue (l : Limits) : Nat → Text → Read Json
  | 0, t => fail .value t
  | _, [] => fail .value []
  | fuel + 1, p :: rest =>
    if p = point '"' then
      match readString (p :: rest) (rest.length + 1) [] rest with
      | .error e => .error e
      | .ok (s, r) => .ok (.str s, r)
    else if p = point '{' then
      match l.inside? with
      | none => .error (.nesting .object)
      | some l =>
        let r := skipSpace rest
        match r with
        | q :: r' => if q = point '}' then .ok (.obj [], r') else readMembers l fuel [] r
        | [] => readMembers l fuel [] r
    else if p = point '[' then
      match l.inside? with
      | none => .error (.nesting .array)
      | some l =>
        let r := skipSpace rest
        match r with
        | q :: r' => if q = point ']' then .ok (.arr [], r') else readItems l fuel [] r
        | [] => readItems l fuel [] r
    else
      match readWord? (p :: rest) with
      | some result => .ok result
      | none => readNumber l (p :: rest)

def readItems (l : Limits) : Nat → List Json → Text → Read Json
  | 0, _, t => fail .value t
  | fuel + 1, done, t =>
    match readValue l fuel t with
    | .error e => .error e
    | .ok (v, r) =>
      match skipSpace r with
      | q :: r' =>
        if q = point ']' then .ok (.arr (v :: done).reverse, r')
        else if q = point ',' then readItems l fuel (v :: done) (skipSpace r')
        else fail .comma (q :: r')
      | [] => fail .comma []

def readMembers (l : Limits) : Nat → List (Text × Json) → Text → Read Json
  | 0, _, t => fail .name t
  | _, _, [] => fail .name []
  | fuel + 1, done, p :: rest =>
    if p = point '"' then
      match readString (p :: rest) (rest.length + 1) [] rest with
      | .error e => .error e
      | .ok (k, r) =>
        match skipSpace r with
        | c :: r =>
          if c = point ':' then
            match readValue l fuel (skipSpace r) with
            | .error e => .error e
            | .ok (v, r) =>
              match skipSpace r with
              | q :: r' =>
                if q = point '}' then .ok (.obj (putMember k v done), r')
                else if q = point ',' then readMembers l fuel (putMember k v done) (skipSpace r')
                else fail .comma (q :: r')
              | [] => fail .comma []
          else fail .colon (c :: r)
        | [] => fail .colon []
    else fail .name (p :: rest)

end

/-- Enough fuel for any document of this length: each level of nesting uses up a character. -/
def fuelFor (t : Text) : Nat := 2 * t.length + 2

/-- A whole document, with space around it, within some limits. -/
def readDocumentWithin (l : Limits) (t : Text) : Except Stop Json :=
  match t with
  | p :: _ =>
    if p.val = 0xFEFF then .error (.defect .byteOrderMark t.length)
    else
      match readValue l (fuelFor t) (skipSpace t) with
      | .error e => .error e
      | .ok (v, r) =>
        match skipSpace r with
        | [] => .ok v
        | r => .error (.defect .extra r.length)
  | [] => .error (.defect .value 0)

/-- A whole document, for a reader with so many levels left. -/
def readDocument (levels : Nat) (t : Text) : Except Stop Json :=
  readDocumentWithin ⟨some Decimal.digitLimit, some levels⟩ t

/-- Where a position stands: the line, and the column on it, both counted from one. -/
def lineColumn (t : Text) (position : Nat) : Nat × Nat :=
  let before := t.take position
  let newline := point '\n'
  (before.count newline + 1, (before.reverse.takeWhile (· != newline)).length + 1)

/-- The report of a defect, with its place. -/
def defectReport (t : Text) (d : Defect) (left : Nat) : String :=
  let position := t.length - left
  let (line, column) := lineColumn t position
  d.message ++ ": line " ++ Decimal.ofNat line ++ " column " ++ Decimal.ofNat column ++
    " (char " ++ Decimal.ofNat position ++ ")"

end ProofRelay.Json
