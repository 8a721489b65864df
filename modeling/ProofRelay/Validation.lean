import ProofRelay.Failure
import ProofRelay.Json.Value
import ProofRelay.Number.Decimal

/-!
Readers of fields. Each takes a document value to what the field holds, or names the rule it breaks.
Numbers may come as text: signs, leading zeros, single underscores, and for integers a fraction of
zeros only.
-/

namespace ProofRelay.Validation

/-- Blanks around a number in a field. -/
def isSpace (c : Char) : Bool := Text.isBlank c && !(0x1C ≤ c.toNat && c.toNat ≤ 0x1F)

def trimSpace (s : List Char) : List Char :=
  ((s.dropWhile isSpace).reverse.dropWhile isSpace).reverse

/-- Removes underscores, unless one is first, last or next to another. -/
def dropUnderscores? (s : List Char) : Option (List Char) :=
  let rec doubled : List Char → Bool
    | '_' :: '_' :: _ => true
    | _ :: rest => doubled rest
    | [] => false
  if s.head? == some '_' || s.getLast? == some '_' || doubled s then none
  else some (s.filter (· != '_'))

/-- What is left of a number after its leading zeros; `last` is the character before. -/
def afterZeros (last : Char) : List Char → Option (List Char)
  | [] => some [last]
  | c :: rest =>
    if c == '0' || c == '_' then afterZeros c rest
    else if '1' ≤ c && c ≤ '9' then some (c :: rest)
    else if c == '.' then some (last :: c :: rest)
    else none

def dropLeadingZeros? : List Char → Option (List Char)
  | c :: rest =>
    if c == '0' then afterZeros c rest
    else if ('1' ≤ c && c ≤ '9') || c == '-' then some (c :: rest)
    else none
  | [] => none

/-- Drops a fraction that has digits and only zeros. -/
def dropZeroFraction (s : List Char) : List Char :=
  let fraction := (s.dropWhile (· != '.')).drop 1
  if !fraction.isEmpty && fraction.all (· == '0') then s.takeWhile (· != '.') else s

def readDigits? (s : List Char) : Option Nat :=
  if s.isEmpty then none
  else s.foldlM (fun n c => (Text.asciiDigit? c).map fun d => 10 * n + d) 0

def readSigned? : List Char → Option Int
  | '-' :: rest => (readDigits? rest).map fun n => -(n : Int)
  | s => (readDigits? s).map fun n => (n : Int)

/-- The sign and digits of an integer in text, without what does not count. -/
def integerDigits? (s : List Char) : Option (List Char) := do
  let s := trimSpace s
  let s ← match s with
    | '+' :: '-' :: _ => none
    | '+' :: rest => some rest
    | s => some s
  let s ← dropLeadingZeros? s
  dropUnderscores? (dropZeroFraction s)

/-- The most characters that an integer in text may have. -/
def integerLimit : Nat := 4300

/-- An integer in text. -/
def readInteger (s : List Char) : Except Rule Int :=
  match integerDigits? s with
  | none => .error .integerText
  | some digits =>
    if integerLimit < digits.length then .error .integerSize
    else
      match readSigned? digits with
      | some n => .ok n
      | none => .error .integerText

/-- A number in text. -/
def readNumber? (s : List Char) : Option Binary64 :=
  (dropUnderscores? (trimSpace s)).bind fun body =>
    if body.any Text.isBlank then none else Decimal.readNumber? Text.asciiDigit? body

def readTruth? (s : List Char) : Option Bool :=
  let word := String.ofList (s.map Char.toLower)
  if ["0", "off", "f", "false", "n", "no"].contains word then some false
  else if ["1", "on", "t", "true", "y", "yes"].contains word then some true
  else none

/-- A text of any code points. -/
def codePoints (v : Json) : Except Rule Text :=
  match v with
  | .str s => .ok s
  | _ => .error .text

def text (v : Json) : Except Rule String :=
  match v with
  | .str s => match s.toString? with
    | some s => .ok s
    | none => .error .unicode
  | _ => .error .text

def integer (v : Json) : Except Rule Int :=
  match v with
  | .int n => .ok n
  | .bool b => .ok (if b then 1 else 0)
  | .real x =>
    if !x.isFinite then .error .finite
    else if x.isWhole then .ok x.truncate
    else .error .integerPart
  | .str s => match s.toString? with
    | some t => readInteger t.toList
    | none => .error .integerText
  | _ => .error .integer

/-- An integer that is not negative. -/
def natural (v : Json) : Except Rule Int := do
  let n ← integer v
  if n < 0 then .error .negative else .ok n

def optional {α : Type} (f : Json → Except Rule α) (v : Json) : Except Rule (Option α) :=
  match v with
  | .null => .ok none
  | v => some <$> f v

def number (v : Json) : Except Rule Binary64 :=
  match v with
  | .real x => .ok x
  | .int n => match Binary64.ofInt? n with
    | some x => .ok x
    | none => .error .number
  | .bool b => .ok (Binary64.nearest false (if b then 1 else 0) 1)
  | .str s => match s.toString?.bind fun t => readNumber? t.toList with
    | some x => .ok x
    | none => .error .numberText
  | _ => .error .number

def truthOfInt (n : Int) : Except Rule Bool :=
  if n = 0 then .ok false else if n = 1 then .ok true else .error .truthText

def truth (v : Json) : Except Rule Bool :=
  match v with
  | .bool b => .ok b
  | .int n => truthOfInt n
  | .real x => if x.isFinite && x.isWhole then truthOfInt x.truncate else .error .truth
  | .str s => match s.toString?.bind fun t => readTruth? t.toList with
    | some b => .ok b
    | none => .error .truthText
  | _ => .error .truth

/-- A field of an object that has to be there, with what it breaks. -/
def field {α : Type} (d : Json) (name : String) (f : Json → Except Rule α) : Except (List FieldError) α :=
  match d.get? name with
  | none => .error [{ field := name, rule := .missing }]
  | some v => (f v).mapError fun r => [{ field := name, rule := r }]

/-- A field that has a default. -/
def fieldOr {α : Type} (d : Json) (name : String) (default : α) (f : Json → Except Rule α) :
    Except (List FieldError) α :=
  match d.get? name with
  | none => .ok default
  | some v => (f v).mapError fun r => [{ field := name, rule := r }]

/-- Applies a function to a field, and gathers what both break. -/
def also {α β : Type} (f : Except (List FieldError) (α → β)) (a : Except (List FieldError) α) :
    Except (List FieldError) β :=
  match f, a with
  | .ok f, .ok a => .ok (f a)
  | .ok _, .error e => .error e
  | .error e, .ok _ => .error e
  | .error e, .error e' => .error (e ++ e')

end ProofRelay.Validation
