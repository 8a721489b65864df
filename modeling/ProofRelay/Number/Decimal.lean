import ProofRelay.Number.Binary64
import ProofRelay.Text.CodePoint

/-!
Decimal text of numbers.

`Shortest.digits` gives the fewest decimal digits that read back as the number, and of these the nearest
to it; where the point or an exponent goes is data. Reading accepts a sign, digits with single underscores
between them, a fraction and an exponent, or the names of the infinite and undefined numbers. Integers
become text, and come from it, only up to a number of digits.
-/

namespace ProofRelay.Decimal

def natDigits (n : Nat) : List Char := Nat.toDigits 10 n

def ofNat (n : Nat) : String := String.ofList (natDigits n)

def ofInt (n : Int) : String :=
  if n < 0 then "-" ++ ofNat n.natAbs else ofNat n.natAbs

/-- The most digits an integer may have where it becomes text or comes from it. -/
def digitLimit : Nat := 4300

/-- Whether an integer has no more digits than that. -/
def fits (n : Int) : Bool := (natDigits n.natAbs).length ≤ digitLimit

/-- Digits `d₁ d₂ …` and the position of the point: the value is `0.d₁d₂… · 10^point`. -/
structure Digits where
  digits : List Char
  point : Int

namespace Shortest

/-- The greatest `k` with `10^k ≤ n / d`, for positive `n` and `d`. -/
def floorLog10 (n d : Nat) : Int :=
  if d ≤ n then ((natDigits (n / d)).length : Int) - 1
  else
    let len := (natDigits (d / n)).length
    if Nat.pow 10 (len - 1) * n = d then -((len : Int) - 1) else -(len : Int)

/-- `n / d` in units of `10^k`, as a ratio. -/
def inUnits (n d : Nat) (k : Int) : Nat × Nat :=
  if 0 ≤ k then (n, d * Nat.pow 10 k.toNat) else (n * Nat.pow 10 k.natAbs, d)

/-- The number nearest to `c · 10^k`. -/
def readBack (negative : Bool) (c : Nat) (k : Int) : Binary64 :=
  if 0 ≤ k then Binary64.nearest negative (c * Nat.pow 10 k.toNat) 1
  else Binary64.nearest negative c (Nat.pow 10 k.natAbs)

/-- The nearer of the two neighbours of `n / d` on the grid of `10^k` that read back as `x`. -/
def onGrid (x : Binary64) (k : Int) : Option Nat :=
  let (n, d) := x.magnitude
  let (a, b) := inUnits n d k
  let low := a / b
  let lowHits := low != 0 && readBack x.isNegative low k == x
  let highHits := readBack x.isNegative (low + 1) k == x
  if lowHits && highHits then some (roundHalfEven a b)
  else if lowHits then some low
  else if highHits then some (low + 1)
  else none

/-- Tries grids from `count` digits on, up to seventeen, which always suffice. -/
def search (x : Binary64) (top : Int) : Nat → Nat × Int
  | 0 => (x.magnitude.1, 0)
  | fuel + 1 =>
    let k := top - (16 - fuel)
    match onGrid x k with
    | some c => (c, k)
    | none => search x top fuel

def stripZeros (ds : List Char) : List Char := (ds.reverse.dropWhile (· == '0')).reverse

/-- The shortest digits of a finite number that is not zero. -/
def digits (x : Binary64) : Digits :=
  let (n, d) := x.magnitude
  let (c, k) := search x (floorLog10 n d) 17
  let ds := natDigits c
  ⟨stripZeros ds, ds.length + k⟩

end Shortest

/-- How a number is written: positionally while the point stands in a range, else with an exponent. -/
structure Layout where
  least : Int
  greatest : Int
  exponentWidth : Nat
  infinite : String
  undefined : String

def zeros (n : Nat) : List Char := List.replicate n '0'

def positional (d : Digits) : List Char :=
  let len : Int := d.digits.length
  if d.point ≤ 0 then ['0', '.'] ++ zeros d.point.natAbs ++ d.digits
  else if len ≤ d.point then d.digits ++ zeros (d.point - len).toNat ++ ['.', '0']
  else d.digits.take d.point.toNat ++ ['.'] ++ d.digits.drop d.point.toNat

def padLeft (width : Nat) (ds : List Char) : List Char := zeros (width - ds.length) ++ ds

def scientific (width : Nat) (d : Digits) : List Char :=
  let e := d.point - 1
  let head := d.digits.take 1
  let tail := d.digits.drop 1
  head ++ (if tail.isEmpty then [] else '.' :: tail) ++ ['e', if e < 0 then '-' else '+'] ++
    padLeft width (natDigits e.natAbs)

def Layout.write (f : Layout) (x : Binary64) : String :=
  if x.isNaN then f.undefined
  else
    let sign := if x.isNegative then "-" else ""
    if !x.isFinite then sign ++ f.infinite
    else if x.isZero then sign ++ "0.0"
    else
      let d := Shortest.digits x
      sign ++ String.ofList
        (if f.least ≤ d.point && d.point ≤ f.greatest then positional d else scientific f.exponentWidth d)

/-- Numbers from 0.0001 up to 10^16 are written positionally, and exponents have two digits at least. -/
def plain : Layout := ⟨-3, 16, 2, "inf", "nan"⟩

/-- The same layout with the names that documents use. -/
def inDocument : Layout := ⟨-3, 16, 2, "Infinity", "NaN"⟩

/-- The nearest whole number, a half to the even neighbour; the sign stays even on zero. -/
def whole (x : Binary64) : String :=
  if x.isNaN then "nan"
  else
    let sign := if x.isNegative then "-" else ""
    if !x.isFinite then sign ++ "inf"
    else
      let (n, d) := x.magnitude
      sign ++ ofNat (roundHalfEven n d)

/-- The number with four digits after the point that is nearest, a half to the even neighbour. -/
def toFourPlaces (x : Binary64) : Binary64 :=
  if x.isNaN || !x.isFinite then x
  else
    let (n, d) := x.magnitude
    Binary64.nearest x.isNegative (roundHalfEven (n * 10000) d) 10000

/-- A number as read: `± coefficient · 10^exponent`. -/
structure Reading where
  negative : Bool
  coefficient : Nat
  exponent : Int

/-- The nearest number. Exponents far outside the format's range are settled without forming powers. -/
def Reading.value (r : Reading) : Binary64 :=
  let size : Int := (natDigits r.coefficient).length + r.exponent
  if r.coefficient = 0 then Binary64.zero r.negative
  else if 400 < size then Binary64.infinity r.negative
  else if size < -400 then Binary64.zero r.negative
  else Shortest.readBack r.negative r.coefficient r.exponent

/-- Splits off an optional sign. -/
def sign : List Char → Bool × List Char
  | '-' :: rest => (true, rest)
  | '+' :: rest => (false, rest)
  | s => (false, s)

/-- Reads digits by `value?`, with single underscores between digits; `none` without any digit. -/
def digitRun (value? : Char → Option Nat) (started : Bool) (n count : Nat) :
    List Char → Option (Nat × Nat × List Char)
  | [] => if started then some (n, count, []) else none
  | c :: rest =>
    match value? c with
    | some v => digitRun value? true (10 * n + v) (count + 1) rest
    | none =>
      if started && c == '_' then
        match rest with
        | d :: _ => if (value? d).isSome then digitRun value? false n count rest else some (n, count, c :: rest)
        | [] => some (n, count, c :: rest)
      else if started then some (n, count, c :: rest)
      else none

/-- An integer written with an optional sign and digits of any script. -/
def readInt? (s : List Char) : Option Int :=
  let (negative, body) := sign (Text.trim s)
  match digitRun Text.digitValue? false 0 0 body with
  | some (n, _, []) => some (if negative then -(n : Int) else n)
  | _ => none

/-- How many digits an integer literal has, signs and underscores aside. -/
def digitCount (s : List Char) : Nat := (s.filter fun c => (Text.digitValue? c).isSome).length

def lower (s : List Char) : List Char := s.map Char.toLower

/-- An exponent mark with its signed digits, at the end of the text. -/
def readExponent? (value? : Char → Option Nat) : List Char → Option Int
  | [] => some 0
  | c :: rest =>
    if c == 'e' || c == 'E' then
      let (negative, body) := sign rest
      match digitRun value? false 0 0 body with
      | some (n, _, []) => some (if negative then -(n : Int) else n)
      | _ => none
    else none

/-- Digits on at least one side of an optional point, then an optional exponent. -/
def readUnsigned? (value? : Char → Option Nat) (s : List Char) : Option (Nat × Int) :=
  let (whole, wholeCount, rest) := (digitRun value? false 0 0 s).getD (0, 0, s)
  match rest with
  | '.' :: tail =>
    let (all, count, rest) := (digitRun value? false whole 0 tail).getD (whole, 0, tail)
    if wholeCount + count = 0 then none
    else (readExponent? value? rest).map fun e => (all, e - count)
  | rest =>
    if wholeCount = 0 then none
    else (readExponent? value? rest).map fun e => (whole, e)

/-- A number written in decimal, or by the name of an infinite or undefined number in any case. -/
def readNumber? (value? : Char → Option Nat) (s : List Char) : Option Binary64 :=
  let (negative, body) := sign (Text.trim s)
  if lower body = "inf".toList || lower body = "infinity".toList then some (Binary64.infinity negative)
  else if lower body = "nan".toList then some Binary64.nan
  else (readUnsigned? value? body).map fun (c, e) => (⟨negative, c, e⟩ : Reading).value

end ProofRelay.Decimal

namespace ProofRelay

/-- Points in time and spans between them. The relay only adds, subtracts and compares them, so it is written
for any kind of number; runs measure time in seconds as binary fractions. -/
class Time (τ : Type) where
  zero : τ
  add : τ → τ → τ
  sub : τ → τ → τ
  lt : τ → τ → Bool
  le : τ → τ → Bool
  /-- A span in whole seconds, as messages show it. -/
  wholeSeconds : τ → String
  /-- A span as a run keeps it. -/
  rounded : τ → τ

instance : Time Binary64 where
  zero := Binary64.zero false
  add := Binary64.add
  sub := Binary64.sub
  lt := Binary64.lt
  le := Binary64.le
  wholeSeconds := Decimal.whole
  rounded := Decimal.toFourPlaces

end ProofRelay
