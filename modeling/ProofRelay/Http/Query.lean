import ProofRelay.Bytes.Utf8

/-!
Query strings: names and values between ampersands. A plus sign is a blank, and a percent sign with two
hexadecimal digits is a byte of UTF-8. Characters outside ASCII should not occur; the bytes of one are
read as one character each.
-/

namespace ProofRelay.Http.Query

/-- The bytes of a text, each as a character. -/
def byteChars (s : String) : List Char := (Utf8.encode s).map fun b => Char.ofNat b.toNat

def isAscii (c : Char) : Bool := c.toNat < 128

/-- The bytes that ASCII text with percent signs stands for; a sign without two digits is itself. -/
def percentBytes : List Char → Bytes
  | '%' :: a :: b :: rest =>
    match Bytes.hexValue? a, Bytes.hexValue? b with
    | some hi, some lo => Bytes.byteOfDigits hi lo :: percentBytes rest
    | _, _ => UInt8.ofNat '%'.toNat :: percentBytes (a :: b :: rest)
  | c :: rest => UInt8.ofNat c.toNat :: percentBytes rest
  | [] => []

/-- Decodes each run of ASCII characters by itself. -/
def decodeRuns (s : List Char) : List Char :=
  (s.splitBy fun a b => isAscii a == isAscii b).flatMap fun run =>
    if run.all isAscii then (Utf8.decodeLossy (percentBytes run)).toList else run

def decode (s : List Char) : String :=
  String.ofList (decodeRuns (s.map fun c => if c == '+' then ' ' else c))

/-- A name and a value, divided by the first equals sign. -/
def readPair (s : List Char) : String × String :=
  (decode (s.takeWhile (· != '=')), decode ((s.dropWhile (· != '=')).drop 1))

/-- The texts between ampersands that are not empty. -/
def pieces (s : List Char) : List (List Char) :=
  (s.splitBy fun a b => a != '&' && b != '&').filter (· != ['&'])

def read (query : String) : List (String × String) := (pieces (byteChars query)).map readPair

/-- The value of a name; of several the last one counts. -/
def value? (pairs : List (String × String)) (name : String) : Option String := pairs.reverse.lookup name

end ProofRelay.Http.Query
