/-!
Text as a list of code points, and the code points that are blank or a digit.

A `String` holds Unicode scalar values only. A document may name a surrogate by an escape, or carry one
in its bytes, and so may the error text of a node or a path, so foreign text is a list of code points, and
a `String` is the part of it without surrogates.
-/

namespace ProofRelay

/-- A Unicode code point, surrogates included. -/
abbrev CodePoint := Fin 0x110000

abbrev Text := List CodePoint

namespace CodePoint

theorem charBound (c : Char) : c.toNat < 0x110000 := by
  have h : c.toNat < 0xD800 ∨ 0xDFFF < c.toNat ∧ c.toNat < 0x110000 := c.valid
  omega

/-- The code point with this number, for numbers below the bound. -/
def ofNat (n : Nat) : CodePoint := ⟨n % 0x110000, Nat.mod_lt n (by decide)⟩

def ofChar (c : Char) : CodePoint := ⟨c.toNat, charBound c⟩

def isHighSurrogate (p : CodePoint) : Bool := 0xD800 ≤ p.val && p.val ≤ 0xDBFF

def isLowSurrogate (p : CodePoint) : Bool := 0xDC00 ≤ p.val && p.val ≤ 0xDFFF

def isSurrogate (p : CodePoint) : Bool := p.isHighSurrogate || p.isLowSurrogate

/-- The scalar value with this code point; surrogates have none. -/
def toChar? (p : CodePoint) : Option Char := if p.isSurrogate then none else some (Char.ofNat p.val)

/-- The code points of Unicode white space, as closed ranges. -/
def blankRanges : List (Nat × Nat) :=
  [(0x09, 0x0D), (0x1C, 0x20), (0x85, 0x85), (0xA0, 0xA0), (0x1680, 0x1680), (0x2000, 0x200A),
   (0x2028, 0x2029), (0x202F, 0x202F), (0x205F, 0x205F), (0x3000, 0x3000)]

def isBlank (p : CodePoint) : Bool :=
  blankRanges.any fun r => r.1 ≤ p.val && p.val ≤ r.2

end CodePoint

namespace Text

def ofString (s : String) : Text := s.toList.map CodePoint.ofChar

instance : Coe String Text := ⟨ofString⟩

/-- The characters of a text; a surrogate is none. -/
def characters (t : Text) : List Char := t.filterMap CodePoint.toChar?

/-- The `String` with these code points, if none of them is a surrogate. -/
def toString? (t : Text) : Option String := (t.mapM CodePoint.toChar?).map String.ofList

/-- The `String` with these code points, where a surrogate is shown by the replacement character. -/
def toStringLossy (t : Text) : String :=
  String.ofList (t.map fun p => p.toChar?.getD (Char.ofNat 0xFFFD))

def isBlank (c : Char) : Bool := (CodePoint.ofChar c).isBlank

/-- A list without the elements of a kind at either end. -/
def strip {α : Type} (blank : α → Bool) (s : List α) : List α :=
  ((s.dropWhile blank).reverse.dropWhile blank).reverse

/-- The text without blank characters at either end. -/
def trim (s : List Char) : List Char := strip isBlank s

/-- The blanks of ASCII alone: tab, line feed, vertical tab, form feed, carriage return, space. -/
def isAsciiBlank (c : Char) : Bool :=
  c == ' ' || (0x09 ≤ c.toNat && c.toNat ≤ 0x0D)

/-- The zeros of all scripts with decimal digits. Each script's digits are ten consecutive code points from
its zero. -/
def zeroDigits : List Nat :=
  [0x30, 0x660, 0x6F0, 0x7C0, 0x966, 0x9E6, 0xA66, 0xAE6, 0xB66, 0xBE6, 0xC66, 0xCE6, 0xD66, 0xDE6,
   0xE50, 0xED0, 0xF20, 0x1040, 0x1090, 0x17E0, 0x1810, 0x1946, 0x19D0, 0x1A80, 0x1A90, 0x1B50,
   0x1BB0, 0x1C40, 0x1C50, 0xA620, 0xA8D0, 0xA900, 0xA9D0, 0xA9F0, 0xAA50, 0xABF0, 0xFF10, 0x104A0,
   0x10D30, 0x11066, 0x110F0, 0x11136, 0x111D0, 0x112F0, 0x11450, 0x114D0, 0x11650, 0x116C0,
   0x11730, 0x118E0, 0x11950, 0x11C50, 0x11D50, 0x11DA0, 0x16A60, 0x16AC0, 0x16B50, 0x1D7CE,
   0x1D7D8, 0x1D7E2, 0x1D7EC, 0x1D7F6, 0x1E140, 0x1E2F0, 0x1E950, 0x1FBF0]

/-- The value of a decimal digit of any script. -/
def digitValue? (c : Char) : Option Nat :=
  if c.toNat < 0x80 then
    if '0' ≤ c && c ≤ '9' then some (c.toNat - '0'.toNat) else none
  else
    (zeroDigits.find? fun z => z ≤ c.toNat && c.toNat < z + 10).map fun z => c.toNat - z

/-- The value of a digit `0` to `9`. -/
def asciiDigit? (c : Char) : Option Nat :=
  if '0' ≤ c && c ≤ '9' then some (c.toNat - '0'.toNat) else none

end Text

end ProofRelay
