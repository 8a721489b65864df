/-!
Numbers of the IEEE 754 format binary64, held by their bits.

A finite number is `± m · 2^e` with natural `m`. `nearest` rounds a ratio of natural numbers to the
closest number of the format, a half to the even neighbour; reading decimals and integers go through it.
-/

namespace ProofRelay

structure Binary64 where
  bits : UInt64
deriving DecidableEq, Repr

/-- The nearest natural number to `n / d`, a half to the even neighbour. -/
def roundHalfEven (n d : Nat) : Nat :=
  let q := n / d
  let r := n % d
  if 2 * r < d then q
  else if 2 * r = d then (if q % 2 = 0 then q else q + 1)
  else q + 1

namespace Binary64

def ofFloat (x : Float) : Binary64 := ⟨x.toBits⟩

def toFloat (x : Binary64) : Float := Float.ofBits x.bits

/-- The place value of the sign bit: two to the power 63. -/
def signPlace : Nat := 0x8000000000000000

/-- The least mantissa of a normal number: two to the power 52. -/
def leastNormal : Nat := 0x10000000000000

def isNegative (x : Binary64) : Bool := x.bits.toNat / signPlace = 1

def exponentField (x : Binary64) : Nat := x.bits.toNat / leastNormal % 2048

def fractionField (x : Binary64) : Nat := x.bits.toNat % leastNormal

def isFinite (x : Binary64) : Bool := x.exponentField != 2047

def isNaN (x : Binary64) : Bool := x.exponentField == 2047 && x.fractionField != 0

/-- The natural number `m` of `± m · 2^e`. -/
def mantissa (x : Binary64) : Nat :=
  if x.exponentField = 0 then x.fractionField else leastNormal + x.fractionField

/-- The exponent `e` of `± m · 2^e`. -/
def exponent (x : Binary64) : Int :=
  if x.exponentField = 0 then -1074 else (x.exponentField : Int) - 1075

/-- Numerator and denominator of the magnitude of a finite number. -/
def magnitude (x : Binary64) : Nat × Nat :=
  if 0 ≤ x.exponent then (x.mantissa * Nat.pow 2 x.exponent.toNat, 1)
  else (x.mantissa, Nat.pow 2 x.exponent.natAbs)

def signBit (negative : Bool) : Nat := if negative then signPlace else 0

def infinity (negative : Bool) : Binary64 := ⟨UInt64.ofNat (signBit negative + 2047 * leastNormal)⟩

def zero (negative : Bool) : Binary64 := ⟨UInt64.ofNat (signBit negative)⟩

def nan : Binary64 := ⟨UInt64.ofNat (2047 * leastNormal + leastNormal / 2)⟩

/-- The number `m · 2^e`, for `m ≤ 2^53` and an `e` that is least for `m` below `2^52`. -/
def pack (negative : Bool) (m : Nat) (e : Int) : Binary64 :=
  let (m, e) := if m = 2 * leastNormal then (leastNormal, e + 1) else (m, e)
  if m < leastNormal then ⟨UInt64.ofNat (signBit negative + m)⟩
  else if 2047 ≤ e + 1075 then infinity negative
  else ⟨UInt64.ofNat (signBit negative + (e + 1075).toNat * leastNormal + (m - leastNormal))⟩

/-- The greatest `k` with `2^k ≤ n / d`, for positive `n` and `d`. -/
def floorLog2 (n d : Nat) : Int :=
  let k : Int := (n.log2 : Int) - d.log2
  let reached := if 0 ≤ k then d * Nat.pow 2 k.toNat ≤ n else d ≤ n * Nat.pow 2 k.natAbs
  if reached then k else k - 1

/-- The number of the format that is nearest to `± n / d`; one beyond the largest is infinite. -/
def nearest (negative : Bool) (n d : Nat) : Binary64 :=
  if n = 0 then zero negative
  else
    let e := max (floorLog2 n d - 52) (-1074)
    let m := if 0 ≤ e then roundHalfEven n (d * Nat.pow 2 e.toNat) else roundHalfEven (n * Nat.pow 2 e.natAbs) d
    pack negative m e

/-- The nearest number to an integer, unless that would be infinite. -/
def ofInt? (n : Int) : Option Binary64 :=
  let x := nearest (n < 0) n.natAbs 1
  if x.isFinite then some x else none

/-- The integer part, for a finite number. -/
def truncate (x : Binary64) : Int :=
  let (n, d) := x.magnitude
  if x.isNegative then -((n / d : Nat) : Int) else ((n / d : Nat) : Int)

/-- Whether a finite number is an integer. -/
def isWhole (x : Binary64) : Bool :=
  let (n, d) := x.magnitude
  n % d == 0

def isZero (x : Binary64) : Bool := x.isFinite && x.mantissa == 0

def add (x y : Binary64) : Binary64 := ofFloat (x.toFloat + y.toFloat)

def sub (x y : Binary64) : Binary64 := ofFloat (x.toFloat - y.toFloat)

def mul (x y : Binary64) : Binary64 := ofFloat (x.toFloat * y.toFloat)

def lt (x y : Binary64) : Bool := x.toFloat < y.toFloat

def le (x y : Binary64) : Bool := x.toFloat ≤ y.toFloat

end Binary64

end ProofRelay
