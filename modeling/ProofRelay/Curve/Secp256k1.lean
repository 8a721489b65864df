/-!
The curve secp256k1, `y² = x³ + 7` over the field of `prime` elements, in affine coordinates.
-/

namespace ProofRelay.Secp256k1

/-- The number of elements of the coordinate field. -/
def prime : Nat := 0xFFFFFFFFFFFFFFFFFFFFFFFFFFFFFFFFFFFFFFFFFFFFFFFFFFFFFFFEFFFFFC2F

/-- The number of points of the group. -/
def order : Nat := 0xFFFFFFFFFFFFFFFFFFFFFFFFFFFFFFFEBAAEDCE6AF48A03BBFD25E8CD0364141

/-- The extended Euclidean algorithm: `s₀` and `s₁` are the coefficients of `r₀` and `r₁`. -/
def coefficient (r₀ r₁ : Nat) (s₀ s₁ : Int) : Int :=
  if _h : r₁ = 0 then s₀ else coefficient r₁ (r₀ % r₁) s₁ (s₀ - (r₀ / r₁ : Nat) * s₁)
termination_by r₁
decreasing_by exact Nat.mod_lt _ (Nat.pos_of_ne_zero _h)

/-- The inverse of `a` modulo `m`, for `a` prime to `m`. -/
def inverse (a m : Nat) : Nat := (coefficient m (a % m) 0 1 % (m : Int)).toNat

def power (base exponent m : Nat) : Nat :=
  if h : exponent = 0 then 1 % m
  else
    let rest := power (base * base % m) (exponent / 2) m
    if exponent % 2 = 1 then base * rest % m else rest
termination_by exponent
decreasing_by omega

inductive Point where
  | infinity
  | affine (x y : Nat)
deriving DecidableEq, Repr

def generator : Point :=
  .affine 0x79BE667EF9DCBBAC55A06295CE870B07029BFCDB2DCE28D959F2815B16F81798
    0x483ADA7726A3C4655DA4FBFC0E1108A8FD17B448A68554199C47D08FFB10D4B8

def subMod (a b : Nat) : Nat := (a + prime - b % prime) % prime

namespace Point

/-- The third point, reflected, of the line with this slope through `(x₁, y₁)` and another point. -/
def chord (slope x₁ y₁ x₂ : Nat) : Point :=
  let x := subMod (subMod (slope * slope) x₁) x₂
  .affine x (subMod (slope * subMod x₁ x) y₁)

def double : Point → Point
  | .infinity => .infinity
  | .affine x y =>
    if y = 0 then .infinity else chord (3 * x * x * inverse (2 * y) prime % prime) x y x

def add : Point → Point → Point
  | .infinity, q => q
  | p, .infinity => p
  | .affine x₁ y₁, .affine x₂ y₂ =>
    if x₁ = x₂ then (if y₁ = y₂ then double (.affine x₁ y₁) else .infinity)
    else chord (subMod y₂ y₁ * inverse (subMod x₂ x₁) prime % prime) x₁ y₁ x₂

/-- The `k`-fold sum. -/
def times (k : Nat) (p : Point) : Point :=
  if h : k = 0 then .infinity
  else
    let rest := times (k / 2) (double p)
    if k % 2 = 1 then add p rest else rest
termination_by k
decreasing_by omega

end Point

/-- The point with this abscissa and parity of the ordinate, if the curve has one. -/
def lift? (x : Nat) (odd : Bool) : Option Point :=
  let square := (x * x * x + 7) % prime
  let root := power square ((prime + 1) / 4) prime
  if root * root % prime = square then
    some (.affine x (if (root % 2 == 1) == odd then root else prime - root))
  else none

end ProofRelay.Secp256k1
