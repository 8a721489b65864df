import ProofRelay.Json.Literal
import ProofRelay.Json.Reader

/-!
What a value has to have or to be: a member that is asked for, or an integer. Asking for a member that is not
there, asking a value that has none, and taking for an integer what stands for none, are faults.
-/

namespace ProofRelay.Json

/-- The fault of asking a value that is no object for a member by name. -/
def notIndexable (v : Json) : Fault :=
  match v with
  | .arr _ => .type "list indices must be integers or slices, not str"
  | .str _ => .type "string indices must be integers, not 'str'"
  | v => .type (quote v.kindName ++ " object is not subscriptable")

def member (v : Json) (name : String) : Except Fault Json :=
  match v with
  | .obj members =>
    match findMember (Text.ofString name) members with
    | some x => .ok x
    | none => .error (.missingKey name)
  | v => .error (notIndexable v)

/-- The fault of an integer literal with more digits than the limit. -/
def tooManyDigits (count : Nat) : Fault :=
  .value ("Exceeds the limit (" ++ Decimal.ofNat Decimal.digitLimit ++
    " digits) for integer string conversion: value has " ++ Decimal.ofNat count ++
    " digits; use sys.set_int_max_str_digits() to increase the limit")

/-- The fault of a value nested deeper than a reader takes. -/
def nestedTooDeep (holder : Holder) : Fault := .tooDeep ("decoding a JSON " ++ holder.name ++ " from a unicode string")

/-- The integer that a value stands for: an integer itself, a truth value as 0 or 1, the whole part of a number,
or the integer that a string spells. -/
def toInt : Json → Except Fault Int
  | .int n => .ok n
  | .bool b => .ok (if b then 1 else 0)
  | .real x =>
    if x.isNaN then .error (.value "cannot convert float NaN to integer")
    else if !x.isFinite then .error ⟨.overflow, "cannot convert float infinity to integer"⟩
    else .ok x.truncate
  | .str s =>
    match s.toString?.bind fun t => Decimal.readInt? t.toList with
    | some n =>
      let count := Decimal.digitCount s.toStringLossy.toList
      if Decimal.digitLimit < count then .error (tooManyDigits count) else .ok n
    | none => .error (.value ("invalid literal for int() with base 10: " ++ Text.quoted s))
  | v => .error (.type ("int() argument must be a string, a bytes-like object or a real number, not " ++
      quote v.kindName))

end ProofRelay.Json
