import ProofRelay.Json.Writer

/-!
The text of a value inside a message: quoted strings, lists in brackets, objects in braces in member
order. `display` differs from `literal` in showing a string as it is.
-/

namespace ProofRelay.Json

mutual

def literalChars : Json → List Char
  | .null => "None".toList
  | .bool true => "True".toList
  | .bool false => "False".toList
  | .int n => (Decimal.ofInt n).toList
  | .real x => (Decimal.plain.write x).toList
  | .str s => Text.quotedChars s
  | .arr items => '[' :: (joinComma (literalItems items) ++ [']'])
  | .obj members => '{' :: (joinComma (literalMembers members) ++ ['}'])

def literalItems : List Json → List (List Char)
  | [] => []
  | v :: rest => literalChars v :: literalItems rest

def literalMembers : List (Text × Json) → List (List Char)
  | [] => []
  | (k, v) :: rest => (Text.quotedChars k ++ ':' :: ' ' :: literalChars v) :: literalMembers rest

end

def literal (v : Json) : String := String.ofList (literalChars v)

def display : Json → Text
  | .str s => s
  | v => v.literal

/-- How a value is gone through to be shown. -/
def Passage.showing : Passage := ⟨true, false⟩

/-- The text of a value inside a message, if there are so many levels left for making it. -/
def shown (levels : Nat) (v : Json) : Except Fault (List Char) :=
  match Passage.showing.obstacle? levels v with
  | none => .ok v.literalChars
  | some o => .error (o.fault "getting the repr of an object")

end ProofRelay.Json
