import ProofRelay.Number.Binary64
import ProofRelay.Text.CodePoint

/-!
Documents: the values of JSON, with integers apart from other numbers and the members of an object in
the order in which their names first came.
-/

namespace ProofRelay

inductive Json where
  | null
  | bool (b : Bool)
  | int (n : Int)
  | real (x : Binary64)
  | str (s : Text)
  | arr (items : List Json)
  | obj (members : List (Text × Json))

namespace Json

def text (s : String) : Json := .str (Text.ofString s)

/-- An object from names and values. -/
def record (members : List (String × Json)) : Json :=
  .obj (members.map fun (k, v) => (Text.ofString k, v))

/-- Gives a member its value: in its old place if it has one, else at the end. -/
def putMember (k : Text) (v : Json) : List (Text × Json) → List (Text × Json)
  | [] => [(k, v)]
  | (k', v') :: rest => if k = k' then (k', v) :: rest else (k', v') :: putMember k v rest

def findMember (k : Text) : List (Text × Json) → Option Json
  | [] => none
  | (k', v) :: rest => if k = k' then some v else findMember k rest

/-- The member with this name, if the value is an object that has one. -/
def get? (v : Json) (name : String) : Option Json :=
  match v with
  | .obj members => findMember (Text.ofString name) members
  | _ => none

/-- The member with this name, where null counts as absent. -/
def get (v : Json) (name : String) : Json := (v.get? name).getD .null

/-- Whether a value counts as true: all do but null, false, zero and what is empty. -/
def isTruthy : Json → Bool
  | .null => false
  | .bool b => b
  | .int n => n != 0
  | .real x => !x.isZero
  | .str s => !s.isEmpty
  | .arr items => !items.isEmpty
  | .obj members => !members.isEmpty

/-- The name of a value's kind, as messages give it. -/
def kindName : Json → String
  | .null => "NoneType"
  | .bool _ => "bool"
  | .int _ => "int"
  | .real _ => "float"
  | .str _ => "str"
  | .arr _ => "list"
  | .obj _ => "dict"

end Json

end ProofRelay
