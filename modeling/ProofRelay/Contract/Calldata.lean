import ProofRelay.Client.Dialogue
import ProofRelay.Contract.Interface
import ProofRelay.Digest.Keccak256
import ProofRelay.Bytes.Utf8

/-!
Encoded calls: four bytes that stand for the method with the types of its parameters, then one word of 32
bytes for each argument.
-/

namespace ProofRelay.Calldata

/-- The types of a method's parameters, if the interface has the method. -/
def parameterTypes? (entries : List Json) (method : String) : Option (List String) := do
  let entry ← entries.find? fun e => Interface.isFunction e && Interface.isNamed method (e.get "name")
  match entry.get "inputs" with
  | .arr inputs => some (inputs.map fun i => (i.get "type").display.toStringLossy)
  | _ => some []

def signature (method : String) (types : List String) : String :=
  method ++ "(" ++ String.intercalate "," types ++ ")"

/-- The first four bytes of the hash of a method's signature. -/
def selector (method : String) (types : List String) : Bytes :=
  (Keccak256.digest (Utf8.encode (signature method types))).take 4

/-- The number of bytes of a word. -/
def wordSize : Nat := 32

/-- The word of an argument of a type. -/
def word? (type : String) (d : Datum) : Option Bytes :=
  match type, d with
  | "bytes32", .bytes bs => if bs.length = wordSize then some bs else none
  | "uint256", .value (.int n) =>
    if 0 ≤ n && n.toNat < Nat.pow 256 wordSize then some (Bytes.ofNatWidth wordSize n.toNat) else none
  | _, _ => none

/-- One word for each parameter, if the arguments have the types of the parameters. -/
def words? : List String → List Datum → Option (List Bytes)
  | [], [] => some []
  | type :: types, d :: args => do return (← word? type d) :: (← words? types args)
  | _, _ => none

def encode? (entries : List Json) (c : Client.Call) : Option Bytes := do
  let types ← parameterTypes? entries c.method
  return selector c.method types ++ (← words? types c.args).flatten

end ProofRelay.Calldata
