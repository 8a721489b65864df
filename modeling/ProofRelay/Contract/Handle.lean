import ProofRelay.Chain.Address
import ProofRelay.Contract.Interface
import ProofRelay.Files.Tree
import ProofRelay.Text.Lines

/-!
Contract handles: an interface bound to the address at which the contract is deployed.
-/

namespace ProofRelay

structure Handle where
  address : String
  entries : List Json

namespace Handle

def methodNames (h : Handle) : Except Fault (List Json) := Interface.methodNames h.entries

/-- A method may be used if the interface names it. -/
def checkMethod (h : Handle) (method : String) : Except Fault Unit := do
  let names ← h.methodNames
  if names.any (Interface.isNamed method) then .ok ()
  else .error ⟨.member, "Contract has no method " ++ quote method⟩

def badAddress (address : Datum) : Trouble :=
  .failure { kind := .load, message := "Contract address is missing or malformed", detail := address.display }

/-- Binds an interface to an address. The node has a say in it: `refused` is its objection, if it has one. -/
def bind (refused : Option Fault) (entries : List Json) (address : Datum) : Except Trouble Handle :=
  match if address.isTruthy then Address.ofDatum? address else none with
  | none => .error (badAddress address)
  | some a =>
    match refused with
    | none => .ok ⟨a.toString, entries⟩
    | some f =>
      if f.kind == .type || f.kind.isValue then
        .error (Interface.refusal "web3 rejected the ABI" f.text)
      else .error (.fault f)

def unreadable (path : Text) (f : Fault) : Trouble :=
  .failure { kind := .load, detail := f.text,
             message := Text.ofString "Cannot read contract interface at " ++ Path.spelled path }

/-- The text of a file, with line ends made the same. -/
def textOf (content : Bytes) : Except Fault Text :=
  (Encoding.decodeStrict content).map fun t => Text.ofString (String.ofList (Text.unifyNewlines t.toStringLossy.toList))

/-- Reads an interface from a file and binds it, which the node may refuse. All its functions must have
names. -/
def load (n : Interface.Nesting) (files : FileTree) (path : Text) (address : Datum)
    (refused : Option Fault := none) : Except Trouble Handle := do
  let content ← (files.readAt path).mapError fun f =>
    if f.kind.isSystem then unreadable path f else .fault f
  let text ← (textOf content).mapError .fault
  let handle ← bind refused (← Interface.ofText n text) address
  let _ ← handle.methodNames.mapError .fault
  return handle

/-- The interface of the proof registry. -/
def registry : List Json :=
  let input (name kind : String) : Json :=
    .record [("internalType", .text kind), ("name", .text name), ("type", .text kind)]
  let method (name mutability : String) (inputs outputs : List Json) : Json :=
    .record [("inputs", .arr inputs), ("name", .text name), ("outputs", .arr outputs),
      ("stateMutability", .text mutability), ("type", .text "function")]
  [method "create_proof" "nonpayable" [input "commitment" "bytes32"] [],
   method "verify_proof" "view" [input "index" "uint256", input "commitment" "bytes32"] [input "" "bool"],
   method "counter" "view" [] [input "" "uint256"]]

end Handle

end ProofRelay
