import ProofRelay.Contract.Calldata
import ProofRelay.Simulation.World

/-!
A node in a test that is asked with encoded calls and answers from a script. It keeps what it was sent.
-/

namespace ProofRelay.Simulation

structure Rpc where
  entries : List Json
  contract : String
  gasPrice : Json := .int 1000000000
  estimate : Json := .int 50000
  chainId : Json := .int 1337
  pending : Json := .int 0
  block : Json := .int 1
  status : Json := .int 1
  gasUsed : Json := .int 42000
  /-- The words that calls return, in order. -/
  results : List Bytes := []
  memory : Memory := {}
  sent : List Bytes := []
  calls : List (Bytes × Json) := []

namespace Rpc

/-- The fault of arguments that do not have the types of the parameters. -/
def unencodable (c : Client.Call) : Fault := ⟨.nodeClient, "Could not encode the arguments of " ++ c.method⟩

def prepare (r : Rpc) (c : Client.Call) : Except Fault Unit :=
  match Calldata.encode? r.entries c with
  | some _ => .ok ()
  | none => .error (unencodable c)

def build (r : Rpc) (c : Client.Call) : Except Fault Client.Built :=
  match Calldata.encode? r.entries c with
  | some data => .ok (.fields [("to", .text r.contract), ("value", .value (.int 0)), ("data", .text data.toHex0x)])
  | none => .error (unencodable c)

/-- How a block is named in a question. -/
def blockName (block : Json) : Json :=
  match block with
  | .int n => .text (Client.hexOfInt n)
  | v => v

/-- What a word means for a method. -/
def meaning (c : Client.Call) (word : Bytes) : Json :=
  if c.method == "verify_proof" then .bool (Bytes.toNat word != 0) else .int (Bytes.toNat word)

def call (r : Rpc) (c : Client.Call) (block : Json) : Except Fault Json × Rpc :=
  match Calldata.encode? r.entries c with
  | none => (.error (unencodable c), r)
  | some data =>
    (.ok (meaning c (r.results.headD [])),
      { r with results := r.results.drop 1, calls := r.calls ++ [(data, blockName block)] })

def receipt (r : Rpc) : Json := .record [("blockNumber", r.block), ("status", r.status), ("gasUsed", r.gasUsed)]

def reply (q : Client.Ask) (r : Rpc) : Client.Reply q × Rpc :=
  match q with
  | .isConnected => (.ok (.bool true), r)
  | .chainId => (.ok r.chainId, r)
  | .gasPrice => (.ok r.gasPrice, r)
  | .prepare c => (r.prepare c, r)
  | .estimate _ _ => (.ok r.estimate, r)
  | .build c _ => (r.build c, r)
  | .pendingCount _ => (.ok r.pending, r)
  | .send raw => (.ok (.bytes (Keccak256.digest raw)), { r with sent := r.sent ++ [raw] })
  | .awaitReceipt _ => (.ok r.receipt, r)
  | .call c block => r.call c block
  | .knownChainId => (r.memory.chainId, r)
  | .rememberChainId n => ((), { r with memory := { r.memory with chainId := some n } })
  | .lock _ => ((), r)
  | .unlock _ => ((), r)
  | .lastNonce address => (r.memory.nonces.lookup address, r)
  | .rememberNonce address n => ((), { r with memory := r.memory.withNonce address n })
  | .forgetNonce address => ((), { r with memory := r.memory.withoutNonce address })

/-- Runs one attempt of the client to its end. -/
def run {α : Type} (r : Rpc) (a : Attempt Client.dialogue α) : Except Trouble α × Rpc := a.run.runWith reply r

end Rpc

end ProofRelay.Simulation
