import ProofRelay.Activity.Basic
import ProofRelay.Datum

/-!
What the chain client asks: of the node, and of the memory that all its users share, which holds the
chain id, the last nonce used by each account, and a lock for each account. A node may fail on any
question, and what it returns may have any shape.
-/

namespace ProofRelay.Client

/-- A method of a contract with its arguments. -/
structure Call where
  method : String
  args : List Datum

/-- What a transaction is built with. -/
structure Terms where
  sender : String
  gas : Int
  gasPrice : Int
  chainId : Int

/-- A transaction as a node builds it: fields by name, or something else. -/
inductive Built where
  | fields (fs : List (String × Datum))
  | other (v : Json)

inductive Ask where
  | isConnected
  | chainId
  | gasPrice
  /-- Encodes a call; nothing is sent to the node yet. -/
  | prepare (c : Call)
  | estimate (c : Call) (sender : String)
  | build (c : Call) (t : Terms)
  | pendingCount (address : String)
  | send (raw : Bytes)
  | awaitReceipt (txHash : String)
  | call (c : Call) (block : Json)
  | knownChainId
  | rememberChainId (n : Int)
  | lock (address : String)
  | unlock (address : String)
  | lastNonce (address : String)
  | rememberNonce (address : String) (n : Int)
  | forgetNonce (address : String)

abbrev Reply : Ask → Type
  | .isConnected | .chainId | .gasPrice | .estimate _ _ | .pendingCount _ | .awaitReceipt _ | .call _ _ =>
    Except Fault Json
  | .prepare _ => Except Fault Unit
  | .build _ _ => Except Fault Built
  | .send _ => Except Fault Datum
  | .knownChainId => Option Int
  | .lastNonce _ => Option Int
  | .rememberChainId _ | .lock _ | .unlock _ | .rememberNonce _ _ | .forgetNonce _ => Unit

abbrev dialogue : Dialogue := ⟨Ask, Reply⟩

def ask (q : Ask) : Attempt dialogue (Reply q) := @Attempt.query dialogue q

/-- A question whose faults are trouble. -/
def demand {α : Type} (r : Except Fault α) : Attempt dialogue α := Attempt.ofExcept (r.mapError .fault)

/-- Turns the faults of a node's round trip into a failure; other faults stay. -/
def onNode {α : Type} (failure : Fault → Failure) (a : Attempt dialogue α) : Attempt dialogue α := do
  match ← a.outcome with
  | .error (.fault f) => Attempt.ofExcept (.error (if f.kind.isNode then .failure (failure f) else .fault f))
  | r => Attempt.ofExcept r

end ProofRelay.Client
