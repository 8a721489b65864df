import ProofRelay.Client.Dialogue
import ProofRelay.Contract.Handle
import ProofRelay.Json.Access

/-!
Reading from a node: its chain id, its health, and calls that change nothing.
-/

namespace ProofRelay.Client

/-- The chain id, asked of the node once and then remembered. -/
def chainId : Attempt dialogue Int := do
  match ← ask .knownChainId with
  | some n => return n
  | none =>
    let n ← demand ((← ask .chainId).bind Json.toInt)
    ask (.rememberChainId n)
    return n

/-- Whether the node can be reached. A failed round trip means that it cannot. -/
def isConnected : Attempt dialogue Bool := do
  match ← ask .isConnected with
  | .ok v => return v.isTruthy
  | .error f => if f.kind.isNode then return false else demand (.error f)

structure Health where
  connected : Bool
  chainId : Option Int

/-- A snapshot of the node. The chain id is asked for only if it is not known and the node can be
reached, and may stay unknown. -/
def health : Attempt dialogue Health := do
  let connected ← isConnected
  let known ← ask .knownChainId
  if connected && known.isNone then
    match ← chainId.outcome with
    | .ok n => return ⟨connected, some n⟩
    | .error (.fault f) => if f.kind.isNode then return ⟨connected, known⟩ else demand (.error f)
    | .error t => Attempt.ofExcept (.error t)
  else return ⟨connected, known⟩

/-- Checks that a contract has the method of a call, and encodes the call. -/
def prepare (h : Handle) (c : Call) : Attempt dialogue (Except Fault Unit) := do
  match h.checkMethod c.method with
  | .error f => return .error f
  | .ok _ => ask (.prepare c)

def callTrouble (method : String) (f : Fault) : Trouble :=
  if f.kind == .member || f.kind == .type then
    .failure { kind := .call, message := "Cannot call " ++ method, detail := f.text }
  else if f.kind.isNode then
    .failure { kind := .call, message := method ++ " call failed", detail := f.text }
  else .fault f

/-- Asks a contract, as of a block. -/
def call (h : Handle) (c : Call) (block : Json) : Attempt dialogue Json := do
  match ← prepare h c with
  | .error f => Attempt.ofExcept (.error (callTrouble c.method f))
  | .ok _ =>
    match ← ask (.call c block) with
    | .error f => Attempt.ofExcept (.error (callTrouble c.method f))
    | .ok v => return v

def latest : Json := .text "latest"

/-- The number of commitments in the contract, as of a block. -/
def readCounter (h : Handle) (block : Json) : Attempt dialogue Int := do
  demand (← call h ⟨"counter", []⟩ block).toInt

end ProofRelay.Client
