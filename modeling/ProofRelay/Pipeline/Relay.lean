import ProofRelay.Client.Submit
import ProofRelay.Commitment
import ProofRelay.Pipeline.Outcome
import ProofRelay.Prover.Invocation
import ProofRelay.Request

/-!
The relay of one request: prove it, hash the proof, write the commitment to the chain, and ask the
contract for it. A failure ends the run in the stage it arose in, and no later stage is begun. Only
proving and verifying are tried again; a second submission could write the same commitment twice.
-/

namespace ProofRelay

namespace Relay

/-- A relay asks the chain and the prover's surroundings, looks at the clock, and may pause. -/
inductive Ask (τ : Type) where
  | chain (q : Client.Ask)
  | prover (q : Prover.Ask τ)
  | now
  | pause (d : τ)

abbrev Reply {τ : Type} : Ask τ → Type
  | .chain q => Client.Reply q
  | .prover q => Prover.Reply q
  | .now => τ
  | .pause _ => Unit

abbrev dialogue (τ : Type) : Dialogue := ⟨Ask τ, Reply⟩

variable {τ : Type}

def chain : Client.dialogue.Embedding (dialogue τ) := ⟨.chain, fun _ r => r⟩

def prover : (Prover.dialogue τ).Embedding (dialogue τ) := ⟨.prover, fun _ r => r⟩

def onChain {α : Type} (a : Attempt Client.dialogue α) : Attempt (dialogue τ) α := a.via chain

def onProver {α : Type} (a : Attempt (Prover.dialogue τ) α) : Attempt (dialogue τ) α := a.via prover

def now : Attempt (dialogue τ) τ := @Attempt.query (dialogue τ) .now

def pause (d : τ) : Attempt (dialogue τ) Unit := @Attempt.query (dialogue τ) (.pause d)

structure Config (τ : Type) where
  prover : Prover.Config τ
  client : Client.Config
  contract : Handle
  signer : Signer
  model : Path
  retries : Int := 0
  /-- How far the position of the newest commitment is below the counter. -/
  indexOffset : Int := 1

/-- How often a stage is tried at most. -/
def Config.attemptsIn (c : Config τ) (s : Stage) : Nat := 1 + if s.isRetryable then c.retries.toNat else 0

def prove [Time τ] (c : Config τ) (r : Request) : Attempt (dialogue τ) Prover.Artifact :=
  onProver (Prover.proveDocument c.prover r.id r.proverInput c.model.toString)

/-- The trouble of a counter that has not moved, told with both its values. -/
def stuckTrouble (before after : Int) (txHash : String) : Trouble :=
  match Decimal.shown before, Decimal.shown after with
  | .ok b, .ok a =>
    .failure { kind := .submission, message := "Contract counter did not advance after create_proof",
               detail := "before=" ++ b ++ " after=" ++ a ++ " tx=" ++ txHash }
  | .error f, _ => .fault f
  | _, .error f => .fault f

/-- Writes a commitment to the chain. The counter is read as of the receipt's block, so that what others
append later does not shift the position. -/
def submit (c : Config τ) (commitment : String) : Attempt (dialogue τ) Record := do
  let before ← onChain (Client.readCounter c.contract Client.latest)
  let bytes ← Attempt.ofExcept ((Commitment.toBytes commitment).mapError .fault)
  let tx ← onChain (Client.buildTransaction c.client c.contract ⟨"create_proof", [.bytes bytes]⟩ c.signer.address)
  let receipt ← onChain (Client.submit c.client tx c.signer)
  let after ← onChain (Client.readCounter c.contract (.int receipt.blockNumber))
  if after ≤ before then Attempt.ofExcept (.error (stuckTrouble before after receipt.txHash))
  else
    let record : Record := ⟨commitment, receipt.txHash, receipt.blockNumber, receipt.nonce, before, after,
      after - c.indexOffset⟩
    Attempt.ofExcept (record.checked.mapError .invalid)

/-- Asks the contract whether it holds a record's commitment at its position. -/
def verify (c : Config τ) (r : Record) : Attempt (dialogue τ) Bool := do
  let bytes ← Attempt.ofExcept ((Commitment.toBytes r.commitment).mapError .fault)
  let result ← onChain (Client.call c.contract ⟨"verify_proof", [.value (.int r.index), .bytes bytes]⟩ Client.latest)
  return result.isTruthy

section

variable [Time τ]

/-- Moves a run to a stage, by the clock. -/
def advance (r : Run τ) (target : Stage) : Attempt (dialogue τ) (Run τ) := do
  Attempt.ofExcept ((r.advance (← now) target).mapError .fault)

/-- What is known of a run when it ends early. -/
structure Progress (τ : Type) where
  run : Run τ
  commitment : Option String := none
  submission : Option Record := none

/-- The outcome of a run that failed in its stage. -/
def Progress.failed (p : Progress τ) (f : Failure) : Attempt (dialogue τ) (Outcome τ) := do
  let stage := p.run.stage
  let run ← advance p.run .failed
  return { requestId := run.requestId, stage := run.stage, history := run.history, timings := run.timings,
           commitment := p.commitment, submission := p.submission, failedStage := some stage,
           error := some (f.inStage stage.name) }

/-- Does a stage's work, and goes on if it succeeds. -/
def Progress.work {α : Type} (p : Progress τ) (work : Attempt (dialogue τ) α)
    (next : α → Attempt (dialogue τ) (Outcome τ)) : Attempt (dialogue τ) (Outcome τ) := do
  match ← work.outcome with
  | .ok a => next a
  | .error (.failure f) => p.failed f
  | .error t => Attempt.ofExcept (.error t)

/-- A run that has come to its end. The log tells the position of the commitment. -/
def finish (run : Run τ) (commitment : String) (record : Record) (verified : Bool) :
    Attempt (dialogue τ) (Outcome τ) := do
  let run ← advance run .done
  Attempt.log [record.index]
  return { requestId := run.requestId, stage := run.stage, history := run.history, timings := run.timings,
           commitment := some commitment, submission := some record, verified := some verified }

def verifying (c : Config τ) (run : Run τ) (commitment : String) (record : Record) :
    Attempt (dialogue τ) (Outcome τ) := do
  let run ← advance run .verifying
  Progress.work ⟨run, some commitment, some record⟩ (Attempt.retry (c.attemptsIn run.stage) (verify c record))
    (finish run commitment record)

def submitting (c : Config τ) (run : Run τ) (commitment : String) : Attempt (dialogue τ) (Outcome τ) := do
  let run ← advance run .submitting
  Progress.work ⟨run, some commitment, none⟩ (submit c commitment) (verifying c run commitment)

def hashing (c : Config τ) (run : Run τ) (artifact : Prover.Artifact) : Attempt (dialogue τ) (Outcome τ) := do
  let run ← advance run .hashing
  submitting c run (Commitment.ofBytes artifact.data)

def proving (c : Config τ) (run : Run τ) (r : Request) : Attempt (dialogue τ) (Outcome τ) := do
  let run ← advance run .proving
  Progress.work ⟨run, none, none⟩ (Attempt.retry (c.attemptsIn run.stage) (prove c r)) (hashing c run)

/-- Runs one request to its end. -/
def run (c : Config τ) (r : Request) : Attempt (dialogue τ) (Outcome τ) := do
  proving c { requestId := r.id, enteredAt := ← now } r

end

end Relay

end ProofRelay
