import ProofRelay.Pipeline.Stage
import ProofRelay.Record

/-!
Outcomes of runs: done with a record, or failed with a cause and the stage it arose in.
-/

namespace ProofRelay

structure Outcome (τ : Type) where
  requestId : Text
  stage : Stage
  history : List Stage
  timings : List (Stage × τ)
  commitment : Option String := none
  submission : Option Record := none
  verified : Option Bool := none
  failedStage : Option Stage := none
  error : Option Failure := none

namespace Outcome

variable {τ : Type}

def ok (o : Outcome τ) : Bool := o.stage = .done

/-- The failed stage's name and the summary of the cause. -/
def failure (o : Outcome τ) : Option (String × Text) :=
  if o.ok then none
  else
    match o.failedStage, o.error with
    | some stage, some f => some (stage.name, f.summary)
    | _, _ => none

end Outcome

end ProofRelay
