import ProofRelay.Json.Literal
import ProofRelay.Failure

/-!
The stages of a run. They follow one another in one order; a run may fail from any stage but the last,
and then goes nowhere else.
-/

namespace ProofRelay

inductive Stage where
  | idle
  | proving
  | hashing
  | submitting
  | verifying
  | done
  | failed
deriving DecidableEq, Repr

namespace Stage

def name : Stage → String
  | .idle => "Idle"
  | .proving => "Proving"
  | .hashing => "Hashing"
  | .submitting => "Submitting"
  | .verifying => "Verifying"
  | .done => "Done"
  | .failed => "Failed"

def all : List Stage := [.idle, .proving, .hashing, .submitting, .verifying, .done, .failed]

def ofName? (s : Text) : Option Stage := all.find? fun stage => Text.ofString stage.name == s

/-- The stage that a value names. -/
def ofJson (v : Json) : Except Fault Stage :=
  match (match v with
    | .str s => ofName? s
    | _ => none) with
  | some stage => .ok stage
  | none => .error (.value (v.literal ++ " is not a valid PipelineStage"))

/-- The stage after this one on the way to success. -/
def next? : Stage → Option Stage
  | .idle => some .proving
  | .proving => some .hashing
  | .hashing => some .submitting
  | .submitting => some .verifying
  | .verifying => some .done
  | .done => none
  | .failed => none

def isTerminal : Stage → Bool
  | .done | .failed => true
  | _ => false

/-- Stages without lasting effects outside the relay, which may be tried again. -/
def isRetryable : Stage → Bool
  | .proving | .verifying => true
  | _ => false

/-- Refuses the move from a stage to another one, unless that one may follow. -/
def permit (stage target : Stage) : Except Fault Unit :=
  if target = .failed then
    if stage.isTerminal then .error ⟨.runtime, "Cannot fail a run already in " ++ stage.name⟩ else .ok ()
  else if stage.next? = some target then .ok ()
  else .error ⟨.runtime, "Illegal transition " ++ stage.name ++ " → " ++ target.name⟩

end Stage

/-- How far one request has come: its stage, all stages so far, how long each one that is left took, and when the
present one was entered. -/
structure Run (τ : Type) where
  requestId : Text
  stage : Stage := .idle
  history : List Stage := [.idle]
  timings : List (Stage × τ) := []
  enteredAt : τ
deriving DecidableEq, Repr

namespace Run

variable {τ : Type}

/-- Gives a stage its time: in its old place if it has one, else at the end. -/
def putTiming (stage : Stage) (d : τ) : List (Stage × τ) → List (Stage × τ)
  | [] => [(stage, d)]
  | (s, d') :: rest => if s = stage then (s, d) :: rest else (s, d') :: putTiming stage d rest

variable [Time τ]

/-- The time that a run has been in its stage. -/
def elapsed (r : Run τ) (now : τ) : τ := Time.rounded (Time.sub now r.enteredAt)

def entered (r : Run τ) (now : τ) (target : Stage) : Run τ :=
  { r with stage := target, history := r.history ++ [target],
           timings := putTiming r.stage (r.elapsed now) r.timings, enteredAt := now }

/-- Tries to move a run to a stage. The run is changed in place, one field after the other, and whoever
tries it goes on with the run as it then is, also after a refusal. -/
def attempt (now : τ) (target : Stage) : ExceptT Fault (StateM (Run τ)) Unit := do
  let r ← get
  MonadExcept.ofExcept (r.stage.permit target)
  modify fun r => { r with timings := putTiming r.stage (r.elapsed now) r.timings }
  modify fun r => { r with enteredAt := now }
  modify fun r => { r with stage := target }
  modify fun r => { r with history := r.history ++ [target] }

/-- What a run becomes by a move, for those who stop at a refusal. -/
def advance (r : Run τ) (now : τ) (target : Stage) : Except Fault (Run τ) :=
  match (attempt now target).run.run r with
  | (.ok _, r) => .ok r
  | (.error f, _) => .error f

omit [Time τ] in
/-- What reads the run first goes on with what it has read. -/
theorem run_get_bind {α : Type} (f : Run τ → ExceptT Fault (StateM (Run τ)) α) (r : Run τ) :
    (get >>= f).run.run r = (f r).run.run r := rfl

theorem attempt_of_permitted {r : Run τ} {now : τ} {target : Stage} (permitted : r.stage.permit target = .ok ()) :
    (attempt now target).run.run r = (.ok (), r.entered now target) := by
  rw [attempt, run_get_bind, permitted]
  rfl

theorem attempt_of_refused {r : Run τ} {now : τ} {target : Stage} {f : Fault}
    (refused : r.stage.permit target = .error f) : (attempt now target).run.run r = (.error f, r) := by
  rw [attempt, run_get_bind, refused]
  rfl

end Run

end ProofRelay
