import ProofRelay.Prover.Template
import ProofRelay.Prover.Workspace

/-!
Invocations of the external prover: two processes, one that makes the keys and one that makes the proof,
under one budget of time. A process that is not finished when the budget is used up is killed.
-/

namespace ProofRelay

namespace Prover

structure Config (τ : Type) where
  command : List String
  logrows : Int := 17
  bits : Int := 16
  timeout : τ
  root : Option Path := none
  keep : Bool := false
  /-- The levels that are left for a document where it is written for the prover. -/
  levels : Nat := Json.usualLevels

/-- A configuration has a command to run. -/
def Config.check {τ : Type} (c : Config τ) : Except Fault Unit :=
  if c.command.isEmpty then .error (.value "Prover command must not be empty") else .ok ()

/-- The proof as the prover wrote it. -/
structure Artifact where
  requestId : Text
  data : Bytes
  source : String
  verifyingKey : Option Bytes
deriving DecidableEq, Repr

/-- The two processes of an invocation. -/
inductive Step where
  | setup
  | prove
deriving DecidableEq, Repr

def Step.name : Step → String
  | .setup => "setup"
  | .prove => "prove"

def Step.template : Step → List String
  | .setup => Template.setup
  | .prove => Template.prove

def Step.all : List Step := [.setup, .prove]

variable {τ : Type}

/-- The values that a command line may use. -/
def values (c : Config τ) (input model : String) (w : Workspace) : Template.Values
  | "logrows" => some (Decimal.shown c.logrows)
  | "bits" => some (Decimal.shown c.bits)
  | "input" => some (.ok input)
  | "model" => some (.ok model)
  | "params" => some (.ok w.params.toString)
  | "vk" => some (.ok w.verifyingKey.toString)
  | "pk" => some (.ok w.provingKey.toString)
  | "proof" => some (.ok w.proof.toString)
  | _ => none

/-- The command with the words of a template. -/
def commandLine (c : Config τ) (template : List String) (input model : String) (w : Workspace) :
    Except Fault (List String) :=
  (Template.render (values c input model w) template).map (c.command ++ ·)

section

variable [Time τ]

def exhausted (c : Config τ) (s : Step) : Failure :=
  { kind := .proverTimeout,
    message := "Prover budget of " ++ Time.wholeSeconds c.timeout ++ "s exhausted before " ++ s.name }

def overrun (c : Config τ) (s : Step) : Failure :=
  { kind := .proverTimeout,
    message := "Prover " ++ s.name ++ " exceeded " ++ Time.wholeSeconds c.timeout ++ "s budget and was killed" }

end

def notStarted (s : Step) (f : Fault) : Trouble :=
  if f.kind.isSystem then
    .failure { kind := .process 127, message := "Prover " ++ s.name ++ " could not start", detail := f.text }
  else .fault f

def exited (s : Step) (e : Exit) : Failure :=
  { kind := .process e.code, message := "Prover " ++ s.name ++ " failed", detail := Utf8.decodeLossy e.errors }

/-- Runs one process to its end, within what is left of the budget when it is started. -/
def runStep [Time τ] (c : Config τ) (s : Step) (args : List String) (dir : Path) (deadline : τ) :
    Attempt (dialogue τ) Unit := do
  let remaining := Time.sub deadline (← ask .now)
  if Time.le remaining Time.zero then Attempt.fail (exhausted c s)
  else
    match ← ask (.start args dir) with
    | .error f => Attempt.ofExcept (.error (notStarted s f))
    | .ok process =>
      match ← ask (.wait process remaining) with
      | none =>
        ask (.kill process)
        Attempt.fail (overrun c s)
      | some e => if e.code = 0 then pure () else Attempt.fail (exited s e)

def missingProof (w : Workspace) : Failure :=
  { kind := .artifact, message := "Prover exited cleanly but wrote no proof", detail := w.proof.name }

def unreadableProof (f : Fault) : Trouble :=
  if f.kind.isSystem then
    .failure { kind := .artifact, message := "Proof file could not be read", detail := f.text }
  else .fault f

def readFile (file : Path) : Attempt (dialogue τ) Bytes := do
  match ← ask (.read file) with
  | .ok content => return content
  | .error f => Attempt.ofExcept (.error (unreadableProof f))

/-- The verifying key, if there is one. -/
def readKey (w : Workspace) : Attempt (dialogue τ) (Option Bytes) := do
  match ← ask (.isFile w.verifyingKey) with
  | .ok true => some <$> readFile w.verifyingKey
  | .ok false => return none
  | .error f => Attempt.ofExcept (.error (unreadableProof f))

/-- Reads the proof, and the verifying key if there is one. Trouble with looking for the proof is not trouble
with reading it, and stays as it is. -/
def collect (w : Workspace) : Attempt (dialogue τ) Artifact := do
  match ← ask (.isFile w.proof) with
  | .error f => Attempt.ofExcept (.error (.fault f))
  | .ok false => Attempt.fail (missingProof w)
  | .ok true =>
    let data ← readFile w.proof
    return ⟨w.requestId, data, w.proof.toString, ← readKey w⟩

def runTemplate [Time τ] (c : Config τ) (input model : String) (w : Workspace) (deadline : τ) (s : Step) :
    Attempt (dialogue τ) Unit := do
  let args ← Attempt.ofExcept ((commandLine c s.template input model w).mapError .fault)
  runStep c s args w.root deadline

/-- Makes the keys, makes the proof, and reads it. -/
def generate [Time τ] (c : Config τ) (input : Path) (model : String) (w : Workspace) :
    Attempt (dialogue τ) Artifact := do
  let deadline := Time.add (← ask .now) c.timeout
  Step.all.forM (runTemplate c input.toString model w deadline)
  collect w

/-- Proves a document for a request in a directory of its own. -/
def proveDocument [Time τ] (c : Config τ) (requestId : Text) (d : Json) (model : String) :
    Attempt (dialogue τ) Artifact :=
  Workspace.within c.root c.keep requestId fun w => do
    let input ← w.writeInput c.levels d
    generate c input model w

end Prover

end ProofRelay
