import ProofRelay.Activity.Basic
import ProofRelay.Files.Path
import ProofRelay.Json.Writer
import ProofRelay.Number.Decimal
import ProofRelay.Bytes.Utf8

/-!
What the prover asks of its surroundings, and the private directory in which one request is proved.
Every file of a request lies in its own directory, which is removed at the end unless it is to be kept.
-/

namespace ProofRelay

namespace Prover

/-- How a process ended. -/
structure Exit where
  code : Int
  errors : Bytes

inductive Ask (τ : Type) where
  | now
  /-- Makes a new directory whose name starts with the stem, in the root or in the place for temporary files. -/
  | openWorkspace (root : Option Path) (stem : String)
  | discard (dir : Path)
  | write (file : Path) (content : Bytes)
  | isFile (file : Path)
  | read (file : Path)
  /-- Starts a process in a directory. -/
  | start (args : List String) (dir : Path)
  /-- Waits for a process, but no longer than the limit. -/
  | wait (process : Nat) (limit : τ)
  | kill (process : Nat)

abbrev Reply {τ : Type} : Ask τ → Type
  | .now => τ
  | .openWorkspace _ _ => Except Fault Path
  | .discard _ => Unit
  | .write _ _ => Except Fault Unit
  | .isFile _ => Except Fault Bool
  | .read _ => Except Fault Bytes
  | .start _ _ => Except Fault Nat
  | .wait _ _ => Option Exit
  | .kill _ => Unit

abbrev dialogue (τ : Type) : Dialogue := ⟨Ask τ, Reply⟩

def ask {τ : Type} (q : Ask τ) : Attempt (dialogue τ) (Reply q) := @Attempt.query (dialogue τ) q

end Prover

/-- The directory of one request. -/
structure Workspace where
  requestId : Text
  root : Path

namespace Workspace

def input (w : Workspace) : Path := w.root.child "input.json"

def params (w : Workspace) : Path := w.root.child "kzg.params"

def verifyingKey (w : Workspace) : Path := w.root.child "vk.key"

def provingKey (w : Workspace) : Path := w.root.child "pk.key"

def proof (w : Workspace) : Path := w.root.child "proof.pf"

/-- Characters of a request's id that may stand in a directory's name. -/
def isSafe (c : Char) : Bool := c.isAlphanum || c == '_' || c == '-'

/-- The most characters of an id in a directory's name. -/
def stemLimit : Nat := 32

/-- The start of the name of a request's directory. -/
def stem (requestId : Text) : String :=
  "proof-" ++ String.ofList ((requestId.characters.filter isSafe).take stemLimit) ++ "-"

/-- Failures with a file of the workspace, which count as a failed process without an exit code of its own. -/
def failure (message : String) (f : Fault) : Trouble :=
  if f.kind.isSystem then .failure { kind := .process (-1), message := message, detail := f.text } else .fault f

variable {τ : Type}

/-- Makes the directory of a request, or fails. -/
def make (root : Option Path) (requestId : Text) : Attempt (Prover.dialogue τ) Workspace := do
  match ← Prover.ask (.openWorkspace root (stem requestId)) with
  | .ok dir => return ⟨requestId, dir⟩
  | .error f => Attempt.ofExcept (.error (failure "Could not create prover workspace" f))

/-- Removes the directory unless it is to be kept. -/
def close (w : Workspace) (keep : Bool) : Attempt (Prover.dialogue τ) Unit :=
  if keep then pure () else Prover.ask (.discard w.root)

/-- Works in a new directory, and closes it however the work ends. -/
def within {α : Type} (root : Option Path) (keep : Bool) (requestId : Text)
    (work : Workspace → Attempt (Prover.dialogue τ) α) : Attempt (Prover.dialogue τ) α := do
  let w ← make root requestId
  let result ← (work w).outcome
  w.close keep
  Attempt.ofExcept result

/-- Writes the document that the prover reads, with so many levels left for its text. -/
def writeInput (w : Workspace) (levels : Nat) (d : Json) : Attempt (Prover.dialogue τ) Path := do
  let text ← Attempt.ofExcept ((d.write levels).mapError .fault)
  match ← Prover.ask (.write w.input (Utf8.encode text)) with
  | .ok _ => return w.input
  | .error f => Attempt.ofExcept (.error (failure "Could not write prover input" f))

end Workspace

end ProofRelay
