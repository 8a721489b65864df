import ProofRelay.Bytes.Encoding
import ProofRelay.Files.Tree
import ProofRelay.Json.Reader
import ProofRelay.Prover.Invocation

/-!
The bench on which one request's processes run in a test: a script of how each process goes, and a log
of those that were started.
-/

namespace ProofRelay.Simulation

/-- How a process goes. -/
structure Script (τ : Type) where
  spawn : Option τ := none
  startError : Option Fault := none
  duration : Option τ := none
  hangs : Bool := false
  exitCode : Int := 0
  errors : Bytes := []
  /-- The files it makes, if not the usual ones. -/
  files : Option (List (String × FileEntry)) := none

/-- A process that was started. -/
structure Launch (τ : Type) where
  args : List String
  dir : Path
  script : Script τ
  killed : Bool := false

structure Bench (τ : Type) where
  scripts : List (Script τ) := []
  processes : List (Launch τ) := []
  /-- What stands in a new workspace at once. -/
  seeds : List (String × FileEntry) := []
  workspaces : List Path := []
  /-- The files written by the relay itself, in order. -/
  written : List (Path × Bytes) := []
  /-- Whether the request has asked the node yet. -/
  begun : Bool := false
  /-- The nonces and raw bytes that the node took from anyone since then. -/
  taken : List (Int × Bytes) := []

namespace Bench

variable {τ : Type}

/-- Starts a process with the next script. -/
def start (b : Bench τ) (args : List String) (dir : Path) : Script τ × Bench τ :=
  let script := b.scripts.headD {}
  (script, { b with scripts := b.scripts.drop 1, processes := b.processes ++ [⟨args, dir, script, false⟩] })

/-- The reply to the start of the newest process. -/
def started (b : Bench τ) : Except Fault Nat :=
  match b.processes.getLast?.bind fun p => p.script.startError with
  | some f => .error f
  | none => .ok (b.processes.length - 1)

/-- Notes a transaction that the node took. -/
def note (b : Bench τ) (nonce : Int) (raw : Bytes) : Bench τ :=
  if b.begun then { b with taken := b.taken ++ [(nonce, raw)] } else b

def kill (b : Bench τ) (process : Nat) : Bench τ :=
  { b with processes := b.processes.modify process fun p => { p with killed := true } }

/-- Whether a process ends before a limit. -/
def endsWithin [Time τ] (s : Script τ) (limit : τ) : Bool :=
  !s.hangs && Time.lt (s.duration.getD Time.zero) limit

def keyFiles : List String := ["vk.key", "pk.key", "kzg.params"]

/-- The proof that the prover makes of its input: the payload if that is a text, else the input itself. -/
def proofOf (input : Bytes) : Bytes :=
  match (Encoding.decodeStrict input).toOption.bind fun t => (Json.readDocument Json.usualLevels t).toOption with
  | some d =>
    match d.get "payload" with
    | .str s => match s.toString? with
      | some payload => Utf8.encode payload
      | none => input
    | _ => input
  | none => input

/-- The files that a successful process makes if its script names none. -/
def usualFiles (files : FileTree) (p : Launch τ) : List (String × FileEntry) :=
  if p.args.contains "--proof-path" then
    [("proof.pf", .file (proofOf ((files.read (p.dir.child "input.json")).toOption.getD [])))]
  else keyFiles.map fun name => (name, .file (Utf8.encode ("key:" ++ name)))

/-- Puts files into a directory. -/
def putFiles (files : FileTree) (dir : Path) (made : List (String × FileEntry)) : FileTree :=
  match files.arrive dir with
  | .present at_ _ => made.foldl (fun t (name, e) => t.put (at_ ++ [name]) e) files
  | _ => files

/-- The files after a process has ended. -/
def afterExit (files : FileTree) (p : Launch τ) : FileTree :=
  let made := match p.script.files with
    | some made => made
    | none => if p.script.exitCode = 0 then usualFiles files p else []
  putFiles files p.dir made

end Bench

end ProofRelay.Simulation
