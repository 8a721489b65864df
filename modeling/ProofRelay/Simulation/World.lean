import ProofRelay.Activity.Pool
import ProofRelay.Pipeline.Relay
import ProofRelay.Simulation.Bench
import ProofRelay.Simulation.Node

/-!
Surroundings for tests: a node, the client's shared memory, a file tree, and a bench for each request.
Sending and waiting for receipts may take time; locks go to those who wait in the order of their asking.
-/

namespace ProofRelay.Simulation

/-- A lock in use, and who waits for it. -/
structure Lock where
  holder : Nat
  queue : List Nat := []

/-- What the users of one chain client share. -/
structure Memory where
  chainId : Option Int := none
  nonces : List (String × Int) := []
  locks : List (String × Lock) := []

namespace Memory

def withoutNonce (m : Memory) (address : String) : Memory :=
  { m with nonces := m.nonces.filter fun p => p.1 != address }

def withNonce (m : Memory) (address : String) (n : Int) : Memory :=
  { m with nonces := (address, n) :: (m.withoutNonce address).nonces }

def putLock (m : Memory) (address : String) (l : Lock) : Memory :=
  { m with locks := (address, l) :: m.locks.filter fun p => p.1 != address }

/-- Takes a lock if it is free, else waits for it; tells whether it was free. -/
def acquire (m : Memory) (i : Nat) (address : String) : Bool × Memory :=
  match m.locks.lookup address with
  | none => (true, m.putLock address ⟨i, []⟩)
  | some l => (false, m.putLock address { l with queue := l.queue ++ [i] })

/-- Gives a lock to the first who waits, or frees it. -/
def release (m : Memory) (address : String) : Memory :=
  match m.locks.lookup address with
  | none => m
  | some ⟨_, []⟩ => { m with locks := m.locks.filter fun p => p.1 != address }
  | some ⟨_, next :: queue⟩ => m.putLock address ⟨next, queue⟩

def isHolder (m : Memory) (i : Nat) (address : String) : Bool :=
  match m.locks.lookup address with
  | some l => l.holder == i
  | none => false

end Memory

structure World (τ : Type) where
  contract : String := ""
  node : Node := {}
  memory : Memory := {}
  files : FileTree := {}
  benches : List (Bench τ) := []
  /-- How many workspaces there have been. -/
  opened : Nat := 0
  sendDelays : List τ := []
  receiptDelays : List τ := []

namespace World

variable {τ : Type}

def bench (w : World τ) (i : Nat) : Bench τ := w.benches.getD i {}

def onBench (w : World τ) (i : Nat) (f : Bench τ → Bench τ) : World τ :=
  { w with benches := w.benches.modify i f }

def withNode {α : Type} (w : World τ) (r : α × Node) : α × World τ := (r.1, { w with node := r.2 })

def withMemory (w : World τ) (m : Memory) : World τ := { w with memory := m }

/-- Waits for the first of some delays, which is then used up. -/
def delayed [Time τ] (now : τ) : List τ → Wait τ × List τ
  | [] => (.nothing, [])
  | d :: rest => (.until (Time.add now d), rest)

def beginClient [Time τ] (i : Nat) (now : τ) (q : Client.Ask) (w : World τ) : Wait τ × World τ :=
  let w := w.onBench i fun b => { b with begun := true }
  match q with
  | .send _ =>
    let (wait, rest) := delayed now w.sendDelays
    (wait, { w with sendDelays := rest })
  | .awaitReceipt _ =>
    let (wait, rest) := delayed now w.receiptDelays
    (wait, { w with receiptDelays := rest })
  | .lock address =>
    let (free, memory) := w.memory.acquire i address
    (if free then .nothing else .turn, w.withMemory memory)
  | _ => (.nothing, w)

def finishClient (q : Client.Ask) (w : World τ) : Client.Reply q × World τ :=
  match q with
  | .isConnected => w.withNode (w.node.plainly "is_connected" w.node.connected)
  | .chainId => w.withNode (w.node.plainly "chain_id" w.node.chainId)
  | .gasPrice => w.withNode (w.node.plainly "gas_price" w.node.gasPrice)
  | .prepare _ => w.withNode w.node.prepare
  | .estimate _ _ => w.withNode (w.node.plainly "estimate" w.node.estimate)
  | .build c t => w.withNode (w.node.build w.contract c t)
  | .pendingCount address => w.withNode (w.node.pendingCount address)
  | .send raw =>
    let (reply, taken, node) := w.node.send raw
    let benches := if taken then w.benches.map fun b => b.note (Node.read raw).nonce raw else w.benches
    (reply, { w with node := node, benches := benches })
  | .awaitReceipt txHash => w.withNode (w.node.receipt txHash)
  | .call c block => w.withNode (w.node.call c block)
  | .knownChainId => (w.memory.chainId, w)
  | .rememberChainId n => ((), w.withMemory { w.memory with chainId := some n })
  | .lock _ => ((), w)
  | .unlock address => ((), w.withMemory (w.memory.release address))
  | .lastNonce address => (w.memory.nonces.lookup address, w)
  | .rememberNonce address n => ((), w.withMemory (w.memory.withNonce address n))
  | .forgetNonce address => ((), w.withMemory (w.memory.withoutNonce address))

def waitFor [Time τ] (now : τ) : Option τ → Wait τ
  | none => .nothing
  | some d => .until (Time.add now d)

def beginProver [Time τ] (i : Nat) (now : τ) (q : Prover.Ask τ) (w : World τ) : Wait τ × World τ :=
  match q with
  | .start args dir =>
    let (script, bench) := (w.bench i).start args dir
    (waitFor now script.spawn, w.onBench i fun _ => bench)
  | .wait process limit =>
    match (w.bench i).processes[process]? with
    | some p =>
      (if Bench.endsWithin p.script limit then waitFor now p.script.duration else waitFor now (some limit), w)
    | none => (.nothing, w)
  | _ => (.nothing, w)

/-- The end of a workspace's name, different for each. -/
def suffix (n : Nat) : String :=
  let digits := Decimal.ofNat n
  String.ofList (List.replicate (8 - digits.length) '0') ++ digits

def openWorkspace (i : Nat) (root : Option Path) (stem : String) (w : World τ) :
    Except Fault Path × World τ :=
  let parent := root.getD ⟨"", []⟩
  match w.files.makeDirectory parent with
  | .error f => (.error f, w)
  | .ok files =>
    let dir := parent.child (stem ++ suffix w.opened)
    match files.makeDirectory dir with
    | .error f => (.error f, { w with files := files })
    | .ok files =>
      let w := { w with files := Bench.putFiles files dir (w.bench i).seeds, opened := w.opened + 1 }
      (.ok dir, w.onBench i fun b => { b with workspaces := b.workspaces ++ [dir] })

def writeFile (i : Nat) (file : Path) (content : Bytes) (w : World τ) : Except Fault Unit × World τ :=
  match w.files.write file content with
  | .error f => (.error f, w)
  | .ok files =>
    (.ok (), { w with files := files }.onBench i fun b => { b with written := b.written ++ [(file, content)] })

def endOf [Time τ] (i process : Nat) (limit : τ) (w : World τ) : Option Prover.Exit × World τ :=
  match (w.bench i).processes[process]? with
  | none => (none, w)
  | some p =>
    if Bench.endsWithin p.script limit then
      (some ⟨p.script.exitCode, p.script.errors⟩, { w with files := Bench.afterExit w.files p })
    else (none, w)

def finishProver [Time τ] (i : Nat) (now : τ) (q : Prover.Ask τ) (w : World τ) : Prover.Reply q × World τ :=
  match q with
  | .now => (now, w)
  | .openWorkspace root stem => w.openWorkspace i root stem
  | .discard dir => ((), { w with files := w.files.discard dir })
  | .write file content => w.writeFile i file content
  | .isFile file => (w.files.isFile file, w)
  | .read file => (w.files.read file, w)
  | .start _ _ => ((w.bench i).started, w)
  | .wait process limit => w.endOf i process limit
  | .kill process => ((), w.onBench i fun b => b.kill process)

def surroundings [Time τ] : Surroundings (Relay.dialogue τ) τ (World τ) where
  begin i now q w := match q with
    | .chain q => beginClient i now q w
    | .prover q => beginProver i now q w
    | .now => (.nothing, w)
    | .pause d => (.until (Time.add now d), w)
  finish i now q w := match q with
    | .chain q => w.finishClient q
    | .prover q => w.finishProver i now q
    | .now => (now, w)
    | .pause _ => ((), w)
  hasTurn i q w := match q with
    | .chain (.lock address) => w.memory.isHolder i address
    | _ => false

end World

end ProofRelay.Simulation
