import ProofRelay.Bytes.Encoding
import ProofRelay.Chain.Signer
import ProofRelay.Client.Dialogue
import ProofRelay.Digest.Sha256
import ProofRelay.Json.Reader

/-!
A node in a test: a ledger of commitments in blocks, with scripted disturbances. Each use of a point takes
the next disturbance from that point's queue.
-/

namespace ProofRelay.Simulation

/-- What happens at one use of a point. -/
inductive Disturbance where
  | calm
  | raise (f : Fault)
  | give (d : Datum)

/-- What others write around one of our transactions. -/
structure Foreign where
  before : Nat := 0
  sameBlock : Nat := 0
  later : Nat := 0
  lost : Bool := false

/-- A commitment in the contract, with the block in which it came. -/
structure Entry where
  block : Nat
  commitment : Datum

/-- A transaction that the node took. -/
structure Sent where
  sender : String
  nonce : Int

structure Node where
  chainId : Json := .int 1337
  gasPrice : Json := .int 1000000000
  estimate : Json := .int 50000
  gasUsed : Json := .int 42000
  status : Json := .int 1
  connected : Json := .bool true
  pending : Json := .null
  /-- Fields to replace, or with null to remove, in a built transaction. -/
  built : List (String × Json) := []
  dataAsBytes : Bool := false
  disturbances : List (String × List Disturbance) := []
  foreign : List Foreign := []
  block : Nat := 0
  entries : List Entry := []
  sent : List Sent := []
  receipts : List (String × Json) := []
  /-- The data of built submissions, with the commitment in each. -/
  submissions : List (String × Datum) := []
  /-- The calls that reached the node, in order. -/
  calls : List (Client.Call × Json) := []

namespace Node

/-- Takes the next disturbance of a point. -/
def disturb (n : Node) (point : String) : Disturbance × Node :=
  match n.disturbances.lookup point with
  | some (d :: rest) =>
    (d, { n with disturbances := n.disturbances.map fun (p, q) => if p == point then (p, rest) else (p, q) })
  | _ => (.calm, n)

/-- A reply with a value unless it is disturbed. -/
def replying (n : Node) (point : String) (normal : Node → Except Fault Json × Node) : Except Fault Json × Node :=
  match n.disturb point with
  | (.calm, n) => normal n
  | (.raise f, n) => (.error f, n)
  | (.give d, n) => (.ok d.toJson, n)

def plainly (n : Node) (point : String) (v : Json) : Except Fault Json × Node :=
  n.replying point fun n => (.ok v, n)

/-- How a call's data shows an argument. -/
def argumentText : Datum → String
  | .bytes bs => bs.toHex
  | .value v => v.display.toStringLossy

/-- The text that stands for the encoding of a call. -/
def callText (c : Client.Call) : String :=
  c.method ++ "(" ++ String.intercalate "," (c.args.map argumentText) ++ ")"

def prepare (n : Node) : Except Fault Unit × Node :=
  match n.disturb "function" with
  | (.raise f, n) => (.error f, n)
  | (_, n) => (.ok (), n)

/-- Puts replacements into the fields of a transaction. -/
def replaceFields (fields : List (String × Datum)) (built : List (String × Json)) : List (String × Datum) :=
  built.foldl (fun fs (name, v) =>
    let others := fs.filter fun f => f.1 != name
    match v with
    | .null => others
    | v => others ++ [(name, .value v)]) fields

def builtOf : Datum → Client.Built
  | .value (.obj members) => .fields (members.map fun (k, v) => (k.toStringLossy, .value v))
  | d => .other d.toJson

/-- Builds a transaction for a call to the contract at an address, and keeps in mind what it would submit. -/
def build (n : Node) (contract : String) (c : Client.Call) (t : Client.Terms) :
    Except Fault Client.Built × Node :=
  match n.disturb "build" with
  | (.raise f, n) => (.error f, n)
  | (.give d, n) => (.ok (builtOf d), n)
  | (.calm, n) =>
    let data := Utf8.encode (callText c)
    let fields : List (String × Datum) :=
      [("to", .text contract), ("value", .value (.int 0)), ("from", .text t.sender), ("gas", .value (.int t.gas)),
       ("gasPrice", .value (.int t.gasPrice)), ("chainId", .value (.int t.chainId)),
       ("data", if n.dataAsBytes then .bytes data else .text data.toHex0x)]
    let submissions := match c.method == "create_proof", c.args with
      | true, [commitment] => (data.toHex0x, commitment) :: n.submissions
      | _, _ => n.submissions
    (.ok (.fields (replaceFields fields n.built)), { n with submissions := submissions })

def pendingCount (n : Node) (address : String) : Except Fault Json × Node :=
  n.plainly "nonce" (match n.pending with
    | .null => .int (n.sent.filter fun s => s.sender == address).length
    | v => v)

/-- What raw bytes say: a document with the sender, or a signed transaction. -/
structure Reading where
  sender : String
  nonce : Int
  data : String

def readDocument? (raw : Bytes) : Option Reading :=
  match (Encoding.decodeStrict raw).toOption.bind fun t => (Json.readDocument Json.usualLevels t).toOption with
  | some d =>
    match d.get "nonce" with
    | .int nonce => some ⟨(d.get "from").display.toStringLossy, nonce, (d.get "data").display.toStringLossy⟩
    | _ => none
  | none => none

def readSigned? (raw : Bytes) : Option Reading := do
  let tx ← SignedTransaction.decode? raw
  let sender ← tx.sender?
  return ⟨sender, tx.payload.nonce, tx.payload.data.toHex0x⟩

def read (raw : Bytes) : Reading :=
  match readDocument? raw with
  | some r => r
  | none => (readSigned? raw).getD ⟨"", 0, ""⟩

/-- The entry that others write. -/
def foreignCommitment : Datum := .bytes (List.replicate 32 255)

def foreignEntries (block count : Nat) : List Entry := List.replicate count ⟨block, foreignCommitment⟩

/-- Takes a transaction into a new block. -/
def mine (n : Node) (raw : Bytes) (r : Reading) : Node :=
  let around := n.foreign.headD {}
  let block := n.block + 1
  let ours : List Entry := match n.submissions.lookup r.data with
    | some commitment => if around.lost then [] else [⟨block, commitment⟩]
    | none => []
  let later : List Entry := (List.range around.later).map fun k => ⟨block + k + 1, foreignCommitment⟩
  let receipt := Json.record [("blockNumber", .int block), ("status", n.status), ("gasUsed", n.gasUsed)]
  { n with
    foreign := n.foreign.drop 1
    block := block + around.later
    entries := n.entries ++ foreignEntries block around.before ++ ours ++ foreignEntries block around.sameBlock ++ later
    sent := n.sent ++ [⟨r.sender, r.nonce⟩]
    receipts := ((Sha256.digest raw).toHex0x, receipt) :: n.receipts }

/-- Takes raw bytes, unless the sender has already used the nonce. Also tells whether they were taken. -/
def send (n : Node) (raw : Bytes) : Except Fault Datum × Bool × Node :=
  match n.disturb "send" with
  | (.raise f, n) => (.error f, false, n)
  | (.give d, n) => (.ok d, false, n)
  | (.calm, n) =>
    let r := read raw
    if n.sent.any fun s => s.sender == r.sender && s.nonce == r.nonce then
      (.error (.value ("nonce too low: " ++ Decimal.ofInt r.nonce)), false, n)
    else (.ok (.bytes (Sha256.digest raw)), true, n.mine raw r)

def receipt (n : Node) (txHash : String) : Except Fault Json × Node :=
  n.replying "receipt" fun n =>
    (match n.receipts.lookup txHash with
      | some r => .ok r
      | none => .error (.raised .timeExhausted "no receipt"), n)

def incomparable (v : Json) : Fault :=
  .type ("'<=' not supported between instances of 'int' and " ++ quote v.kindName)

/-- The integer that a value is, for comparisons. -/
def asInt (v : Json) : Except Fault Int :=
  match v with
  | .int n => .ok n
  | .bool b => .ok (if b then 1 else 0)
  | v => .error (incomparable v)

def countAt (n : Node) (block : Json) : Except Fault Json :=
  match block with
  | .str _ =>
    if block.display == Text.ofString "latest" then .ok (.int n.entries.length) else .error (incomparable block)
  | block => do
    let b ← asInt block
    return .int (n.entries.filter fun e => (e.block : Int) ≤ b).length

/-- Whether two data are the same, bytes never being the same as a value. -/
def same : Datum → Datum → Bool
  | .bytes a, .bytes b => a == b
  | .value a, .value b => a.literal == b.literal
  | _, _ => false

def holds (n : Node) (index : Json) (commitment : Datum) : Except Fault Json := do
  let i ← asInt index
  if i < 0 then return .bool false
  match n.entries[i.toNat]? with
  | some e => return .bool (same e.commitment commitment)
  | none => return .bool false

def view (n : Node) (c : Client.Call) (block : Json) : Except Fault Json :=
  match c.method, c.args with
  | "counter", _ => n.countAt block
  | "verify_proof", [index, commitment] => n.holds index.toJson commitment
  | m, _ => .error (.raised .contractLogic (m ++ " is not a view" : String))

def call (n : Node) (c : Client.Call) (block : Json) : Except Fault Json × Node :=
  let n := { n with calls := n.calls ++ [(c, block)] }
  n.replying ("call:" ++ c.method) fun n => (n.view c block, n)

end Node

end ProofRelay.Simulation
