import ProofRelay.Http.Origin
import ProofRelay.Http.Query
import ProofRelay.Startup

/-!
The HTTP interface of the relay: the health of the node, and the relay of one proof request. A failure is
reported with its own status; trouble that nobody expects ends in a plain error, without any detail.
-/

namespace ProofRelay.Http

structure Service (τ : Type) where
  relay : Relay.Config τ
  /-- Whether the health report may ask the node. -/
  asksNode : Bool := true
  origins : List String := ["*"]

namespace Service

variable {τ : Type}

def optional (s : Option Text) : Json :=
  match s with
  | none => .null
  | some s => .str s

def reportResponse (r : Report) : Response :=
  .refusal r.code (.record [("request_id", optional r.requestId), ("stage", .text r.stage), ("error", .text r.error),
    ("reason", .text r.reason), ("message", .str r.message)])

def failureResponse (f : Failure) (requestId : Option Text) : Response := reportResponse (.ofFailure f requestId)

def chainIdJson (n : Option Int) : Json :=
  match n with
  | none => .null
  | some n => .int n

/-- The report on the node; the times in it are left open. -/
def healthResponse (s : Service τ) (h : Client.Health) : Response :=
  .document 200 (.record
    [("status", .text (if h.connected then "operational" else "degraded")), ("version", .text version),
     ("uptime_seconds", .null), ("timestamp", .null),
     ("node", .record [("connected", .bool h.connected), ("chain_id", chainIdJson h.chainId)]),
     ("relayer", .text s.relay.signer.address), ("contract", .text s.relay.contract.address)])

def health (s : Service τ) : Attempt (Relay.dialogue τ) Response := do
  let h ← if s.asksNode then Relay.onChain Client.health else pure ⟨false, none⟩
  return s.healthResponse h

/-- The parameters that a relay request must have. -/
def required : List String := ["hello", "helloSetter"]

def successResponse (r : ProofRelay.Request) (o : Outcome τ) (commitment : String) (record : Record) : Response :=
  .document 200 (.record
    [("message", .text r.successMessage), ("request_id", .str o.requestId), ("commitment", .text commitment),
     ("tx_hash", .text record.txHash), ("index", .int record.index), ("verified", .bool (o.verified.getD false))])

/-- The fault of asking nothing for something that it should have. -/
def nothingHas (name : String) : Fault := ⟨.member, "'NoneType' object has no attribute " ++ quote name⟩

/-- The response to an outcome: what was written if it is done, else the failure. -/
def outcomeResponse (r : ProofRelay.Request) (o : Outcome τ) : Except Trouble Response :=
  if o.ok then
    match o.submission, o.commitment with
    | none, _ => .error (.fault (nothingHas "tx_hash"))
    | some _, none => .error (.invalid [{ field := "commitment", rule := .text }])
    | some record, some commitment => .ok (successResponse r o commitment record)
  else
    match o.error with
    | none => .error (.fault (nothingHas "stage"))
    | some f => .ok (failureResponse f (some o.requestId))

/-- Characters that a location may hold as they are. -/
def isPlain (c : Char) : Bool := c.isAlphanum || "_.-~:/%#?=@[]!$&'()*+,;".toList.contains c

end Service

end ProofRelay.Http
