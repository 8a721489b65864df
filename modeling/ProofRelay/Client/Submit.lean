import ProofRelay.Chain.Signer
import ProofRelay.Client.Read
import ProofRelay.Json.Access

/-!
Transactions through a node. Nonce, signature and sending of one account happen under that account's
lock, so that transactions sent side by side get different nonces; the wait for the receipt does not.
-/

namespace ProofRelay.Client

/-- What the estimate is multiplied by. A factor that is an integer gives an exact product; any other is a
binary fraction, and then the product is rounded to one before its whole part is taken. -/
inductive GasFactor where
  | whole (n : Int)
  | real (x : Binary64)

/-- The gas limit for an estimate. -/
def GasFactor.limit (factor : GasFactor) (estimate : Int) : Except Fault Int :=
  match factor with
  | .whole n => .ok (estimate * n)
  | .real x =>
    match Binary64.ofInt? estimate with
    | none => .error ⟨.overflow, "int too large to convert to float"⟩
    | some e => Json.toInt (.real (e.mul x))

/-- The factor in use unless another one is set. -/
def GasFactor.standard : GasFactor := .real (Binary64.nearest false 12 10)

structure Config where
  gasFactor : GasFactor := .standard
  receiptTimeout : Binary64 := Binary64.nearest false 120 1

def encodeTrouble (method : String) (f : Fault) : Trouble :=
  if f.kind == .member || f.kind == .type || f.kind.isValue then
    .failure { kind := .estimation, message := "Cannot encode " ++ method, detail := f.text }
  else .fault f

/-- A priced call: the node's estimate, what the transaction is to be built with, and what the node built. -/
structure Priced where
  estimate : Int
  terms : Terms
  built : Built

/-- Prices a call and lets the node build it. Gas price and estimate are both asked for, and the fault of
the gas price comes first. -/
def price (cfg : Config) (c : Call) (sender : String) : Attempt dialogue Priced := do
  let gasPrice := (← ask .gasPrice).bind Json.toInt
  let estimate := (← ask (.estimate c sender)).bind Json.toInt
  let gasPrice ← demand gasPrice
  let estimate ← demand estimate
  let chain ← chainId
  let gas ← demand (cfg.gasFactor.limit estimate)
  let terms : Terms := ⟨sender, gas, gasPrice, chain⟩
  return ⟨estimate, terms, ← demand (← ask (.build c terms))⟩

/-- The datum of a built transaction, with raw bytes in hexadecimal. -/
def Built.data : Built → Except Fault Json
  | .fields fs =>
    match fs.lookup "data" with
    | some (.bytes bs) => .ok (.text bs.toHex0x)
    | some (.value v) => .ok v
    | none => .error (.missingKey "data")
  | .other v => v.member "data"

def Built.field (b : Built) (name : String) (default : Json) : Json :=
  match b with
  | .fields fs => ((fs.lookup name).map Datum.toJson).getD default
  | .other _ => default

/-- The transaction for a priced call. The log tells the gas that was estimated, the limit and the price. -/
def Priced.transaction (p : Priced) (h : Handle) (sender : String) : Attempt dialogue Transaction := do
  let data ← demand p.built.data
  Attempt.log [p.estimate, p.terms.gas, p.terms.gasPrice]
  let recipient := p.built.field "to" (.text h.address)
  let value ← demand (p.built.field "value" (.int 0)).toInt
  return { sender := sender, recipient := recipient, data := data, gas := p.terms.gas, gasPrice := p.terms.gasPrice,
           chainId := p.terms.chainId, value := value }

def pricingFailure (method : String) (f : Fault) : Failure :=
  { kind := .estimation, message := "Node rejected " ++ method ++ " estimation", detail := f.text }

/-- An unsigned transaction for a call. -/
def buildTransaction (cfg : Config) (h : Handle) (c : Call) (sender : String) :
    Attempt dialogue Transaction := do
  match ← prepare h c with
  | .error f => Attempt.ofExcept (.error (encodeTrouble c.method f))
  | .ok _ => (← onNode (pricingFailure c.method) (price cfg c sender)).transaction h sender

/-- The nonce for an account's next transaction: what the node counts, but past the last one used here. -/
def nonceAfter (pending : Int) : Option Int → Int
  | none => pending
  | some last => max pending (last + 1)

/-- The next nonce of an account, to be asked for under its lock. -/
def nextNonce (address : String) : Attempt dialogue Int := do
  let pending ← onNode
    (fun f => { kind := .submission, message := "Could not fetch nonce", detail := f.text })
    (do demand ((← ask (.pendingCount address)).bind Json.toInt))
  return nonceAfter pending (← ask (.lastNonce address))

def signingFailure (f : Fault) : Failure :=
  { kind := .submission, message := "Signer rejected the transaction",
    detail := Text.ofString (f.kind.label ++ ": ") ++ f.text }

def sendingFailure (f : Fault) : Failure :=
  { kind := .submission, message := "Node rejected the transaction", detail := f.text }

/-- The raw bytes of a transaction with a nonce. -/
def signed (tx : Transaction) (signer : Signer) (nonce : Int) : Except Fault Bytes := do
  signer.sign (← (tx.withNonce nonce).fields)

/-- Hands raw bytes to the node, and remembers the nonce in them. If the node refuses, the remembered nonce is
forgotten, so that the next one is the node's. -/
def sendRaw (address : String) (nonce : Int) (raw : Bytes) : Attempt dialogue (Int × Datum) := do
  match ← ask (.send raw) with
  | .error f =>
    if f.kind.isNode then
      ask (.forgetNonce address)
      Attempt.fail (sendingFailure f)
    else demand (.error f)
  | .ok sent =>
    ask (.rememberNonce address nonce)
    return (nonce, sent)

/-- Chooses a nonce, signs with it, and sends. -/
def broadcast (tx : Transaction) (signer : Signer) : Attempt dialogue (Int × Datum) := do
  let nonce ← nextNonce signer.address
  match signed tx signer nonce with
  | .error f => Attempt.fail (signingFailure f)
  | .ok raw => sendRaw signer.address nonce raw

/-- Works under the lock of an account, and gives it back however the work ends. -/
def locked {α : Type} (address : String) (work : Attempt dialogue α) : Attempt dialogue α := do
  ask (.lock address)
  let result ← work.outcome
  ask (.unlock address)
  Attempt.ofExcept result

/-- The hexadecimal digits of a number without leading zeros. -/
def hexOfNat (n : Nat) : String := String.ofList (Nat.toDigits 16 n)

def hexOfInt (n : Int) : String := if n < 0 then "-0x" ++ hexOfNat n.natAbs else "0x" ++ hexOfNat n.toNat

/-- A transaction's hash as text, from what the node returned for it. -/
def hashText (d : Datum) : Except Fault String :=
  match d with
  | .bytes bs => .ok bs.toHex0x
  | .value (.bool b) => .ok (if b then "0x1" else "0x0")
  | .value (.int n) => .ok (hexOfInt n)
  | .value (.str _) => .error (.type
      "Unsupported type: The primitive argument must be one of: bytes,bytearray, int or bool and not str")
  | .value .null => .error (.type
      "Exactly one of the passed values can be specified. Instead, values were: (None,), \x7b\x7d")
  | .value v => .error (.type ("Unsupported type: '<class " ++ quote v.kindName ++
      ">'.  Must be one of: bool, str, bytes, bytearray or int."))

/-- What a receipt in a document says. -/
def receiptOf (txHash : String) (nonce : Int) (v : Json) : Except Fault Receipt := do
  let blockNumber ← (← v.member "blockNumber").toInt
  let status ← (← v.member "status").toInt
  let gasUsed ← ((v.get? "gasUsed").getD (.int 0)).toInt
  return ⟨txHash, blockNumber, status, nonce, gasUsed⟩

def lookupTrouble (cfg : Config) (txHash : String) (f : Fault) : Trouble :=
  if f.kind == .timeExhausted then
    .failure { kind := .receiptTimeout, detail := f.text,
               message := "No receipt for " ++ txHash ++ " after " ++ Decimal.whole cfg.receiptTimeout ++ "s" }
  else if f.kind.isNode then
    .failure { kind := .submission, message := "Receipt lookup failed for " ++ txHash, detail := f.text }
  else .fault f

def revertedFailure (txHash : String) : Failure :=
  { kind := .submission, message := "Transaction reverted on-chain", detail := txHash }

/-- What the node's reply to the question for a receipt comes to. A transaction must not have been reverted; the
log tells the block of one that was not. -/
def receiptFrom (cfg : Config) (txHash : String) (nonce : Int) (reply : Except Fault Json) : Except Trouble Receipt :=
  match reply with
  | .error f => .error (lookupTrouble cfg txHash f)
  | .ok v =>
    match receiptOf txHash nonce v with
    | .error f => .error (.fault f)
    | .ok r =>
      if r.status = 1 then
        match Decimal.showAll [r.blockNumber] with
        | .error f => .error (.fault f)
        | .ok _ => .ok r
      else .error (.failure (revertedFailure txHash))

/-- Waits for the receipt of a transaction. -/
def awaitReceipt (cfg : Config) (txHash : String) (nonce : Int) : Attempt dialogue Receipt := do
  Attempt.ofExcept (receiptFrom cfg txHash nonce (← ask (.awaitReceipt txHash)))

/-- Whether trouble is a receipt that did not come in time. -/
def isMissingReceipt : Trouble → Bool
  | .failure f => f.kind == .receiptTimeout
  | _ => false

def strangerFailure (tx : Transaction) (address : String) : Failure :=
  { kind := .submission, message := "Transaction sender does not match signer",
    detail := tx.sender ++ " != " ++ address }

/-- The hash of a transaction that was sent. The log tells its nonce. -/
def sentHash (nonce : Int) (sent : Datum) : Except Fault String := do
  let txHash ← hashText sent
  Decimal.showAll [nonce]
  return txHash

/-- Signs and sends a transaction and waits for its receipt. If no receipt comes, the transaction may be
lost, and the remembered nonce is forgotten so that it can be used again. -/
def submit (cfg : Config) (tx : Transaction) (signer : Signer) : Attempt dialogue Receipt := do
  if tx.sender = signer.address then
    let (nonce, sent) ← locked signer.address (broadcast tx signer)
    let txHash ← demand (sentHash nonce sent)
    match ← (awaitReceipt cfg txHash nonce).outcome with
    | .ok r => return r
    | .error t =>
      if isMissingReceipt t then ask (.forgetNonce signer.address)
      Attempt.ofExcept (.error t)
  else Attempt.fail (strangerFailure tx signer.address)

end ProofRelay.Client
