import ProofRelay.Chain.Key
import ProofRelay.Chain.Rlp
import ProofRelay.Json.Access

/-!
Transactions: the unsigned one that the relay builds, and the raw bytes of a signed one with a single
gas price. The chain id is signed along (EIP-155) when there is one.
-/

namespace ProofRelay

/-- An unsigned transaction; the nonce is chosen when it is submitted. -/
structure Transaction where
  sender : String
  recipient : Json
  data : Json
  gas : Int
  gasPrice : Int
  chainId : Int
  value : Int := 0
  nonce : Option Int := none

namespace Transaction

def withNonce (tx : Transaction) (n : Int) : Transaction := { tx with nonce := some n }

/-- The fields that are signed. -/
def fields (tx : Transaction) : Except Fault (List (String × Json)) :=
  match tx.nonce with
  | none => .error (.value "Transaction has no nonce yet")
  | some n => .ok [("to", tx.recipient), ("data", tx.data), ("value", .int tx.value), ("gas", .int tx.gas),
      ("gasPrice", .int tx.gasPrice), ("nonce", .int n), ("chainId", .int tx.chainId)]

end Transaction

/-- What a transaction's receipt tells. -/
structure Receipt where
  txHash : String
  blockNumber : Int
  status : Int
  nonce : Int
  gasUsed : Int := 0
deriving DecidableEq, Repr

/-- The fields of a signed transaction before the signature. -/
structure Payload where
  nonce : Nat
  gasPrice : Nat
  gas : Nat
  recipient : Bytes
  value : Nat
  data : Bytes
  chainId : Option Nat

namespace Payload

def items (p : Payload) : List Bytes :=
  [Bytes.ofNat p.nonce, Bytes.ofNat p.gasPrice, Bytes.ofNat p.gas, p.recipient, Bytes.ofNat p.value, p.data]

/-- What is hashed and signed. -/
def unsigned (p : Payload) : Except Fault Bytes :=
  Rlp.encodeList (p.items ++ match p.chainId with
    | none => []
    | some c => [Bytes.ofNat c, [], []])

/-- The number that carries the parity and the chain id. -/
def mark (chainId : Option Nat) (odd : Bool) : Nat :=
  (match chainId with
    | none => 27
    | some c => 35 + 2 * c) + (if odd then 1 else 0)

/-- The raw bytes of the transaction with a signature. -/
def raw (p : Payload) (sig : Ecdsa.Signature) : Except Fault Bytes :=
  Rlp.encodeList (p.items ++ [Bytes.ofNat (mark p.chainId sig.odd), Bytes.ofNat sig.r, Bytes.ofNat sig.s])

/-- The raw bytes of the transaction, where `signatureOf` gives the signature of a digest. -/
def signBy (p : Payload) (signatureOf : Bytes → Ecdsa.Signature) : Except Fault Bytes := do
  let message ← p.unsigned
  p.raw (signatureOf (Keccak256.digest message))

def sign (p : Payload) (k : PrivateKey) : Except Fault Bytes := p.signBy (Ecdsa.sign k.secret)

end Payload

/-- A signed transaction as read from its raw bytes. -/
structure SignedTransaction where
  payload : Payload
  signature : Ecdsa.Signature

namespace SignedTransaction

/-- The chain id and parity behind a mark. -/
def ofMark (v : Nat) : Option Nat × Bool :=
  if 35 ≤ v then (some ((v - 35) / 2), (v - 35) % 2 == 1) else (none, v == 28)

def decode? (raw : Bytes) : Option SignedTransaction :=
  match Rlp.decodeList? raw with
  | some [nonce, gasPrice, gas, recipient, value, data, v, r, s] =>
    let (chainId, odd) := ofMark (Bytes.toNat v)
    some ⟨⟨Bytes.toNat nonce, Bytes.toNat gasPrice, Bytes.toNat gas, recipient, Bytes.toNat value, data, chainId⟩,
      ⟨Bytes.toNat r, Bytes.toNat s, odd⟩⟩
  | _ => none

/-- The address whose key made the signature. -/
def sender? (t : SignedTransaction) : Option String := do
  let message ← t.payload.unsigned.toOption
  (Ecdsa.recover? t.signature (Keccak256.digest message)).map PrivateKey.addressOf

end SignedTransaction

namespace Payload

/-- The fields that a transaction to sign must have. -/
def requiredFields : List String := ["nonce", "gasPrice", "gas"]

def allowedFields : List String := ["nonce", "gasPrice", "gas", "to", "value", "data", "chainId"]

/-- Names in braces, as a report of fields shows them. -/
def nameSet (names : List String) : String :=
  "\x7b" ++ String.intercalate ", " (names.map quote) ++ "\x7d"

/-- Hexadecimal text with its mark. -/
def isMarkedHex (s : Text) : Bool :=
  match s.toString? with
  | some s => s.startsWith "0x" || s.startsWith "0X"
  | none => false

def isNumeric : Json → Bool
  | .int _ => true
  | .str s => isMarkedHex s
  | _ => false

/-- Nothing, or an address with its checksum. -/
def isRecipient : Json → Bool
  | .null => true
  | .str s =>
    s.isEmpty || match s.toString? with
      | some s =>
        match Address.ofString? s with
        | some a => a.toString == s
        | none => false
      | none => false
  | _ => false

def isField (name : String) (v : Json) : Bool :=
  if name == "to" then isRecipient v
  else if name == "data" then match v with
    | .int _ | .bool _ | .str _ => true
    | _ => false
  else if name == "chainId" then match v with
    | .null => true
    | v => isNumeric v
  else isNumeric v

def unformattable (name : String) (v : Json) : Fault :=
  .value ("Could not format invalid value " ++ v.literal ++ " as field " ++ quote name)

/-- Bytes from hexadecimal text of either length, a missing first digit being a zero. -/
def looseHex? (s : List Char) : Option Bytes :=
  let body := Address.dropMark s
  Bytes.ofHex? (if s.length % 2 = 1 then '0' :: body else body)

/-- The number that hexadecimal digits spell; there has to be one. -/
def hexNumber? (s : List Char) : Option Nat :=
  let body := Address.dropMark s
  if body.isEmpty then none
  else body.foldlM (fun n c => (Bytes.hexValue? c).map fun d => 16 * n + d) 0

def numberField (name : String) (v : Json) : Except Fault Int :=
  match v with
  | .int n => .ok n
  | .str s =>
    match s.toString?.bind fun t => hexNumber? t.toList with
    | some n => .ok n
    | none => .error (unformattable name v)
  | v => .error (unformattable name v)

/-- The bytes of a number, of which zero has one too. -/
def numberBytes (n : Nat) : Bytes := if n = 0 then [0] else Bytes.ofNat n

def bytesField (name : String) (v : Json) : Except Fault Bytes :=
  match v with
  | .str s =>
    match s.toString?.bind fun t => looseHex? t.toList with
    | some bs => .ok bs
    | none => .error (unformattable name v)
  | .int n => if n < 0 then .error (unformattable name v) else .ok (numberBytes n.toNat)
  | .bool b => .ok (if b then [1] else [0])
  | .null => .ok []
  | v => .error (unformattable name v)

def natural (field : String) (n : Int) : Except Fault Nat :=
  if n < 0 then
    .error ⟨.serialization, "Serialization failed because of field " ++ field ++
      " (\"Cannot serialize negative integers\")"⟩
  else .ok n.toNat

/-- The members after the sender's own address, which must be the signer's. -/
def withoutSender (address : String) (members : List (Text × Json)) :
    Except Fault (List (Text × Json)) :=
  match Json.findMember (Text.ofString "from") members with
  | none => .ok members
  | some v =>
    if v.display == Text.ofString address then .ok (members.filter fun m => m.1 != Text.ofString "from")
    else .error (.type (Text.ofString ("from field must match key's " ++ address ++ ", but it was ") ++ v.display))

/-- Checks names and kinds of the fields. -/
def checkFields (members : List (Text × Json)) : Except Fault Unit :=
  let names := members.map fun m => m.1.toStringLossy
  let missing := requiredFields.filter fun n => !names.contains n
  let unknown := names.filter fun n => !allowedFields.contains n
  let bad := members.filter fun m => !isField m.1.toStringLossy m.2
  if !missing.isEmpty then .error (.type ("Transaction must include these fields: " ++ nameSet missing))
  else if !unknown.isEmpty then
    .error (.type ("Transaction must not include unrecognized fields: " ++ nameSet unknown))
  else if !bad.isEmpty then .error (.type ("Transaction had invalid fields: " ++ Json.literal (.obj bad)))
  else .ok ()

/-- The payload that a document of fields describes, for signing from `address`. -/
def ofDocument (address : String) (d : Json) : Except Fault Payload := do
  let members ← withoutSender address (match d with
    | .obj ms => ms
    | _ => [])
  checkFields members
  let tx := Json.obj members
  let nonce ← numberField "nonce" (tx.get "nonce")
  let gasPrice ← numberField "gasPrice" (tx.get "gasPrice")
  let gas ← numberField "gas" (tx.get "gas")
  let recipient ← bytesField "to" (tx.get "to")
  let value ← numberField "value" ((tx.get? "value").getD (.int 0))
  let data ← bytesField "data" (tx.get "data")
  let chainId ← match tx.get "chainId" with
    | .null => pure none
    | v => some <$> numberField "v" v
  let nonce ← natural "nonce" nonce
  let gasPrice ← natural "gasPrice" gasPrice
  let gas ← natural "gas" gas
  let value ← natural "value" value
  let chainId ← match chainId with
    | none => pure none
    | some c => some <$> natural "v" c
  return ⟨nonce, gasPrice, gas, recipient, value, data, chainId⟩

end Payload

end ProofRelay
