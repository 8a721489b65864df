import ProofRelay.Chain.Message
import ProofRelay.Validation

/-!
Proof requests. A request names its requester by address and carries a payload of 1 to 4096 characters;
a signature, if it has one, must be the requester's over the payload.
-/

namespace ProofRelay

structure Request where
  id : Text
  requester : String
  payload : String
  signature : Option String
deriving DecidableEq, Repr

namespace Request

/-- The most characters a payload may have. -/
def payloadLimit : Nat := 4096

/-- The number of bytes of a signature. -/
def signatureSize : Nat := 65

/-- An address of any spelling, brought to its checksum form. -/
def checkRequester (v : Json) : Except Rule String :=
  match v with
  | .str s =>
    match s.toString?.bind Address.ofString? with
    | some a => .ok a.toString
    | none => .error (.checked ("Not a chain address: " ++ Text.quoted s))
  | _ => .error .text

def checkPayload (v : Json) : Except Rule String := do
  let s ← Validation.text v
  if s.length < 1 then .error .tooShort
  else if payloadLimit < s.length then .error (.tooLong payloadLimit)
  else .ok s

/-- The digits of a signature after its mark. -/
def signatureBody : List Char → List Char
  | '0' :: 'x' :: rest => rest
  | s => s

def notHex : Rule := .checked "Signature is not hex"

/-- The stored form of a signature's text: the mark and lowercase digits. -/
def normalSignature (s : List Char) : Except Rule String :=
  let body := signatureBody s
  match Bytes.ofSpacedHex? body with
  | none => .error notHex
  | some bs =>
    if bs.length = signatureSize then .ok ("0x" ++ String.ofList (body.map Char.toLower))
    else .error (.checked ("Signature must be " ++ Decimal.ofNat signatureSize ++ " bytes, got " ++
      Decimal.ofNat bs.length))

/-- No signature, where an empty text is none, or its stored form. -/
def checkSignature (v : Json) : Except Rule (Option String) :=
  match v with
  | .null => .ok none
  | .str s =>
    match s.toString? with
    | some s => if s.isEmpty then .ok none else some <$> normalSignature s.toList
    | none => .error notHex
  | _ => .error .text

/-- A request from its fields, with `fresh` as its id if they give none. -/
def ofFields (fresh : Text) (fields : Json) : Except (List FieldError) Request :=
  let id := Validation.fieldOr fields "request_id" fresh Validation.codePoints
  let requester := Validation.field fields "requester" checkRequester
  let payload := Validation.field fields "payload" checkPayload
  let signature := Validation.fieldOr fields "signature" none checkSignature
  Validation.also (Validation.also (Validation.also (id.map Request.mk) requester) payload) signature

def refusal (message detail : String) : Failure :=
  { kind := .request, message := message, detail := detail, stage := some "Idle" }

/-- Why a request's signature does not show that its requester made it. -/
def signatureFailure (r : Request) : Option Failure :=
  match r.signature with
  | none => none
  | some s =>
    match Message.signerOfText r.payload s with
    | .error why => some (refusal "Signature could not be recovered" why)
    | .ok signer =>
      if signer = r.requester then none
      else some (refusal "Signature does not match requester" ("recovered " ++ signer))

/-- The failure for fields that break rules: the first of them counts. -/
def fieldFailure : List FieldError → Failure
  | [] => refusal "Invalid request" ""
  | e :: _ => refusal ("Invalid " ++ e.field) e.rule.message

/-- A request from the values of a query. -/
def ofQueryValues (id : Text) (hello setter signature : Json) : Except Failure Request := do
  let r ← (ofFields id (.record [("requester", setter), ("payload", hello), ("signature", signature)])).mapError
    fieldFailure
  match r.signatureFailure with
  | none => .ok r
  | some f => .error f

/-- A request from texts. -/
def ofTexts (id hello setter : Text) (signature : Option Text) : Except Failure Request :=
  ofQueryValues id (.str hello) (.str setter) ((signature.map Json.str).getD .null)

/-- A request from the strings of a query. -/
def ofQuery (id hello setter : String) (signature : Option String) : Except Failure Request :=
  ofTexts id hello setter (signature.map Text.ofString)

/-- The document that the prover reads. -/
def proverInput (r : Request) : Json :=
  .record [("request_id", .str r.id), ("requester", .text r.requester), ("payload", .text r.payload)]

def successMessage (r : Request) : String := r.requester ++ " set hello to " ++ r.payload

end Request

end ProofRelay
