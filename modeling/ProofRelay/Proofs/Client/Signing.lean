import ProofRelay.Proofs.Chain.Transaction
import ProofRelay.Proofs.Json.RoundTrip

/-!
What is signed. A signer is given the fields of a transaction, the nonce among them, and what it makes of them is its
own affair. A standard one writes them as a node reads them, with a signature of its own, and a signer with a private
key is such a one; a plain one writes a document. From the bytes of both the nonce is read back.
-/

namespace ProofRelay

/-- What a signer is given for a transaction with a nonce. -/
def Transaction.given (tx : Transaction) (nonce : Int) : List (String × Json) :=
  [("to", tx.recipient), ("data", tx.data), ("value", .int tx.value), ("gas", .int tx.gas),
   ("gasPrice", .int tx.gasPrice), ("nonce", .int nonce), ("chainId", .int tx.chainId)]

/-- Signing comes to what the signer makes of what it is given. -/
theorem Client.signed_eq (tx : Transaction) (signer : Signer) (nonce : Int) :
    Client.signed tx signer nonce = signer.sign (tx.given nonce) := rfl

namespace Signer

/-- A signer that writes transactions as a node reads them, with a signature for each digest. -/
def standard (address : String) (signatureOf : Bytes → Ecdsa.Signature) : Signer where
  address := address
  sign fields := do
    let p ← Payload.ofDocument address (.record fields)
    p.signBy signatureOf

theorem key_eq (account : Account) : key account = standard account.address (Ecdsa.sign account.key.secret) := rfl

variable {tx : Transaction} {address : String} {signatureOf : Bytes → Ecdsa.Signature} {n : Int} {raw : Bytes}

/-- All that a standard signer was given is read from its bytes. -/
theorem decode?_of_standard (signs : (standard address signatureOf).sign (tx.given n) = .ok raw) :
    ∃ t, SignedTransaction.decode? raw = some t ∧ t.payload.Describes tx n := by
  have accepted : tx.signedBy address signatureOf n = .ok raw := signs
  obtain ⟨p, message, -, -, described, -, writes⟩ := Transaction.signedBy_eq_ok_iff.1 accepted
  obtain ⟨c, chain, -⟩ := described.chainId
  exact ⟨_, Payload.decode?_raw chain writes, described⟩

/-- The nonce of a document that is written in some bytes. -/
def documentNonce? (raw : Bytes) : Option Int := do
  let text ← (Encoding.decodeStrict raw).toOption
  let document ← (Json.readDocument Json.usualLevels text).toOption
  let nonce ← document.get? "nonce"
  nonce.toInt.toOption

/-- The nonce in some bytes: of a transaction as a node reads it, or else of a document. -/
def nonceIn? (raw : Bytes) : Option Int :=
  match SignedTransaction.decode? raw with
  | some t => some t.payload.nonce
  | none => documentNonce? raw

/-- Signers whose bytes can be read, with what they sign: one with a private key, any standard one, a plain one of which
the recipient and the data can be written as they are, and one that refuses. -/
inductive Legible (tx : Transaction) : Signer → Prop where
  | key (account : Account) : Legible tx (.key account)
  | standard (address : String) (signatureOf : Bytes → Ecdsa.Signature) : Legible tx (.standard address signatureOf)
  | plain (address : String) (recipient : tx.recipient.IsDocument .none) (data : tx.data.IsDocument .none) :
      Legible tx (.plain address)
  | refusing (address : String) (f : Fault) : Legible tx (.refusing address f)

/-- The text of a document is not a transaction as a node reads it. -/
theorem decode?_ascii (ascii : ∀ b ∈ raw, b.toNat < 128) : SignedTransaction.decode? raw = none := by
  have none : Rlp.decodeList? raw = none := by
    cases raw with
    | nil => rfl
    | cons b rest =>
      have small : b.toNat < 0xC0 := Nat.lt_trans (ascii b List.mem_cons_self) (by decide)
      simp [Rlp.decodeList?, Rlp.payload?, small]
  rw [SignedTransaction.decode?, none]

/-- From the document of a plain signer the nonce is read. -/
theorem nonceIn?_of_plain (recipient : tx.recipient.IsDocument .none) (data : tx.data.IsDocument .none)
    (signs : (plain address).sign (tx.given n) = .ok raw) : nonceIn? raw = some n := by
  have document : (Json.record (("from", .text address) :: tx.given n)).IsDocument .none := by
    have names : ["from", "to", "data", "value", "gas", "gasPrice", "nonce", "chainId"].Nodup := by decide
    refine Json.isDocument_record rfl names ?_
    simp only [Transaction.given, List.forall_mem_cons]
    exact ⟨.str _, recipient, data, .int _ rfl, .int _ rfl, .int _ rfl, .int _ rfl, .int _ rfl, List.forall_mem_nil _⟩
  have signs : (Json.write Json.usualLevels (.record (("from", .text address) :: tx.given n))).map Utf8.encode =
    .ok raw := signs
  cases written : Json.write Json.usualLevels (.record (("from", .text address) :: tx.given n)) with
  | error f =>
    rw [written] at signs
    cases signs
  | ok text =>
    rw [written] at signs
    obtain rfl := Except.ok.inj signs
    have reads := Json.readsAs_write document written
    obtain ⟨back, read, same, -⟩ := reads.read _ (document.write_eq_ok_iff.1 written).1
    have read : Json.readDocument Json.usualLevels (Text.ofString text) = .ok back := read
    have given : (Json.record (("from", .text address) :: tx.given n)).get? "nonce" = some (.int n) := rfl
    obtain ⟨v, found, equal⟩ := same.get? given
    cases equal
    rw [nonceIn?, decode?_ascii reads.ascii, documentNonce?, reads.decoded]
    simp only [Except.toOption, Option.bind_some, bind, read, found]
    rfl

/-- From the bytes of a standard signer the nonce is read. -/
theorem nonceIn?_of_standard (signs : (standard address signatureOf).sign (tx.given n) = .ok raw) :
    nonceIn? raw = some n := by
  obtain ⟨t, read, described⟩ := decode?_of_standard signs
  rw [nonceIn?, read]
  exact congrArg some described.nonce

theorem Legible.nonceIn? {signer : Signer} (legible : Legible tx signer) (signs : signer.sign (tx.given n) = .ok raw) :
    nonceIn? raw = some n := by
  cases legible with
  | key account =>
    rw [key_eq] at signs
    exact nonceIn?_of_standard signs
  | standard address signatureOf => exact nonceIn?_of_standard signs
  | plain address recipient data => exact nonceIn?_of_plain recipient data signs
  | refusing => cases signs

/-- Some bytes carry a transaction with a nonce: the signer made them of its fields, a standard one so that all of these
are read from them, and a legible one so that the nonce is. -/
structure Carries (signer : Signer) (tx : Transaction) (nonce : Int) (raw : Bytes) : Prop where
  signs : signer.sign (tx.given nonce) = .ok raw
  decoded : ∀ address signatureOf, signer = .standard address signatureOf →
    ∃ t, SignedTransaction.decode? raw = some t ∧ t.payload.Describes tx nonce
  legible : signer.Legible tx → nonceIn? raw = some nonce

theorem carries_of_signs {signer : Signer} (signs : signer.sign (tx.given n) = .ok raw) : signer.Carries tx n raw where
  signs := signs
  decoded := by
    rintro address signatureOf rfl
    exact decode?_of_standard signs
  legible := fun legible => legible.nonceIn? signs

end Signer

end ProofRelay
