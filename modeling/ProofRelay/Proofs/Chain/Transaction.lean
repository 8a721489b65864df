import ProofRelay.Client.Submit
import ProofRelay.Proofs.Bytes.Utf8
import ProofRelay.Proofs.Chain.Address
import ProofRelay.Proofs.Chain.Rlp

/-!
What the raw bytes of a signed transaction say. The fields that are handed to a signer are read back as
numbers and bytes, and written as nine items from which a node reads them again. So the raw bytes hold the
nonce, the price, the gas, the recipient, the value, the data and the chain id of the transaction that was
built, whatever the signature is, and transactions that differ in one of these never have the same bytes.
-/

namespace ProofRelay

namespace Payload

/-- The payload has the fields of the transaction, with this nonce. -/
structure Describes (p : Payload) (tx : Transaction) (nonce : Int) : Prop where
  nonce : (p.nonce : Int) = nonce
  gasPrice : (p.gasPrice : Int) = tx.gasPrice
  gas : (p.gas : Int) = tx.gas
  recipient : bytesField "to" tx.recipient = .ok p.recipient
  value : (p.value : Int) = tx.value
  data : bytesField "data" tx.data = .ok p.data
  chainId : ∃ c : Nat, p.chainId = some c ∧ (c : Int) = tx.chainId

section Reading

variable {name s : String} {bs : Bytes} {v : Json}

/-- The text is the digits of the bytes, of either case, after a mark or none. -/
def HexText (s : String) (bs : Bytes) : Prop :=
  ∃ mark ∈ Address.marks, ∃ digits, s.toList = mark ++ digits ∧ Bytes.Spelled digits bs

theorem hexText_toHex0x (bs : Bytes) : HexText (Bytes.toHex0x bs) bs :=
  ⟨['0', 'x'], by simp [Address.marks], Bytes.hexChars bs, Bytes.toList_toHex0x bs, Bytes.spelled_hexChars bs⟩

/-- Digits in pairs, with a mark or without, are even in number, so that no digit is missing. -/
theorem bytesField_of_hexText (name : String) (hex : HexText s bs) : bytesField name (.text s) = .ok bs := by
  obtain ⟨mark, known, digits, text, spelled⟩ := hex
  have even : s.toList.length % 2 ≠ 1 := by
    have pairs := spelled.length
    simp only [Address.marks, List.mem_cons, List.not_mem_nil, or_false] at known
    rw [text, List.length_append, pairs]
    rcases known with rfl | rfl | rfl <;> simp only [List.length_cons, List.length_nil] <;> omega
  have read : looseHex? s.toList = some bs := by
    simp only [looseHex?, if_neg even]
    rw [text, Address.dropMark_append known spelled]
    exact Bytes.ofHex?_eq_some_iff.2 spelled
  simp only [bytesField, Json.text, Text.toString?_ofString, Option.bind_some, read]

/-- A recipient is none, or an address in its checksum form. -/
theorem isRecipient_cases (known : isRecipient v = true) :
    v = .null ∨ v = .text "" ∨ ∃ a : Address, v = .text a.toString := by
  unfold isRecipient at known
  split at known
  · exact .inl rfl
  · rename_i t
    rw [Bool.or_eq_true, List.isEmpty_iff] at known
    rcases known with rfl | known
    · exact .inr (.inl rfl)
    · split at known
      · rename_i s read
        obtain rfl := Text.toString?_eq_some_iff.1 read
        split at known
        · rename_i a _
          rw [beq_iff_eq] at known
          exact .inr (.inr ⟨a, congrArg Json.text known.symm⟩)
        · cases known
      · cases known
  · cases known

theorem isRecipient_address (a : Address) : isRecipient (.text a.toString) = true := by
  have read : Address.ofString? a.toString = some a := Address.ofString?_eq_some_iff.2 (Address.spelled_toString a)
  simp only [isRecipient, Json.text, Text.toString?_ofString, read, BEq.rfl, Bool.or_true]

theorem bytesField_address (name : String) (a : Address) : bytesField name (.text a.toString) = .ok a.bytes := by
  obtain ⟨mark, known, digits, text, spelled⟩ := Address.spelled_toString a
  exact bytesField_of_hexText name ⟨mark, known, digits, text, spelled⟩

/-- The bytes of a recipient are those of its address, or there are none. -/
theorem recipient_bytes (known : isRecipient v = true) (read : bytesField name v = .ok bs) :
    bs = [] ∨ ∃ a : Address, v = .text a.toString ∧ bs = a.bytes := by
  rcases isRecipient_cases known with rfl | rfl | ⟨a, rfl⟩
  · cases read
    exact .inl rfl
  · cases read
    exact .inl rfl
  · rw [bytesField_address] at read
    cases read
    exact .inr ⟨a, rfl, rfl⟩

theorem natural_eq_ok_iff {n : Int} {k : Nat} : natural name n = .ok k ↔ (k : Int) = n := by
  unfold natural
  split
  · refine iff_of_false (by simp) ?_
    intro same
    omega
  · rw [Except.ok.injEq]
    omega

end Reading

section Document

variable {tx : Transaction} {n : Int} {address : String} {p : Payload}

/-- The fields of a transaction as members of a document. -/
def membersOf (tx : Transaction) (n : Int) : List (Text × Json) :=
  [(Text.ofString "to", tx.recipient), (Text.ofString "data", tx.data), (Text.ofString "value", .int tx.value),
   (Text.ofString "gas", .int tx.gas), (Text.ofString "gasPrice", .int tx.gasPrice), (Text.ofString "nonce", .int n),
   (Text.ofString "chainId", .int tx.chainId)]

/-- All names are known and none is missing, and an integer is a number; so only the recipient and the data
can have the wrong kind. -/
theorem checkFields_membersOf (tx : Transaction) (n : Int) :
    checkFields (membersOf tx n) = .ok () ↔ isRecipient tx.recipient = true ∧ isField "data" tx.data = true := by
  have recipient : isField "to" tx.recipient = isRecipient tx.recipient := rfl
  have names : (membersOf tx n).map (fun m => m.1.toStringLossy) =
      ["to", "data", "value", "gas", "gasPrice", "nonce", "chainId"] := by
    simp [membersOf]
  have bad : (membersOf tx n).filter (fun m => !isField m.1.toStringLossy m.2) =
      [(Text.ofString "to", tx.recipient), (Text.ofString "data", tx.data)].filter
        fun m => !isField m.1.toStringLossy m.2 := by
    simp only [membersOf, List.filter_cons, Text.toStringLossy_ofString]
    rfl
  simp only [checkFields, names, bad, List.filter_cons, Text.toStringLossy_ofString, recipient]
  cases isRecipient tx.recipient <;> cases isField "data" tx.data <;> simp [requiredFields, allowedFields]

/-- The fields of a transaction are read in this order. -/
theorem ofDocument_membersOf (address : String) (tx : Transaction) (n : Int) :
    ofDocument address (.obj (membersOf tx n)) = (do
      checkFields (membersOf tx n)
      let recipient ← bytesField "to" tx.recipient
      let data ← bytesField "data" tx.data
      let nonce ← natural "nonce" n
      let gasPrice ← natural "gasPrice" tx.gasPrice
      let gas ← natural "gas" tx.gas
      let value ← natural "value" tx.value
      let chainId ← some <$> natural "v" tx.chainId
      return ⟨nonce, gasPrice, gas, recipient, value, data, chainId⟩) := by
  rw [ofDocument]
  rfl

/-- A transaction is accepted just if its recipient and its data are of the right kind and a payload
describes it, and that payload is what is signed. -/
theorem ofDocument_eq_ok_iff : ofDocument address (.obj (membersOf tx n)) = .ok p ↔
    isRecipient tx.recipient = true ∧ isField "data" tx.data = true ∧ p.Describes tx n := by
  rw [ofDocument_membersOf]
  constructor
  · intro accepted
    obtain ⟨_, checked, accepted⟩ := except_bind_eq_ok.1 accepted
    obtain ⟨recipient, readRecipient, accepted⟩ := except_bind_eq_ok.1 accepted
    obtain ⟨data, readData, accepted⟩ := except_bind_eq_ok.1 accepted
    obtain ⟨nonce, readNonce, accepted⟩ := except_bind_eq_ok.1 accepted
    obtain ⟨gasPrice, readPrice, accepted⟩ := except_bind_eq_ok.1 accepted
    obtain ⟨gas, readGas, accepted⟩ := except_bind_eq_ok.1 accepted
    obtain ⟨value, readValue, accepted⟩ := except_bind_eq_ok.1 accepted
    obtain ⟨chainId, readChain, accepted⟩ := except_bind_eq_ok.1 accepted
    cases accepted
    obtain ⟨known, kind⟩ := (checkFields_membersOf tx n).1 checked
    have chain : ∃ c : Nat, chainId = some c ∧ (c : Int) = tx.chainId := by
      cases natural : natural "v" tx.chainId with
      | error f =>
        rw [natural] at readChain
        cases readChain
      | ok c =>
        rw [natural] at readChain
        cases readChain
        exact ⟨c, rfl, natural_eq_ok_iff.1 natural⟩
    exact ⟨known, kind, natural_eq_ok_iff.1 readNonce, natural_eq_ok_iff.1 readPrice, natural_eq_ok_iff.1 readGas,
      readRecipient, natural_eq_ok_iff.1 readValue, readData, chain⟩
  · rintro ⟨known, kind, described⟩
    obtain ⟨c, chain, value⟩ := described.chainId
    obtain ⟨nonce, gasPrice, gas, recipient, amount, data, chainId⟩ := p
    cases chain
    rw [(checkFields_membersOf tx n).2 ⟨known, kind⟩, described.recipient, described.data,
      natural_eq_ok_iff.2 described.nonce, natural_eq_ok_iff.2 described.gasPrice, natural_eq_ok_iff.2 described.gas,
      natural_eq_ok_iff.2 described.value, natural_eq_ok_iff.2 value]
    rfl

end Document

section Raw

variable {p : Payload} {sig : Ecdsa.Signature} {raw : Bytes} {c : Nat}

theorem mark_some (c : Nat) (odd : Bool) : mark (some c) odd = 2 * c + 35 ∨ mark (some c) odd = 2 * c + 36 := by
  cases odd <;> simp only [mark, if_true, if_false, Bool.false_eq_true] <;> omega

/-- The mark tells the chain id and the parity. -/
theorem ofMark_mark (c : Nat) (odd : Bool) : SignedTransaction.ofMark (mark (some c) odd) = (some c, odd) := by
  have least : 35 ≤ mark (some c) odd := by
    rcases mark_some c odd with same | same <;> omega
  have chain : (mark (some c) odd - 35) / 2 = c := by
    rcases mark_some c odd with same | same <;> omega
  rw [SignedTransaction.ofMark, if_pos least, chain]
  cases odd
  · have even : (mark (some c) false - 35) % 2 = 0 := by
      simp only [mark, Bool.false_eq_true, if_false]
      omega
    rw [even]
    rfl
  · have odd : (mark (some c) true - 35) % 2 = 1 := by
      simp only [mark, if_true]
      omega
    rw [odd]
    rfl

/-- The raw bytes are a list of nine items. -/
theorem decodeList?_raw (writes : p.raw sig = .ok raw) : Rlp.decodeList? raw =
    some [Bytes.ofNat p.nonce, Bytes.ofNat p.gasPrice, Bytes.ofNat p.gas, p.recipient, Bytes.ofNat p.value, p.data,
      Bytes.ofNat (mark p.chainId sig.odd), Bytes.ofNat sig.r, Bytes.ofNat sig.s] :=
  Rlp.decodeList?_encodeList writes

theorem unsigned_of_chain (chain : p.chainId = some c) :
    p.unsigned = Rlp.encodeList (p.items ++ [Bytes.ofNat c, [], []]) := by
  rw [unsigned, chain]

/-- Numbers of at most 32 bytes, with a recipient and data that are not too long, can be written. -/
theorem exists_encodeList_items {m₁ m₂ m₃ : Bytes}
    (numbers : ∀ m ∈ [p.nonce, p.gasPrice, p.gas, p.value], m < Nat.pow 256 32)
    (few : m₁.length ≤ 32 ∧ m₂.length ≤ 32 ∧ m₃.length ≤ 32)
    (short : p.recipient.length + p.data.length < 0x8000000000000000) :
    ∃ written, Rlp.encodeList (p.items ++ [m₁, m₂, m₃]) = .ok written := by
  simp only [List.forall_mem_cons, List.not_mem_nil, false_implies, implies_true, and_true] at numbers
  obtain ⟨nonce, gasPrice, gas, value⟩ := numbers
  have nonce := Bytes.length_ofNat_le nonce
  have gasPrice := Bytes.length_ofNat_le gasPrice
  have gas := Bytes.length_ofNat_le gas
  have value := Bytes.length_ofNat_le value
  apply Rlp.exists_encodeList
  simp only [items, List.cons_append, List.nil_append, Rlp.room, Rlp.lengthLimit]
  omega

/-- What a node reads from the raw bytes is what was signed, with its signature. -/
theorem decode?_raw (chain : p.chainId = some c) (writes : p.raw sig = .ok raw) :
    SignedTransaction.decode? raw = some ⟨p, sig⟩ := by
  obtain ⟨nonce, gasPrice, gas, recipient, value, data, chainId⟩ := p
  cases chain
  simp only [SignedTransaction.decode?, decodeList?_raw writes, Bytes.toNat_ofNat, ofMark_mark]

end Raw

end Payload

namespace Transaction

/-- The raw bytes of a transaction with a nonce, for a signer with this address, where `signatureOf` gives
the signature of a digest. -/
def signedBy (tx : Transaction) (address : String) (signatureOf : Bytes → Ecdsa.Signature) (n : Int) :
    Except Fault Bytes := do
  let fields ← (tx.withNonce n).fields
  let p ← Payload.ofDocument address (.record fields)
  p.signBy signatureOf

/-- A signer with a key signs by the signatures of its key. -/
theorem signed_key (tx : Transaction) (account : Account) (n : Int) :
    Client.signed tx (.key account) n = tx.signedBy account.address (Ecdsa.sign account.key.secret) n :=
  rfl

variable {tx tx' : Transaction} {address address' : String} {signatureOf signatureOf' : Bytes → Ecdsa.Signature}
  {n n' : Int} {raw : Bytes}

/-- A transaction is signed just if a payload describes it and can be written with its signature. -/
theorem signedBy_eq_ok_iff : tx.signedBy address signatureOf n = .ok raw ↔
    ∃ (p : Payload) (message : Bytes), Payload.isRecipient tx.recipient = true ∧
      Payload.isField "data" tx.data = true ∧ p.Describes tx n ∧ p.unsigned = .ok message ∧
      p.raw (signatureOf (Keccak256.digest message)) = .ok raw := by
  have unfolded : tx.signedBy address signatureOf n =
      Payload.ofDocument address (.obj (Payload.membersOf tx n)) >>= fun p => p.signBy signatureOf := rfl
  rw [unfolded, except_bind_eq_ok]
  constructor
  · rintro ⟨p, accepted, signs⟩
    obtain ⟨message, unsigned, writes⟩ := except_bind_eq_ok.1 signs
    obtain ⟨known, kind, described⟩ := Payload.ofDocument_eq_ok_iff.1 accepted
    exact ⟨p, message, known, kind, described, unsigned, writes⟩
  · rintro ⟨p, message, known, kind, described, unsigned, writes⟩
    exact ⟨p, Payload.ofDocument_eq_ok_iff.2 ⟨known, kind, described⟩, except_bind_eq_ok.2 ⟨message, unsigned, writes⟩⟩

/-- A transaction is signed if its recipient and its data are of the right kind, its numbers and those of the
signature have at most 32 bytes, and its data are not too long. -/
theorem exists_signedBy {p : Payload} (known : Payload.isRecipient tx.recipient = true)
    (kind : Payload.isField "data" tx.data = true) (described : p.Describes tx n)
    (numbers : ∀ m ∈ [p.nonce, p.gasPrice, p.gas, p.value], m < Nat.pow 256 32)
    (chain : tx.chainId < (Nat.pow 256 31 : Nat))
    (halves : ∀ digest, (signatureOf digest).r < Nat.pow 256 32 ∧ (signatureOf digest).s < Nat.pow 256 32)
    (short : p.recipient.length + p.data.length < 0x8000000000000000) :
    ∃ raw, tx.signedBy address signatureOf n = .ok raw := by
  obtain ⟨c, same, value⟩ := described.chainId
  have word : Nat.pow 256 32 = Nat.pow 256 31 * 256 := rfl
  have smallChain : (Bytes.ofNat c).length ≤ 32 := Bytes.length_ofNat_le (by omega)
  obtain ⟨message, unsigned⟩ : ∃ message, Rlp.encodeList (p.items ++ [Bytes.ofNat c, [], []]) = .ok message :=
    Payload.exists_encodeList_items numbers ⟨smallChain, by simp, by simp⟩ short
  rw [← Payload.unsigned_of_chain same] at unsigned
  obtain ⟨smallR, smallS⟩ := halves (Keccak256.digest message)
  have smallMark : Payload.mark p.chainId (signatureOf (Keccak256.digest message)).odd < Nat.pow 256 32 := by
    rw [same]
    rcases Payload.mark_some c (signatureOf (Keccak256.digest message)).odd with mark | mark <;> omega
  obtain ⟨raw, writes⟩ := Payload.exists_encodeList_items numbers
    ⟨Bytes.length_ofNat_le smallMark, Bytes.length_ofNat_le smallR, Bytes.length_ofNat_le smallS⟩ short
  exact ⟨raw, signedBy_eq_ok_iff.2 ⟨p, message, known, kind, described, unsigned, writes⟩⟩

/-- What a node reads from the raw bytes describes the transaction that was signed. -/
theorem describes_of_decode? {t : SignedTransaction} (accepted : tx.signedBy address signatureOf n = .ok raw)
    (read : SignedTransaction.decode? raw = some t) : t.payload.Describes tx n := by
  obtain ⟨p, message, -, -, described, -, writes⟩ := signedBy_eq_ok_iff.1 accepted
  obtain ⟨c, chain, -⟩ := described.chainId
  cases (Payload.decode?_raw chain writes).symm.trans read
  exact described

/-- The raw bytes of a signed transaction are a list of nine items: the nonce, the price, the gas, the
recipient, the value, the data, the mark of the chain and the parity, and the two halves of the signature,
the numbers without leading zeros. Every transaction with the same raw bytes has the same fields; and
choosing a nonce changes no other field, the last choice being the one that counts. -/
theorem raw_carries_transaction (accepted : tx.signedBy address signatureOf n = .ok raw) :
    (∀ account, Client.signed tx (.key account) n =
      tx.signedBy account.address (Ecdsa.sign account.key.secret) n) ∧
    (∃ (p : Payload) (message : Bytes) (sig : Ecdsa.Signature) (v : Nat),
      p.Describes tx n ∧ p.unsigned = .ok message ∧ sig = signatureOf (Keccak256.digest message) ∧
      (p.recipient = [] ∨ ∃ a : Address, tx.recipient = .text a.toString ∧ p.recipient = a.bytes) ∧
      (∀ s d, tx.data = .text s → Payload.HexText s d → p.data = d) ∧
      ((v : Int) = 2 * tx.chainId + 35 ∨ (v : Int) = 2 * tx.chainId + 36) ∧
      Rlp.decodeList? raw = some [Bytes.ofNat p.nonce, Bytes.ofNat p.gasPrice, Bytes.ofNat p.gas, p.recipient,
        Bytes.ofNat p.value, p.data, Bytes.ofNat v, Bytes.ofNat sig.r, Bytes.ofNat sig.s] ∧
      SignedTransaction.decode? raw = some ⟨p, sig⟩ ∧
      ∀ tx' address' signatureOf' n', signedBy tx' address' signatureOf' n' = .ok raw →
        n' = n ∧ tx'.gasPrice = tx.gasPrice ∧ tx'.gas = tx.gas ∧ tx'.value = tx.value ∧ tx'.chainId = tx.chainId ∧
        Payload.bytesField "to" tx'.recipient = .ok p.recipient ∧ Payload.bytesField "data" tx'.data = .ok p.data) ∧
    (∀ m : Nat, Bytes.toNat (Bytes.ofNat m) = m ∧ (Bytes.ofNat m).head? ≠ some 0) ∧
    (∀ m, (tx.withNonce m).nonce = some m ∧ { tx.withNonce m with nonce := tx.nonce } = tx ∧
      ∀ k, (tx.withNonce k).withNonce m = tx.withNonce m) := by
  obtain ⟨p, message, known, -, described, unsigned, writes⟩ := signedBy_eq_ok_iff.1 accepted
  obtain ⟨c, chain, value⟩ := described.chainId
  have read := Payload.decode?_raw chain writes
  refine ⟨fun account => signed_key tx account n, ⟨p, message, _,
    Payload.mark p.chainId (signatureOf (Keccak256.digest message)).odd, described, unsigned, rfl,
    Payload.recipient_bytes known described.recipient, ?_, ?_, Payload.decodeList?_raw writes, read, ?_⟩, ?_, ?_⟩
  · intro s d text hex
    have field := described.data
    rw [text, Payload.bytesField_of_hexText "data" hex] at field
    exact (Except.ok.inj field).symm
  · rw [chain, ← value]
    rcases Payload.mark_some c (signatureOf (Keccak256.digest message)).odd with mark | mark <;> omega
  · intro tx' address' signatureOf' n' accepted'
    have same := describes_of_decode? accepted' read
    obtain ⟨c', chain', value'⟩ := same.chainId
    cases chain.symm.trans chain'
    exact ⟨same.nonce.symm.trans described.nonce, same.gasPrice.symm.trans described.gasPrice,
      same.gas.symm.trans described.gas, same.value.symm.trans described.value, value'.symm.trans value, same.recipient,
      same.data⟩
  · intro m
    exact ⟨Bytes.toNat_ofNat m, Bytes.head?_ofNat_ne m⟩
  · intro m
    exact ⟨rfl, rfl, fun k => rfl⟩

/-- A transaction with a price of four bytes, more data than a short mark can tell, and a nonce that needs a
mark of its own. -/
def sample : Transaction where
  sender := ""
  recipient := .text (Address.toString ⟨List.replicate 20 0xE5, rfl⟩)
  data := .text (Bytes.toHex0x (List.replicate 60 0))
  gas := 60000
  gasPrice := 1000000000
  chainId := 1337

/-- The payload of the sample with nonce 128. -/
def samplePayload : Payload :=
  ⟨128, 1000000000, 60000, List.replicate 20 0xE5, 0, List.replicate 60 0, some 1337⟩

theorem describes_sample : samplePayload.Describes sample 128 where
  nonce := rfl
  gasPrice := rfl
  gas := rfl
  recipient := Payload.bytesField_address "to" _
  value := rfl
  data := Payload.bytesField_of_hexText "data" (Payload.hexText_toHex0x _)
  chainId := ⟨1337, rfl, rfl⟩

/-- The raw bytes of the sample are read back as its fields, for a signature with a short half. -/
theorem raw_carries_transaction_sample :
    ∃ raw p, sample.signedBy "" (fun _ => ⟨1, Nat.pow 256 31, true⟩) 128 = .ok raw ∧
      p.Describes sample 128 ∧ p.data = List.replicate 60 0 ∧
      SignedTransaction.decode? raw = some ⟨p, ⟨1, Nat.pow 256 31, true⟩⟩ := by
  obtain ⟨raw, accepted⟩ := @exists_signedBy sample "" (fun _ => ⟨1, Nat.pow 256 31, true⟩) 128 samplePayload
    (Payload.isRecipient_address _) rfl describes_sample (by decide) (by decide) (fun _ => ⟨by decide, by decide⟩)
    (by decide)
  obtain ⟨-, ⟨p, message, sig, v, described, -, rfl, -, hex, -, -, read, -⟩, -⟩ := raw_carries_transaction accepted
  exact ⟨raw, p, accepted, described, hex _ _ rfl (Payload.hexText_toHex0x _), read⟩

end Transaction

end ProofRelay
