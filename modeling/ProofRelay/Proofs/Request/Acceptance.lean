import ProofRelay.Proofs.Chain.Address
import ProofRelay.Proofs.Request.Signature

/-!
Which queries give a request. The payload has 1 to 4096 code points and all of them are characters, the
requester is a spelling of an address, and the signature, if there is one, is 130 digits, alone or after `0x`,
from whose bytes the requester is recovered. A query that is none of these is refused for the first of its
fields that breaks a rule, or else for its signature.

What a request holds is in normal form: asking again with it gives the same request. All spellings of an
address lead to the same requester, whatever the case of their letters.
-/

namespace ProofRelay

/-- The text of a public key's address is that of an address. -/
theorem PrivateKey.exists_addressOf (p : Secp256k1.Point) : ∃ a : Address, PrivateKey.addressOf p = a.toString := by
  have size : (addressBytes p).length = 20 := by
    rw [addressBytes, List.length_drop, Keccak256.length_digest]
  have address : Address.ofBytes? (addressBytes p) = some ⟨addressBytes p, size⟩ := Address.ofBytes?_eq_some_iff.2 rfl
  exact ⟨_, by rw [addressOf, address]⟩

namespace Request

section Fields

/-- The text is a spelling of the address. -/
def Names (setter : Text) (a : Address) : Prop := ∃ s, setter = Text.ofString s ∧ Address.Spelled s a

theorem names_ofString_iff {s : String} {a : Address} : Names s a ↔ Address.Spelled s a := by
  constructor
  · rintro ⟨s', same, spelled⟩
    rw [Text.ofString_injective same]
    exact spelled
  · intro spelled
    exact ⟨s, rfl, spelled⟩

theorem Names.unique {t : Text} {a a' : Address} (h : Names t a) (h' : Names t a') : a = a' := by
  obtain ⟨s, rfl, spelled⟩ := h
  exact spelled.unique (names_ofString_iff.1 h')

/-- An address in any spelling is accepted, and its checksum form is kept. -/
theorem checkRequester_cases (t : Text) :
    (∃ a, Names t a ∧ checkRequester (.str t) = .ok a.toString) ∨
      (∀ a, ¬ Names t a) ∧ ∃ rule, checkRequester (.str t) = .error rule := by
  cases read : t.toString?.bind Address.ofString? with
  | none =>
    refine .inr ⟨?_, .checked ("Not a chain address: " ++ Text.quoted t), by simp only [checkRequester, read]⟩
    rintro a ⟨s, rfl, spelled⟩
    rw [Text.toString?_ofString, Option.bind_some, Address.ofString?_eq_some_iff.2 spelled] at read
    cases read
  | some a =>
    refine .inl ⟨a, ?_, by simp only [checkRequester, read]⟩
    obtain ⟨s, string, address⟩ := Option.bind_eq_some_iff.1 read
    exact ⟨s, Text.toString?_eq_some_iff.1 string, Address.ofString?_eq_some_iff.1 address⟩

/-- The text is that of a payload: it has as many code points as it should, and each is a character. -/
def Fits (hello : Text) (payload : String) : Prop :=
  hello = Text.ofString payload ∧ 1 ≤ hello.length ∧ hello.length ≤ 4096

theorem fits_ofString_iff {s payload : String} :
    Fits s payload ↔ payload = s ∧ 1 ≤ s.length ∧ s.length ≤ 4096 := by
  rw [Fits, Text.length_ofString]
  exact and_congr_left fun _ => ⟨fun same => (Text.ofString_injective same).symm, fun same => by rw [same]⟩

theorem checkPayload_cases (t : Text) :
    (∃ payload, Fits t payload ∧ checkPayload (.str t) = .ok payload) ∨
      (∀ payload, ¬ Fits t payload) ∧ ∃ rule, checkPayload (.str t) = .error rule := by
  cases read : t.toString? with
  | none =>
    refine .inr ⟨?_, .unicode, by simp only [checkPayload, Validation.text, read]; rfl⟩
    rintro payload ⟨rfl, -⟩
    cases (Text.toString?_ofString payload).symm.trans read
  | some s =>
    have checked : Validation.text (.str t) = .ok s := by simp only [Validation.text, read]
    obtain rfl := Text.toString?_eq_some_iff.1 read
    rw [checkPayload, checked]
    by_cases short : s.length < 1
    · refine .inr ⟨fun payload fits => ?_, .tooShort, if_pos short⟩
      have := (fits_ofString_iff.1 fits).2.1
      omega
    by_cases long : payloadLimit < s.length
    · refine .inr ⟨fun payload fits => ?_, .tooLong payloadLimit, (if_neg short).trans (if_pos long)⟩
      exact absurd (fits_ofString_iff.1 fits).2.2 (Nat.not_le.2 long)
    · refine .inl ⟨s, fits_ofString_iff.2 ⟨rfl, by omega, Nat.not_lt.1 long⟩, ?_⟩
      exact (if_neg short).trans (if_neg long)

/-- The value that a query has for its signature. -/
def valueOf (signature : Option Text) : Json := (signature.map Json.str).getD .null

/-- There is no signature, or its text denotes as many bytes as it should. -/
def Formed (signature : Option Text) : Prop :=
  ∀ t ∈ signature, t = [] ∨ ∃ s bs, t = Text.ofString s ∧ Denotes s.toList bs ∧ bs.length = 65

theorem checkSignature_cases (signature : Option Text) :
    (signature = none ∨ signature = some []) ∧ checkSignature (valueOf signature) = .ok none ∨
      (∃ s bs, signature = some (Text.ofString s) ∧ Denotes s.toList bs ∧ bs.length = 65 ∧
        checkSignature (valueOf signature) = .ok (some (keptForm s.toList))) ∨
      ¬ Formed signature ∧ ∃ rule, checkSignature (valueOf signature) = .error rule := by
  cases signature with
  | none => exact .inl ⟨.inl rfl, rfl⟩
  | some t =>
    change _ ∧ checkSignature (.str t) = _ ∨ (∃ _ _, _ ∧ _ ∧ _ ∧ checkSignature (.str t) = _) ∨
      _ ∧ ∃ _, checkSignature (.str t) = _
    cases read : t.toString? with
    | none =>
      refine .inr (.inr ⟨?_, notHex, by simp only [checkSignature, read]⟩)
      intro formed
      rcases formed t rfl with rfl | ⟨s, _, rfl, -⟩
      · cases read
      · cases (Text.toString?_ofString s).symm.trans read
    | some s =>
      obtain rfl := Text.toString?_eq_some_iff.1 read
      rw [← Json.text, checkSignature_text]
      by_cases empty : s = ""
      · exact .inl ⟨.inr (by rw [empty]; rfl), if_pos empty⟩
      · right
        rw [if_neg empty]
        rcases normalSignature_cases s.toList with ⟨bs, denotes, size, accepted⟩ | ⟨other, rule, refused⟩
        · exact .inl ⟨s, bs, rfl, denotes, size, by rw [accepted]; rfl⟩
        · refine .inr ⟨?_, rule, by rw [refused]; rfl⟩
          intro formed
          rcases formed _ rfl with none | ⟨s', bs, same, denotes, size⟩
          · exact empty (Text.ofString_injective none)
          · rw [← Text.ofString_injective same] at denotes
            exact other bs denotes size

end Fields

section Recovery

variable {s : List Char} {bs : Bytes}

theorem signer_of_recover {text : String} {odd : Bool} {p : Secp256k1.Point}
    (known : Message.parity? (((bs.drop 64).take 1).foldl (fun _ b => b.toNat) 0) = some odd)
    (first : Message.inRange (Bytes.toNat (bs.take 32)) = .ok ())
    (second : Message.inRange (Bytes.toNat ((bs.drop 32).take 32)) = .ok ())
    (recovered : Ecdsa.recover? ⟨Bytes.toNat (bs.take 32), Bytes.toNat ((bs.drop 32).take 32), odd⟩
      (Message.digest text) = some p) : Message.signer text bs = .ok (PrivateKey.addressOf p) := by
  simp only [Message.signer, known, first, second, recovered, bind, Except.bind]

/-- The signer is recovered from the bytes of a text without blanks, and from no other. -/
theorem signerOfText_keptForm (payload : String) (denotes : Denotes s bs) :
    ((∀ c ∈ s, Text.isAsciiBlank c = false) ∧
        Message.signerOfText payload (keptForm s) = Message.signer payload bs) ∨
      ¬ (∀ c ∈ s, Text.isAsciiBlank c = false) ∧ ∃ why, Message.signerOfText payload (keptForm s) = .error why := by
  have spaced : Bytes.Spaced (signatureBody s) bs := denotes_iff.1 denotes
  have digits : Address.dropMark (keptForm s).toList = (signatureBody s).map Char.toLower := by
    rw [toList_keptForm]
    rfl
  rw [Message.signerOfText, digits, ← forall_mem_signatureBody]
  by_cases solid : ∀ c ∈ signatureBody s, Text.isAsciiBlank c = false
  · have spelled := Bytes.spelled_map_toLower_iff.2 (spaced.spelled solid)
    rw [Bytes.ofHex?_eq_some_iff.2 spelled]
    exact .inl ⟨solid, rfl⟩
  · right
    cases read : Bytes.ofHex? ((signatureBody s).map Char.toLower) with
    | none => exact ⟨solid, _, rfl⟩
    | some bs' =>
      have spelled := Bytes.spelled_map_toLower_iff.1 (Bytes.ofHex?_eq_some_iff.1 read)
      exact absurd spelled.spaced.2 solid

end Recovery

section Query

section Values

variable {id : Text} {requester payload : String} {hello setter signature : Json} {kept : Option String} {rule : Rule}

/-- The first field that breaks a rule is named, whatever the others are. -/
theorem ofQueryValues_of_requester (refused : checkRequester setter = .error rule) :
    ofQueryValues id hello setter signature = .error (refusal "Invalid requester" rule.message) := by
  rw [ofQueryValues, ofFields_query, refused]
  cases checkPayload hello <;> cases checkSignature signature <;> rfl

theorem ofQueryValues_of_payload (address : checkRequester setter = .ok requester)
    (refused : checkPayload hello = .error rule) :
    ofQueryValues id hello setter signature = .error (refusal "Invalid payload" rule.message) := by
  rw [ofQueryValues, ofFields_query, address, refused]
  cases checkSignature signature <;> rfl

theorem ofQueryValues_of_signature (address : checkRequester setter = .ok requester)
    (text : checkPayload hello = .ok payload) (refused : checkSignature signature = .error rule) :
    ofQueryValues id hello setter signature = .error (refusal "Invalid signature" rule.message) := by
  rw [ofQueryValues, ofFields_query, address, text, refused]
  rfl

/-- Where all fields pass, the signature is left to be verified. -/
theorem ofQueryValues_of_checks (address : checkRequester setter = .ok requester)
    (text : checkPayload hello = .ok payload) (sealed : checkSignature signature = .ok kept) :
    ofQueryValues id hello setter signature =
      (⟨id, requester, payload, kept⟩ : Request).signatureFailure.elim (.ok ⟨id, requester, payload, kept⟩) .error := by
  rw [ofQueryValues, ofFields_of_checks id address text sealed]
  change (Except.ok _ >>= _) = _
  cases wrong : (⟨id, requester, payload, kept⟩ : Request).signatureFailure <;> simp [bind, Except.bind, wrong]

end Values

variable {id hello setter : Text} {payload : String} {signature : Option Text} {kept : Option String} {a : Address}

/-- What is kept of a signature that shows that the requester made it: nothing if there is none. -/
inductive Sealed (payload requester : String) : Option Text → Option String → Prop where
  | absent : Sealed payload requester none none
  | empty : Sealed payload requester (some []) none
  | signed {s : String} {digits : List Char} {bs : Bytes} (text : Marked s.toList digits)
      (count : digits.length = 130) (spelled : Bytes.Spelled digits bs)
      (recovered : Message.signer payload bs = .ok requester) :
      Sealed payload requester (some (Text.ofString s)) (some (Bytes.toHex0x bs))

/-- Why a query is refused: for the first field that breaks a rule, or else for its signature. -/
inductive Blames (hello setter : Text) (signature : Option Text) : String → Prop where
  | requester (bad : ∀ a, ¬ Names setter a) : Blames hello setter signature "Invalid requester"
  | payload {a : Address} (address : Names setter a) (bad : ∀ payload, ¬ Fits hello payload) :
      Blames hello setter signature "Invalid payload"
  | signature {a : Address} {payload : String} (address : Names setter a) (fits : Fits hello payload)
      (bad : ¬ Formed signature) : Blames hello setter signature "Invalid signature"
  | unrecovered {a : Address} {payload s : String} {bs : Bytes} (address : Names setter a) (fits : Fits hello payload)
      (given : signature = some (Text.ofString s)) (denotes : Denotes s.toList bs) (size : bs.length = 65)
      (bad : ¬ (∀ c ∈ s.toList, Text.isAsciiBlank c = false) ∨ ∃ why, Message.signer payload bs = .error why) :
      Blames hello setter signature "Signature could not be recovered"
  | stranger {a : Address} {payload s other : String} {bs : Bytes} (address : Names setter a)
      (fits : Fits hello payload)
      (given : signature = some (Text.ofString s)) (denotes : Denotes s.toList bs) (size : bs.length = 65)
      (recovered : Message.signer payload bs = .ok other) (bad : other ≠ a.toString) :
      Blames hello setter signature "Signature does not match requester"

/-- A text of a signature without blanks is digits of either case, two for each byte. -/
theorem sealed_of_denotes {s payload requester : String} {bs : Bytes} (denotes : Denotes s.toList bs)
    (size : bs.length = 65) (solid : ∀ c ∈ s.toList, Text.isAsciiBlank c = false)
    (recovered : Message.signer payload bs = .ok requester) :
    Sealed payload requester (some (Text.ofString s)) (some (keptForm s.toList)) := by
  have spelled := (denotes_iff.1 denotes).spelled ((forall_mem_signatureBody s.toList).2 solid)
  rw [keptForm_eq_toHex0x_iff.2 spelled]
  refine .signed (marked_signatureBody s.toList) ?_ spelled recovered
  rw [spelled.length, size]

/-- A query gives a request, or is refused for a reason. -/
theorem ofTexts_cases (id hello setter : Text) (signature : Option Text) :
    (∃ payload a kept, Fits hello payload ∧ Names setter a ∧ Sealed payload a.toString signature kept ∧
        ofTexts id hello setter signature = .ok ⟨id, a.toString, payload, kept⟩) ∨
      ∃ message detail, Blames hello setter signature message ∧
        ofTexts id hello setter signature = .error (refusal message detail) := by
  rw [ofTexts, ← valueOf]
  -- The fields come in the order in which a refusal names them, and the recovery after all of them.
  rcases checkRequester_cases setter with ⟨a, address, requester⟩ | ⟨bad, rule, refused⟩
  swap
  · exact .inr ⟨_, _, .requester bad, ofQueryValues_of_requester refused⟩
  rcases checkPayload_cases hello with ⟨payload, fits, text⟩ | ⟨bad, rule, refused⟩
  swap
  · exact .inr ⟨_, _, .payload address bad, ofQueryValues_of_payload requester refused⟩
  rcases checkSignature_cases signature with ⟨silent, checked⟩ | ⟨s, bs, given, denotes, size, checked⟩ |
    ⟨bad, rule, refused⟩
  · refine .inl ⟨payload, a, none, fits, address, ?_, ofQueryValues_of_checks requester text checked⟩
    rcases silent with rfl | rfl
    · exact .absent
    · exact .empty
  · rw [ofQueryValues_of_checks requester text checked]
    simp only [signatureFailure]
    rcases signerOfText_keptForm payload denotes with ⟨solid, same⟩ | ⟨blank, why, failed⟩
    · rw [same]
      cases recovered : Message.signer payload bs with
      | error why => exact .inr ⟨_, why, .unrecovered address fits given denotes size (.inr ⟨why, recovered⟩), rfl⟩
      | ok other =>
        by_cases own : other = a.toString
        · rw [own] at recovered
          exact .inl ⟨payload, a, _, fits, address, given ▸ sealed_of_denotes denotes size solid recovered,
            by simp [own]⟩
        · exact .inr ⟨_, _, .stranger address fits given denotes size recovered own, by simp [own]; rfl⟩
    · rw [failed]
      exact .inr ⟨_, why, .unrecovered address fits given denotes size (.inl blank), rfl⟩
  · exact .inr ⟨_, _, .signature address fits bad, ofQueryValues_of_signature requester text refused⟩

/-- Where nothing is wrong with the fields and the signature, a request is given. -/
theorem ofTexts_of_sealed (id : Text) (fits : Fits hello payload) (address : Names setter a)
    (sealed : Sealed payload a.toString signature kept) :
    ofTexts id hello setter signature = .ok ⟨id, a.toString, payload, kept⟩ := by
  have requester : checkRequester (.str setter) = .ok a.toString := by
    rcases checkRequester_cases setter with ⟨a', address', checked⟩ | ⟨bad, -⟩
    · rw [checked, address.unique address']
    · exact absurd address (bad a)
  have text : checkPayload (.str hello) = .ok payload := by
    rcases checkPayload_cases hello with ⟨payload', fits', checked⟩ | ⟨bad, -⟩
    · rw [checked, Text.ofString_injective (fits'.1.symm.trans fits.1)]
    · exact absurd fits (bad payload)
  rw [ofTexts, ← valueOf]
  cases sealed with
  | absent =>
    have checked : checkSignature (valueOf none) = .ok none := rfl
    exact ofQueryValues_of_checks requester text checked
  | empty =>
    have checked : checkSignature (valueOf (some [])) = .ok none := checkSignature_text ""
    exact ofQueryValues_of_checks requester text checked
  | @signed s digits bs marked count spelled recovered =>
    obtain ⟨spaced, solid⟩ := spelled.spaced
    have denotes : Denotes s.toList bs := ⟨digits, marked, spaced⟩
    have body : signatureBody s.toList = digits := signatureBody_of_marked marked spaced
    have stored : keptForm s.toList = Bytes.toHex0x bs := keptForm_eq_toHex0x_iff.2 (body ▸ spelled)
    have size : bs.length = signatureSize := by
      have := spelled.length
      rw [signatureSize]
      omega
    have checked : checkSignature (valueOf (some (Text.ofString s))) = .ok (some (Bytes.toHex0x bs)) :=
      checkSignature_eq_some_iff.2 ⟨s, bs, rfl, denotes, size, stored.symm⟩
    have signer : Message.signerOfText payload (Bytes.toHex0x bs) = .ok a.toString := by
      rcases signerOfText_keptForm payload denotes with ⟨-, same⟩ | ⟨blank, -⟩
      · rw [← stored, same, recovered]
      · exact absurd ((forall_mem_signatureBody s.toList).1 (body ▸ solid)) blank
    rw [ofQueryValues_of_checks requester text checked]
    simp only [signatureFailure, signer, if_true, Option.elim]

theorem exists_of_ofTexts {r : Request} (accepted : ofTexts id hello setter signature = .ok r) :
    ∃ payload a kept, r = ⟨id, a.toString, payload, kept⟩ ∧ Fits hello payload ∧ Names setter a ∧
      Sealed payload a.toString signature kept := by
  rcases ofTexts_cases id hello setter signature with ⟨payload, a, kept, fits, address, sealed, same⟩ |
    ⟨_, _, -, refused⟩
  · cases same.symm.trans accepted
    exact ⟨payload, a, kept, rfl, fits, address, sealed⟩
  · cases refused.symm.trans accepted

end Query

section Again

variable {id hello setter : String} {signature kept : Option String} {r : Request}

/-- What is kept of a signature is a signature of which the same is kept. -/
theorem Sealed.again {payload requester : String} {signature : Option Text}
    (sealed : Sealed payload requester signature kept) : Sealed payload requester (kept.map Text.ofString) kept := by
  cases sealed with
  | absent => exact .absent
  | empty => exact .absent
  | @signed s digits bs _ count spelled recovered =>
    refine .signed (.inr (Bytes.toList_toHex0x bs)) ?_ (Bytes.spelled_hexChars bs) recovered
    rw [Bytes.length_hexChars, ← spelled.length, count]

theorem exists_of_ofQuery (accepted : ofQuery id hello setter signature = .ok r) :
    ∃ a kept, r = ⟨id, a.toString, hello, kept⟩ ∧ Fits hello hello ∧ Address.Spelled setter a ∧
      Sealed hello a.toString (signature.map Text.ofString) kept := by
  obtain ⟨payload, a, kept, rfl, fits, address, sealed⟩ := exists_of_ofTexts accepted
  obtain ⟨rfl, -⟩ := fits_ofString_iff.1 fits
  exact ⟨a, kept, rfl, fits, names_ofString_iff.1 address, sealed⟩

theorem ofQuery_of_sealed {a : Address} (id : String) (fits : Fits hello hello) (address : Address.Spelled setter a)
    (sealed : Sealed hello a.toString (signature.map Text.ofString) kept) :
    ofQuery id hello setter signature = .ok ⟨id, a.toString, hello, kept⟩ :=
  ofTexts_of_sealed id fits (names_ofString_iff.2 address) sealed

/-- The document for the prover has the name of the request in one member only. -/
theorem get?_proverInput_of_ne (r : Request) (id' : Text) {name : String} (other : name ≠ "request_id") :
    ({ r with id := id' } : Request).proverInput.get? name = r.proverInput.get? name := by
  have apart : Text.ofString name ≠ Text.ofString "request_id" := fun same => other (Text.ofString_injective same)
  simp only [proverInput, Json.record, Json.get?, List.map_cons, Json.findMember, apart, if_false]

/-- A request is in normal form: asking again with what it holds gives the same request under the new name.
Spellings of the same address lead to the same requester, and every spelling of every address is
accepted, also one that mixes capital and small letters in a way that is not its checksum form. -/
theorem accepted_normal_form (accepted : ofQuery id hello setter signature = .ok r) :
    (∀ id', ∃ r', ofQuery id' r.payload r.requester r.signature = .ok r' ∧ r'.requester = r.requester ∧
      r'.payload = r.payload ∧ r'.signature = r.signature ∧ r'.successMessage = r.successMessage ∧
      ∀ name, name ≠ "request_id" → r'.proverInput.get? name = r.proverInput.get? name) ∧
    (∀ id' hello' setter' signature' r' a, ofQuery id' hello' setter' signature' = .ok r' →
      Address.Spelled setter a → Address.Spelled setter' a → r'.requester = r.requester) ∧
    ∀ a s, Address.Spelled s a → ∃ r', ofQuery id hello s none = .ok r' ∧ r'.requester = a.toString := by
  obtain ⟨a, kept, rfl, fits, address, sealed⟩ := exists_of_ofQuery accepted
  refine ⟨?_, ?_, ?_⟩
  · intro id'
    refine ⟨_, ofQuery_of_sealed id' fits (Address.spelled_toString a) sealed.again, rfl, rfl, rfl, rfl, ?_⟩
    intro name other
    exact get?_proverInput_of_ne ⟨id, a.toString, hello, kept⟩ id' other
  · intro id' hello' setter' signature' r' b accepted' spelled spelled'
    obtain ⟨a', kept', rfl, -, address', -⟩ := exists_of_ofQuery accepted'
    rw [address'.unique spelled', spelled.unique address]
  · intro b s spelled
    exact ⟨_, ofQuery_of_sealed id fits spelled .absent, rfl⟩

/-- The address of the examples below. -/
def sampleAddress : Address :=
  ⟨[0xE5, 0x9D, 0xA8, 0x79, 0xE3, 0x3B, 0x71, 0xC1, 0x45, 0xB7, 0xC5, 0x26, 0xA7, 0xB8, 0xC5, 0xB9, 0x31, 0x95,
    0xC5, 0x1D],
    rfl⟩

/-- A number that is the abscissa of a point, and with which as both parts a signature is made. -/
def sampleScalar : Nat := 0xF956C3E1D9A2940A2840A35E01CDB855795C4CAE8D30BF74F8E9A79F3850698E

def sampleSignature : Bytes := Bytes.ofNatWidth 32 sampleScalar ++ Bytes.ofNatWidth 32 sampleScalar ++ [27]

/-- The digits of the signature in capitals and without a mark. -/
def sampleDigits : List Char := (Bytes.hexChars sampleSignature).map Char.toUpper

theorem isSome_recover?_sampleSignature : (Ecdsa.recover? ⟨Bytes.toNat (sampleSignature.take 32),
    Bytes.toNat ((sampleSignature.drop 32).take 32), false⟩ (Message.digest "hi")).isSome = true := by
  decide +kernel

/-- An address signed the text `"hi"` with the signature of the examples. -/
theorem exists_signer_sampleSignature : ∃ a : Address, Message.signer "hi" sampleSignature = .ok a.toString := by
  obtain ⟨p, recovered⟩ := Option.isSome_iff_exists.1 isSome_recover?_sampleSignature
  obtain ⟨a, address⟩ := PrivateKey.exists_addressOf p
  have known : Message.parity? (((sampleSignature.drop 64).take 1).foldl (fun _ b => b.toNat) 0) = some false := by
    decide +kernel
  exact ⟨a, (signer_of_recover known rfl rfl recovered).trans (congrArg Except.ok address)⟩

/-- An address in capitals, with a capital mark, is accepted, and so is a signature in capitals without a mark;
what is kept of them is accepted again. -/
theorem accepted_normal_form_capitals :
    (∃ r r', ofQuery "A" "hi" "0XE59DA879E33B71C145B7C526A7B8C5B93195C51D" (some "") = .ok r ∧
      ofQuery "B" r.payload r.requester r.signature = .ok r' ∧ r'.requester = r.requester ∧
      r'.payload = "hi" ∧ r'.signature = none) ∧
    ∃ (a : Address) (r r' : Request), ofQuery "A" "hi" a.toString (some (String.ofList sampleDigits)) = .ok r ∧
      r.signature = some (Bytes.toHex0x sampleSignature) ∧
      ofQuery "B" r.payload r.requester r.signature = .ok r' ∧ r'.requester = a.toString ∧
      r'.payload = "hi" ∧ r'.signature = some (Bytes.toHex0x sampleSignature) := by
  have fits : Fits "hi" "hi" := fits_ofString_iff.2 ⟨rfl, by decide, by decide⟩
  constructor
  · have spelled : Address.Spelled "0XE59DA879E33B71C145B7C526A7B8C5B93195C51D" sampleAddress :=
      Address.ofString?_eq_some_iff.1 rfl
    have accepted : ofQuery "A" "hi" _ (some "") = .ok ⟨"A", _, "hi", none⟩ := ofQuery_of_sealed "A" fits spelled .empty
    obtain ⟨r', again, requester, payload, signature, -⟩ := (accepted_normal_form accepted).1 "B"
    exact ⟨_, r', accepted, again, requester, payload, signature⟩
  · obtain ⟨a, recovered⟩ := exists_signer_sampleSignature
    have digits : Bytes.Spelled sampleDigits sampleSignature := Bytes.ofHex?_eq_some_iff.1 (by decide +kernel)
    have sealed : Sealed "hi" a.toString ((some (String.ofList sampleDigits)).map Text.ofString) _ :=
      .signed (.inl String.toList_ofList) (by decide +kernel) digits recovered
    have accepted := ofQuery_of_sealed "A" fits (Address.spelled_toString a) sealed
    obtain ⟨r', again, requester, payload, signature, -⟩ := (accepted_normal_form accepted).1 "B"
    exact ⟨a, _, r', accepted, rfl, again, requester, payload, signature⟩

/-- A spelling with `0x` of the address with both capital and small letters. -/
def MixesCases (s : String) (a : Address) : Prop :=
  ∃ digits, s.toList = '0' :: 'x' :: digits ∧ Bytes.Spelled digits a.bytes ∧ digits.any Char.isUpper = true ∧
    digits.any Char.isLower = true

/-- The checksum form but for its last letter. -/
def misspelled : String := "0xE59da879e33b71C145b7c526a7B8C5b93195C51d"

/-- A spelling that mixes capital and small letters is accepted though it is not the checksum form. -/
theorem misspelled_accepted : MixesCases misspelled sampleAddress ∧ misspelled ≠ sampleAddress.toString ∧
    ∃ r, ofQuery "A" "hi" misspelled none = .ok r := by
  have spelled : Address.Spelled misspelled sampleAddress := Address.ofString?_eq_some_iff.1 rfl
  have fits : Fits "hi" "hi" := fits_ofString_iff.2 ⟨rfl, by decide, by decide⟩
  refine ⟨⟨misspelled.toList.drop 2, ?_, ?_, ?_, ?_⟩, ?_, _, ofQuery_of_sealed "A" fits spelled .absent⟩
  · decide +kernel
  · exact Bytes.ofHex?_eq_some_iff.1 (by decide +kernel)
  · decide +kernel
  · decide +kernel
  · decide +kernel

end Again

end Request

end ProofRelay
