import ProofRelay.Proofs.Bytes.Hex
import ProofRelay.Proofs.Bytes.Utf8
import ProofRelay.Request

/-!
What is kept of a signature. Whether its text is accepted is decided on the bytes that it denotes, but what
is kept is made from the text, and the reader of the text passes over blanks. So a signature is kept in
normal form, `0x` and 130 lowercase digits, just if its text has no blanks. Less its blanks, what is kept
is always the normal form of the bytes that were counted; and two texts of the same bytes are kept alike
just if they have the same blanks in the same places.
-/

namespace ProofRelay

namespace Validation

variable {α β : Type}

theorem also_eq_ok_iff {f : Except (List FieldError) (α → β)} {a : Except (List FieldError) α} {b : β} :
    also f a = .ok b ↔ ∃ g x, f = .ok g ∧ a = .ok x ∧ g x = b := by
  cases f <;> cases a <;> simp [also]

theorem fieldOr_eq_ok {d v : Json} {name : String} {default : α} {f : Json → Except Rule α} {x : α}
    (given : d.get? name = some v) (h : fieldOr d name default f = .ok x) : f v = .ok x := by
  simp only [fieldOr, given] at h
  cases checked : f v with
  | error rule =>
    rw [checked] at h
    cases h
  | ok y =>
    rw [checked] at h
    cases h
    rfl

end Validation

namespace Request

section Text

variable {s body : List Char} {bs : Bytes} {stored : String}

/-- The text is the body, alone or after the mark. -/
def Marked (s body : List Char) : Prop := s = body ∨ s = '0' :: 'x' :: body

theorem marked_signatureBody (s : List Char) : Marked s (signatureBody s) := by
  unfold signatureBody
  split
  · exact .inr rfl
  · exact .inl rfl

/-- The letter of the mark is no digit, so spaced digits have no mark. -/
theorem signatureBody_of_spaced (h : Bytes.Spaced body bs) : signatureBody body = body := by
  unfold signatureBody
  split
  · obtain ⟨_, _, _, _, same, -, digits, -⟩ := (Bytes.spaced_cons_of_solid (by decide)).1 h
    cases same
    obtain ⟨_, _, -, low, -⟩ := Bytes.spelled_pair_iff.1 digits
    cases low
  · rfl

theorem signatureBody_of_marked (marked : Marked s body) (h : Bytes.Spaced body bs) : signatureBody s = body := by
  rcases marked with rfl | rfl
  · exact signatureBody_of_spaced h
  · rfl

/-- The text denotes the bytes: spaced digits spell them, alone or after the mark. -/
def Denotes (s : List Char) (bs : Bytes) : Prop := ∃ body, Marked s body ∧ Bytes.Spaced body bs

theorem denotes_iff : Denotes s bs ↔ Bytes.Spaced (signatureBody s) bs := by
  constructor
  · rintro ⟨body, marked, spaced⟩
    rw [signatureBody_of_marked marked spaced]
    exact spaced
  · intro spaced
    exact ⟨_, marked_signatureBody s, spaced⟩

/-- A mark holds no blanks. -/
theorem forall_mem_signatureBody (s : List Char) :
    (∀ c ∈ signatureBody s, Text.isAsciiBlank c = false) ↔ ∀ c ∈ s, Text.isAsciiBlank c = false := by
  rcases marked_signatureBody s with same | same
  · rw [← same]
  · conv_rhs => rw [same]
    simp only [List.forall_mem_cons]
    exact ⟨fun h => ⟨rfl, rfl, h⟩, fun h => h.2.2⟩

/-- What is kept of a text: the mark and the body in lowercase, with its blanks. -/
def keptForm (s : List Char) : String := "0x" ++ String.ofList ((signatureBody s).map Char.toLower)

theorem toList_keptForm (s : List Char) : (keptForm s).toList = '0' :: 'x' :: (signatureBody s).map Char.toLower := by
  simp [keptForm]

/-- A text is accepted just if it denotes as many bytes as a signature has. -/
theorem normalSignature_cases (s : List Char) :
    (∃ bs, Denotes s bs ∧ bs.length = signatureSize ∧ normalSignature s = .ok (keptForm s)) ∨
      (∀ bs, Denotes s bs → bs.length ≠ signatureSize) ∧ ∃ rule, normalSignature s = .error rule := by
  cases read : Bytes.ofSpacedHex? (signatureBody s) with
  | none =>
    refine .inr ⟨?_, notHex, by simp only [normalSignature, read]⟩
    intro bs denotes
    cases read.symm.trans (Bytes.ofSpacedHex?_eq_some_iff.2 (denotes_iff.1 denotes))
  | some bs =>
    have denotes : Denotes s bs := denotes_iff.2 (Bytes.ofSpacedHex?_eq_some_iff.1 read)
    by_cases size : bs.length = signatureSize
    · exact .inl ⟨bs, denotes, size, by simp only [normalSignature, read, size, if_true, keptForm]⟩
    · refine .inr ⟨?_, _, by simp only [normalSignature, read, size, if_false]; rfl⟩
      intro bs' denotes'
      cases read.symm.trans (Bytes.ofSpacedHex?_eq_some_iff.2 (denotes_iff.1 denotes'))
      exact size

end Text

section Field

variable {v : Text} {stored : String}

/-- The empty text is no signature; another is checked as the text of one. -/
theorem checkSignature_text (s : String) :
    checkSignature (.text s) = if s = "" then .ok none else some <$> normalSignature s.toList := by
  simp only [checkSignature, Json.text, Text.toString?_ofString, String.isEmpty_iff]

/-- A text is accepted as a signature just if it is a string that denotes as many bytes as one has. -/
theorem checkSignature_eq_some_iff : checkSignature (.str v) = .ok (some stored) ↔
    ∃ s bs, v = Text.ofString s ∧ Denotes s.toList bs ∧ bs.length = signatureSize ∧ stored = keptForm s.toList := by
  cases read : v.toString? with
  | none =>
    refine iff_of_false (by simp [checkSignature, read]) ?_
    rintro ⟨s, -, same, -⟩
    cases read.symm.trans (Text.toString?_eq_some_iff.2 same)
  | some s =>
    obtain rfl := Text.toString?_eq_some_iff.1 read
    have alone (s' : String) (same : Text.ofString s = Text.ofString s') : s' = s := (Text.ofString_injective same).symm
    rw [← Json.text, checkSignature_text]
    by_cases empty : s = ""
    · rw [if_pos empty]
      refine iff_of_false (by simp) ?_
      -- The empty text denotes no bytes at all, and a signature has more.
      rintro ⟨s', bs, same, denotes, size, -⟩
      rw [alone s' same, empty] at denotes
      rw [Bytes.spaced_nil_iff.1 (denotes_iff.1 denotes)] at size
      cases size
    · rw [if_neg empty]
      rcases normalSignature_cases s.toList with ⟨bs, denotes, size, accepted⟩ | ⟨other, rule, refused⟩
      · rw [accepted]
        constructor
        · intro h
          cases h
          exact ⟨s, bs, rfl, denotes, size, rfl⟩
        · rintro ⟨s', -, same, -, -, rfl⟩
          rw [alone s' same]
          rfl
      · rw [refused]
        refine iff_of_false (by simp [Functor.map, Except.map]) ?_
        rintro ⟨s', bs, same, denotes, size, -⟩
        exact other bs (alone s' same ▸ denotes) size

/-- The signature of a request that is built from fields comes from the field of that name. -/
theorem checkSignature_of_ofFields {fresh : Text} {fields v : Json} {r : Request}
    (given : fields.get? "signature" = some v) (built : ofFields fresh fields = .ok r) :
    checkSignature v = .ok r.signature := by
  obtain ⟨_, kept, unsigned, signature, rfl⟩ := Validation.also_eq_ok_iff.1 built
  obtain ⟨_, _, addressed, -, rfl⟩ := Validation.also_eq_ok_iff.1 unsigned
  obtain ⟨_, _, id, -, rfl⟩ := Validation.also_eq_ok_iff.1 addressed
  have checked := Validation.fieldOr_eq_ok given signature
  cases named : Validation.fieldOr fields "request_id" fresh Validation.codePoints with
  | error errors =>
    rw [named] at id
    cases id
  | ok name =>
    rw [named] at id
    cases id
    exact checked

/-- What a field breaks is reported under its name. -/
def named {α : Type} (field : String) (checked : Except Rule α) : Except (List FieldError) α :=
  checked.mapError fun rule => [{ field := field, rule := rule }]

/-- The fields of a query are checked in this order, and no check hangs on another. -/
theorem ofFields_query (id : Text) (hello setter signature : Json) :
    ofFields id (.record [("requester", setter), ("payload", hello), ("signature", signature)]) =
      Validation.also (Validation.also (Validation.also (.ok (Request.mk id))
        (named "requester" (checkRequester setter))) (named "payload" (checkPayload hello)))
        (named "signature" (checkSignature signature)) :=
  rfl

theorem ofFields_of_checks {requester payload : String} {kept : Option String} {hello setter signature : Json}
    (id : Text) (address : checkRequester setter = .ok requester) (text : checkPayload hello = .ok payload)
    (sealed : checkSignature signature = .ok kept) :
    ofFields id (.record [("requester", setter), ("payload", hello), ("signature", signature)]) =
      .ok ⟨id, requester, payload, kept⟩ := by
  rw [ofFields_query, address, text, sealed]
  rfl

/-- A request that is built from fields, with this text as its signature, holds this one. -/
def Keeps (v : Text) (stored : String) : Prop :=
  ∃ fresh fields r, fields.get? "signature" = some (.str v) ∧ ofFields fresh fields = .ok r ∧ r.signature = some stored

theorem keeps_iff : Keeps v stored ↔ checkSignature (.str v) = .ok (some stored) := by
  constructor
  · rintro ⟨fresh, fields, r, given, built, kept⟩
    rw [checkSignature_of_ofFields given built, kept]
  · intro checked
    -- No check hangs on another field, so any requester and payload will do.
    obtain ⟨requester, address⟩ : ∃ requester,
        checkRequester (.text "0x00000000000000000000000000000000000000a1") = .ok requester := ⟨_, rfl⟩
    have text : checkPayload (.text "p") = .ok "p" := rfl
    exact ⟨"", _, _, rfl, ofFields_of_checks "" address text checked, rfl⟩

end Field

section Normal

variable {s t : List Char} {bs bs' : Bytes} {stored : String}

/-- `0x` and 130 lowercase digits that are read as the bytes. -/
def IsNormal (stored : String) (bs : Bytes) : Prop :=
  ∃ digits, stored.toList = '0' :: 'x' :: digits ∧ digits.length = 130 ∧ (∀ c ∈ digits, c ∈ Bytes.hexDigits) ∧
    Bytes.ofHex? digits = some bs

theorem toLower_of_mem_hexDigits {c : Char} (h : c ∈ Bytes.hexDigits) : c.toLower = c := by
  have all : (Bytes.hexDigits.all fun c => c.toLower == c) = true := by decide
  exact eq_of_beq (List.all_eq_true.1 all c h)

/-- The normal form of the bytes of a signature is their text. -/
theorem isNormal_iff : IsNormal stored bs ↔ bs.length = signatureSize ∧ stored = Bytes.toHex0x bs := by
  constructor
  · rintro ⟨digits, text, count, lower, read⟩
    have spelled : Bytes.Spelled digits bs := Bytes.ofHex?_eq_some_iff.1 read
    have fixed : digits.map Char.toLower = digits :=
      (List.map_congr_left fun c mem => toLower_of_mem_hexDigits (lower c mem)).trans (List.map_id _)
    refine ⟨?_, String.toList_injective ?_⟩
    · have := spelled.length
      rw [count] at this
      exact Nat.eq_of_mul_eq_mul_left (by decide : 0 < 2) this.symm
    · rw [text, Bytes.toList_toHex0x, ← spelled, fixed]
  · rintro ⟨size, rfl⟩
    refine ⟨Bytes.hexChars bs, Bytes.toList_toHex0x bs, ?_, ?_, Bytes.ofHex?_eq_some_iff.2 (Bytes.spelled_hexChars bs)⟩
    · rw [Bytes.length_hexChars, size]
      rfl
    · intro c mem
      obtain ⟨n, small, rfl⟩ := Bytes.exists_of_mem_hexChars mem
      exact Bytes.hexDigit_mem small

theorem keptForm_eq_toHex0x_iff : keptForm s = Bytes.toHex0x bs ↔ Bytes.Spelled (signatureBody s) bs := by
  rw [← String.toList_inj, toList_keptForm, Bytes.toList_toHex0x]
  simp [Bytes.Spelled]

/-- Less its blanks, what is kept of a text is the normal form of its bytes. -/
theorem isNormal_filter_keptForm (denotes : Denotes s bs) (size : bs.length = signatureSize) :
    IsNormal (String.ofList ((keptForm s).toList.filter fun c => !Text.isAsciiBlank c)) bs := by
  rw [isNormal_iff]
  refine ⟨size, String.toList_injective ?_⟩
  have digits : ((signatureBody s).map Char.toLower).filter (fun c => !Text.isAsciiBlank c) = Bytes.hexChars bs := by
    rw [← (denotes_iff.1 denotes).spelled_filter, List.filter_map]
    refine congrArg (List.map Char.toLower) (List.filter_congr fun c _ => ?_)
    rw [Function.comp_apply, (isAsciiBlank_toLower c).1]
  rw [String.toList_ofList, toList_keptForm, Bytes.toList_toHex0x, ← digits]
  rfl

/-- What is kept of a text is in normal form just if the text has no blanks. -/
theorem isNormal_keptForm_iff (denotes : Denotes s bs) (size : bs.length = signatureSize) :
    IsNormal (keptForm s) bs' ↔ bs' = bs ∧ ∀ c ∈ s, Text.isAsciiBlank c = false := by
  have spaced : Bytes.Spaced (signatureBody s) bs := denotes_iff.1 denotes
  rw [isNormal_iff, keptForm_eq_toHex0x_iff, ← forall_mem_signatureBody]
  constructor
  · rintro ⟨-, spelled⟩
    obtain ⟨spaced', solid⟩ := spelled.spaced
    exact ⟨spaced'.unique spaced, solid⟩
  · rintro ⟨rfl, solid⟩
    exact ⟨size, spaced.spelled solid⟩

/-- Two texts of the same bytes are kept alike just if they have the same blanks in the same places. -/
theorem keptForm_eq_iff (denotes : Denotes s bs) (denotes' : Denotes t bs) :
    keptForm s = keptForm t ↔ Bytes.layout (signatureBody s) = Bytes.layout (signatureBody t) := by
  rw [← Bytes.map_toLower_eq_iff_layout (denotes_iff.1 denotes) (denotes_iff.1 denotes'), ← String.toList_inj,
    toList_keptForm, toList_keptForm]
  simp

/-- What is kept of a signature: less its blanks it is the normal form of the 65 bytes that were counted; it
is in normal form itself just if the text has no blanks; and two texts of the same bytes are kept alike
just if they have the same blanks in the same places. -/
theorem kept_signature_normal_iff {v : Text} {stored : String} (kept : Keeps v stored) :
    ∃ s bs, v = Text.ofString s ∧ Denotes s.toList bs ∧ bs.length = 65 ∧
      IsNormal (String.ofList (stored.toList.filter fun c => !Text.isAsciiBlank c)) bs ∧
      (∀ bs', IsNormal stored bs' ↔ bs' = bs ∧ ∀ c ∈ s.toList, Text.isAsciiBlank c = false) ∧
      ∀ t stored', Keeps (Text.ofString t) stored' → Denotes t.toList bs →
        (stored = stored' ↔ Bytes.layout (signatureBody s.toList) = Bytes.layout (signatureBody t.toList)) := by
  obtain ⟨s, bs, rfl, denotes, size, rfl⟩ := checkSignature_eq_some_iff.1 (keeps_iff.1 kept)
  refine ⟨s, bs, rfl, denotes, size, isNormal_filter_keptForm denotes size, ?_, ?_⟩
  · intro bs'
    exact isNormal_keptForm_iff denotes size
  · intro t stored' kept' denotes'
    obtain ⟨t', -, same, -, -, rfl⟩ := checkSignature_eq_some_iff.1 (keeps_iff.1 kept')
    rw [← Text.ofString_injective same]
    exact keptForm_eq_iff denotes denotes'

theorem keeps_of_denotes (denotes : Denotes s bs) (size : bs.length = signatureSize) :
    Keeps (Text.ofString (String.ofList s)) (keptForm s) := by
  rw [keeps_iff, checkSignature_eq_some_iff]
  refine ⟨String.ofList s, bs, rfl, ?_, size, ?_⟩ <;> rw [String.toList_ofList]
  exact denotes

/-- A text of 65 bytes in capital digits, without the mark. -/
def capitals : List Char := List.replicate 130 'F'

theorem denotes_capitals : Denotes capitals (List.replicate 65 0xFF) :=
  denotes_iff.2 (Bytes.ofSpacedHex?_eq_some_iff.1 (by decide +kernel))

/-- Capital digits without the mark are kept in normal form. -/
theorem kept_signature_normal_iff_capitals :
    ∃ stored, Keeps (Text.ofString (String.ofList capitals)) stored ∧ IsNormal stored (List.replicate 65 0xFF) := by
  have kept := keeps_of_denotes denotes_capitals rfl
  obtain ⟨s, bs, same, denotes, -, -, normal, -⟩ := kept_signature_normal_iff kept
  obtain rfl := Text.ofString_injective same
  rw [String.toList_ofList] at denotes normal
  have counted := (denotes_iff.1 denotes_capitals).unique (denotes_iff.1 denotes)
  have solid : ∀ c ∈ capitals, Text.isAsciiBlank c = false := by
    intro c mem
    rw [List.eq_of_mem_replicate mem]
    rfl
  exact ⟨_, kept, (normal _).2 ⟨counted, solid⟩⟩

/-- A text of 65 zero bytes with something after the first of them. -/
def zeros (gap : List Char) : List Char := '0' :: '0' :: (gap ++ List.replicate 128 '0')

theorem denotes_zeros : Denotes (zeros [' ']) (List.replicate 65 0) ∧ Denotes (zeros []) (List.replicate 65 0) :=
  ⟨denotes_iff.2 (Bytes.ofSpacedHex?_eq_some_iff.1 (by decide +kernel)),
    denotes_iff.2 (Bytes.ofSpacedHex?_eq_some_iff.1 (by decide +kernel))⟩

/-- A blank between two bytes is accepted and kept, so what is kept is not in normal form and differs from
what is kept for the same bytes without it. -/
theorem kept_with_blank : ∃ stored stored', Keeps (Text.ofString (String.ofList (zeros [' ']))) stored ∧
    Keeps (Text.ofString (String.ofList (zeros []))) stored' ∧ Denotes (zeros [' ']) (List.replicate 65 0) ∧
    Denotes (zeros []) (List.replicate 65 0) ∧ (∀ bs, ¬ IsNormal stored bs) ∧ stored ≠ stored' := by
  obtain ⟨spaced, plain⟩ := denotes_zeros
  refine ⟨_, _, keeps_of_denotes spaced rfl, keeps_of_denotes plain rfl, spaced, plain, ?_, ?_⟩
  · intro bs normal
    have solid := ((isNormal_keptForm_iff spaced rfl).1 normal).2
    cases solid ' ' (by decide +kernel)
  · intro same
    have layouts := (keptForm_eq_iff spaced plain).1 same
    exact absurd layouts (by decide +kernel)

end Normal

end Request

end ProofRelay
