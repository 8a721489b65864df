import ProofRelay.Proofs.Bytes.Hex
import ProofRelay.Proofs.Bytes.Utf8

/-!
Which texts are commitments, and which bytes they stand for. The mark and 64 lowercase digits are the text
of 32 bytes, and of these bytes alone, so what is written for a digest is accepted and stands for it. But a
line feed may follow the digits: the recogniser lets it pass, and the reader of the digits takes it for a
blank. So two texts stand for the same bytes, and only one of them is what is written for these bytes.
-/

namespace ProofRelay

namespace Bytes

theorem isLowerHex_iff {c : Char} : Commitment.isLowerHex c = true ↔ c ∈ hexDigits := by
  by_cases small : c.toNat < 128
  · exact of_ascii (P := fun c => Commitment.isLowerHex c = true ↔ c ∈ hexDigits) (by decide +kernel) small
  · refine iff_of_false ?_ fun mem => small (hexDigits_ascii mem)
    intro lower
    have none := hexValue?_of_large small
    rcases Bool.or_eq_true_iff.1 lower with digit | letter
    · simp only [hexValue?, digit, if_true, reduceCtorEq] at none
    · simp only [hexValue?, letter, if_true] at none
      split at none <;> cases none

theorem exists_of_mem_hexDigits {c : Char} (mem : c ∈ hexDigits) : ∃ n < 16, c = hexDigit n := by
  have all : hexDigits = (List.range 16).map hexDigit := by decide
  rw [all, List.mem_map] at mem
  obtain ⟨n, small, rfl⟩ := mem
  exact ⟨n, List.mem_range.1 small, rfl⟩

/-- Lowercase digits, an even number of them, are the text of some bytes. -/
theorem exists_hexChars_eq {digits : List Char} (even : digits.length % 2 = 0)
    (lower : ∀ c ∈ digits, c ∈ hexDigits) : ∃ bs, hexChars bs = digits := by
  induction digits using ofHex?.induct with
  | case1 => exact ⟨[], rfl⟩
  | case2 c => simp at even
  | case3 c d rest ih =>
    simp only [List.forall_mem_cons] at lower
    obtain ⟨first, second, lower⟩ := lower
    obtain ⟨bs, rfl⟩ := ih (by simp only [List.length_cons] at even; omega) lower
    obtain ⟨hi, high, rfl⟩ := exists_of_mem_hexDigits first
    obtain ⟨lo, low, rfl⟩ := exists_of_mem_hexDigits second
    have value : (byteOfDigits hi lo).toNat = 16 * hi + lo := by
      rw [byteOfDigits, UInt8.toNat_ofNat']
      omega
    refine ⟨byteOfDigits hi lo :: bs, ?_⟩
    have left : (16 * hi + lo) / 16 = hi := by omega
    have right : (16 * hi + lo) % 16 = lo := by omega
    rw [hexChars, List.flatMap_cons, hexOfByte, value, left, right]
    rfl

/-- Different bytes have different texts, since the text reads back. -/
theorem hexChars_injective {bs bs' : Bytes} (same : hexChars bs = hexChars bs') : bs = bs' := by
  have read := ofSpacedHex?_hexChars bs
  rw [same, ofSpacedHex?_hexChars] at read
  exact (Option.some.inj read).symm

theorem toHex0x_injective {bs bs' : Bytes} (same : toHex0x bs = toHex0x bs') : bs = bs' := by
  have chars := congrArg String.toList same
  rw [toList_toHex0x, toList_toHex0x] at chars
  simp only [List.cons.injEq, true_and] at chars
  exact hexChars_injective chars

/-- Blanks may follow spaced digits. -/
theorem Spaced.append_blank {body : List Char} {bs : Bytes} {c : Char} (h : Spaced body bs)
    (blank : Text.isAsciiBlank c = true) : Spaced (body ++ [c]) bs := by
  induction h with
  | nil => exact .blank blank .nil
  | blank first _ ih => exact .blank first ih
  | pair digits _ ih => exact .pair digits ih

end Bytes

namespace Commitment

/-- What may follow the digits: nothing, or one line feed. -/
def endings : List (List Char) := [[], ['\n']]

/-- The mark, 64 lowercase digits, and an ending. -/
structure Formed (s digits ending : List Char) : Prop where
  text : s = '0' :: 'x' :: (digits ++ ending)
  count : digits.length = 64
  lower : ∀ c ∈ digits, c ∈ Bytes.hexDigits
  known : ending ∈ endings

section Form

variable {s : String} {digits ending cs : List Char} {bs : Bytes}

theorem hasForm_iff : hasForm cs = true ↔ ∃ digits ending, Formed cs digits ending := by
  constructor
  · intro form
    unfold hasForm at form
    split at form
    · rename_i body
      simp only [Bool.and_eq_true, Bool.or_eq_true, beq_iff_eq, List.all_eq_true] at form
      obtain ⟨⟨count, lower⟩, known⟩ := form
      refine ⟨body.take 64, body.drop 64, ?_, count, fun c mem => Bytes.isLowerHex_iff.1 (lower c mem), ?_⟩
      · rw [List.take_append_drop]
      · simpa [endings] using known
    · cases form
  · rintro ⟨digits, ending, rfl, count, lower, known⟩
    have all : digits.all isLowerHex = true :=
      List.all_eq_true.2 fun c mem => Bytes.isLowerHex_iff.2 (lower c mem)
    simp only [endings, List.mem_cons, List.not_mem_nil, or_false] at known
    simp only [hasForm, List.take_left' count, List.drop_left' count, count, all, BEq.rfl, Bool.and_self, Bool.true_and,
      Bool.or_eq_true, beq_iff_eq]
    exact known

/-- The texts of 32 bytes, with an ending, are just those with the form of a commitment. -/
theorem exists_formed_iff : (∃ digits ending, Formed cs digits ending) ↔
    ∃ bs : Bytes, bs.length = 32 ∧ ∃ ending ∈ endings, cs = '0' :: 'x' :: (Bytes.hexChars bs ++ ending) := by
  constructor
  · rintro ⟨digits, ending, text, count, lower, known⟩
    obtain ⟨bs, rfl⟩ := Bytes.exists_hexChars_eq (by rw [count]) lower
    rw [Bytes.length_hexChars] at count
    exact ⟨bs, by omega, ending, known, text⟩
  · rintro ⟨bs, size, ending, known, text⟩
    refine ⟨Bytes.hexChars bs, ending, text, ?_, ?_, known⟩
    · rw [Bytes.length_hexChars]
      omega
    · intro c mem
      exact Bytes.isLowerHex_iff.1 (Bytes.isLowerHex_of_mem_hexChars mem)

theorem isCommitment_iff : isCommitment s = true ↔
    ∃ bs : Bytes, bs.length = 32 ∧ ∃ ending ∈ endings, s.toList = '0' :: 'x' :: (Bytes.hexChars bs ++ ending) :=
  hasForm_iff.trans exists_formed_iff

/-- The reader of the digits passes over the ending. -/
theorem ofSpacedHex?_ending (known : ending ∈ endings) :
    Bytes.ofSpacedHex? (Bytes.hexChars bs ++ ending) = some bs := by
  rw [Bytes.ofSpacedHex?_eq_some_iff]
  have spaced := (Bytes.spelled_hexChars bs).spaced.1
  simp only [endings, List.mem_cons, List.not_mem_nil, or_false] at known
  rcases known with rfl | rfl
  · rw [List.append_nil]
    exact spaced
  · exact spaced.append_blank rfl

theorem toBytes_of_text (size : bs.length = 32) (known : ending ∈ endings)
    (text : s.toList = '0' :: 'x' :: (Bytes.hexChars bs ++ ending)) : toBytes s = .ok bs := by
  have read : Bytes.ofSpacedHex? (s.toList.drop 2) = some bs := by
    rw [text]
    exact ofSpacedHex?_ending known
  rw [toBytes, if_pos (isCommitment_iff.2 ⟨bs, size, ending, known, text⟩), read]

theorem toBytes_of_not (other : isCommitment s = false) : toBytes s = .error (refused (quote s)) := by
  rw [toBytes, other]
  rfl

/-- A text stands for bytes just if it is the text of these 32 bytes, with an ending. -/
theorem toBytes_eq_ok_iff : toBytes s = .ok bs ↔
    bs.length = 32 ∧ ∃ ending ∈ endings, s.toList = '0' :: 'x' :: (Bytes.hexChars bs ++ ending) := by
  constructor
  · intro decoded
    cases form : isCommitment s with
    | false =>
      rw [toBytes_of_not form] at decoded
      cases decoded
    | true =>
      obtain ⟨bs', size, ending, known, text⟩ := isCommitment_iff.1 form
      cases (toBytes_of_text size known text).symm.trans decoded
      exact ⟨size, ending, known, text⟩
  · rintro ⟨size, ending, known, text⟩
    exact toBytes_of_text size known text

theorem toList_eq_iff : (∃ ending ∈ endings, s.toList = '0' :: 'x' :: (Bytes.hexChars bs ++ ending)) ↔
    s = Bytes.toHex0x bs ∨ s = Bytes.toHex0x bs ++ "\n" := by
  simp [endings, ← String.toList_inj, Bytes.toList_toHex0x]

end Form

section Value

variable {t : Text} {s : String}

theorem isCommitmentValue_text (s : String) : isCommitmentValue (.text s) = .ok (isCommitment s) := by
  simp only [isCommitmentValue, textOf, Json.text, Text.toString?_ofString, Option.getD_some]
  rfl

theorem valueToBytes_text (s : String) : valueToBytes (.text s) = toBytes s := by
  have text : textOf (.text s) = .ok s := by
    simp only [textOf, Json.text, Text.toString?_ofString, Option.getD_some]
  cases form : isCommitment s with
  | true => simp only [valueToBytes, text, bind, Except.bind, form, if_true]
  | false =>
    rw [toBytes_of_not form]
    simp only [valueToBytes, text, bind, Except.bind, form, Bool.false_eq_true, if_false]
    rfl

/-- A text with a surrogate is no commitment. -/
theorem refused_of_surrogate (none : t.toString? = none) :
    isCommitmentValue (.str t) = .ok false ∧ valueToBytes (.str t) = .error (refused (Text.quoted t)) := by
  have text : textOf (.str t) = .ok "" := by
    simp only [textOf, none, Option.getD_none]
  constructor
  · rw [isCommitmentValue, text]
    rfl
  · rw [valueToBytes, text]
    rfl

end Value

/-- What is written for a digest has the form of a commitment, is accepted, and stands for the digest; and
different digests have different texts and stand for different bytes. -/
theorem digest_round_trip (data : Bytes) {d d' : Bytes} (size : d.length = 32) (size' : d'.length = 32) :
    (∃ s, ofDatum (.bytes data) = .ok s ∧ Formed s.toList (Bytes.hexChars (Sha256.digest data)) [] ∧
      isCommitment s = true ∧ toBytes s = .ok (Sha256.digest data)) ∧
    toBytes (Bytes.toHex0x d) = .ok d ∧
    (d ≠ d' → Bytes.toHex0x d ≠ Bytes.toHex0x d' ∧ toBytes (Bytes.toHex0x d) ≠ toBytes (Bytes.toHex0x d')) := by
  refine ⟨⟨ofBytes data, rfl, ?_, ?_, toBytes_ofBytes data⟩, toBytes_toHex0x size, ?_⟩
  · refine ⟨?_, ?_, ?_, by simp [endings]⟩
    · rw [ofBytes, Bytes.toList_toHex0x, List.append_nil]
    · rw [Bytes.length_hexChars, Sha256.length_digest]
    · intro c mem
      exact Bytes.isLowerHex_iff.1 (Bytes.isLowerHex_of_mem_hexChars mem)
  · exact isCommitment_toHex0x (Sha256.length_digest data)
  · intro different
    constructor
    · intro same
      exact different (Bytes.toHex0x_injective same)
    · intro same
      rw [toBytes_toHex0x size, toBytes_toHex0x size'] at same
      exact different (Except.ok.inj same)

/-- Leading zeros are kept: the digest of zeros and the digest that ends in a one stay apart. -/
theorem digest_round_trip_zeros :
    toBytes (Bytes.toHex0x (List.replicate 32 0)) = .ok (List.replicate 32 0) ∧
      toBytes (Bytes.toHex0x (List.replicate 32 0)) ≠ toBytes (Bytes.toHex0x (List.replicate 31 0 ++ [1])) := by
  obtain ⟨-, read, apart⟩ := @digest_round_trip [] (List.replicate 32 0) (List.replicate 31 0 ++ [1]) rfl rfl
  exact ⟨read, (apart (by decide)).2⟩

/-- A text is a commitment just if it has the form of one, a line feed at its end included; every other
text is refused; and the texts that stand for 32 bytes are what is written for them, alone or with a line
feed after it. -/
theorem decoding_up_to_line_feed (t : Text) :
    (isCommitmentValue (.str t) = .ok true ↔
      ∃ s digits ending, t = Text.ofString s ∧ Formed s.toList digits ending) ∧
    (isCommitmentValue (.str t) = .ok true → ∃ bs, valueToBytes (.str t) = .ok bs) ∧
    (isCommitmentValue (.str t) ≠ .ok true → isCommitmentValue (.str t) = .ok false ∧
      valueToBytes (.str t) = .error (refused (Text.quoted t))) ∧
    ∀ bs, valueToBytes (.str t) = .ok bs ↔ bs.length = 32 ∧
      (t = Text.ofString (Bytes.toHex0x bs) ∨ t = Text.ofString (Bytes.toHex0x bs ++ "\n")) := by
  cases read : t.toString? with
  | none =>
    have absent (s : String) : t ≠ Text.ofString s := by
      intro same
      rw [same, Text.toString?_ofString] at read
      cases read
    obtain ⟨other, refusal⟩ := refused_of_surrogate read
    rw [other, refusal]
    refine ⟨iff_of_false (by simp) ?_, by simp, fun _ => ⟨rfl, rfl⟩, fun bs => iff_of_false (by simp) ?_⟩
    · rintro ⟨s, digits, ending, same, -⟩
      exact absent s same
    · rintro ⟨-, same | same⟩
      · exact absent _ same
      · exact absent _ same
  | some s =>
    obtain rfl := Text.toString?_eq_some_iff.1 read
    rw [← Json.text, isCommitmentValue_text, valueToBytes_text]
    refine ⟨?_, ?_, ?_, ?_⟩
    · rw [Except.ok.injEq, isCommitment, hasForm_iff]
      constructor
      · rintro ⟨digits, ending, formed⟩
        exact ⟨s, digits, ending, rfl, formed⟩
      · rintro ⟨s', digits, ending, same, formed⟩
        rw [Text.ofString_injective same]
        exact ⟨digits, ending, formed⟩
    · intro form
      obtain ⟨bs, size, ending, known, text⟩ := isCommitment_iff.1 (Except.ok.inj form)
      exact ⟨bs, toBytes_of_text size known text⟩
    · intro other
      have form : isCommitment s = false := by
        cases form : isCommitment s with
        | false => rfl
        | true => exact absurd (congrArg Except.ok form) other
      rw [form]
      exact ⟨rfl, toBytes_of_not form⟩
    · intro bs
      have string (s' : String) : Text.ofString s = Text.ofString s' ↔ s = s' :=
        ⟨Text.ofString_injective, congrArg Text.ofString⟩
      rw [toBytes_eq_ok_iff, toList_eq_iff, string, string]

/-- The text of 32 zero bytes with a line feed after it. -/
def lined : String := Bytes.toHex0x (List.replicate 32 0) ++ "\n"

/-- A text that ends in a line feed is accepted although it is not the mark and 64 digits alone, and it
stands for the same bytes as the text without the line feed, so it is not what is written for them. -/
theorem accepted_with_line_feed : isCommitmentValue (.text lined) = .ok true ∧ lined.length = 67 ∧
    valueToBytes (.text lined) = .ok (List.replicate 32 0) ∧
    valueToBytes (.text (Bytes.toHex0x (List.replicate 32 0))) = .ok (List.replicate 32 0) ∧
    Bytes.toHex0x (List.replicate 32 0) ≠ lined := by
  have known : ['\n'] ∈ endings := by simp [endings]
  have text : lined.toList = '0' :: 'x' :: (Bytes.hexChars (List.replicate 32 0) ++ ['\n']) := by
    simp [lined, Bytes.toList_toHex0x]
  rw [isCommitmentValue_text, valueToBytes_text, valueToBytes_text, isCommitment_iff.2 ⟨_, rfl, _, known, text⟩,
    toBytes_of_text rfl known text, toBytes_toHex0x rfl]
  refine ⟨rfl, ?_, rfl, rfl, ?_⟩
  · rw [← String.length_toList, text]
    rfl
  · intro same
    have chars := congrArg String.toList same
    rw [text, Bytes.toList_toHex0x] at chars
    exact absurd chars (by decide)

end Commitment

end ProofRelay
