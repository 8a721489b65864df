import ProofRelay.Commitment

/-!
A commitment and its bytes. The hexadecimal text of bytes reads back as those bytes, and it consists of
lowercase digits only; so the text of a digest is a commitment, and its bytes are the digest.
-/

namespace ProofRelay

namespace Bytes

/-- A digit below sixteen is lowercase, is no blank, and has its value. -/
theorem hexDigit_spec (n : Fin 16) : Commitment.isLowerHex (hexDigit n) = true ∧
    Text.isAsciiBlank (hexDigit n) = false ∧ hexValue? (hexDigit n) = some n.val := by
  revert n
  decide

theorem byteOfDigits_div_mod (b : UInt8) : byteOfDigits (b.toNat / 16) (b.toNat % 16) = b := by
  rw [byteOfDigits, Nat.div_add_mod]
  exact UInt8.ofNat_toNat

theorem digits_lt (b : UInt8) : b.toNat / 16 < 16 ∧ b.toNat % 16 < 16 := by
  have := b.toNat_lt
  omega

theorem ofSpacedHex?_hexChars (bs : Bytes) : ofSpacedHex? (hexChars bs) = some bs := by
  induction bs with
  | nil => rfl
  | cons b bs ih =>
    obtain ⟨high, low⟩ := digits_lt b
    obtain ⟨-, notBlank, hi⟩ := hexDigit_spec ⟨_, high⟩
    obtain ⟨-, -, lo⟩ := hexDigit_spec ⟨_, low⟩
    change ofSpacedHex? (hexDigit (b.toNat / 16) :: hexDigit (b.toNat % 16) :: hexChars bs) = some (b :: bs)
    simp only [ofSpacedHex?, notBlank, hi, lo, ih]
    simp [byteOfDigits_div_mod]

theorem length_hexChars (bs : Bytes) : (hexChars bs).length = 2 * bs.length := by
  induction bs with
  | nil => rfl
  | cons b bs ih =>
    rw [hexChars, List.flatMap_cons, List.length_append, ← hexChars, ih, List.length_cons]
    simp only [hexOfByte, List.length_cons, List.length_nil]
    omega

theorem isLowerHex_of_mem_hexChars {bs : Bytes} {c : Char} (hc : c ∈ hexChars bs) : Commitment.isLowerHex c = true := by
  obtain ⟨b, -, hc⟩ := List.mem_flatMap.1 hc
  obtain ⟨high, low⟩ := digits_lt b
  rcases List.mem_cons.1 hc with rfl | hc
  · exact (hexDigit_spec ⟨_, high⟩).1
  · rw [List.mem_singleton.1 hc]
    exact (hexDigit_spec ⟨_, low⟩).1

theorem toList_toHex0x (bs : Bytes) : (toHex0x bs).toList = '0' :: 'x' :: hexChars bs := by
  simp [toHex0x, toHex]

end Bytes

namespace Commitment

/-- The text of 32 bytes is a commitment. -/
theorem isCommitment_toHex0x {bs : Bytes} (length : bs.length = 32) : isCommitment (Bytes.toHex0x bs) = true := by
  have chars : (Bytes.hexChars bs).length = 64 := by
    rw [Bytes.length_hexChars, length]
  have digits : (Bytes.hexChars bs).all isLowerHex = true :=
    List.all_eq_true.2 fun _ hc => Bytes.isLowerHex_of_mem_hexChars hc
  rw [isCommitment, Bytes.toList_toHex0x, hasForm]
  simp only [List.take_of_length_le (Nat.le_of_eq chars), List.drop_of_length_le (Nat.le_of_eq chars), chars, digits]
  rfl

theorem toBytes_toHex0x {bs : Bytes} (length : bs.length = 32) : toBytes (Bytes.toHex0x bs) = .ok bs := by
  have digits : Bytes.ofSpacedHex? (('0' :: 'x' :: Bytes.hexChars bs).drop 2) = some bs :=
    Bytes.ofSpacedHex?_hexChars bs
  rw [toBytes, if_pos (isCommitment_toHex0x length), Bytes.toList_toHex0x, digits]

/-- The bytes of a file's commitment are the digest of the file. -/
theorem toBytes_ofBytes (data : Bytes) : toBytes (ofBytes data) = .ok (Sha256.digest data) :=
  toBytes_toHex0x (Sha256.length_digest data)

end Commitment

end ProofRelay
