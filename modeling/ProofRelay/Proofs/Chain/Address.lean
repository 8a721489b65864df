import ProofRelay.Chain.Address
import ProofRelay.Proofs.Bytes.Hex

/-!
The spellings of an address: forty digits of either case, which a mark may precede. Reading accepts these
and no others, whatever the case of the letters. The checksum form is one of them, whatever the digest is
that decides about its letters, so it reads back as the address it was made for.
-/

namespace ProofRelay

theorem Bytes.length_ofNatWidth (width n : Nat) : (Bytes.ofNatWidth width n).length = width := by
  induction width generalizing n with
  | zero => rfl
  | succ width ih => rw [Bytes.ofNatWidth, List.length_append, ih, List.length_singleton]

theorem Keccak256.length_digest (message : Bytes) : (Keccak256.digest message).length = 32 := by
  have lanes (xs : List UInt64) : (xs.flatMap laneBytes).length = 8 * xs.length := by
    induction xs with
    | nil => rfl
    | cons x xs ih =>
      rw [List.flatMap_cons, List.length_append, ih, laneBytes, List.length_reverse, Bytes.length_ofNatWidth,
        List.length_cons]
      omega
  rw [digest, lanes, List.length_map, List.length_range]

namespace Address

/-- What may precede the digits. -/
def marks : List (List Char) := [[], ['0', 'x'], ['0', 'X']]

/-- Forty digits of either case for the bytes of the address, after a mark or none. -/
def Spelled (s : String) (a : Address) : Prop :=
  ∃ mark ∈ marks, ∃ digits, s.toList = mark ++ digits ∧ Bytes.Spelled digits a.bytes

section Reading

variable {s : String} {a a' : Address}

theorem dropMark_cases (cs : List Char) : ∃ mark ∈ marks, cs = mark ++ dropMark cs := by
  unfold dropMark
  split
  · rename_i x rest
    split
    · rename_i mark
      rw [Bool.or_eq_true, beq_iff_eq, beq_iff_eq] at mark
      rcases mark with rfl | rfl
      · exact ⟨['0', 'x'], by simp [marks], rfl⟩
      · exact ⟨['0', 'X'], by simp [marks], rfl⟩
    · exact ⟨[], by simp [marks], rfl⟩
  · exact ⟨[], by simp [marks], rfl⟩

/-- The letter of a mark is no digit, so digits have no mark. -/
theorem dropMark_of_spelled {digits : List Char} {bs : Bytes} (h : Bytes.Spelled digits bs) :
    dropMark digits = digits := by
  unfold dropMark
  split
  · rename_i x rest
    split
    · rename_i mark
      cases bs with
      | nil => cases h.length
      | cons b bs =>
        obtain ⟨_, _, -, low, -⟩ := Bytes.spelled_pair_iff.1 (Bytes.spelled_cons_cons_iff.1 h).1
        rw [Bool.or_eq_true, beq_iff_eq, beq_iff_eq] at mark
        rcases mark with rfl | rfl <;> cases low
    · rfl
  · rfl

theorem dropMark_append {mark digits : List Char} {bs : Bytes} (known : mark ∈ marks) (h : Bytes.Spelled digits bs) :
    dropMark (mark ++ digits) = digits := by
  simp only [marks, List.mem_cons, List.not_mem_nil, or_false] at known
  rcases known with rfl | rfl | rfl
  · exact dropMark_of_spelled h
  · rfl
  · rfl

theorem ofBytes?_eq_some_iff {bs : Bytes} : ofBytes? bs = some a ↔ bs = a.bytes := by
  unfold ofBytes?
  split
  · constructor
    · intro h
      cases h
      rfl
    · rintro rfl
      rfl
  · rename_i size
    exact iff_of_false (by simp) fun same => size (same ▸ a.size)

/-- Every spelling of an address is read as that address, and nothing else is. -/
theorem ofString?_eq_some_iff : ofString? s = some a ↔ Spelled s a := by
  rw [ofString?, ofChars?, Option.bind_eq_some_iff]
  constructor
  · rintro ⟨bs, read, sized⟩
    obtain ⟨mark, known, split⟩ := dropMark_cases s.toList
    refine ⟨mark, known, dropMark s.toList, split, ?_⟩
    rw [← ofBytes?_eq_some_iff.1 sized]
    exact Bytes.ofHex?_eq_some_iff.1 read
  · rintro ⟨mark, known, digits, split, spelled⟩
    refine ⟨a.bytes, ?_, ofBytes?_eq_some_iff.2 rfl⟩
    rw [split, dropMark_append known spelled]
    exact Bytes.ofHex?_eq_some_iff.2 spelled

/-- A text spells at most one address. -/
theorem Spelled.unique (h : Spelled s a) (h' : Spelled s a') : a = a' :=
  Option.some.inj ((ofString?_eq_some_iff.2 h).symm.trans (ofString?_eq_some_iff.2 h'))

end Reading

section Checksum

theorem length_halves (bs : Bytes) : (halves bs).length = 2 * bs.length := by
  induction bs with
  | nil => rfl
  | cons b bs ih =>
    rw [halves, List.flatMap_cons, ← halves, List.length_append, ih]
    simp only [List.length_cons, List.length_nil]
    omega

theorem toLower_toUpper_hexDigit : ∀ n : Fin 16, (Bytes.hexDigit n).toUpper.toLower = Bytes.hexDigit n := by
  decide

/-- A digest decides about the case of a digit only. -/
theorem toLower_checksumDigit {n : Nat} (h : n < 16) (half : Nat) :
    (checksumDigit (Bytes.hexDigit n) half).toLower = Bytes.hexDigit n := by
  unfold checksumDigit
  split
  · exact toLower_toUpper_hexDigit ⟨n, h⟩
  · exact Bytes.toLower_hexDigit h

theorem map_toLower_zipWith_checksumDigit {digits : List Char} {hs : List Nat} (enough : digits.length ≤ hs.length)
    (hex : ∀ c ∈ digits, ∃ n < 16, c = Bytes.hexDigit n) :
    (List.zipWith checksumDigit digits hs).map Char.toLower = digits := by
  induction digits generalizing hs with
  | nil => rfl
  | cons c digits ih =>
    cases hs with
    | nil => simp at enough
    | cons half hs =>
      obtain ⟨n, small, rfl⟩ := hex c List.mem_cons_self
      rw [List.zipWith_cons_cons, List.map_cons, toLower_checksumDigit small]
      rw [ih (by simpa using enough) fun c mem => hex c (List.mem_cons_of_mem _ mem)]

/-- The digits with their checksum spell the address: the digest has a half-byte for each of them. -/
theorem spelled_checksumChars (a : Address) : Bytes.Spelled a.checksumChars a.bytes := by
  refine map_toLower_zipWith_checksumDigit ?_ ?_
  · rw [Bytes.length_hexChars, length_halves, Keccak256.length_digest, a.size]
    decide
  · exact fun c mem => Bytes.exists_of_mem_hexChars mem

/-- The checksum form of an address is a spelling of it. -/
theorem spelled_toString (a : Address) : Spelled a.toString a :=
  ⟨['0', 'x'], by simp [marks], a.checksumChars, by simp [toString], spelled_checksumChars a⟩

end Checksum

end Address

end ProofRelay
