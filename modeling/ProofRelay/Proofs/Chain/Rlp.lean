import ProofRelay.Chain.Rlp
import ProofRelay.Proofs.Activity.Path

/-!
What the length encoding writes, it reads back. A number spells itself in bytes without leading zeros, a
length is marked in one of two forms, and both marks tell where the bytes after them end, whatever follows.
So a list of byte strings that can be written is read back as it was, and no two lists are written alike.
-/

namespace ProofRelay

namespace Bytes

theorem toNat_append_singleton (bs : Bytes) (b : UInt8) : toNat (bs ++ [b]) = 256 * toNat bs + b.toNat := by
  simp only [toNat, List.foldl_append, List.foldl_cons, List.foldl_nil]

theorem ofNat_zero : ofNat 0 = [] := by
  rw [ofNat, if_pos rfl]

theorem ofNat_of_pos {n : Nat} (pos : 0 < n) : ofNat n = ofNat (n / 256) ++ [UInt8.ofNat n] := by
  rw [ofNat, if_neg (by omega)]

/-- The digits of a number spell it. -/
@[simp] theorem toNat_ofNat (n : Nat) : toNat (ofNat n) = n := by
  induction n using Nat.strongRecOn with
  | ind n ih =>
    by_cases pos : 0 < n
    · rw [ofNat_of_pos pos, toNat_append_singleton, ih (n / 256) (by omega), UInt8.toNat_ofNat']
      omega
    · obtain rfl : n = 0 := by omega
      rw [ofNat_zero]
      rfl

/-- A number below a power of 256 has no more digits than that. -/
theorem length_ofNat_le {n width : Nat} (small : n < Nat.pow 256 width) : (ofNat n).length ≤ width := by
  induction width generalizing n with
  | zero =>
    obtain rfl : n = 0 := Nat.lt_one_iff.1 small
    rw [ofNat_zero]
    simp
  | succ width ih =>
    by_cases pos : 0 < n
    · have less : n / 256 < Nat.pow 256 width := by
        have step : n < Nat.pow 256 width * 256 := small
        apply Nat.div_lt_of_lt_mul
        omega
      have := ih less
      rw [ofNat_of_pos pos, List.length_append, List.length_singleton]
      omega
    · obtain rfl : n = 0 := by omega
      rw [ofNat_zero]
      simp

theorem ofNat_ne_nil {n : Nat} (pos : 0 < n) : ofNat n ≠ [] := by
  rw [ofNat_of_pos pos]
  simp

/-- A number has no leading zeros. -/
theorem head?_ofNat_ne (n : Nat) : (ofNat n).head? ≠ some 0 := by
  induction n using Nat.strongRecOn with
  | ind n ih =>
    by_cases large : 256 ≤ n
    · have first := ih (n / 256) (by omega)
      obtain ⟨b, tail, shape⟩ := List.exists_cons_of_ne_nil (ofNat_ne_nil (n := n / 256) (by omega))
      rw [shape] at first
      rw [ofNat_of_pos (by omega), shape]
      exact first
    · by_cases pos : 0 < n
      · rw [ofNat_of_pos pos, show n / 256 = 0 by omega, ofNat_zero, List.nil_append, List.head?_cons]
        intro zero
        have value := congrArg UInt8.toNat (Option.some.inj zero)
        rw [UInt8.toNat_ofNat', UInt8.toNat_zero] at value
        omega
      · obtain rfl : n = 0 := by omega
        rw [ofNat_zero]
        simp

end Bytes

namespace Rlp

variable {base : Nat} {body item mark written : Bytes} {items : List Bytes}

/-- A length is marked in one byte, or in one that tells how many bytes of the length follow. -/
theorem header_cases {length : Nat} (marks : header base length = .ok mark) :
    length < 56 ∧ mark = [UInt8.ofNat (base + length)] ∨
      56 ≤ length ∧ (Bytes.ofNat length).length ≤ 8 ∧
        mark = UInt8.ofNat (base + 55 + (Bytes.ofNat length).length) :: Bytes.ofNat length := by
  unfold header at marks
  split at marks
  · rename_i short
    cases marks
    exact .inl ⟨short, rfl⟩
  · rename_i long
    split at marks
    · rename_i bounded
      cases marks
      exact .inr ⟨by omega, Bytes.length_ofNat_le bounded, rfl⟩
    · cases marks

/-- The first byte of a mark is its base and no more than 63 above it, and the mark tells where the bytes
after it end. -/
theorem payload?_marked (fits : base + 63 < 256) (writes : marked base body = .ok written) (rest : Bytes) :
    (∃ b tail, written = b :: tail ∧ base ≤ b.toNat ∧ b.toNat ≤ base + 63) ∧
      payload? base (written ++ rest) = some (body, rest) := by
  obtain ⟨mark, marks, yields⟩ := except_bind_eq_ok.1 writes
  cases yields
  rcases header_cases marks with ⟨short, rfl⟩ | ⟨long, few, rfl⟩
  · have first : (UInt8.ofNat (base + body.length)).toNat = base + body.length := by
      rw [UInt8.toNat_ofNat']
      omega
    refine ⟨⟨_, _, rfl, by omega, by omega⟩, ?_⟩
    have count : base + body.length - base = body.length := by omega
    simp only [List.cons_append, List.nil_append, payload?, first, count, short, if_true,
      List.length_append, Nat.le_add_right, List.take_left, List.drop_left,
      if_neg (show ¬ base + body.length < base by omega)]
  · have some : (Bytes.ofNat body.length).length ≠ 0 := by
      have := Bytes.ofNat_ne_nil (n := body.length) (by omega)
      rwa [ne_eq, List.length_eq_zero_iff]
    have first : (UInt8.ofNat (base + 55 + (Bytes.ofNat body.length).length)).toNat =
        base + 55 + (Bytes.ofNat body.length).length := by
      rw [UInt8.toNat_ofNat']
      omega
    refine ⟨⟨_, _, rfl, by omega, by omega⟩, ?_⟩
    have count : base + 55 + (Bytes.ofNat body.length).length - base - 55 = (Bytes.ofNat body.length).length := by omega
    simp only [List.cons_append, List.append_assoc, payload?, first, count,
      if_neg (show ¬ base + 55 + (Bytes.ofNat body.length).length < base by omega),
      if_neg (show ¬ base + 55 + (Bytes.ofNat body.length).length - base < 56 by omega),
      List.take_left, List.drop_left, Bytes.toNat_ofNat, List.length_append, Nat.le_add_right, decide_true,
      Bool.and_self, if_true]

/-- A byte string is read back from what was written for it, whatever follows. -/
theorem decodeString?_encodeString (writes : encodeString item = .ok written) (rest : Bytes) :
    written ≠ [] ∧ decodeString? (written ++ rest) = some (item, rest) := by
  have long (writes : marked 0x80 item = .ok written) :
      written ≠ [] ∧ decodeString? (written ++ rest) = some (item, rest) := by
    obtain ⟨⟨b, tail, rfl, least, greatest⟩, read⟩ := payload?_marked (by omega) writes rest
    refine ⟨by simp, ?_⟩
    rw [List.cons_append] at read ⊢
    rw [decodeString?, if_neg (by omega), if_pos (by omega), read]
  unfold encodeString at writes
  split at writes
  · rename_i b
    split at writes
    · rename_i small
      cases writes
      refine ⟨by simp, ?_⟩
      rw [List.singleton_append, decodeString?, if_pos small]
    · exact long writes
  · exact long writes

/-- Byte strings are read back one after another; each of them uses up a byte at least, so as much fuel as
there are bytes is enough. -/
theorem decodeStrings?_encodeStrings {fuel : Nat} (writes : encodeStrings items = .ok body)
    (enough : body.length ≤ fuel) : decodeStrings? fuel body = some items := by
  induction items generalizing body fuel with
  | nil =>
    cases writes
    cases fuel <;> rfl
  | cons item items ih =>
    obtain ⟨first, writesFirst, continues⟩ := except_bind_eq_ok.1 writes
    obtain ⟨others, writesOthers, yields⟩ := except_bind_eq_ok.1 continues
    cases yields
    obtain ⟨occupied, read⟩ := decodeString?_encodeString writesFirst others
    rw [List.length_append] at enough
    have positive : 0 < first.length := List.length_pos_iff.2 occupied
    obtain ⟨b, tail, shape⟩ := List.exists_cons_of_ne_nil (List.append_ne_nil_of_left_ne_nil occupied others)
    cases fuel with
    | zero => omega
    | succ fuel =>
      rw [shape] at read ⊢
      have later := ih writesOthers (show others.length ≤ fuel by omega)
      simp only [decodeStrings?, read, bind, Option.bind_some, later, pure]

/-- A list of byte strings is read back from what was written for it. -/
theorem decodeList?_encodeList (writes : encodeList items = .ok written) : decodeList? written = some items := by
  obtain ⟨body, writesItems, marks⟩ := except_bind_eq_ok.1 writes
  obtain ⟨-, read⟩ := payload?_marked (by omega) marks []
  rw [List.append_nil] at read
  simp only [decodeList?, read, bind, Option.bind_some, List.isEmpty_nil, if_true,
    decodeStrings?_encodeStrings writesItems (Nat.le_refl _)]

section Length

theorem exists_marked (base : Nat) (short : body.length < lengthLimit) :
    ∃ written, marked base body = .ok written ∧ written.length ≤ body.length + 9 := by
  have marks : ∃ mark, header base body.length = .ok mark := by
    rw [header, if_pos short]
    split
    · exact ⟨_, rfl⟩
    · exact ⟨_, rfl⟩
  obtain ⟨mark, marks⟩ := marks
  refine ⟨mark ++ body, except_bind_eq_ok.2 ⟨mark, marks, rfl⟩, ?_⟩
  rcases header_cases marks with ⟨-, rfl⟩ | ⟨-, few, rfl⟩ <;>
    simp only [List.length_append, List.length_cons, List.length_nil] <;> omega

theorem exists_encodeString (short : item.length < lengthLimit) :
    ∃ written, encodeString item = .ok written ∧ written.length ≤ item.length + 9 := by
  unfold encodeString
  split
  · split
    · exact ⟨_, rfl, by simp⟩
    · exact exists_marked 0x80 short
  · exact exists_marked 0x80 short

/-- The most bytes that byte strings take up; nine are enough for each mark. -/
def room : List Bytes → Nat
  | [] => 0
  | item :: items => item.length + 9 + room items

/-- Byte strings can be written if they are short enough together. -/
theorem exists_encodeStrings (short : room items < lengthLimit) :
    ∃ body, encodeStrings items = .ok body ∧ body.length ≤ room items := by
  induction items with
  | nil => exact ⟨[], rfl, Nat.zero_le _⟩
  | cons item items ih =>
    rw [room] at short
    have shortFirst : item.length < lengthLimit := by omega
    obtain ⟨first, writesFirst, boundFirst⟩ := exists_encodeString shortFirst
    obtain ⟨others, writesOthers, boundOthers⟩ := ih (by omega)
    refine ⟨first ++ others, ?_, ?_⟩
    · exact except_bind_eq_ok.2 ⟨first, writesFirst, except_bind_eq_ok.2 ⟨others, writesOthers, rfl⟩⟩
    · rw [List.length_append, room]
      omega

theorem exists_encodeList (short : room items < lengthLimit) :
    ∃ written, encodeList items = .ok written := by
  obtain ⟨body, writes, bound⟩ := exists_encodeStrings short
  have shortBody : body.length < lengthLimit := by omega
  obtain ⟨written, marks, -⟩ := exists_marked 0xC0 shortBody
  exact ⟨written, except_bind_eq_ok.2 ⟨body, writes, marks⟩⟩

end Length

end Rlp

end ProofRelay
