import ProofRelay.Proofs.Commitment

/-!
Which texts spell which bytes. Digits of either case spell the bytes whose text they are in lowercase, and
the strict reader accepts just these. The lenient reader accepts the same with blanks before, between and
after the pairs. So what it accepts is fixed, up to the case of the digits, by the bytes and by where the
blanks stand.
-/

namespace ProofRelay

section Ascii

/-- A property of the characters of ASCII holds of each character with a number below 128. -/
theorem of_ascii {P : Char → Prop} (all : ∀ i : Fin 128, P (Char.ofNat i)) {c : Char} (small : c.toNat < 128) :
    P c := by
  have known := all ⟨c.toNat, small⟩
  rwa [Char.ofNat_toNat] at known

theorem toLower_of_large {c : Char} (large : ¬ c.toNat < 128) : c.toLower = c := by
  have past : ¬ (c.val ≥ 'A'.val ∧ c.val ≤ 'Z'.val) := by
    rintro ⟨-, le⟩
    have bound : c.toNat ≤ 'Z'.toNat := UInt32.le_iff_toNat_le.1 le
    have last : 'Z'.toNat = 90 := rfl
    omega
  exact dif_neg past

theorem toLower_toLower (c : Char) : c.toLower.toLower = c.toLower := by
  by_cases small : c.toNat < 128
  · exact of_ascii (P := fun c => c.toLower.toLower = c.toLower) (by decide +kernel) small
  · rw [toLower_of_large small, toLower_of_large small]

/-- Blanks have no case. -/
theorem isAsciiBlank_toLower (c : Char) :
    Text.isAsciiBlank c.toLower = Text.isAsciiBlank c ∧ (Text.isAsciiBlank c = true → c.toLower = c) := by
  by_cases small : c.toNat < 128
  · exact of_ascii (P := fun c => Text.isAsciiBlank c.toLower = Text.isAsciiBlank c ∧
      (Text.isAsciiBlank c = true → c.toLower = c)) (by decide +kernel) small
  · rw [toLower_of_large small]
    exact ⟨rfl, fun _ => rfl⟩

end Ascii

namespace Bytes

section Digit

theorem hexDigits_ascii {d : Char} (mem : d ∈ hexDigits) : d.toNat < 128 := by
  have all : (hexDigits.all fun d => decide (d.toNat < 128)) = true := by decide
  exact of_decide_eq_true (List.all_eq_true.1 all d mem)

theorem hexValue?_of_large {c : Char} (large : ¬ c.toNat < 128) : hexValue? c = none := by
  have beyond (d : Char) (small : d.toNat < 128) : decide (c ≤ d) = false := by
    rw [decide_eq_false_iff_not]
    intro le
    have bound : c.toNat ≤ d.toNat := UInt32.le_iff_toNat_le.1 le
    omega
  simp only [hexValue?, beyond '9' (by decide), beyond 'f' (by decide), beyond 'F' (by decide), Bool.and_false,
    Bool.false_eq_true, if_false]

/-- A character has a value just if it is a digit, of either case, and then it is no blank. -/
theorem hexValue?_cases (c : Char) :
    (∃ n, n < 16 ∧ hexValue? c = some n ∧ c.toLower = hexDigit n ∧ Text.isAsciiBlank c = false) ∨
      hexValue? c = none ∧ c.toLower ∉ hexDigits := by
  by_cases small : c.toNat < 128
  · exact of_ascii (P := fun c => (∃ n, n < 16 ∧ hexValue? c = some n ∧ c.toLower = hexDigit n ∧
      Text.isAsciiBlank c = false) ∨ hexValue? c = none ∧ c.toLower ∉ hexDigits) (by decide +kernel) small
  · -- Past the end of ASCII there is neither a digit nor a letter to be put in lowercase.
    refine .inr ⟨hexValue?_of_large small, ?_⟩
    rw [toLower_of_large small]
    intro mem
    exact small (hexDigits_ascii mem)

theorem hexDigit_mem {n : Nat} (h : n < 16) : hexDigit n ∈ hexDigits := by
  have all : ∀ n : Fin 16, hexDigit n ∈ hexDigits := by decide
  exact all ⟨n, h⟩

theorem hexDigit_inj {m n : Nat} (hm : m < 16) (hn : n < 16) (h : hexDigit m = hexDigit n) : m = n := by
  obtain ⟨-, -, value⟩ := hexDigit_spec ⟨m, hm⟩
  obtain ⟨-, -, value'⟩ := hexDigit_spec ⟨n, hn⟩
  simp only [h, value'] at value
  exact (Option.some.inj value).symm

theorem hexValue?_eq_some_iff {c : Char} {n : Nat} : hexValue? c = some n ↔ n < 16 ∧ c.toLower = hexDigit n := by
  rcases hexValue?_cases c with ⟨m, hm, value, lower, -⟩ | ⟨none, other⟩
  · constructor
    · intro h
      cases value.symm.trans h
      exact ⟨hm, lower⟩
    · rintro ⟨hn, lower'⟩
      rw [value, hexDigit_inj hm hn (lower.symm.trans lower')]
  · constructor
    · intro h
      cases none.symm.trans h
    · rintro ⟨hn, lower⟩
      exact absurd (lower ▸ hexDigit_mem hn) other

theorem isAsciiBlank_of_hexValue? {c : Char} {n : Nat} (h : hexValue? c = some n) : Text.isAsciiBlank c = false := by
  rcases hexValue?_cases c with ⟨_, -, -, -, solid⟩ | ⟨none, -⟩
  · exact solid
  · cases none.symm.trans h

theorem toLower_hexDigit {n : Nat} (h : n < 16) : (hexDigit n).toLower = hexDigit n :=
  (hexValue?_eq_some_iff.1 (hexDigit_spec ⟨n, h⟩).2.2).2

theorem exists_of_mem_hexChars {bs : Bytes} {c : Char} (mem : c ∈ hexChars bs) : ∃ n < 16, c = hexDigit n := by
  obtain ⟨b, -, mem⟩ := List.mem_flatMap.1 mem
  obtain ⟨high, low⟩ := digits_lt b
  rcases List.mem_cons.1 mem with rfl | mem
  · exact ⟨_, high, rfl⟩
  · exact ⟨_, low, List.mem_singleton.1 mem⟩

end Digit

/-- The digits, of either case, are the text of the bytes. -/
def Spelled (digits : List Char) (bs : Bytes) : Prop := digits.map Char.toLower = hexChars bs

section Strict

variable {digits rest : List Char} {bs : Bytes} {c d : Char} {b : UInt8}

theorem Spelled.length (h : Spelled digits bs) : digits.length = 2 * bs.length := by
  rw [← length_hexChars, ← h, List.length_map]

theorem spelled_nil_iff : Spelled [] bs ↔ bs = [] := by
  constructor
  · intro h
    have := h.length
    exact List.eq_nil_of_length_eq_zero (by simp only [List.length_nil] at this; omega)
  · rintro rfl
    exact rfl

theorem not_spelled_singleton : ¬ Spelled [c] bs := by
  intro h
  have := h.length
  simp only [List.length_cons, List.length_nil] at this
  omega

theorem spelled_cons_cons_iff : Spelled (c :: d :: rest) (b :: bs) ↔ Spelled [c, d] [b] ∧ Spelled rest bs := by
  simp [Spelled, hexChars, hexOfByte, and_assoc]

/-- Two digits spell the byte that their values make up. -/
theorem spelled_pair_iff :
    Spelled [c, d] [b] ↔ ∃ hi lo, hexValue? c = some hi ∧ hexValue? d = some lo ∧ byteOfDigits hi lo = b := by
  have digitwise : Spelled [c, d] [b] ↔ c.toLower = hexDigit (b.toNat / 16) ∧ d.toLower = hexDigit (b.toNat % 16) := by
    simp [Spelled, hexChars, hexOfByte]
  rw [digitwise]
  constructor
  · rintro ⟨high, low⟩
    obtain ⟨hi, lo⟩ := digits_lt b
    exact ⟨_, _, hexValue?_eq_some_iff.2 ⟨hi, high⟩, hexValue?_eq_some_iff.2 ⟨lo, low⟩, byteOfDigits_div_mod b⟩
  · rintro ⟨hi, lo, high, low, rfl⟩
    obtain ⟨small, high⟩ := hexValue?_eq_some_iff.1 high
    obtain ⟨small', low⟩ := hexValue?_eq_some_iff.1 low
    -- Two values below 16 make up less than 256, so that the byte does not wrap around.
    have value : (byteOfDigits hi lo).toNat = 16 * hi + lo := by
      rw [byteOfDigits, UInt8.toNat_ofNat']
      omega
    rw [value, high, low]
    exact ⟨congrArg hexDigit (by omega), congrArg hexDigit (by omega)⟩

/-- The strict reader accepts digits of either case and gives the bytes that they spell. -/
theorem ofHex?_eq_some_iff : ofHex? digits = some bs ↔ Spelled digits bs := by
  induction digits using ofHex?.induct generalizing bs with
  | case1 => rw [spelled_nil_iff, ofHex?, Option.some.injEq, eq_comm]
  | case2 c => exact iff_of_false (by simp [ofHex?]) not_spelled_singleton
  | case3 c d rest ih =>
    simp only [ofHex?, bind, Option.bind_eq_some_iff, pure, Option.some.injEq]
    constructor
    · rintro ⟨hi, high, lo, low, bs', read, rfl⟩
      exact spelled_cons_cons_iff.2 ⟨spelled_pair_iff.2 ⟨hi, lo, high, low, rfl⟩, ih.1 read⟩
    · intro h
      cases bs with
      | nil => cases h.length
      | cons b bs =>
        obtain ⟨pair, spelled⟩ := spelled_cons_cons_iff.1 h
        obtain ⟨hi, lo, high, low, rfl⟩ := spelled_pair_iff.1 pair
        exact ⟨hi, high, lo, low, bs, ih.2 spelled, rfl⟩

/-- The case of the digits does not count. -/
theorem spelled_map_toLower_iff : Spelled (digits.map Char.toLower) bs ↔ Spelled digits bs := by
  have again : Char.toLower ∘ Char.toLower = Char.toLower := funext toLower_toLower
  rw [Spelled, Spelled, List.map_map, again]

theorem spelled_hexChars (bs : Bytes) : Spelled (hexChars bs) bs := by
  have each : ∀ c ∈ hexChars bs, c.toLower = c := by
    intro c mem
    obtain ⟨n, small, rfl⟩ := exists_of_mem_hexChars mem
    exact toLower_hexDigit small
  exact (List.map_congr_left each).trans (List.map_id _)

end Strict

/-- Pairs of digits that spell the bytes, with blanks before, between and after the pairs. -/
inductive Spaced : List Char → Bytes → Prop where
  | nil : Spaced [] []
  | blank {c : Char} {rest : List Char} {bs : Bytes} (blank : Text.isAsciiBlank c = true) (h : Spaced rest bs) :
      Spaced (c :: rest) bs
  | pair {c d : Char} {rest : List Char} {b : UInt8} {bs : Bytes} (digits : Spelled [c, d] [b])
      (h : Spaced rest bs) : Spaced (c :: d :: rest) (b :: bs)

section Lenient

variable {body body' : List Char} {bs : Bytes}

/-- A pair of digits holds no blank. -/
theorem isAsciiBlank_of_pair {c d : Char} {b : UInt8} (h : Spelled [c, d] [b]) :
    Text.isAsciiBlank c = false ∧ Text.isAsciiBlank d = false := by
  obtain ⟨hi, lo, high, low, -⟩ := spelled_pair_iff.1 h
  exact ⟨isAsciiBlank_of_hexValue? high, isAsciiBlank_of_hexValue? low⟩

theorem spaced_nil_iff : Spaced [] bs ↔ bs = [] := by
  constructor
  · rintro ⟨⟩
    rfl
  · rintro rfl
    exact .nil

theorem spaced_cons_of_blank {c : Char} {rest : List Char} (blank : Text.isAsciiBlank c = true) :
    Spaced (c :: rest) bs ↔ Spaced rest bs := by
  constructor
  · rintro (_ | ⟨_, h⟩ | ⟨digits, _⟩)
    · exact h
    · cases blank.symm.trans (isAsciiBlank_of_pair digits).1
  · exact .blank blank

/-- Where no blank stands, a pair of digits does. -/
theorem spaced_cons_of_solid {c : Char} {rest : List Char} (solid : Text.isAsciiBlank c = false) :
    Spaced (c :: rest) bs ↔
      ∃ d rest' b bs', rest = d :: rest' ∧ bs = b :: bs' ∧ Spelled [c, d] [b] ∧ Spaced rest' bs' := by
  constructor
  · rintro (_ | ⟨blank, _⟩ | ⟨digits, h⟩)
    · cases solid.symm.trans blank
    · exact ⟨_, _, _, _, rfl, rfl, digits, h⟩
  · rintro ⟨d, rest', b, bs', rfl, rfl, digits, h⟩
    exact .pair digits h

/-- The lenient reader accepts spaced pairs of digits and gives the bytes that they spell. -/
theorem ofSpacedHex?_eq_some_iff : ofSpacedHex? body = some bs ↔ Spaced body bs := by
  induction body using ofSpacedHex?.induct generalizing bs with
  | case1 => rw [spaced_nil_iff, ofSpacedHex?, Option.some.injEq, eq_comm]
  | case2 c blank =>
    rw [spaced_cons_of_blank blank, spaced_nil_iff, ofSpacedHex?, if_pos blank, Option.some.injEq, eq_comm]
  | case3 c solid =>
    rw [ofSpacedHex?, if_neg solid, spaced_cons_of_solid (Bool.not_eq_true _ ▸ solid)]
    simp
  | case4 c d rest blank ih => rw [spaced_cons_of_blank blank, ofSpacedHex?, if_pos blank, ih]
  | case5 c d rest solid ih =>
    rw [ofSpacedHex?, if_neg solid, spaced_cons_of_solid (Bool.not_eq_true _ ▸ solid)]
    simp only [bind, Option.bind_eq_some_iff, pure, Option.some.injEq]
    constructor
    · rintro ⟨hi, high, lo, low, bs', read, rfl⟩
      exact ⟨d, rest, _, bs', rfl, rfl, spelled_pair_iff.2 ⟨hi, lo, high, low, rfl⟩, ih.1 read⟩
    · rintro ⟨d', rest', b, bs', same, rfl, digits, h⟩
      cases same
      obtain ⟨hi, lo, high, low, rfl⟩ := spelled_pair_iff.1 digits
      exact ⟨hi, high, lo, low, bs', ih.2 h, rfl⟩

/-- A text spells at most one list of bytes. -/
theorem Spaced.unique {bs' : Bytes} (h : Spaced body bs) (h' : Spaced body bs') : bs = bs' :=
  Option.some.inj ((ofSpacedHex?_eq_some_iff.2 h).symm.trans (ofSpacedHex?_eq_some_iff.2 h'))

/-- Without its blanks, a spaced text is digits that spell the bytes. -/
theorem Spaced.spelled_filter (h : Spaced body bs) : Spelled (body.filter fun c => !Text.isAsciiBlank c) bs := by
  induction h with
  | nil => exact rfl
  | blank blank _ ih => simpa [List.filter_cons, blank] using ih
  | pair digits _ ih =>
    obtain ⟨first, second⟩ := isAsciiBlank_of_pair digits
    simpa [List.filter_cons, first, second] using spelled_cons_cons_iff.2 ⟨digits, ih⟩

theorem Spaced.spelled (h : Spaced body bs) (solid : ∀ c ∈ body, Text.isAsciiBlank c = false) : Spelled body bs := by
  have all : body.filter (fun c => !Text.isAsciiBlank c) = body :=
    List.filter_eq_self.2 fun c mem => by rw [solid c mem]; rfl
  exact all ▸ h.spelled_filter

/-- Digits that spell bytes are spaced pairs without a blank. -/
theorem Spelled.spaced (h : Spelled body bs) : Spaced body bs ∧ ∀ c ∈ body, Text.isAsciiBlank c = false := by
  induction body using ofHex?.induct generalizing bs with
  | case1 =>
    rw [spelled_nil_iff.1 h]
    exact ⟨.nil, by simp⟩
  | case2 c => exact absurd h not_spelled_singleton
  | case3 c d rest ih =>
    cases bs with
    | nil => cases h.length
    | cons b bs =>
      obtain ⟨digits, spelled⟩ := spelled_cons_cons_iff.1 h
      obtain ⟨first, second⟩ := isAsciiBlank_of_pair digits
      obtain ⟨spaced, solid⟩ := ih spelled
      exact ⟨.pair digits spaced, List.forall_mem_cons.2 ⟨first, List.forall_mem_cons.2 ⟨second, solid⟩⟩⟩

/-- The blanks of a text, each in its place. -/
def layout (body : List Char) : List (Option Char) := body.map fun c => if Text.isAsciiBlank c then some c else none

theorem layout_map_toLower (body : List Char) : layout (body.map Char.toLower) = layout body := by
  rw [layout, layout, List.map_map]
  refine List.map_congr_left fun c _ => ?_
  obtain ⟨same, fixed⟩ := isAsciiBlank_toLower c
  simp only [Function.comp_apply, same]
  split
  · rw [fixed ‹_›]
  · rfl

/-- A text is made up of its blanks, each in its place, and of what is no blank. -/
theorem map_toLower_eq_of_layout (blanks : layout body = layout body')
    (digits : (body.filter fun c => !Text.isAsciiBlank c).map Char.toLower =
      (body'.filter fun c => !Text.isAsciiBlank c).map Char.toLower) :
    body.map Char.toLower = body'.map Char.toLower := by
  induction body generalizing body' with
  | nil =>
    cases body' with
    | nil => rfl
    | cons => cases blanks
  | cons c body ih =>
    cases body' with
    | nil => cases blanks
    | cons c' body' =>
      obtain ⟨head, tail⟩ := List.cons.inj blanks
      -- The layouts leave two cases of four: both characters are blanks, or neither is.
      cases first : Text.isAsciiBlank c <;> cases second : Text.isAsciiBlank c' <;>
        simp only [first, second, if_true, if_false, Bool.false_eq_true, reduceCtorEq, Option.some.injEq] at head
      · simp only [List.filter_cons, first, second, Bool.not_false, if_true, List.map_cons, List.cons.injEq] at digits
        rw [List.map_cons, List.map_cons, digits.1, ih tail digits.2]
      · simp only [List.filter_cons, first, second, Bool.not_true, Bool.false_eq_true, if_false] at digits
        rw [List.map_cons, List.map_cons, head, ih tail digits]

/-- Two texts of the same bytes differ, beyond the case of their digits, just in where their blanks stand. -/
theorem map_toLower_eq_iff_layout (h : Spaced body bs) (h' : Spaced body' bs) :
    body.map Char.toLower = body'.map Char.toLower ↔ layout body = layout body' := by
  constructor
  · intro same
    rw [← layout_map_toLower, same, layout_map_toLower]
  · intro blanks
    exact map_toLower_eq_of_layout blanks (h.spelled_filter.trans h'.spelled_filter.symm)

end Lenient

end Bytes

end ProofRelay
