import Mathlib.Data.List.Basic
import Mathlib.Data.List.TakeWhile
import ProofRelay.Bytes.Encoding

/-!
Strict reading of UTF-8 accepts exactly what writing produces. The sequences that spell a code point are
the encodings of characters and no others. So bytes are the text of a file just if they are the encoding of
a string, and the text is then that string.
-/

namespace ProofRelay

namespace CodePoint

theorem isSurrogate_eq_false_iff {p : CodePoint} : p.isSurrogate = false ↔ p.val < 0xD800 ∨ 0xDFFF < p.val := by
  simp only [isSurrogate, isHighSurrogate, isLowSurrogate, Bool.or_eq_false_iff, Bool.and_eq_false_iff,
    decide_eq_false_iff_not]
  omega

theorem isSurrogate_ofChar (c : Char) : (ofChar c).isSurrogate = false := by
  have valid : c.toNat < 0xD800 ∨ 0xDFFF < c.toNat ∧ c.toNat < 0x110000 := c.valid
  exact isSurrogate_eq_false_iff.2 (valid.imp id And.left)

theorem toChar?_ofChar (c : Char) : (ofChar c).toChar? = some c := by
  rw [toChar?, isSurrogate_ofChar, if_neg Bool.false_ne_true]
  exact congrArg some (Char.ofNat_toNat c)

/-- The code points that are no surrogates are those of characters. -/
theorem exists_ofChar {p : CodePoint} (scalar : p.val < 0xD800 ∨ 0xDFFF < p.val) : ∃ c, p = ofChar c := by
  have bound := p.isLt
  have valid : p.val.isValidChar := scalar.imp id fun h => ⟨h, bound⟩
  exact ⟨Char.ofNatAux p.val valid, Fin.ext rfl⟩

theorem eq_ofChar_of_toChar? {p : CodePoint} {c : Char} (h : p.toChar? = some c) : p = ofChar c := by
  unfold toChar? at h
  split at h
  · cases h
  · rename_i scalar
    obtain ⟨c', rfl⟩ := exists_ofChar (isSurrogate_eq_false_iff.1 (Bool.eq_false_iff.2 scalar))
    rw [← Option.some.inj h]
    exact congrArg ofChar (Char.ofNat_toNat c').symm

end CodePoint

namespace Text

theorem toString?_ofString (s : String) : (ofString s).toString? = some s := by
  have each (cs : List Char) : (cs.map CodePoint.ofChar).mapM CodePoint.toChar? = some cs := by
    induction cs with
    | nil => rfl
    | cons c cs ih => simp [CodePoint.toChar?_ofChar, ih]
  simp only [toString?, ofString, each, Option.map_some, String.ofList_toList]

/-- A text is a string just if it has no surrogates, and then it is the text of that string. -/
theorem toString?_eq_some_iff {t : Text} {s : String} : t.toString? = some s ↔ t = ofString s := by
  constructor
  · intro h
    have each (t : Text) (cs : List Char) (read : t.mapM CodePoint.toChar? = some cs) :
        t = cs.map CodePoint.ofChar := by
      induction t generalizing cs with
      | nil =>
        cases read
        rfl
      | cons p t ih =>
        rw [List.mapM_cons] at read
        simp only [bind, Option.bind_eq_some_iff, pure, Option.some.injEq] at read
        obtain ⟨c, char, cs, rest, rfl⟩ := read
        rw [List.map_cons, ← ih cs rest, CodePoint.eq_ofChar_of_toChar? char]
    obtain ⟨cs, read, rfl⟩ := Option.map_eq_some_iff.1 h
    rw [ofString, String.toList_ofList]
    exact each t cs read
  · rintro rfl
    exact toString?_ofString s

theorem ofString_injective {s s' : String} (h : ofString s = ofString s') : s = s' := by
  have same := congrArg toString? h
  rw [toString?_ofString, toString?_ofString] at same
  exact Option.some.inj same

theorem length_ofString (s : String) : (ofString s).length = s.length := by
  rw [ofString, List.length_map, String.length_toList]

@[simp] theorem toStringLossy_ofString (s : String) : (ofString s).toStringLossy = s := by
  simp [toStringLossy, ofString, CodePoint.toChar?_ofChar, Function.comp_def]

theorem characters_ofString (s : String) : (ofString s).characters = s.toList := by
  have read : CodePoint.toChar? ∘ CodePoint.ofChar = some := funext CodePoint.toChar?_ofChar
  rw [characters, ofString, List.filterMap_map, read, List.filterMap_some]

end Text

namespace Utf8

/-- The bytes `b :: tail` are a well-formed sequence that `b` announces as `l`. -/
structure Spells (b : UInt8) (tail : Bytes) (l : Lead) : Prop where
  lead : lead? b = some l
  full : tail.length = l.follow
  first : ∀ c ∈ tail.head?, l.low ≤ c.toNat ∧ c.toNat ≤ l.high
  others : ∀ c ∈ tail.tail, 0x80 ≤ c.toNat ∧ c.toNat ≤ 0xBF

theorem fitting_append {b : UInt8} {tail : Bytes} {l : Lead} (h : Spells b tail l) (rest : Bytes) :
    fitting l (tail ++ rest) = tail := by
  cases tail with
  | nil =>
    have none : l.follow = 0 := h.full.symm
    cases rest <;> simp [fitting, none]
  | cons c tail =>
    have more : l.follow ≠ 0 := by
      have := h.full
      simp only [List.length_cons] at this
      omega
    have count : l.follow - 1 = tail.length := by
      have := h.full
      simp only [List.length_cons] at this
      omega
    have first := h.first c rfl
    have others : ∀ d ∈ tail, (decide (0x80 ≤ d.toNat) && decide (d.toNat ≤ 0xBF)) = true := by
      intro d hd
      simpa using h.others d hd
    simp only [List.cons_append, fitting, more, if_false, first.1, first.2, decide_true, Bool.and_self, if_true, count,
      List.take_left]
    rw [List.takeWhile_eq_self_iff.2 others]

theorem spells_nil {b : UInt8} {l : Lead} (lead : lead? b = some l) (alone : 0 = l.follow) : Spells b [] l := by
  refine ⟨lead, alone, ?_, ?_⟩
  · intro d hd
    cases hd
  · intro d hd
    cases hd

/-- What fits is a start of what follows, in the ranges of a sequence. -/
theorem spells_fitting {b : UInt8} {rest : Bytes} {l : Lead} (lead : lead? b = some l)
    (full : (fitting l rest).length = l.follow) :
    Spells b (fitting l rest) l ∧ fitting l rest <+: rest := by
  cases rest with
  | nil => exact ⟨spells_nil lead full, List.prefix_refl _⟩
  | cons c rest =>
    by_cases none : l.follow = 0
    · have empty : fitting l (c :: rest) = [] := by simp [fitting, none]
      rw [empty]
      exact ⟨spells_nil lead none.symm, List.nil_prefix⟩
    · by_cases fits : (decide (l.low ≤ c.toNat) && decide (c.toNat ≤ l.high)) = true
      · simp only [fitting, none, fits, if_true, if_false] at full ⊢
        refine ⟨⟨lead, full, ?_, ?_⟩, ?_⟩
        · intro d hd
          cases hd
          simpa using fits
        · intro d hd
          simpa using List.mem_takeWhile_imp hd
        · exact (List.prefix_cons_inj c).2 ((List.takeWhile_prefix _).trans (List.take_prefix _ _))
      · simp only [fitting, none, fits, if_false] at full
        exact absurd full.symm none

theorem piece_append {b : UInt8} {tail : Bytes} {l : Lead} (h : Spells b tail l) (rest : Bytes) :
    piece b (tail ++ rest) = .point (assemble b tail) (1 + tail.length) := by
  simp only [piece, h.lead, fitting_append h rest, h.full, if_true]

theorem spells_of_piece {b : UInt8} {rest : Bytes} {p : CodePoint} {n : Nat} (h : piece b rest = .point p n) :
    ∃ tail left l, rest = tail ++ left ∧ Spells b tail l ∧ p = assemble b tail ∧ n = 1 + tail.length := by
  unfold piece at h
  split at h
  · cases h
  · rename_i l lead
    simp only at h
    split at h
    · rename_i full
      obtain ⟨spells, left, hrest⟩ := spells_fitting lead full
      cases h
      exact ⟨_, left, l, hrest.symm, spells, rfl, rfl⟩
    · split at h <;> cases h

section Lead

variable {b : UInt8}

theorem lead?_one (h : b.toNat < 0x80) : lead? b = some ⟨0, 0x80, 0xBF⟩ := by
  simp only [lead?, h, if_true]

theorem lead?_two (low : 0xC2 ≤ b.toNat) (high : b.toNat < 0xE0) : lead? b = some ⟨1, 0x80, 0xBF⟩ := by
  have h1 : ¬ b.toNat < 0x80 := by omega
  have h2 : ¬ b.toNat < 0xC2 := by omega
  simp only [lead?, h1, h2, high, if_true, if_false]

/-- Of the sequences of three bytes, those that two could do and those of surrogates are left out. -/
theorem lead?_three (low : 0xE0 ≤ b.toNat) (high : b.toNat < 0xF0) :
    lead? b = some ⟨2, if b.toNat = 0xE0 then 0xA0 else 0x80, if b.toNat = 0xED then 0x9F else 0xBF⟩ := by
  have h1 : ¬ b.toNat < 0x80 := by omega
  have h2 : ¬ b.toNat < 0xC2 := by omega
  have h3 : ¬ b.toNat < 0xE0 := by omega
  simp only [lead?, h1, h2, h3, high, if_true, if_false]
  by_cases first : b.toNat = 0xE0
  · simp [first]
  · by_cases last : b.toNat = 0xED <;> simp [first, last]

/-- Of the sequences of four bytes, those that three could do and those beyond the last code point are left
out. -/
theorem lead?_four (low : 0xF0 ≤ b.toNat) (high : b.toNat < 0xF5) :
    lead? b = some ⟨3, if b.toNat = 0xF0 then 0x90 else 0x80, if b.toNat = 0xF4 then 0x8F else 0xBF⟩ := by
  have h1 : ¬ b.toNat < 0x80 := by omega
  have h2 : ¬ b.toNat < 0xC2 := by omega
  have h3 : ¬ b.toNat < 0xE0 := by omega
  have h4 : b.toNat ≠ 0xE0 := by omega
  have h5 : b.toNat ≠ 0xED := by omega
  have h6 : ¬ b.toNat < 0xF0 := by omega
  simp only [lead?, h1, h2, h3, h4, h5, h6, if_false]
  by_cases first : b.toNat = 0xF0
  · simp [first]
  · by_cases last : b.toNat = 0xF4
    · simp [last]
    · have h7 : b.toNat < 0xF4 := by omega
      simp [first, last, h7]

theorem lead?_eq_none (h : 0x80 ≤ b.toNat ∧ b.toNat < 0xC2 ∨ 0xF5 ≤ b.toNat) : lead? b = none := by
  have h1 : ¬ b.toNat < 0x80 := by omega
  rcases h with ⟨-, h⟩ | h
  · simp only [lead?, h1, h, if_true, if_false]
  · have h2 : ¬ b.toNat < 0xC2 := by omega
    have h3 : ¬ b.toNat < 0xE0 := by omega
    have h4 : b.toNat ≠ 0xE0 := by omega
    have h5 : b.toNat ≠ 0xED := by omega
    have h6 : ¬ b.toNat < 0xF0 := by omega
    have h7 : b.toNat ≠ 0xF0 := by omega
    have h8 : ¬ b.toNat < 0xF4 := by omega
    have h9 : b.toNat ≠ 0xF4 := by omega
    simp only [lead?, h1, h2, h3, h4, h5, h6, h7, h8, h9, if_false]

end Lead

/-- The bytes that may follow a first byte, the range of the second one apart. -/
def isTrail (c : UInt8) : Prop := 0x80 ≤ c.toNat ∧ c.toNat ≤ 0xBF

section Assemble

variable {b c d e : UInt8}

theorem assemble_one (h : b.toNat < 0x80) : (assemble b []).val = b.toNat := by
  simp only [assemble, CodePoint.ofNat, leadBits, List.foldl_nil, List.length_nil, if_true]
  omega

theorem assemble_two (low : 0xC0 ≤ b.toNat) (high : b.toNat < 0xE0) (hc : isTrail c) :
    (assemble b [c]).val = 64 * (b.toNat - 0xC0) + (c.toNat - 0x80) := by
  have bits : leadBits b 1 = b.toNat % 32 := rfl
  unfold isTrail at hc
  simp only [assemble, CodePoint.ofNat, List.foldl_cons, List.foldl_nil, List.length_cons, List.length_nil, bits]
  omega

theorem assemble_three (low : 0xE0 ≤ b.toNat) (high : b.toNat < 0xF0) (hc : isTrail c) (hd : isTrail d) :
    (assemble b [c, d]).val = 4096 * (b.toNat - 0xE0) + 64 * (c.toNat - 0x80) + (d.toNat - 0x80) := by
  have bits : leadBits b 2 = b.toNat % 16 := rfl
  unfold isTrail at hc hd
  simp only [assemble, CodePoint.ofNat, List.foldl_cons, List.foldl_nil, List.length_cons, List.length_nil, bits]
  omega

theorem assemble_four (low : 0xF0 ≤ b.toNat) (high : b.toNat < 0xF5) (last : b.toNat = 0xF4 → c.toNat ≤ 0x8F)
    (hc : isTrail c) (hd : isTrail d) (he : isTrail e) :
    (assemble b [c, d, e]).val =
      262144 * (b.toNat - 0xF0) + 4096 * (c.toNat - 0x80) + 64 * (d.toNat - 0x80) + (e.toNat - 0x80) := by
  have bits : leadBits b 3 = b.toNat % 8 := rfl
  unfold isTrail at hc hd he
  have hb : b.toNat % 8 = b.toNat - 0xF0 := by omega
  have hc' : c.toNat % 64 = c.toNat - 0x80 := by omega
  have hd' : d.toNat % 64 = d.toNat - 0x80 := by omega
  have he' : e.toNat % 64 = e.toNat - 0x80 := by omega
  simp only [assemble, CodePoint.ofNat, List.foldl_cons, List.foldl_nil, List.length_cons, List.length_nil, bits,
    hb, hc', hd', he']
  omega

end Assemble

/-- The well-formed sequences by their length, with the ranges of their bytes. -/
inductive WellFormed : UInt8 → Bytes → Prop where
  | one {b : UInt8} (high : b.toNat < 0x80) : WellFormed b []
  | two {b c : UInt8} (low : 0xC2 ≤ b.toNat) (high : b.toNat < 0xE0) (hc : isTrail c) : WellFormed b [c]
  | three {b c d : UInt8} (low : 0xE0 ≤ b.toNat) (high : b.toNat < 0xF0) (long : b.toNat = 0xE0 → 0xA0 ≤ c.toNat)
      (scalar : b.toNat = 0xED → c.toNat ≤ 0x9F) (hc : isTrail c) (hd : isTrail d) : WellFormed b [c, d]
  | four {b c d e : UInt8} (low : 0xF0 ≤ b.toNat) (high : b.toNat < 0xF5) (long : b.toNat = 0xF0 → 0x90 ≤ c.toNat)
      (last : b.toNat = 0xF4 → c.toNat ≤ 0x8F) (hc : isTrail c) (hd : isTrail d) (he : isTrail e) :
      WellFormed b [c, d, e]

theorem WellFormed.exists_spells {b : UInt8} {tail : Bytes} (h : WellFormed b tail) : ∃ l, Spells b tail l := by
  cases h with
  | one high => exact ⟨_, spells_nil (lead?_one high) rfl⟩
  | two low high hc =>
    refine ⟨_, lead?_two low high, rfl, ?_, ?_⟩
    · intro x hx
      cases hx
      exact hc
    · intro x hx
      cases hx
  | three low high long scalar hc hd =>
    unfold isTrail at hc
    refine ⟨_, lead?_three low high, rfl, ?_, ?_⟩
    · intro x hx
      cases hx
      simp only
      split_ifs <;> omega
    · intro x hx
      cases List.mem_singleton.1 hx
      exact hd
  | four low high long last hc hd he =>
    unfold isTrail at hc
    refine ⟨_, lead?_four low high, rfl, ?_, ?_⟩
    · intro x hx
      cases hx
      simp only
      split_ifs <;> omega
    · intro x hx
      rcases List.mem_cons.1 hx with rfl | hx
      · exact hd
      · cases List.mem_singleton.1 hx
        exact he

theorem Spells.wellFormed {b : UInt8} {tail : Bytes} {l : Lead} (h : Spells b tail l) : WellFormed b tail := by
  obtain ⟨lead, full, first, others⟩ := h
  -- The first byte tells the length.
  by_cases one : b.toNat < 0x80
  · cases (lead?_one one).symm.trans lead
    obtain rfl := List.length_eq_zero_iff.1 full
    exact .one one
  by_cases two : 0xC2 ≤ b.toNat ∧ b.toNat < 0xE0
  · cases (lead?_two two.1 two.2).symm.trans lead
    obtain ⟨c, rfl⟩ := List.length_eq_one_iff.1 full
    exact .two two.1 two.2 (first c rfl)
  by_cases three : 0xE0 ≤ b.toNat ∧ b.toNat < 0xF0
  · cases (lead?_three three.1 three.2).symm.trans lead
    obtain ⟨c, d, rfl⟩ := List.length_eq_two.1 full
    have range := first c rfl
    simp only at range
    have hc : isTrail c := by
      unfold isTrail
      split_ifs at range <;> omega
    have hd : isTrail d := others d (by simp)
    refine .three three.1 three.2 ?_ ?_ hc hd <;> split_ifs at range <;> omega
  by_cases four : 0xF0 ≤ b.toNat ∧ b.toNat < 0xF5
  · cases (lead?_four four.1 four.2).symm.trans lead
    obtain ⟨c, d, e, rfl⟩ := List.length_eq_three.1 full
    have range := first c rfl
    simp only at range
    have hc : isTrail c := by
      unfold isTrail
      split_ifs at range <;> omega
    have hd : isTrail d := others d (by simp)
    have he : isTrail e := others e (by simp)
    refine .four four.1 four.2 ?_ ?_ hc hd he <;> split_ifs at range <;> omega
  rw [lead?_eq_none (by omega)] at lead
  cases lead

theorem ofNat_eq_of_toNat {n : Nat} {b : UInt8} (h : n = b.toNat) : UInt8.ofNat n = b := by
  rw [h, UInt8.ofNat_toNat]

/-- A well-formed sequence is the encoding of what it spells, which is no surrogate. -/
theorem WellFormed.encodePoint_assemble {b : UInt8} {tail : Bytes} (h : WellFormed b tail) :
    encodePoint (assemble b tail) = b :: tail ∧
      ((assemble b tail).val < 0xD800 ∨ 0xDFFF < (assemble b tail).val) := by
  cases h with
  | one high =>
    have value := assemble_one high
    refine ⟨?_, by omega⟩
    simp only [encodePoint, value, high, if_true, UInt8.ofNat_toNat]
  | @two c low high hc =>
    have value := assemble_two (by omega) high hc
    unfold isTrail at hc
    refine ⟨?_, by omega⟩
    have h1 : ¬ (assemble b [c]).val < 0x80 := by omega
    have h2 : (assemble b [c]).val < 0x800 := by omega
    simp only [encodePoint, h1, h2, if_true, if_false]
    rw [ofNat_eq_of_toNat (b := b) (by omega), ofNat_eq_of_toNat (b := c) (by omega)]
  | @three c d low high long scalar hc hd =>
    have value := assemble_three low high hc hd
    unfold isTrail at hc hd
    refine ⟨?_, by omega⟩
    have h1 : ¬ (assemble b [c, d]).val < 0x80 := by omega
    have h2 : ¬ (assemble b [c, d]).val < 0x800 := by omega
    have h3 : (assemble b [c, d]).val < 0x10000 := by omega
    simp only [encodePoint, h1, h2, h3, if_true, if_false]
    rw [ofNat_eq_of_toNat (b := b) (by omega), ofNat_eq_of_toNat (b := c) (by omega),
      ofNat_eq_of_toNat (b := d) (by omega)]
  | @four c d e low high long last hc hd he =>
    have value := assemble_four low high last hc hd he
    unfold isTrail at hc hd he
    refine ⟨?_, by omega⟩
    have h1 : ¬ (assemble b [c, d, e]).val < 0x80 := by omega
    have h2 : ¬ (assemble b [c, d, e]).val < 0x800 := by omega
    have h3 : ¬ (assemble b [c, d, e]).val < 0x10000 := by omega
    simp only [encodePoint, h1, h2, h3, if_false]
    rw [ofNat_eq_of_toNat (b := b) (by omega), ofNat_eq_of_toNat (b := c) (by omega),
      ofNat_eq_of_toNat (b := d) (by omega), ofNat_eq_of_toNat (b := e) (by omega)]

theorem toNat_ofNat_of_lt {n : Nat} (h : n < 256) : (UInt8.ofNat n).toNat = n := by
  simp only [UInt8.toNat_ofNat']
  omega

theorem isTrail_ofNat (n : Nat) : isTrail (UInt8.ofNat (0x80 + n % 64)) := by
  rw [isTrail, toNat_ofNat_of_lt (by omega)]
  omega

/-- The encoding of a character is a well-formed sequence, which spells it. -/
theorem exists_wellFormed (c : Char) :
    ∃ b tail, encodePoint (.ofChar c) = b :: tail ∧ WellFormed b tail ∧ assemble b tail = .ofChar c := by
  have valid : c.toNat < 0xD800 ∨ 0xDFFF < c.toNat ∧ c.toNat < 0x110000 := c.valid
  have number : (CodePoint.ofChar c).val = c.toNat := rfl
  have hz := toNat_ofNat_of_lt (n := 0x80 + c.toNat % 64) (by omega)
  have hy := toNat_ofNat_of_lt (n := 0x80 + c.toNat / 64 % 64) (by omega)
  have hx := toNat_ofNat_of_lt (n := 0x80 + c.toNat / 4096 % 64) (by omega)
  by_cases one : c.toNat < 0x80
  · have hb := toNat_ofNat_of_lt (n := c.toNat) (by omega)
    refine ⟨UInt8.ofNat c.toNat, [], ?_, .one (by omega), Fin.ext ?_⟩
    · simp only [encodePoint, number, one, if_true]
    · rw [assemble_one (by omega), hb, number]
  by_cases two : c.toNat < 0x800
  · have hb := toNat_ofNat_of_lt (n := 0xC0 + c.toNat / 64) (by omega)
    refine ⟨_, _, ?_, .two (b := UInt8.ofNat (0xC0 + c.toNat / 64)) (by omega) (by omega) (isTrail_ofNat c.toNat),
      Fin.ext ?_⟩
    · simp only [encodePoint, number, one, two, if_true, if_false]
    · rw [assemble_two (by omega) (by omega) (isTrail_ofNat _), hb, hz, number]
      omega
  by_cases three : c.toNat < 0x10000
  · have hb := toNat_ofNat_of_lt (n := 0xE0 + c.toNat / 4096) (by omega)
    refine ⟨_, _, ?_, .three (b := UInt8.ofNat (0xE0 + c.toNat / 4096)) (by omega) (by omega) (by omega) (by omega)
      (isTrail_ofNat (c.toNat / 64)) (isTrail_ofNat c.toNat), Fin.ext ?_⟩
    · simp only [encodePoint, number, one, two, three, if_true, if_false]
    · rw [assemble_three (by omega) (by omega) (isTrail_ofNat _) (isTrail_ofNat _), hb, hy, hz, number]
      omega
  · have hb := toNat_ofNat_of_lt (n := 0xF0 + c.toNat / 262144) (by omega)
    refine ⟨_, _, ?_, .four (b := UInt8.ofNat (0xF0 + c.toNat / 262144)) (by omega) (by omega) (by omega) (by omega)
      (isTrail_ofNat (c.toNat / 4096)) (isTrail_ofNat (c.toNat / 64)) (isTrail_ofNat c.toNat), Fin.ext ?_⟩
    · simp only [encodePoint, number, one, two, three, if_false]
    · rw [assemble_four (by omega) (by omega) (by omega) (isTrail_ofNat _) (isTrail_ofNat _) (isTrail_ofNat _),
        hb, hx, hy,
        hz, number]
      omega

theorem piecesFrom_append (done before : List Piece) (bs : Bytes) :
    piecesFrom (done ++ before) bs = before.reverse ++ piecesFrom done bs := by
  fun_induction piecesFrom done bs with
  | case1 done => simp [piecesFrom]
  | case2 done b rest p ih =>
    rw [piecesFrom]
    exact ih

theorem pieces_cons (b : UInt8) (rest : Bytes) :
    pieces (b :: rest) = piece b rest :: pieces (rest.drop ((piece b rest).size - 1)) := by
  rw [pieces, piecesFrom]
  exact piecesFrom_append [] [piece b rest] _

theorem encodeChars_cons (c : Char) (cs : List Char) :
    encodeChars (c :: cs) = encodePoint (.ofChar c) ++ encodeChars cs :=
  List.flatMap_cons

/-- The pieces of an encoding are its characters. -/
theorem pieces_encodeChars (cs : List Char) :
    pieces (encodeChars cs) = cs.map fun c => .point (.ofChar c) (encodePoint (.ofChar c)).length := by
  induction cs with
  | nil => simp [encodeChars, pieces, piecesFrom]
  | cons c cs ih =>
    obtain ⟨b, tail, bytes, formed, same⟩ := exists_wellFormed c
    obtain ⟨l, spells⟩ := formed.exists_spells
    have cut : piece b (tail ++ encodeChars cs) = .point (.ofChar c) (encodePoint (.ofChar c)).length := by
      rw [piece_append spells, same, bytes, List.length_cons, Nat.add_comm]
    have size : (piece b (tail ++ encodeChars cs)).size - 1 = tail.length := by
      rw [cut, bytes]
      rfl
    rw [encodeChars_cons, bytes, List.cons_append, pieces_cons, size, List.drop_left, cut, ih, List.map_cons]

/-- Bytes that are cut without a defect are an encoding. -/
theorem exists_encodeChars {bs : Bytes} (h : ∀ p ∈ pieces bs, ∃ c n, p = .point c n) :
    ∃ cs, bs = encodeChars cs := by
  induction hlen : bs.length using Nat.strong_induction_on generalizing bs with
  | _ length ih =>
    cases bs with
    | nil => exact ⟨[], rfl⟩
    | cons b rest =>
      rw [pieces_cons] at h
      obtain ⟨p, n, hp⟩ := h _ List.mem_cons_self
      obtain ⟨tail, left, l, rfl, spells, rfl, rfl⟩ := spells_of_piece hp
      have size : (piece b (tail ++ left)).size - 1 = tail.length := by
        rw [hp]
        simp only [Piece.size]
        omega
      rw [size, List.drop_left] at h
      have shorter : left.length < length := by
        simp only [← hlen, List.length_cons, List.length_append]
        omega
      obtain ⟨cs, rfl⟩ := ih left.length shorter (fun q hq => h q (List.mem_cons_of_mem _ hq)) rfl
      obtain ⟨bytes, scalar⟩ := spells.wellFormed.encodePoint_assemble
      obtain ⟨c, hc⟩ := CodePoint.exists_ofChar scalar
      exact ⟨c :: cs, by rw [encodeChars_cons, ← hc, bytes, List.cons_append]⟩

theorem firstDefect_eq_none_iff {position : Nat} {ps : List Piece} :
    firstDefect position ps = none ↔ ∀ p ∈ ps, ∃ c n, p = .point c n := by
  induction ps generalizing position with
  | nil => simp [firstDefect]
  | cons p ps ih =>
    cases p with
    | point c n => simp [firstDefect, ih]
    | defect d n => simp [firstDefect]

end Utf8

namespace Encoding

theorem decodeStrict_encode (s : String) : decodeStrict (Utf8.encode s) = .ok (Text.ofString s) := by
  have cut := Utf8.pieces_encodeChars s.toList
  have sound : Utf8.firstDefect 0 (Utf8.pieces (Utf8.encodeChars s.toList)) = none := by
    rw [Utf8.firstDefect_eq_none_iff, cut]
    intro p hp
    obtain ⟨c, -, rfl⟩ := List.mem_map.1 hp
    exact ⟨_, _, rfl⟩
  have points : Utf8.points (Utf8.pieces (Utf8.encodeChars s.toList)) = Text.ofString s := by
    rw [cut]
    simp [Utf8.points, Text.ofString, List.filterMap_map]
  simp only [decodeStrict, Utf8.encode, sound, points]

/-- The bytes that have a text are the encodings of strings. -/
theorem decodeStrict_eq_ok_iff {bs : Bytes} {t : Text} :
    decodeStrict bs = .ok t ↔ ∃ s, bs = Utf8.encode s ∧ t = Text.ofString s := by
  constructor
  · intro h
    have sound : Utf8.firstDefect 0 (Utf8.pieces bs) = none := by
      simp only [decodeStrict] at h
      split at h
      · assumption
      · cases h
    obtain ⟨cs, rfl⟩ := Utf8.exists_encodeChars (Utf8.firstDefect_eq_none_iff.1 sound)
    have same : Utf8.encode (String.ofList cs) = Utf8.encodeChars cs := by
      rw [Utf8.encode, String.toList_ofList]
    refine ⟨String.ofList cs, same.symm, ?_⟩
    rw [← same, decodeStrict_encode] at h
    cases h
    rfl
  · rintro ⟨s, rfl, rfl⟩
    exact decodeStrict_encode s

end Encoding

end ProofRelay
