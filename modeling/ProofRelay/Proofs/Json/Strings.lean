import ProofRelay.Json.Reader
import ProofRelay.Json.Writer
import ProofRelay.Proofs.Bytes.Hex
import ProofRelay.Proofs.Bytes.Utf8

/-!
A string that is written in a document is read back, and it is written in ASCII alone. A character stands
for itself, or it is escaped: by a letter, by its number, or, beyond the first 65536, by the two numbers of
a pair of surrogates. Each form is read back as that one character, whatever follows in the document.
-/

namespace ProofRelay.Json

/-- The code points of characters. -/
def points (cs : List Char) : Text := cs.map CodePoint.ofChar

@[simp] theorem points_nil : points [] = [] := rfl

@[simp] theorem points_cons (c : Char) (cs : List Char) : points (c :: cs) = point c :: points cs := rfl

@[simp] theorem points_append (cs ds : List Char) : points (cs ++ ds) = points cs ++ points ds := List.map_append

@[simp] theorem length_points (cs : List Char) : (points cs).length = cs.length := List.length_map _

theorem ofString_ofList (cs : List Char) : Text.ofString (String.ofList cs) = points cs := by
  rw [Text.ofString, String.toList_ofList]
  rfl

section Escapes

variable {start rest : Text} {e : CodePoint} {n : Nat}

theorem hexPoint?_hexDigit {k : Nat} (small : k < 16) : hexPoint? (point (Bytes.hexDigit k)) = some k := by
  rw [hexPoint?, point, CodePoint.toChar?_ofChar, Option.bind_some]
  exact (Bytes.hexDigit_spec ⟨k, small⟩).2.2

/-- The digits of a unit are read back, if something follows them. -/
theorem hexUnit?_digits (small : n < 0x10000) :
    hexUnit? (point (Bytes.hexDigit (n / 4096 % 16)) :: point (Bytes.hexDigit (n / 256 % 16)) ::
      point (Bytes.hexDigit (n / 16 % 16)) :: point (Bytes.hexDigit (n % 16)) :: e :: rest) = some (n, e :: rest) := by
  have value : 4096 * (n / 4096 % 16) + 256 * (n / 256 % 16) + 16 * (n / 16 % 16) + n % 16 = n := by omega
  simp only [hexUnit?, hexPoint?_hexDigit (show n / 4096 % 16 < 16 by omega),
    hexPoint?_hexDigit (show n / 256 % 16 < 16 by omega), hexPoint?_hexDigit (show n / 16 % 16 < 16 by omega),
    hexPoint?_hexDigit (show n % 16 < 16 by omega), bind, Option.bind_some, pure, value]

/-- A unit that starts no pair is read as the code point with its number. -/
theorem readEscape_hexUnit (small : n < 0x10000) (single : n < 0xD800 ∨ 0xDBFF < n) :
    readEscape start (points (hexUnit n) ++ e :: rest) = .ok (CodePoint.ofNat n, e :: rest) := by
  have alone : (decide (0xD800 ≤ n) && decide (n ≤ 0xDBFF)) = false := by
    rw [Bool.and_eq_false_iff, decide_eq_false_iff_not, decide_eq_false_iff_not]
    omega
  simp only [hexUnit, points_cons, points_nil, List.cons_append, List.nil_append, readEscape, if_true,
    hexUnit?_digits small, alone, Bool.false_eq_true, if_false]

/-- A high unit and a low one after it are read as one code point. -/
theorem readEscape_pair {hi lo : Nat} (high : 0xD800 ≤ hi ∧ hi ≤ 0xDBFF) (low : 0xDC00 ≤ lo ∧ lo ≤ 0xDFFF) :
    readEscape start (points (hexUnit hi) ++ (points (hexUnit lo) ++ e :: rest)) =
      .ok (joinSurrogates hi lo, e :: rest) := by
  have isHigh : (decide (0xD800 ≤ hi) && decide (hi ≤ 0xDBFF)) = true := by simp [high]
  have isLow : (decide (0xDC00 ≤ lo) && decide (lo ≤ 0xDFFF)) = true := by simp [low]
  have second : lowHalf (points (hexUnit lo) ++ e :: rest) = .found lo (e :: rest) := by
    simp only [hexUnit, points_cons, points_nil, List.cons_append, List.nil_append, lowHalf, decide_true, Bool.and_self,
      List.length_cons, Bool.true_and, hexUnit?_digits (show lo < 0x10000 by omega), isLow, if_true]
    rw [if_pos (by simp)]
  have first : hexUnit? ((points (hexUnit hi) ++ (points (hexUnit lo) ++ e :: rest)).drop 2) =
      some (hi, points (hexUnit lo) ++ e :: rest) := by
    simp only [hexUnit, points_cons, points_nil, List.cons_append, List.nil_append, List.drop_succ_cons, List.drop_zero,
      hexUnit?_digits (show hi < 0x10000 by omega)]
  have shape : points (hexUnit hi) ++ (points (hexUnit lo) ++ e :: rest) = point '\\' :: point 'u' ::
      (points (hexUnit hi) ++ (points (hexUnit lo) ++ e :: rest)).drop 2 := rfl
  rw [shape]
  simp only [readEscape, if_true, first, isHigh, second]

end Escapes

section Points

variable {start rest : Text} {fuel : Nat} {done : List CodePoint} {c : Char}

theorem eq_of_val_ofChar {d : Char} (h : (CodePoint.ofChar c).val = d.toNat) : c = d := by
  have same : c.toNat = d.toNat := h
  rw [← Char.ofNat_toNat c, ← Char.ofNat_toNat d, same]

/-- How a character is written: escaped by a letter, as itself, by its number, or by a pair of numbers. -/
inductive Written (c : Char) : List Char → Prop where
  | letter {x : Char} (ascii : x.toNat < 128) (plain : point x ≠ point 'u')
      (escape : simpleEscape? (point x) = some (.ofChar c)) : Written c ['\\', x]
  | itself (quote : point c ≠ point '"') (backslash : point c ≠ point '\\') (least : 0x20 ≤ c.toNat)
      (greatest : c.toNat < 0x7F) : Written c [c]
  | number (small : c.toNat < 0x10000) : Written c (hexUnit c.toNat)
  | pair (large : 0x10000 ≤ c.toNat) :
      Written c (hexUnit (0xD800 + (c.toNat - 0x10000) / 1024) ++ hexUnit (0xDC00 + (c.toNat - 0x10000) % 1024))

/-- A character with the number of one that a letter stands for is escaped by that letter. -/
theorem written_letter {d x : Char} (same : (CodePoint.ofChar c).val = d.toNat) (ascii : x.toNat < 128)
    (plain : point x ≠ point 'u') (escape : simpleEscape? (point x) = some (.ofChar d)) : Written c ['\\', x] := by
  obtain rfl := eq_of_val_ofChar same
  exact .letter ascii plain escape

theorem written_writePoint (c : Char) : Written c (writePoint (.ofChar c)) := by
  have number : (CodePoint.ofChar c).val = c.toNat := rfl
  simp only [writePoint]
  split
  · exact written_letter (d := '"') (by assumption) (by decide) (by decide) rfl
  split
  · exact written_letter (d := '\\') (by assumption) (by decide) (by decide) rfl
  split
  · exact written_letter (d := '\n') (by assumption) (by decide) (by decide) rfl
  split
  · exact written_letter (d := '\r') (by assumption) (by decide) (by decide) rfl
  split
  · exact written_letter (d := '\t') (by assumption) (by decide) (by decide) rfl
  split
  · exact written_letter (d := Char.ofNat 8) (by assumption) (by decide) (by decide) rfl
  split
  · exact written_letter (d := Char.ofNat 12) (by assumption) (by decide) (by decide) rfl
  rename_i quote backslash _ _ _ _ _
  split
  · rename_i visible
    rw [Bool.and_eq_true, decide_eq_true_eq, decide_eq_true_eq] at visible
    rw [number, Char.ofNat_toNat]
    refine .itself ?_ ?_ visible.1 visible.2
    · intro same
      exact quote (congrArg Fin.val same)
    · intro same
      exact backslash (congrArg Fin.val same)
  split
  · rename_i small
    exact .number small
  · rename_i large
    exact .pair (by omega)

theorem ofNat_toNat (c : Char) : CodePoint.ofNat c.toNat = .ofChar c :=
  Fin.ext (Nat.mod_eq_of_lt (CodePoint.charBound c))

/-- A pair of surrogates stands for the character it was made from. -/
theorem joinSurrogates_split (large : 0x10000 ≤ c.toNat) :
    joinSurrogates (0xD800 + (c.toNat - 0x10000) / 1024) (0xDC00 + (c.toNat - 0x10000) % 1024) = .ofChar c := by
  have value : 0x10000 + (0xD800 + (c.toNat - 0x10000) / 1024 - 0xD800) * 1024 +
      (0xDC00 + (c.toNat - 0x10000) % 1024 - 0xDC00) = c.toNat := by omega
  rw [joinSurrogates, value, ofNat_toNat]

/-- A character that is written escaped is read back by the reader of escapes. -/
theorem readString_escape {text : Text} (first : text.head? = some (point '\\'))
    (read : readEscape start (text ++ rest) = .ok (.ofChar c, rest)) :
    readString start (fuel + 1) done (text ++ rest) = readString start fuel (.ofChar c :: done) rest := by
  cases text with
  | nil => cases first
  | cons p text =>
    cases first
    rw [List.cons_append] at read ⊢
    rw [readString, if_neg (by decide), if_pos rfl, read]

/-- A written character is read back in one step, if something follows it. -/
theorem Written.readString {text : List Char} (written : Written c text) (e : CodePoint) (rest : Text) :
    readString start (fuel + 1) done (points text ++ e :: rest) =
      readString start fuel (.ofChar c :: done) (e :: rest) := by
  cases written with
  | letter _ plain escape =>
    apply readString_escape rfl
    simp only [points_cons, points_nil, List.cons_append, List.nil_append, readEscape, if_neg plain, escape]
  | itself quote backslash least _ =>
    have control : ¬ (point c).val < 0x20 := Nat.not_lt.2 least
    simp only [points_cons, points_nil, List.cons_append, List.nil_append, Json.readString, if_neg quote,
      if_neg backslash, if_neg control]
    rfl
  | number small =>
    -- A character is no surrogate, so its number starts no pair.
    have valid : c.toNat < 0xD800 ∨ 0xDFFF < c.toNat ∧ c.toNat < 0x110000 := c.valid
    apply readString_escape rfl
    rw [readEscape_hexUnit small (by omega), ofNat_toNat]
  | pair large =>
    have bound := CodePoint.charBound c
    apply readString_escape rfl
    rw [points_append, List.append_assoc, readEscape_pair (by omega) (by omega), joinSurrogates_split large]

end Points

section Strings

variable {start rest : Text} {fuel : Nat} {done : List CodePoint}

/-- Written characters are read back up to the quote after them; each takes one step. -/
theorem readString_chars (cs : List Char) (enough : cs.length < fuel) :
    readString start fuel done (points ((cs.map CodePoint.ofChar).flatMap writePoint) ++ point '"' :: rest) =
      .ok (done.reverse ++ cs.map CodePoint.ofChar, rest) := by
  induction cs generalizing fuel done with
  | nil =>
    obtain ⟨fuel, rfl⟩ : ∃ k, fuel = k + 1 := Nat.exists_eq_succ_of_ne_zero (by simp at enough; omega)
    simp [readString]
  | cons c cs ih =>
    simp only [List.length_cons] at enough
    obtain ⟨fuel, rfl⟩ : ∃ k, fuel = k + 1 := Nat.exists_eq_succ_of_ne_zero (by omega)
    rw [List.map_cons, List.flatMap_cons, points_append, List.append_assoc]
    -- What follows the character is another one or the quote, in any case something.
    obtain ⟨e, tail, shape⟩ := List.exists_cons_of_ne_nil
      (show points ((cs.map CodePoint.ofChar).flatMap writePoint) ++ point '"' :: rest ≠ [] by simp)
    rw [shape, (written_writePoint c).readString, ← shape, ih (by omega)]
    simp

theorem Written.length_pos {c : Char} {text : List Char} (written : Written c text) : 0 < text.length := by
  cases written <;> simp [hexUnit]

theorem length_le_flatMap_writePoint (cs : List Char) :
    cs.length ≤ ((cs.map CodePoint.ofChar).flatMap writePoint).length := by
  induction cs with
  | nil => simp
  | cons c cs ih =>
    have := (written_writePoint c).length_pos
    rw [List.map_cons, List.flatMap_cons, List.length_append, List.length_cons]
    omega

theorem points_writeText (s : Text) (rest : Text) :
    points (writeText s) ++ rest = point '"' :: (points (s.flatMap writePoint) ++ point '"' :: rest) := by
  simp [writeText]

/-- A written string is read back after its opening quote, with as much fuel as there is text. -/
theorem readString_writeText (s : String) (start rest : Text) :
    readString start ((points ((Text.ofString s).flatMap writePoint) ++ point '"' :: rest).length + 1) []
      (points ((Text.ofString s).flatMap writePoint) ++ point '"' :: rest) = .ok (Text.ofString s, rest) := by
  have long := length_le_flatMap_writePoint s.toList
  apply readString_chars
  rw [List.length_append, length_points, Text.ofString]
  omega

end Strings

section Ascii

/-- The characters are all of ASCII. -/
def IsAscii (cs : List Char) : Prop := ∀ c ∈ cs, c.toNat < 128

instance (cs : List Char) : Decidable (IsAscii cs) := List.decidableBAll (fun c : Char => c.toNat < 128) cs

theorem isAscii_cons {c : Char} {cs : List Char} : IsAscii (c :: cs) ↔ c.toNat < 128 ∧ IsAscii cs :=
  List.forall_mem_cons

theorem isAscii_append {cs ds : List Char} : IsAscii (cs ++ ds) ↔ IsAscii cs ∧ IsAscii ds :=
  List.forall_mem_append

theorem isAscii_nil : IsAscii [] := List.forall_mem_nil _

theorem isAscii_hexUnit (n : Nat) : IsAscii (hexUnit n) := by
  have digit (k : Nat) : (Bytes.hexDigit (k % 16)).toNat < 128 :=
    Bytes.hexDigits_ascii (Bytes.hexDigit_mem (Nat.mod_lt _ (by decide)))
  simp only [hexUnit, isAscii_cons]
  exact ⟨by decide, by decide, digit _, digit _, digit _, digit _, isAscii_nil⟩

theorem Written.isAscii {c : Char} {text : List Char} (written : Written c text) : IsAscii text := by
  cases written with
  | letter ascii _ _ => exact isAscii_cons.2 ⟨by decide, isAscii_cons.2 ⟨ascii, isAscii_nil⟩⟩
  | itself _ _ _ greatest => exact isAscii_cons.2 ⟨by omega, isAscii_nil⟩
  | number _ => exact isAscii_hexUnit _
  | pair _ => exact isAscii_append.2 ⟨isAscii_hexUnit _, isAscii_hexUnit _⟩

theorem isAscii_writeText (s : String) : IsAscii (writeText (Text.ofString s)) := by
  refine isAscii_cons.2 ⟨by decide, isAscii_append.2 ⟨?_, isAscii_cons.2 ⟨by decide, isAscii_nil⟩⟩⟩
  intro x mem
  obtain ⟨p, inside, mem⟩ := List.mem_flatMap.1 mem
  obtain ⟨c, -, rfl⟩ := List.mem_map.1 inside
  exact (written_writePoint c).isAscii x mem

end Ascii

end ProofRelay.Json
