import ProofRelay.Proofs.Bytes.Utf8
import ProofRelay.Proofs.Json.Documents

/-!
A document is read back from its text. What was written for a value is read as that value with its members
in the order of their names, whatever closes it in the text, if there is as much fuel as there are
characters. So the text of a document is read back as the same document, and only the same documents have
the same text.
-/

namespace ProofRelay.Json

/-- The marks that can follow a value. -/
def closers : List CodePoint := [point ',', point ']', point '}']

/-- What can follow a value: nothing, or something that starts with such a mark. -/
inductive Closes : Text → Prop where
  | nil : Closes []
  | cons {p : CodePoint} {rest : Text} (mark : p ∈ closers) : Closes (p :: rest)

/-- The text starts with a character that is no space and closes nothing. -/
def Opens (cs : List Char) : Prop :=
  ∃ c tail, cs = c :: tail ∧ isSpace (point c) = false ∧ point c ∉ closers

section Numbers

variable {l : Limits} {rest : Text} {n : Nat}

theorem exists_natDigits_eq (n : Nat) : ∃ c tail, Decimal.natDigits n = c :: tail ∧ isDigit (point c) = true := by
  obtain ⟨c, tail, shape⟩ := List.exists_cons_of_ne_nil (@Nat.toDigits_ne_nil n 10)
  refine ⟨c, tail, shape, isDigit_natDigits (n := n) ?_⟩
  rw [Decimal.natDigits, shape]
  exact List.mem_cons_self

/-- What is no digit is not the first of them. -/
theorem ne_of_isDigit {p q : CodePoint} (digit : isDigit p = true) (other : isDigit q = false) : p ≠ q := by
  rintro rfl
  rw [digit] at other
  cases other

theorem not_mem_of_isDigit {p : CodePoint} {marks : List CodePoint} (digit : isDigit p = true)
    (others : marks.any isDigit = false) : p ∉ marks := by
  intro mem
  rw [List.any_eq_false] at others
  exact others p mem digit

theorem isSpace_of_isDigit {p : CodePoint} (digit : isDigit p = true) : isSpace p = false := by
  rw [isDigit, Bool.and_eq_true, decide_eq_true_eq, decide_eq_true_eq] at digit
  simp only [isSpace, Bool.or_eq_false_iff, beq_eq_false_iff_ne]
  omega

theorem digitsOf_natDigits (n : Nat) : digitsOf (points (Decimal.natDigits n)) = n := by
  rw [digitsOf, points, List.foldl_map]
  exact Nat.ofDigitChars_ten_toDigits

/-- A number has no leading zeros. -/
theorem head?_natDigits_ne (pos : 0 < n) : (Decimal.natDigits n).head? ≠ some '0' := by
  induction n using Nat.strongRecOn with
  | ind n ih =>
    by_cases large : 10 ≤ n
    · obtain ⟨c, tail, shape⟩ := List.exists_cons_of_ne_nil (@Nat.toDigits_ne_nil (n / 10) 10)
      have first := ih (n / 10) (by omega) (by omega)
      rw [Decimal.natDigits, shape] at first
      rw [Decimal.natDigits, Nat.toDigits_of_base_le (by decide) large, shape]
      exact first
    · have digits : ∀ k < 10, Nat.digitChar k = '0' → k = 0 := by decide
      rw [Decimal.natDigits, Nat.toDigits_of_lt_base (by omega), List.head?_cons]
      intro zero
      have := digits n (by omega) (Option.some.inj zero)
      omega

/-- No digit, point or exponent starts what closes a value. -/
theorem Closes.plain (closes : Closes rest) : rest.takeWhile isDigit = [] ∧ rest.dropWhile isDigit = rest ∧
    fraction? rest = none ∧ exponent? rest = none := by
  cases closes with
  | nil => exact ⟨rfl, rfl, rfl, rfl⟩
  | cons mark =>
    simp only [closers, List.mem_cons, List.not_mem_nil, or_false] at mark
    rcases mark with rfl | rfl | rfl
    · exact ⟨rfl, rfl, rfl, rfl⟩
    · exact ⟨rfl, rfl, rfl, rfl⟩
    · exact ⟨rfl, rfl, rfl, rfl⟩

/-- The digits of a number are read up to where they end. -/
theorem wholePart?_natDigits (n : Nat) (closes : Closes rest) :
    wholePart? (points (Decimal.natDigits n) ++ rest) = some (points (Decimal.natDigits n), rest) := by
  by_cases pos : 0 < n
  · obtain ⟨c, tail, shape⟩ := List.exists_cons_of_ne_nil (@Nat.toDigits_ne_nil n 10)
    have leading := head?_natDigits_ne pos
    have digits : ∀ d ∈ c :: tail, isDigit (point d) = true := fun d mem => isDigit_natDigits (shape ▸ mem)
    rw [List.forall_mem_cons] at digits
    have others : ∀ p ∈ points tail, isDigit p = true := List.forall_mem_map.2 digits.2
    rw [Decimal.natDigits, shape] at leading ⊢
    have nonzero : point c ≠ point '0' := by
      intro same
      exact leading (congrArg some (eq_of_val_ofChar (congrArg Fin.val same)))
    rw [points_cons, List.cons_append, wholePart?, if_neg nonzero, if_pos digits.1, List.takeWhile_append_of_pos others,
      List.dropWhile_append_of_pos others, closes.plain.1, closes.plain.2.1, List.append_nil]
  · obtain rfl : n = 0 := by omega
    rfl

/-- The text of an integer starts with a digit, or with a sign and a digit. -/
theorem exists_writeChars_int (i : Int) : ∃ c tail, isDigit (point c) = true ∧
    (writeChars (.int i) = c :: tail ∨ writeChars (.int i) = '-' :: c :: tail) := by
  obtain ⟨c, tail, shape, digit⟩ := exists_natDigits_eq i.natAbs
  refine ⟨c, tail, digit, ?_⟩
  rw [writeChars_int, shape]
  split
  · exact .inr rfl
  · exact .inl rfl

/-- An integer is read back from its text, if it is not too long. -/
theorem readNumber_int {i : Int} (short : l.exceeded (Decimal.natDigits i.natAbs).length = false)
    (closes : Closes rest) : readNumber l (points (writeChars (.int i)) ++ rest) = .ok (.int i, rest) := by
  have whole := wholePart?_natDigits i.natAbs closes
  obtain ⟨-, -, noFraction, noExponent⟩ := closes.plain
  rw [writeChars_int]
  split
  · have value : -((i.natAbs : Nat) : Int) = i := by omega
    simp only [points_cons, List.cons_append, readNumber, if_true, whole, noFraction, Option.getD_none, noExponent,
      List.isEmpty_nil, length_points, short, Bool.false_eq_true, if_false, digitsOf_natDigits, value]
  · have value : ((i.natAbs : Nat) : Int) = i := by omega
    obtain ⟨c, tail, shape, digit⟩ := exists_natDigits_eq i.natAbs
    have unsigned : point c ≠ point '-' := ne_of_isDigit digit rfl
    rw [shape, points_cons, List.cons_append] at whole ⊢
    rw [← points_cons, ← shape] at whole
    simp only [readNumber, if_neg unsigned, whole, noFraction, Option.getD_none, noExponent, List.isEmpty_nil, if_true,
      length_points, short, Bool.false_eq_true, if_false, digitsOf_natDigits, value]

end Numbers

section Words

variable {l : Limits} {fuel : Nat} {t rest : Text} {p q : CodePoint}

theorem after?_of_ne {word : String} {letters : Text} (spelled : Text.ofString word = q :: letters) (other : p ≠ q) :
    after? word (p :: rest) = none := by
  simp [after?, spelled, List.isPrefixOf, other.symm]

theorem readWord?_eq_none (absent : ∀ word ∈ words.map Prod.fst, after? word t = none) : readWord? t = none := by
  rw [readWord?, List.findSome?_eq_none_iff]
  rintro ⟨word, v⟩ mem
  simp only [absent word (List.mem_map_of_mem mem), Option.map_none]

theorem words_eq : words.map Prod.fst = ["null", "true", "false", "NaN", "Infinity", "-Infinity"] := rfl

/-- No word starts with a digit. -/
theorem readWord?_digit (digit : isDigit p = true) : readWord? (p :: rest) = none := by
  apply readWord?_eq_none
  simp only [words_eq, List.forall_mem_cons]
  refine ⟨?_, ?_, ?_, ?_, ?_, ?_, List.forall_mem_nil _⟩ <;> exact after?_of_ne rfl (ne_of_isDigit digit rfl)

/-- One word starts with a sign, and no digit follows it there. -/
theorem readWord?_sign (digit : isDigit p = true) : readWord? (point '-' :: p :: rest) = none := by
  have infinite : after? "-Infinity" (point '-' :: p :: rest) = none := by
    obtain ⟨letters, spelled⟩ : ∃ letters, Text.ofString "-Infinity" = point '-' :: point 'I' :: letters := ⟨_, rfl⟩
    have other : point 'I' ≠ p := (ne_of_isDigit digit rfl).symm
    simp [after?, spelled, List.isPrefixOf, other]
  apply readWord?_eq_none
  simp only [words_eq, List.forall_mem_cons]
  refine ⟨?_, ?_, ?_, ?_, ?_, infinite, List.forall_mem_nil _⟩ <;> exact after?_of_ne rfl (by decide)

/-- The marks with which a string, an object and a list start. -/
def openers : List CodePoint := [point '"', point '{', point '[']

theorem readValue_word {result : Json × Text} (plain : p ∉ openers) (word : readWord? (p :: rest) = some result) :
    readValue l (fuel + 1) (p :: rest) = .ok result := by
  simp only [openers, List.mem_cons, List.not_mem_nil, or_false, not_or] at plain
  rw [readValue, if_neg plain.1, if_neg plain.2.1, if_neg plain.2.2, word]

theorem readValue_number (plain : p ∉ openers) (other : readWord? (p :: rest) = none) :
    readValue l (fuel + 1) (p :: rest) = readNumber l (p :: rest) := by
  simp only [openers, List.mem_cons, List.not_mem_nil, or_false, not_or] at plain
  rw [readValue, if_neg plain.1, if_neg plain.2.1, if_neg plain.2.2, other]

end Words

section Values

variable {l : Limits} {fuel : Nat} {rest : Text} {v : Json}

/-- A value that is read back from its text, with its members in order, whatever closes it. -/
structure ReadsBack (l : Limits) (v : Json) : Prop where
  opens : Opens (writeChars v)
  read : ∀ fuel rest, (writeChars v).length ≤ fuel + 1 → Closes rest →
    readValue l (fuel + 1) (points (writeChars v) ++ rest) = .ok (v.inOrder, rest)

theorem Opens.skipSpace {cs : List Char} (opens : Opens cs) (rest : Text) :
    skipSpace (points cs ++ rest) = points cs ++ rest := by
  obtain ⟨c, tail, rfl, dark, -⟩ := opens
  rw [points_cons, List.cons_append, Json.skipSpace, List.dropWhile_cons, dark]
  rfl

theorem skipSpace_space (rest : Text) : skipSpace (point ' ' :: rest) = skipSpace rest := rfl

theorem Closes.skipSpace (closes : Closes rest) : skipSpace rest = rest := by
  cases closes with
  | nil => rfl
  | cons mark =>
    simp only [closers, List.mem_cons, List.not_mem_nil, or_false] at mark
    rcases mark with rfl | rfl | rfl
    · rfl
    · rfl
    · rfl

theorem readsBack_null : ReadsBack l .null where
  opens := ⟨'n', _, rfl, rfl, by decide⟩
  read := by
    intro fuel rest _ _
    exact readValue_word (by decide) rfl

theorem readsBack_bool (b : Bool) : ReadsBack l (.bool b) := by
  cases b with
  | false =>
    refine ⟨⟨'f', _, rfl, rfl, by decide⟩, ?_⟩
    intro fuel rest _ _
    exact readValue_word (by decide) rfl
  | true =>
    refine ⟨⟨'t', _, rfl, rfl, by decide⟩, ?_⟩
    intro fuel rest _ _
    exact readValue_word (by decide) rfl

theorem readsBack_int {i : Int} (short : l.exceeded (Decimal.natDigits i.natAbs).length = false) :
    ReadsBack l (.int i) := by
  obtain ⟨c, tail, digit, text | text⟩ := exists_writeChars_int i
  · refine ⟨⟨c, tail, text, isSpace_of_isDigit digit, not_mem_of_isDigit digit rfl⟩, ?_⟩
    intro fuel rest _ closes
    have number := readNumber_int short closes
    rw [text, points_cons, List.cons_append] at number ⊢
    rw [readValue_number (not_mem_of_isDigit digit rfl) (readWord?_digit digit), number, inOrder]
  · refine ⟨⟨'-', c :: tail, text, rfl, by decide⟩, ?_⟩
    intro fuel rest _ closes
    have number := readNumber_int short closes
    rw [text, points_cons, points_cons, List.cons_append, List.cons_append] at number ⊢
    rw [readValue_number (by decide) (readWord?_sign digit), number, inOrder]

theorem readsBack_str (s : String) : ReadsBack l (.str (Text.ofString s)) where
  opens := ⟨'"', _, rfl, rfl, by decide⟩
  read := by
    intro fuel rest _ _
    rw [writeChars, points_writeText, readValue, if_pos rfl, readString_writeText]
    rfl

theorem Opens.length_pos {cs : List Char} (opens : Opens cs) : 0 < cs.length := by
  obtain ⟨c, tail, rfl, -⟩ := opens
  exact Nat.succ_pos _

theorem opens_joinComma {text : List Char} (texts : List (List Char)) (opens : Opens text) :
    Opens (joinComma (text :: texts)) := by
  obtain ⟨c, tail, rfl, dark, mark⟩ := opens
  cases texts with
  | nil => exact ⟨c, tail, rfl, dark, mark⟩
  | cons next texts => exact ⟨c, _, rfl, dark, mark⟩

section Items

variable {done : List Json} {q : CodePoint}

/-- An item is read back, and the mark that closes it tells what to do next. -/
theorem readItems_item (reads : ReadsBack l v) (enough : (writeChars v).length ≤ fuel + 1) (mark : q ∈ closers) :
    readItems l (fuel + 2) done (points (writeChars v) ++ q :: rest) =
      if q = point ']' then .ok (.arr (v.inOrder :: done).reverse, rest)
      else if q = point ',' then readItems l (fuel + 1) (v.inOrder :: done) (skipSpace rest)
      else fail .comma (q :: rest) := by
  have closes : Closes (q :: rest) := .cons mark
  rw [readItems, reads.read fuel _ enough closes]
  simp only [closes.skipSpace]

/-- The items of a list are read back one after another, behind those that were read before. -/
theorem readItems_joinComma {items : List Json} (each : ∀ v ∈ items, ReadsBack l v) (occupied : items ≠ [])
    (enough : (joinComma (items.map writeChars)).length ≤ fuel) :
    readItems l (fuel + 1) done (points (joinComma (items.map writeChars)) ++ point ']' :: rest) =
      .ok (.arr (done.reverse ++ items.map inOrder), rest) := by
  induction items generalizing done fuel with
  | nil => exact absurd rfl occupied
  | cons v items ih =>
    rw [List.forall_mem_cons] at each
    have positive := each.1.opens.length_pos
    cases items with
    | nil =>
      rw [List.map_singleton, joinComma_singleton] at enough ⊢
      obtain ⟨fuel, rfl⟩ : ∃ k, fuel = k + 1 := Nat.exists_eq_succ_of_ne_zero (by omega)
      rw [readItems_item each.1 enough (by decide), if_pos rfl, List.reverse_cons, List.map_singleton]
    | cons next items =>
      have opens := opens_joinComma (items.map writeChars) (each.2 next List.mem_cons_self).opens
      rw [List.map_cons, List.map_cons, joinComma_cons_cons] at enough ⊢
      simp only [List.length_append, List.length_cons] at enough
      obtain ⟨fuel, rfl⟩ : ∃ k, fuel = k + 1 := Nat.exists_eq_succ_of_ne_zero (by omega)
      have later := @ih fuel (v.inOrder :: done) each.2 (by simp)
      rw [List.map_cons] at later
      rw [points_append, points_cons, points_cons, List.append_assoc, List.cons_append, List.cons_append,
        readItems_item each.1 (by omega) (by decide), if_neg (by decide), if_pos rfl, skipSpace_space, opens.skipSpace,
        later (by omega)]
      simp

end Items

section Members

variable {done : List (Text × Json)} {m : Text × Json} {q : CodePoint}

/-- A member that is read back: its name is of characters, and its value is read back. -/
structure MemberReadsBack (l : Limits) (m : Text × Json) : Prop where
  name : ∃ s, m.1 = Text.ofString s
  value : ReadsBack l m.2

theorem points_memberText (m : Text × Json) (rest : Text) : points (memberText m) ++ rest =
    point '"' :: (points (m.1.flatMap writePoint) ++
      point '"' :: point ':' :: point ' ' :: (points (writeChars m.2) ++ rest)) := by
  rw [memberText, points_append, List.append_assoc, points_writeText]
  rfl

theorem opens_memberText (m : Text × Json) : Opens (memberText m) := ⟨'"', _, rfl, rfl, by decide⟩

/-- A member is read back, and the mark that closes it tells what to do next. -/
theorem readMembers_member (reads : MemberReadsBack l m) (enough : (memberText m).length ≤ fuel + 1)
    (mark : q ∈ closers) : readMembers l (fuel + 2) done (points (memberText m) ++ q :: rest) =
      if q = point '}' then .ok (.obj (putMember m.1 m.2.inOrder done), rest)
      else if q = point ',' then readMembers l (fuel + 1) (putMember m.1 m.2.inOrder done) (skipSpace rest)
      else fail .comma (q :: rest) := by
  obtain ⟨k, v⟩ := m
  obtain ⟨⟨name, rfl⟩, value⟩ := reads
  have closes : Closes (q :: rest) := .cons mark
  have colon (t : Text) : skipSpace (point ':' :: t) = point ':' :: t := rfl
  have short : (writeChars v).length ≤ fuel + 1 := by
    simp only [memberText, List.length_append, List.length_cons] at enough
    omega
  rw [points_memberText, readMembers, if_pos rfl, readString_writeText]
  simp only [colon, if_true, skipSpace_space, value.opens.skipSpace, value.read fuel _ short closes, closes.skipSpace]

/-- The members of an object are read back one after another, each put to those that were read before. -/
theorem readMembers_joinComma {members : List (Text × Json)} (each : ∀ m ∈ members, MemberReadsBack l m)
    (occupied : members ≠ []) (enough : (joinComma (members.map memberText)).length ≤ fuel) :
    readMembers l (fuel + 1) done (points (joinComma (members.map memberText)) ++ point '}' :: rest) =
      .ok (.obj (members.foldl (fun done m => putMember m.1 m.2.inOrder done) done), rest) := by
  induction members generalizing done fuel with
  | nil => exact absurd rfl occupied
  | cons m members ih =>
    rw [List.forall_mem_cons] at each
    have positive := (opens_memberText m).length_pos
    cases members with
    | nil =>
      rw [List.map_singleton, joinComma_singleton] at enough ⊢
      obtain ⟨fuel, rfl⟩ : ∃ k, fuel = k + 1 := Nat.exists_eq_succ_of_ne_zero (by omega)
      rw [readMembers_member each.1 enough (by decide), if_pos rfl, List.foldl_cons, List.foldl_nil]
    | cons next members =>
      have opens := opens_joinComma (members.map memberText) (opens_memberText next)
      rw [List.map_cons, List.map_cons, joinComma_cons_cons] at enough ⊢
      simp only [List.length_append, List.length_cons] at enough
      obtain ⟨fuel, rfl⟩ : ∃ k, fuel = k + 1 := Nat.exists_eq_succ_of_ne_zero (by omega)
      have later := @ih fuel (putMember m.1 m.2.inOrder done) each.2 (by simp)
      rw [List.map_cons] at later
      rw [points_append, points_cons, points_cons, List.append_assoc, List.cons_append, List.cons_append,
        readMembers_member each.1 (by omega) (by decide), if_neg (by decide), if_pos rfl, skipSpace_space,
        opens.skipSpace, later (by omega)]
      rfl

/-- A new member is put at the end. -/
theorem putMember_of_not_mem {k : Text} (fresh : k ∉ done.map Prod.fst) : putMember k v done = done ++ [(k, v)] := by
  induction done with
  | nil => rfl
  | cons m done ih =>
    obtain ⟨k', v'⟩ := m
    rw [List.map_cons, List.mem_cons, not_or] at fresh
    rw [putMember, if_neg fresh.1, ih fresh.2, List.cons_append]

/-- Members with different names stay as they come. -/
theorem foldl_putMember {members : List (Text × Json)} (distinct : ((done ++ members).map Prod.fst).Nodup) :
    members.foldl (fun done m => putMember m.1 m.2.inOrder done) done =
      done ++ members.map fun m => (m.1, m.2.inOrder) := by
  induction members generalizing done with
  | nil => simp
  | cons m members ih =>
    have fresh : m.1 ∉ done.map Prod.fst := by
      intro mem
      rw [List.map_append, List.map_cons] at distinct
      exact (List.nodup_append.1 distinct).2.2 _ mem _ List.mem_cons_self rfl
    have moved : ((done ++ [(m.1, m.2.inOrder)] ++ members).map Prod.fst).Nodup := by
      simpa using distinct
    rw [List.foldl_cons, putMember_of_not_mem fresh, ih moved, List.append_assoc, List.singleton_append, List.map_cons]

end Members

end Values

section Documents

variable {l l' : Limits} {fuel : Nat} {rest : Text} {d : Json}

theorem readValue_items {cs : List Char} (room : l.inside? = some l') (opens : Opens cs) :
    readValue l (fuel + 1) (point '[' :: (points cs ++ rest)) = readItems l' fuel [] (points cs ++ rest) := by
  have same := opens.skipSpace rest
  obtain ⟨c, tail, rfl, -, mark⟩ := opens
  have other : point c ≠ point ']' := by
    rintro same
    exact mark (same ▸ by decide)
  rw [points_cons, List.cons_append] at same ⊢
  rw [readValue, if_neg (by decide), if_neg (by decide), if_pos rfl]
  simp only [room, same, if_neg other]

theorem readValue_members {cs : List Char} (room : l.inside? = some l') (opens : Opens cs) :
    readValue l (fuel + 1) (point '{' :: (points cs ++ rest)) = readMembers l' fuel [] (points cs ++ rest) := by
  have same := opens.skipSpace rest
  obtain ⟨c, tail, rfl, -, mark⟩ := opens
  have other : point c ≠ point '}' := by
    rintro same
    exact mark (same ▸ by decide)
  rw [points_cons, List.cons_append] at same ⊢
  rw [readValue, if_neg (by decide), if_pos rfl]
  simp only [room, same, if_neg other]

theorem readsBack_arr {items : List Json} (room : l.inside? = some l') (each : ∀ v ∈ items, ReadsBack l' v) :
    ReadsBack l (.arr items) := by
  refine ⟨⟨'[', _, writeChars_arr items, rfl, by decide⟩, ?_⟩
  intro fuel rest enough _
  cases items with
  | nil =>
    change readValue l (fuel + 1) (point '[' :: point ']' :: rest) = _
    rw [readValue, if_neg (by decide), if_neg (by decide), if_pos rfl]
    simp only [room]
    rfl
  | cons v items =>
    have opens := opens_joinComma (items.map writeChars) (each v List.mem_cons_self).opens
    rw [← List.map_cons] at opens
    rw [writeChars_arr] at enough ⊢
    simp only [List.length_append, List.length_cons, List.length_nil] at enough
    obtain ⟨fuel, rfl⟩ : ∃ k, fuel = k + 1 := Nat.exists_eq_succ_of_ne_zero (by omega)
    rw [points_cons, points_append, List.cons_append, List.append_assoc, points_cons, points_nil, List.singleton_append,
      readValue_items room opens, readItems_joinComma each (by simp) (by omega), inOrder, itemsInOrder_eq]
    rfl

theorem readsBack_obj {members : List (Text × Json)} (room : l.inside? = some l')
    (distinct : (members.map Prod.fst).Nodup) (each : ∀ m ∈ members, MemberReadsBack l' m) :
    ReadsBack l (.obj members) := by
  refine ⟨⟨'{', _, writeChars_obj members, rfl, by decide⟩, ?_⟩
  intro fuel rest enough _
  rw [writeChars_obj] at enough ⊢
  rw [inOrder_obj]
  have sorted : ∀ m ∈ sortByName members, MemberReadsBack l' m :=
    fun m mem => each m ((sortByName_perm members).mem_iff.1 mem)
  have distinct := nodup_sortByName distinct
  -- From here on it does not matter that the members are in order.
  generalize sortByName members = members at *
  cases members with
  | nil =>
    change readValue l (fuel + 1) (point '{' :: point '}' :: rest) = _
    rw [readValue, if_neg (by decide), if_pos rfl]
    simp only [room]
    rfl
  | cons m members =>
    have opens := opens_joinComma (members.map memberText) (opens_memberText m)
    rw [← List.map_cons] at opens
    simp only [List.length_append, List.length_cons, List.length_nil] at enough
    obtain ⟨fuel, rfl⟩ : ∃ k, fuel = k + 1 := Nat.exists_eq_succ_of_ne_zero (by omega)
    rw [points_cons, points_append, List.cons_append, List.append_assoc, points_cons, points_nil, List.singleton_append,
      readValue_members room opens, readMembers_joinComma sorted (by simp) (by omega), foldl_putMember distinct,
      List.nil_append]

/-- Every document is read back. -/
theorem IsDocument.readsBack (document : IsDocument l d) : ReadsBack l d := by
  induction document with
  | null => exact readsBack_null
  | bool b => exact readsBack_bool b
  | int n short => exact readsBack_int short
  | str s => exact readsBack_str s
  | arr room _ ih => exact readsBack_arr room ih
  | obj room distinct names _ ih => exact readsBack_obj room distinct fun m mem => ⟨names m mem, ih m mem⟩

/-- The text of a document is read as the document with its members in order. -/
theorem IsDocument.readDocumentWithin_writeChars (document : IsDocument l d) :
    readDocumentWithin l (Text.ofString (String.ofList (writeChars d))) = .ok d.inOrder := by
  obtain ⟨opens, read⟩ := document.readsBack
  have ascii := document.isAscii
  have same := opens.skipSpace []
  have whole := read (2 * (writeChars d).length + 1) [] (by omega) .nil
  have fuel : fuelFor (points (writeChars d)) = 2 * (writeChars d).length + 1 + 1 := by rw [fuelFor, length_points]
  rw [List.append_nil] at same whole
  rw [← fuel] at whole
  rw [ofString_ofList]
  obtain ⟨c, tail, shape, -, -⟩ := opens
  rw [shape] at ascii
  have unmarked : (point c).val ≠ 0xFEFF := by
    have small : (point c).val < 128 := (isAscii_cons.1 ascii).1
    omega
  rw [shape, points_cons] at same whole ⊢
  rw [readDocumentWithin, if_neg unmarked, same, whole]
  rfl

/-- Documents are the same just if they have the same text. -/
theorem IsDocument.same_iff {d' : Json} (document : IsDocument l d) (document' : IsDocument l d') :
    Same d d' ↔ writeChars d = writeChars d' := by
  constructor
  · exact writeChars_eq_of_same document document'
  · intro same
    have read := document.readDocumentWithin_writeChars
    rw [same, document'.readDocumentWithin_writeChars] at read
    have ordered := document'.same_inOrder
    rw [Except.ok.inj read] at ordered
    exact document.same_inOrder.trans ordered.symm

/-- A document has a text just if it is within the limits of the writer. -/
theorem IsDocument.write_eq_ok_iff {levels : Nat} {text : String} (document : IsDocument .none d) :
    d.write levels = .ok text ↔ IsDocument (.of levels) d ∧ text = String.ofList (writeChars d) := by
  rw [← document.obstacle?_eq_none_iff, write]
  cases Passage.writing.obstacle? levels d with
  | none => simp [eq_comm]
  | some o => simp

end Documents

section Bytes

/-- A text of ASCII is encoded in bytes of ASCII. -/
theorem encode_ascii {cs : List Char} (ascii : IsAscii cs) : ∀ b ∈ Utf8.encode (String.ofList cs), b.toNat < 128 := by
  intro b mem
  rw [Utf8.encode, String.toList_ofList, Utf8.encodeChars] at mem
  obtain ⟨c, inside, mem⟩ := List.mem_flatMap.1 mem
  have small : (CodePoint.ofChar c).val < 0x80 := ascii c inside
  simp only [Utf8.encodePoint, if_pos small, List.mem_singleton] at mem
  rw [mem, UInt8.toNat_ofNat']
  omega

/-- A text from which a document is read back: it is of ASCII, its bytes are read as it, and whoever reads JSON with
limits that the document keeps gets the same document. -/
structure ReadsAs (d : Json) (text : String) : Prop where
  ascii : ∀ b ∈ Utf8.encode text, b.toNat < 128
  decoded : Encoding.decodeStrict (Utf8.encode text) = .ok (Text.ofString text)
  read : ∀ l, d.IsDocument l → ∃ back, readDocumentWithin l (Text.ofString text) = .ok back ∧ d.Same back ∧
    back.IsDocument l

theorem readsAs_write {d : Json} {levels : Nat} {text : String} (document : d.IsDocument .none)
    (written : d.write levels = .ok text) : ReadsAs d text := by
  obtain ⟨-, rfl⟩ := document.write_eq_ok_iff.1 written
  exact ⟨encode_ascii document.isAscii, Encoding.decodeStrict_encode _,
    fun l within => ⟨d.inOrder, within.readDocumentWithin_writeChars, within.same_inOrder, within.inOrder⟩⟩

end Bytes

section Brackets

/-- Lists in lists, so many of them in the outermost. -/
def brackets : Nat → Json
  | 0 => .arr []
  | n + 1 => .arr [brackets n]

theorem isDocument_brackets (n : Nat) : (brackets n).IsDocument .none := by
  induction n with
  | zero => exact .arr rfl (List.forall_mem_nil _)
  | succ n ih => exact .arr rfl (List.forall_mem_singleton.2 ih)

end Brackets

end ProofRelay.Json
