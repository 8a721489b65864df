import Mathlib.Data.List.SplitBy
import ProofRelay.Proofs.Files.Tree

/-!
Texts of paths. A part of a path is a name without a slash in it. If a part is joined with the text of any directory,
and the text is read as a path, it is a file directly in that directory, and not one somewhere else. A path in its
simple form is read back from its text, and has all characters of it but slashes and dots.
-/

namespace ProofRelay.Path

/-- The text of a path in a directory. A path that begins with a slash stands for itself. -/
def join (dir name : String) : String :=
  if name.toList.head? = some '/' then name
  else if dir.toList.getLast?.all (· == '/') then dir ++ name
  else dir ++ "/" ++ name

/-- What may be a part of a path in its simple form. -/
structure IsPart (name : String) : Prop where
  nonempty : name.toList ≠ []
  noSlash : '/' ∉ name.toList
  ne_dot : name.toList ≠ ['.']

theorem IsPart.relative {name : String} (part : IsPart name) : name.toList.head? ≠ some '/' :=
  fun slash => part.noSlash (List.mem_of_head? slash)

section Parts

/-- A text is split where a slash stands. -/
theorem splitSlashes_append_slash (s t : List Char) :
    splitSlashes '/' (s ++ '/' :: t) = splitSlashes '/' s ++ ['/'] :: splitSlashes '/' t := by
  have slash : splitSlashes '/' ('/' :: t) = ['/'] :: splitSlashes '/' t := by
    rw [splitSlashes, ← List.singleton_append, List.splitBy_append (by simp)]
    rfl
  rw [splitSlashes, List.splitBy_append_cons t (by simp), ← splitSlashes, ← splitSlashes, slash]

theorem partsOf_append_slash (s t : List Char) : partsOf (s ++ '/' :: t) = partsOf s ++ partsOf t := by
  simp [partsOf, plainParts, splitSlashes_append_slash]

theorem partsOf_slashes {s : List Char} (slashes : ∀ c ∈ s, c = '/') : partsOf s = [] := by
  induction s with
  | nil => rfl
  | cons c s ih =>
    obtain ⟨rfl, rest⟩ := List.forall_mem_cons.1 slashes
    exact (partsOf_append_slash [] s).trans (ih rest)

theorem partsOf_part {name : String} (part : IsPart name) : partsOf name.toList = [name] := by
  have chain : name.toList.IsChain fun a b => (a != '/' && b != '/') = true := by
    refine List.isChain_iff_forall_rel_of_append_cons_cons.2 fun a b before after same => ?_
    have free := part.noSlash
    rw [same] at free
    simp only [List.mem_append, List.mem_cons, not_or] at free
    simp [Ne.symm free.2.1, Ne.symm free.2.2.1]
  have whole : splitSlashes '/' name.toList = [name.toList] := List.splitBy_of_isChain part.nonempty chain
  have proper : (name.toList != ['/'] && name.toList != ['.']) = true := by
    have ne_slash : name.toList ≠ ['/'] := fun same => part.noSlash (by simp [same])
    simp [ne_slash, part.ne_dot]
  rw [partsOf, plainParts, whole, List.filter_singleton, proper]
  simp

theorem isPart_of_mem {s : List Char} {name : String} (mem : name ∈ partsOf s) : IsPart name := by
  obtain ⟨p, kept, rfl⟩ := List.mem_map.1 mem
  obtain ⟨inside, proper⟩ := List.mem_filter.1 kept
  obtain ⟨ne_slash, ne_dot⟩ := Bool.and_eq_true_iff.1 proper
  rw [bne_iff_ne] at ne_slash ne_dot
  have chain := List.isChain_of_mem_splitBy inside
  refine ⟨?_, ?_, ?_⟩
  · rw [String.toList_ofList]
    exact List.ne_nil_of_mem_splitBy inside
  · rw [String.toList_ofList]
    intro slash
    obtain ⟨before, after, rfl⟩ := List.append_of_mem slash
    obtain ⟨-, behind, ahead⟩ := List.isChain_append.1 chain
    have first : before.getLast? = none := by
      refine Option.eq_none_iff_forall_ne_some.2 fun c last => ?_
      simpa using ahead c last '/' rfl
    have last : after.head? = none := by
      refine Option.eq_none_iff_forall_ne_some.2 fun c next => ?_
      simpa using (List.isChain_cons.1 behind).1 c next
    rw [List.getLast?_eq_none_iff] at first
    rw [List.head?_eq_none_iff] at last
    exact ne_slash (by rw [first, last]; rfl)
  · rwa [String.toList_ofList]

end Parts

section Reading

variable {name : String}

/-- What comes after a text that has more than slashes, or does not begin with one, does not change its root. -/
theorem rootOf_append {s t : List Char} (other : (∃ c ∈ s, c ≠ '/') ∨ t.head? ≠ some '/') :
    rootOf (s ++ t) = rootOf s := by
  have same : (s ++ t).takeWhile (· == '/') = s.takeWhile (· == '/') := by
    rw [List.takeWhile_append]
    split
    · next long =>
      have slashes : s.takeWhile (· == '/') = s := (List.takeWhile_prefix _).eq_of_length long
      rcases other with ⟨c, inside, differs⟩ | differs
      · have slash := List.all_eq_true.1 (slashes ▸ List.all_takeWhile) c inside
        exact absurd (eq_of_beq slash) differs
      · cases t with
        | nil => simpa using slashes.symm
        | cons c t =>
          have stops : (c == '/') = false := by simpa using differs
          rw [List.takeWhile_cons, stops]
          simpa using slashes.symm
    · rfl
  rw [rootOf, same, ← rootOf]

/-- A part after a slash is a file in the directory that stands before it. -/
theorem ofString_slash (part : IsPart name) {dir : String} (other : ∃ c ∈ dir.toList, c ≠ '/') :
    ofString (dir ++ "/" ++ name) = (ofString dir).child name := by
  have text : (dir ++ "/" ++ name).toList = dir.toList ++ '/' :: name.toList := by simp
  rw [ofString, text, rootOf_append (.inl other), partsOf_append_slash, partsOf_part part]
  rfl

theorem join_of_ends (part : IsPart name) {dir : String} (ends : dir.toList.getLast?.all (· == '/') = true) :
    join dir name = dir ++ name := by
  rw [join, if_neg part.relative, if_pos ends]

/-- A part joined with any directory is a file in there. -/
theorem ofString_join (part : IsPart name) (dir : String) : ofString (join dir name) = (ofString dir).child name := by
  by_cases ends : dir.toList.getLast?.all (· == '/') = true
  · have parts : partsOf (dir.toList ++ name.toList) = partsOf dir.toList ++ [name] := by
      rcases List.eq_nil_or_concat' dir.toList with empty | ⟨front, last, same⟩
      · rw [empty, List.nil_append, partsOf_part part]
        rfl
      · rw [same, List.getLast?_concat] at ends
        obtain rfl := eq_of_beq ends
        have closed : partsOf (front ++ ['/']) = partsOf front :=
          (partsOf_append_slash front []).trans (List.append_nil _)
        rw [same, List.append_assoc, List.singleton_append, partsOf_append_slash, partsOf_part part, closed]
    rw [join_of_ends part ends, ofString, String.toList_append, rootOf_append (.inr part.relative), parts]
    rfl
  · rw [join, if_neg part.relative, if_neg ends]
    refine ofString_slash part ?_
    cases last : dir.toList.getLast? with
    | none => simp [last] at ends
    | some c => exact ⟨c, List.mem_of_getLast? last, by simpa [last] using ends⟩

theorem ofString_toString_mk {root : String} (rooted : root = "" ∨ root = "/" ∨ root = "//") {parts : List String}
    (proper : ∀ p ∈ parts, IsPart p) : ofString (toString ⟨root, parts⟩) = ⟨root, parts⟩ := by
  induction parts using List.reverseRecOn with
  | nil => rcases rooted with rfl | rfl | rfl <;> decide
  | append_singleton parts name ih =>
    have part : IsPart name := proper name (by simp)
    have back := ih fun p inside => proper p (List.mem_append_left _ inside)
    by_cases below : parts = []
    · have base : root.toList.getLast?.all (· == '/') = true ∧ ofString root = ⟨root, []⟩ := by
        rcases rooted with rfl | rfl | rfl <;> decide
      have text : toString ⟨root, [name]⟩ = join root name := by
        rw [join_of_ends part base.1]
        simp [toString]
      rw [below, List.nil_append, text, ofString_join part, base.2]
      rfl
    · have text : toString ⟨root, parts ++ [name]⟩ = toString ⟨root, parts⟩ ++ "/" ++ name :=
        toString_child (p := ⟨root, parts⟩) below name
      have more : ∃ c ∈ (toString ⟨root, parts⟩).toList, c ≠ '/' := by
        -- A text of slashes alone would be read as a path without parts.
        by_contra slashes
        have none : (ofString (toString ⟨root, parts⟩)).parts = [] := by
          refine partsOf_slashes fun c inside => ?_
          by_contra other
          exact slashes ⟨c, inside, other⟩
        rw [back] at none
        exact below none
      rw [text, ofString_slash part more, back]
      rfl

theorem rootOf_cases (s : List Char) : rootOf s = "" ∨ rootOf s = "/" ∨ rootOf s = "//" := by
  unfold rootOf rootAfter
  split <;> simp

/-- The simple form of a path is read back from its text. -/
theorem ofString_toString (s : String) : ofString (ofString s).toString = ofString s :=
  ofString_toString_mk (rootOf_cases _) fun _ => isPart_of_mem

end Reading

section Characters

variable {α : Type} {slash dot c : α}

/-- What stands between the parts is no part of them. -/
theorem mem_intercalate (other : c ≠ slash) (parts : List (List α)) :
    c ∈ [slash].intercalate parts ↔ ∃ p ∈ parts, c ∈ p := by
  induction parts with
  | nil => simp [List.intercalate]
  | cons p rest ih =>
    cases rest with
    | nil => simp [List.intercalate]
    | cons q rest =>
      rw [List.intercalate_cons_cons, List.mem_append, List.mem_append, ih]
      simp [other]

variable [BEq α] [LawfulBEq α]

/-- Nothing but slashes and dots is dropped. -/
theorem mem_plainParts (notSlash : c ≠ slash) (notDot : c ≠ dot) (s : List α) :
    (∃ p ∈ plainParts slash dot s, c ∈ p) ↔ c ∈ s := by
  have whole : (splitSlashes slash s).flatten = s := List.flatten_splitBy _ s
  constructor
  · rintro ⟨p, part, mem⟩
    rw [← whole]
    exact List.mem_flatten.2 ⟨p, (List.mem_filter.1 part).1, mem⟩
  · intro mem
    rw [← whole] at mem
    obtain ⟨p, part, mem⟩ := List.mem_flatten.1 mem
    have ne_slash : p ≠ [slash] := fun same => notSlash (List.mem_singleton.1 (same ▸ mem))
    have ne_dot : p ≠ [dot] := fun same => notDot (List.mem_singleton.1 (same ▸ mem))
    exact ⟨p, List.mem_filter.2 ⟨part, by simp [ne_slash, ne_dot]⟩, mem⟩

theorem mem_toString_ofString {c : Char} (notSlash : c ≠ '/') (notDot : c ≠ '.') (s : String) :
    c ∈ (ofString s).toString.toList ↔ c ∈ s.toList := by
  rw [← mem_plainParts notSlash notDot s.toList, toString]
  have root : c ∉ (rootOf s.toList).toList := by
    rcases rootOf_cases s.toList with h | h | h <;> simp [h, notSlash]
  split
  · rename_i bare
    have none : plainParts '/' '.' s.toList = [] := by
      simpa [ofString, partsOf] using (Bool.and_eq_true_iff.1 bare).2
    simp [none, notDot]
  · rw [String.toList_append, List.mem_append, String.toList_intercalate]
    have parts : (ofString s).parts.map String.toList = plainParts '/' '.' s.toList := by
      simp [ofString, partsOf, Function.comp_def]
    rw [parts]
    exact (or_iff_right root).trans (mem_intercalate notSlash _)

theorem mem_spelled {p : CodePoint} (notSlash : p ≠ .ofChar '/') (notDot : p ≠ .ofChar '.') (t : Text) :
    p ∈ spelled t ↔ p ∈ t := by
  have root (n : Nat) : p ∉ Text.ofString (rootAfter n) := by
    unfold rootAfter
    split <;> simp [Text.ofString, notSlash]
  rw [← mem_plainParts notSlash notDot t, spelled]
  split
  · rename_i bare
    have none : plainParts (CodePoint.ofChar '/') (CodePoint.ofChar '.') t = [] := by
      simpa using (Bool.and_eq_true_iff.1 bare).2
    simp [none, Text.ofString, notDot]
  · rw [List.mem_append, mem_intercalate notSlash]
    exact or_iff_right (root _)

end Characters
end ProofRelay.Path
