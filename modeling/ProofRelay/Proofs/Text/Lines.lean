import Mathlib.Data.List.DropRight
import ProofRelay.Text.Summary

/-!
Lines and the blanks around them, said without the functions that find them. A text falls into lines in one
way: each but the last is followed by a break, and the breaks are as long as they can be, so that a line
feed after a carriage return is no break of its own. A line has one core, which is what is left when the
blanks at both ends are taken away.
-/

namespace ProofRelay.Text

/-- Nothing in a text ends a line. -/
def OneLine (s : Text) : Prop := ∀ p ∈ s, p.isLineBreak = false

/-- A text has nothing but blanks. -/
def Blank (s : Text) : Prop := ∀ p ∈ s, p.isBlank = true

/-- A text `b` ends a line, and is not a part of a longer break when `rest` follows. -/
inductive Ends : (b rest : Text) → Prop where
  | pair (rest : Text) : Ends [CodePoint.carriageReturn, CodePoint.lineFeed] rest
  | single {p : CodePoint} {rest : Text} (breaks : p.isLineBreak = true)
      (whole : p = CodePoint.carriageReturn → rest.head? ≠ some CodePoint.lineFeed) : Ends [p] rest

/-- A text falls into lines. A last line without a break after it is not empty. -/
inductive Splits : Text → List Text → Prop where
  | nil : Splits [] []
  | last {l : Text} (line : OneLine l) (nonempty : l ≠ []) : Splits l [l]
  | line {l b rest : Text} {ls : List Text} (line : OneLine l) (ends : Ends b rest) (more : Splits rest ls) :
      Splits (l ++ (b ++ rest)) (l :: ls)

section Lines

theorem isLineBreak_lineFeed : CodePoint.lineFeed.isLineBreak = true := by decide

theorem isLineBreak_carriageReturn : CodePoint.carriageReturn.isLineBreak = true := by decide

theorem OneLine.cons {p : CodePoint} {s : Text} (first : p.isLineBreak = false) (rest : OneLine s) :
    OneLine (p :: s) :=
  List.forall_mem_cons.2 ⟨first, rest⟩

/-- The lines that are finished stay in front of those to come. -/
theorem linesFrom_eq_append (done : List Text) (current : Text) (returned : Bool) (s : Text) :
    linesFrom done current returned s = done.reverse ++ linesFrom [] current returned s := by
  induction s generalizing done current returned with
  | nil =>
    rw [linesFrom, linesFrom]
    split <;> simp
  | cons p rest ih =>
    rw [linesFrom, linesFrom]
    split
    · exact ih done current false
    · split
      · rw [ih (current.reverse :: done), ih [current.reverse]]
        simp
      · exact ih done (p :: current) false

/-- At a break the open line is finished. -/
theorem linesFrom_break (current : Text) {p : CodePoint} (breaks : p.isLineBreak = true) (rest : Text) :
    linesFrom [] current false (p :: rest) =
      current.reverse :: linesFrom [] [] (p == CodePoint.carriageReturn) rest := by
  rw [linesFrom, Bool.false_and, if_neg Bool.false_ne_true, if_pos breaks, linesFrom_eq_append]
  rfl

theorem linesFrom_pair (rest : Text) : linesFrom [] [] true (CodePoint.lineFeed :: rest) = lines rest := by
  rw [linesFrom, Bool.true_and, if_pos (beq_self_eq_true _), lines]

theorem linesFrom_returned {s : Text} (whole : s.head? ≠ some CodePoint.lineFeed) :
    linesFrom [] [] true s = lines s := by
  cases s with
  | nil => rfl
  | cons p rest =>
    have other : (p == CodePoint.lineFeed) = false := by
      rw [beq_eq_false_iff_ne]
      rintro rfl
      exact whole rfl
    rw [lines, linesFrom, linesFrom, other, Bool.and_false, Bool.and_false]

/-- What ends no line goes into the open one. -/
theorem linesFrom_append {l : Text} (line : OneLine l) (current rest : Text) :
    linesFrom [] current false (l ++ rest) = linesFrom [] (l.reverse ++ current) false rest := by
  induction l generalizing current with
  | nil => rfl
  | cons p l ih =>
    obtain ⟨first, others⟩ := List.forall_mem_cons.1 line
    rw [List.cons_append, linesFrom, Bool.false_and, if_neg Bool.false_ne_true, first, if_neg Bool.false_ne_true,
      ih others, List.reverse_cons, List.append_assoc]
    rfl

theorem linesFrom_ends (current : Text) {b rest : Text} (ends : Ends b rest) :
    linesFrom [] current false (b ++ rest) = current.reverse :: lines rest := by
  cases ends with
  | pair =>
    rw [List.cons_append, linesFrom_break _ isLineBreak_carriageReturn, beq_self_eq_true]
    exact congrArg _ (linesFrom_pair rest)
  | @single p _ breaks whole =>
    rw [List.singleton_append, linesFrom_break _ breaks]
    by_cases returned : p = CodePoint.carriageReturn
    · rw [beq_iff_eq.2 returned, linesFrom_returned (whole returned)]
    · rw [beq_eq_false_iff_ne.2 returned, lines]

theorem lines_of_splits {s : Text} {ls : List Text} (splits : Splits s ls) : lines s = ls := by
  induction splits with
  | nil => rfl
  | @last l line nonempty =>
    have collected := linesFrom_append line [] []
    rw [List.append_nil, List.append_nil] at collected
    rw [lines, collected, linesFrom, List.isEmpty_reverse, if_neg (by simpa using nonempty)]
    simp
  | @line l b rest ls line ends _ ih =>
    rw [lines, linesFrom_append line, linesFrom_ends _ ends, ih, List.append_nil, List.reverse_reverse]

/-- What is collected from an open line and the rest of a text are the lines of both together; and after a
carriage return, which has ended a line, they are those after a break. The second part is what the first one
needs at a carriage return, where it does not yet know whether a line feed follows. -/
theorem splits_linesFrom (s : Text) :
    (∀ current, OneLine current → Splits (current.reverse ++ s) (linesFrom [] current false s)) ∧
      ∃ b rest, CodePoint.carriageReturn :: s = b ++ rest ∧ Ends b rest ∧ Splits rest (linesFrom [] [] true s) := by
  induction s with
  | nil =>
    refine ⟨fun current line => ?_, [CodePoint.carriageReturn], [], rfl, ?_, .nil⟩
    · rw [linesFrom, List.append_nil]
      by_cases empty : current = []
      · subst empty
        exact .nil
      · rw [if_neg (by simpa using empty)]
        exact .last (fun p hp => line p (List.mem_reverse.1 hp)) (by simpa using empty)
    · exact .single isLineBreak_carriageReturn fun _ => nofun
  | cons p s ih =>
    obtain ⟨collects, b, rest, same, ends, splits⟩ := ih
    have first : ∀ current, OneLine current →
        Splits (current.reverse ++ p :: s) (linesFrom [] current false (p :: s)) := by
      intro current line
      have back : OneLine current.reverse := fun q hq => line q (List.mem_reverse.1 hq)
      cases breaks : p.isLineBreak with
      | false =>
        have next := collects (p :: current) (line.cons breaks)
        rw [List.reverse_cons, List.append_assoc] at next
        rw [linesFrom, Bool.false_and, if_neg Bool.false_ne_true, breaks, if_neg Bool.false_ne_true]
        exact next
      | true =>
        rw [linesFrom_break _ breaks]
        by_cases returned : p = CodePoint.carriageReturn
        · rw [returned, beq_self_eq_true, same]
          exact .line back ends splits
        · rw [beq_eq_false_iff_ne.2 returned, ← List.singleton_append]
          exact .line back (.single breaks fun h => (returned h).elim) (collects [] nofun)
    refine ⟨first, ?_⟩
    by_cases feed : p = CodePoint.lineFeed
    · subst feed
      rw [linesFrom_pair]
      exact ⟨_, s, rfl, .pair s, collects [] nofun⟩
    · have whole : (p :: s).head? ≠ some CodePoint.lineFeed := fun h => feed (Option.some.inj h)
      rw [linesFrom_returned whole]
      exact ⟨[CodePoint.carriageReturn], p :: s, rfl, .single isLineBreak_carriageReturn fun _ => whole, first [] nofun⟩

theorem splits_lines (s : Text) : Splits s (lines s) := (splits_linesFrom s).1 [] nofun

/-- A text falls into its lines, and in no other way. -/
theorem splits_iff {s : Text} {ls : List Text} : Splits s ls ↔ ls = lines s :=
  ⟨fun splits => (lines_of_splits splits).symm, fun same => same ▸ splits_lines s⟩

theorem Ends.append {b rest : Text} (ends : Ends b rest) (nonempty : rest ≠ []) (after : Text) :
    Ends b (rest ++ after) := by
  cases ends with
  | pair => exact .pair _
  | single breaks whole =>
    refine .single breaks fun returned => ?_
    rw [List.head?_append_of_ne_nil _ nonempty]
    exact whole returned

/-- After a line feed the lines of a text begin anew. -/
theorem Splits.append {s x : Text} {ls ks : List Text} (first : Splits s ls)
    (feed : s.getLast? = some CodePoint.lineFeed) (second : Splits x ks) : Splits (s ++ x) (ls ++ ks) := by
  induction first with
  | nil => cases feed
  | @last l line _ =>
    have inside := line _ (List.mem_of_getLast? feed)
    rw [isLineBreak_lineFeed] at inside
    cases inside
  | @line l b rest ls line ends _ ih =>
    rw [List.append_assoc, List.append_assoc, List.cons_append]
    by_cases final : rest = []
    · subst final
      rename_i more
      obtain rfl : ls = [] := splits_iff.1 more
      refine .line line ?_ second
      cases ends with
      | pair => exact .pair _
      | @single p _ breaks _ =>
        -- the break is the line feed itself, so nothing that follows belongs to it
        have same : p = CodePoint.lineFeed := by simpa using feed
        refine .single breaks fun returned => ?_
        rw [same] at returned
        cases returned
    · have feed : rest.getLast? = some CodePoint.lineFeed := by
        rwa [← List.append_assoc, List.getLast?_append_of_ne_nil _ final] at feed
      exact .line line (ends.append final x) (ih feed)

theorem lines_after_lineFeed (before x : Text) :
    lines (before ++ CodePoint.lineFeed :: x) = lines (before ++ [CodePoint.lineFeed]) ++ lines x := by
  have splits := (splits_lines (before ++ [CodePoint.lineFeed])).append (by simp) (splits_lines x)
  rw [List.append_assoc] at splits
  exact lines_of_splits splits

/-- No line of a text has a break in it. -/
theorem Splits.oneLine {s : Text} {ls : List Text} (splits : Splits s ls) : ∀ l ∈ ls, OneLine l := by
  induction splits with
  | nil => nofun
  | last line _ => simpa using line
  | line line _ _ ih => exact List.forall_mem_cons.2 ⟨line, ih⟩

end Lines

/-- A text neither begins nor ends with a blank. -/
structure Trimmed (s : Text) : Prop where
  head : ∀ p ∈ s.head?, p.isBlank = false
  last : ∀ p ∈ s.getLast?, p.isBlank = false

/-- A line is its core with blanks around it. -/
inductive Core : (l t : Text) → Prop where
  | intro {a t b : Text} (before : Blank a) (trimmed : Trimmed t) (after : Blank b) : Core (a ++ (t ++ b)) t

section Blanks

variable {l t : Text}

theorem strip_eq (l : Text) :
    strip CodePoint.isBlank l = (l.dropWhile CodePoint.isBlank).rdropWhile CodePoint.isBlank :=
  rfl

theorem rdropWhile_of_trimmed (trimmed : Trimmed t) {b : Text} (after : Blank b) :
    (t ++ b).rdropWhile CodePoint.isBlank = t := by
  have dropped : (t ++ b).rdropWhile CodePoint.isBlank = t.rdropWhile CodePoint.isBlank := by
    rw [List.rdropWhile, List.rdropWhile, List.reverse_append,
      List.dropWhile_append_of_pos fun p hp => after p (List.mem_reverse.1 hp)]
  rw [dropped, List.rdropWhile_eq_self_iff]
  intro nonempty
  rw [trimmed.last _ (List.getLast?_eq_some_getLast nonempty)]
  exact Bool.false_ne_true

theorem strip_eq_of_core (core : Core l t) : strip CodePoint.isBlank l = t := by
  obtain ⟨before, trimmed, after⟩ := core
  rw [strip_eq, List.dropWhile_append_of_pos before]
  cases t with
  | nil =>
    rw [List.nil_append, List.dropWhile_eq_nil_iff.2 after]
    rfl
  | cons p t =>
    have first : ¬ p.isBlank = true := by simp [trimmed.head p rfl]
    rw [List.cons_append, List.dropWhile_cons_of_neg first, ← List.cons_append]
    exact rdropWhile_of_trimmed trimmed after

/-- What is left begins as the whole does after its first blanks, and there the dropping has stopped. -/
theorem trimmed_strip (l : Text) : Trimmed (strip CodePoint.isBlank l) := by
  constructor
  · intro p hp
    have start : (l.dropWhile CodePoint.isBlank).head? = some p := by
      obtain ⟨rest, same⟩ := List.rdropWhile_prefix CodePoint.isBlank (l.dropWhile CodePoint.isBlank)
      rw [← same, ← strip_eq, List.head?_append, hp]
      rfl
    have stopped := List.head?_dropWhile_not CodePoint.isBlank l
    rw [start] at stopped
    simpa using stopped
  · intro p hp
    have nonempty : strip CodePoint.isBlank l ≠ [] := by
      intro empty
      rw [empty] at hp
      cases hp
    rw [List.getLast?_eq_some_getLast nonempty, Option.mem_some_iff] at hp
    have stopped : ¬ ((strip CodePoint.isBlank l).getLast nonempty).isBlank = true :=
      List.rdropWhile_last_not CodePoint.isBlank (l.dropWhile CodePoint.isBlank) nonempty
    rw [hp] at stopped
    simpa using stopped

theorem core_strip (l : Text) : Core l (strip CodePoint.isBlank l) := by
  have before : Blank (l.takeWhile CodePoint.isBlank) := fun p hp => List.mem_takeWhile_imp hp
  have after : Blank ((l.dropWhile CodePoint.isBlank).rtakeWhile CodePoint.isBlank) :=
    fun p hp => List.mem_rtakeWhile_imp hp
  have core := Core.intro before (trimmed_strip l) after
  rwa [strip_eq, List.rdropWhile_append_rtakeWhile, List.takeWhile_append_dropWhile] at core

/-- A line has one core. -/
theorem core_iff : Core l t ↔ t = strip CodePoint.isBlank l :=
  ⟨fun core => (strip_eq_of_core core).symm, fun same => same ▸ core_strip l⟩

theorem core_self (trimmed : Trimmed t) : Core t t := by
  have core := Core.intro (a := []) (b := []) nofun trimmed nofun
  rwa [List.nil_append, List.append_nil] at core

theorem strip_eq_nil_iff : strip CodePoint.isBlank l = [] ↔ Blank l := by
  rw [eq_comm, ← core_iff]
  constructor
  · rintro ⟨before, -, after⟩
    exact List.forall_mem_append.2 ⟨before, after⟩
  · intro blank
    have core := Core.intro (b := []) blank (t := []) ⟨nofun, nofun⟩ nofun
    rwa [List.append_nil, List.append_nil] at core

theorem Core.mem {p : CodePoint} (core : Core l t) (hp : p ∈ t) : p ∈ l := by
  obtain ⟨-, -, -⟩ := core
  exact List.mem_append_right _ (List.mem_append_left _ hp)

end Blanks

end ProofRelay.Text
