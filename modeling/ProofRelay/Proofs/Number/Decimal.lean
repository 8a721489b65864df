import ProofRelay.Fault

/-!
The limit on integers that become text. An integer has a text if it is below ten to the power of the limit; so
whatever lies between two integers that have one has one too.
-/

namespace ProofRelay.Decimal

/-- The least number with more digits than can be written. -/
def leastLong : Nat := Nat.pow 10 digitLimit

theorem fits_iff (n : Int) : fits n = true ↔ n.natAbs < leastLong := by
  have some_ : 0 < digitLimit := by decide
  rw [fits, decide_eq_true_iff, natDigits]
  -- The power is not to be computed.
  unfold leastLong
  generalize digitLimit = limit at some_ ⊢
  exact Nat.length_toDigits_le_iff (by decide) some_

theorem not_fits_iff (n : Int) : fits n = false ↔ leastLong ≤ n.natAbs := by
  rw [← Bool.not_eq_true, fits_iff, Nat.not_lt]

theorem not_fits_leastLong : fits leastLong = false :=
  (not_fits_iff _).2 (Nat.le_of_eq (Int.natAbs_natCast leastLong).symm)

/-- An integer that is no further from zero than one with a text has a text. -/
theorem fits_of_natAbs_le {m n : Int} (le : m.natAbs ≤ n.natAbs) (short : fits n = true) : fits m = true :=
  (fits_iff m).2 (Nat.lt_of_le_of_lt le ((fits_iff n).1 short))

theorem shown_of_fits {n : Int} (short : fits n = true) : shown n = .ok (ofInt n) := if_pos short

theorem shown_of_not_fits {n : Int} (long : fits n = false) : shown n = .error unwritable := by
  rw [shown, long]
  rfl

theorem showAll_of_fits {ns : List Int} (short : ∀ n ∈ ns, fits n = true) : showAll ns = .ok () :=
  if_pos (List.all_eq_true.2 short)

theorem showAll_of_not_fits {ns : List Int} {n : Int} (mem : n ∈ ns) (long : fits n = false) :
    showAll ns = .error unwritable := by
  refine if_neg fun short => ?_
  rw [List.all_eq_true.1 short n mem] at long
  cases long

theorem showAll_eq_ok_iff {ns : List Int} : showAll ns = .ok () ↔ ∀ n ∈ ns, fits n = true := by
  refine ⟨fun shown => ?_, showAll_of_fits⟩
  intro n mem
  cases short : fits n with
  | true => rfl
  | false => cases shown.symm.trans (showAll_of_not_fits mem short)

/-- Integers become text all together, or one of them has none. -/
theorem showAll_cases (ns : List Int) :
    ((∀ n ∈ ns, fits n = true) ∧ showAll ns = .ok ()) ∨
      ((∃ n ∈ ns, fits n = false) ∧ showAll ns = .error unwritable) := by
  by_cases short : ∀ n ∈ ns, fits n = true
  · exact .inl ⟨short, showAll_of_fits short⟩
  · rw [Classical.not_forall] at short
    obtain ⟨n, long⟩ := short
    rw [Classical.not_imp, Bool.not_eq_true] at long
    exact .inr ⟨⟨n, long⟩, showAll_of_not_fits long.1 long.2⟩

end ProofRelay.Decimal
