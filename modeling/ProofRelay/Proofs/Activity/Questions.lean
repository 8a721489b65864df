import ProofRelay.Proofs.Activity.Retry

/-!
How many questions of one kind an activity asks, whatever the replies are. Bounds add up over sequences,
and what is never asked at all is not asked by repeated attempts either.
-/

namespace ProofRelay

namespace Activity

variable {D E : Dialogue} {α β : Type} {P : D.Ask → Bool} {n m : Nat}

/-- On every path at most `n` questions of a kind are asked. -/
inductive AtMost (P : D.Ask → Bool) : Nat → Activity D α → Prop where
  | done (n : Nat) (x : α) : AtMost P n (.done x)
  | other {n : Nat} {q : D.Ask} {k : D.Reply q → Activity D α} (hq : P q = false)
      (rest : ∀ r, AtMost P n (k r)) : AtMost P n (.ask q k)
  | one {n : Nat} {q : D.Ask} {k : D.Reply q → Activity D α} (rest : ∀ r, AtMost P n (k r)) :
      AtMost P (n + 1) (.ask q k)

theorem AtMost.mono {a : Activity D α} (atMost : AtMost P n a) (hle : n ≤ m) : AtMost P m a := by
  induction atMost generalizing m with
  | done n x => exact .done m x
  | other hq _ ih => exact .other hq fun r => ih r hle
  | one _ ih =>
    obtain ⟨m, rfl⟩ := Nat.exists_eq_add_of_le' (Nat.lt_of_lt_of_le (Nat.succ_pos _) hle)
    exact .one fun r => ih r (Nat.le_of_succ_le_succ hle)

theorem AtMost.bind {a : Activity D α} {f : α → Activity D β} (first : AtMost P n a)
    (second : ∀ x, AtMost P m (f x)) : AtMost P (n + m) (a >>= f) := by
  induction first with
  | done n x => exact (second x).mono (Nat.le_add_left _ _)
  | other hq _ ih => exact .other hq ih
  | one _ ih =>
    rw [Nat.succ_add]
    exact .one ih

theorem AtMost.countP_le {a b : Activity D α} {es : List (Exchange D)} (path : Path a es b)
    (atMost : AtMost P n a) : es.countP (fun e => P e.ask) ≤ n := by
  induction path generalizing n with
  | nil => exact Nat.zero_le _
  | cons _ ih =>
    rw [List.countP_cons]
    cases atMost with
    | other hq rest =>
      rw [hq]
      exact ih (rest _)
    | one rest =>
      refine Nat.add_le_add (ih (rest _)) ?_
      split <;> decide

/-- What is never asked does not stand in a path. -/
theorem AtMost.eq_false {a b : Activity D α} {es : List (Exchange D)} (path : Path a es b)
    (atMost : AtMost P 0 a) : ∀ e ∈ es, P e.ask = false := by
  intro e he
  have none := List.countP_eq_zero.1 (Nat.le_zero.1 (atMost.countP_le path)) e he
  simpa using none

/-- Questions put to other surroundings. -/
theorem AtMost.via {e : D.Embedding E} {Q : E.Ask → Bool} {a : Activity D α} (atMost : AtMost P n a)
    (same : ∀ q, Q (e.ask q) = P q) : AtMost Q n (a.via e) := by
  induction atMost with
  | done n x => exact .done n x
  | other hq _ ih => exact .other ((same _).trans hq) fun r => ih _
  | one _ ih => exact .one fun r => ih _

/-- An activity put to other surroundings asks nothing that is not for those. -/
theorem atMost_via_zero {e : D.Embedding E} {Q : E.Ask → Bool} (never : ∀ q, Q (e.ask q) = false)
    (a : Activity D α) : AtMost Q 0 (a.via e) := by
  induction a with
  | done x => exact .done 0 x
  | ask q k ih => exact .other (never q) fun r => ih _

end Activity

namespace Attempt

variable {D E : Dialogue} {α β : Type} {P : D.Ask → Bool} {n m : Nat}

/-- On every path an attempt asks at most `n` questions of a kind. -/
def AtMost (P : D.Ask → Bool) (n : Nat) (a : Attempt D α) : Prop := Activity.AtMost P n a.run

theorem atMost_ofExcept (n : Nat) (r : Except Trouble α) : AtMost P n (ofExcept r : Attempt D α) := .done n r

theorem atMost_query_zero {q : D.Ask} (hq : P q = false) : AtMost P 0 (query q) :=
  .other hq fun _ => .done _ _

theorem atMost_query_one (q : D.Ask) : AtMost P 1 (query q) := .one fun _ => .done _ _

theorem AtMost.bind {a : Attempt D α} {f : α → Attempt D β} (first : AtMost P n a)
    (second : ∀ x, AtMost P m (f x)) : AtMost P (n + m) (a >>= f) := by
  rw [AtMost, run_bind]
  refine Activity.AtMost.bind first fun r => ?_
  cases r with
  | ok x => exact second x
  | error t => exact .done _ _

/-- Nothing is asked in the first part. -/
theorem AtMost.zero_bind {a : Attempt D α} {f : α → Attempt D β} (first : AtMost P 0 a)
    (second : ∀ x, AtMost P n (f x)) : AtMost P n (a >>= f) :=
  Nat.zero_add n ▸ first.bind second

/-- Nothing is asked in the second part. -/
theorem AtMost.bind_zero {a : Attempt D α} {f : α → Attempt D β} (first : AtMost P n a)
    (second : ∀ x, AtMost P 0 (f x)) : AtMost P n (a >>= f) :=
  first.bind second

theorem AtMost.outcome {a : Attempt D α} (atMost : AtMost P n a) : AtMost P n a.outcome := by
  rw [AtMost, run_outcome]
  exact Activity.AtMost.bind atMost fun _ => .done 0 _

theorem AtMost.again {a : Attempt D α} (atMost : AtMost P 0 a) (k : Nat) : AtMost P 0 (again a k) := by
  induction k with
  | zero => exact atMost
  | succ k ih =>
    refine atMost.outcome.zero_bind fun r => ?_
    rcases r with (f | f | e) | x
    · exact ih
    · exact atMost_ofExcept 0 _
    · exact atMost_ofExcept 0 _
    · exact atMost_ofExcept 0 _

theorem AtMost.retry {a : Attempt D α} (atMost : AtMost P 0 a) (k : Nat) : AtMost P 0 (retry (1 + k) a) := by
  rw [retry_eq]
  split
  · exact atMost.again k
  · exact atMost.outcome.zero_bind fun _ => atMost_ofExcept 0 _

end Attempt

end ProofRelay
