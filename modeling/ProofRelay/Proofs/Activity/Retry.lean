import ProofRelay.Proofs.Activity.Play

/-!
Repeated attempts. An attempt is made again as long as it fails, up to a limit. The result is that of the
last attempt that is made, and that is the first one that does not fail, or the one at the limit; only a limit
that has no text, and so cannot be told when the first one has failed, stops them before.
-/

namespace ProofRelay.Attempt

variable {D : Dialogue} {σ α : Type} {a : Attempt D α}

/-- An attempt, and up to `n` more as long as they fail. -/
def again (a : Attempt D α) : (n : Nat) → Attempt D α
  | 0 => a
  | n + 1 => do
    match ← a.outcome with
    | .error (.failure _) => again a n
    | r => ofExcept r

/-- A result, where a failure cannot be told. -/
def curtailed : Except Trouble α → Except Trouble α
  | .error (.failure _) => .error (.fault Decimal.unwritable)
  | r => r

/-- An attempt after whose failure the number of attempts cannot be told. -/
def untold (a : Attempt D α) : Attempt D α := do
  ofExcept (curtailed (← a.outcome))

theorem outcome_bind_ofExcept (a : Attempt D α) : (a.outcome >>= ofExcept) = a := by
  have same : (a.outcome >>= ofExcept).run = a.run := (run_outcome_bind a _).trans (Activity.bind_done a.run)
  exact same

/-- The attempts from the `n`-th to the last one, if their numbers can be told. -/
theorem attemptsFrom_eq_again {attempts : Nat} (short : Decimal.fits attempts = true) (left n : Nat)
    (range : n + left = attempts) : attemptsFrom attempts a (left + 1) n = again a left := by
  induction left generalizing n with
  | zero =>
    refine Eq.trans (congrArg (Bind.bind a.outcome) (funext fun r => ?_)) (outcome_bind_ofExcept a)
    rcases r with (f | f | e) | x
    · exact if_pos range
    · rfl
    · rfl
    · rfl
  | succ left ih =>
    refine congrArg (Bind.bind a.outcome) (funext fun r => ?_)
    rcases r with (f | f | e) | x
    · refine (if_neg (by omega)).trans ?_
      rw [log_bind_of_fits, ih (n + 1) (by omega)]
      intro m mem
      refine Decimal.fits_of_natAbs_le ?_ short
      simp only [List.mem_cons, List.not_mem_nil, or_false] at mem
      omega
    · rfl
    · rfl
    · rfl

/-- Repeated attempts stop at the limit, or at the first that does not fail; but where the limit has no text they
stop at the first in any case. Their last line is never reached. -/
theorem retry_eq (a : Attempt D α) (n : Nat) :
    retry (1 + n) a = if Decimal.fits (1 + n : Nat) then again a n else untold a := by
  by_cases short : Decimal.fits (1 + n : Nat) = true
  · rw [if_pos short, retry]
    conv => lhs; arg 3; rw [Nat.add_comm]
    exact attemptsFrom_eq_again short n 1 rfl
  · rw [if_neg short, retry]
    conv => lhs; arg 3; rw [Nat.add_comm]
    have long : Decimal.fits (1 + n : Nat) = false := Bool.eq_false_iff.2 short
    refine congrArg (Bind.bind a.outcome) (funext fun r => ?_)
    rcases r with (f | f | e) | x
    · have more : 1 ≠ 1 + n := by
        intro same
        rw [← same] at long
        revert long
        decide
      exact (if_neg more).trans (log_bind_of_not_fits (by simp) long _)
    · rfl
    · rfl
    · rfl

variable {es : List (Exchange D)}

/-- Repeated attempts that are over: those before the last one have failed, and the last one is at the limit or
has not. -/
theorem yields_again {n : Nat} {r : Except Trouble α} (yields : Yields (again a n) es r) :
    ∃ (failed : List (List (Exchange D))) (last : List (Exchange D)), es = failed.flatten ++ last ∧
      failed.length ≤ n ∧ (∀ fs ∈ failed, ∃ f, Yields a fs (.error (.failure f))) ∧ Yields a last r ∧
      (failed.length = n ∨ ∀ f, r ≠ .error (.failure f)) := by
  induction n generalizing es with
  | zero => exact ⟨[], es, rfl, Nat.le_refl 0, by simp, yields, .inl rfl⟩
  | succ n ih =>
    obtain ⟨x, fs, gs, rfl, first, second⟩ := yields_outcome_bind_iff.1 yields
    by_cases failed : ∃ f, x = .error (.failure f)
    · obtain ⟨f, rfl⟩ := failed
      obtain ⟨failed, last, rfl, bound, fails, proved, ends⟩ := ih second
      refine ⟨fs :: failed, last, by simp, Nat.succ_le_succ bound, ?_, proved, ends.imp_left (congrArg (· + 1))⟩
      intro gs hgs
      rcases List.mem_cons.1 hgs with rfl | hgs
      · exact ⟨f, first⟩
      · exact fails gs hgs
    · have ended : gs = [] ∧ r = x := by
        rcases x with (f | f | e) | v
        · exact (failed ⟨f, rfl⟩).elim
        all_goals exact yields_ofExcept_iff.1 second
      obtain ⟨rfl, rfl⟩ := ended
      refine ⟨[], fs, by simp, Nat.zero_le _, by simp, first, .inr ?_⟩
      intro f same
      exact failed ⟨f, same⟩

theorem curtailed_cases (x : Except Trouble α) :
    ((∀ f, x ≠ .error (.failure f)) ∧ curtailed x = x) ∨
      ((∃ f, x = .error (.failure f)) ∧ curtailed x = .error (.fault Decimal.unwritable)) := by
  rcases x with (f | f | e) | v
  · exact .inr ⟨⟨f, rfl⟩, rfl⟩
  · exact .inl ⟨by simp, rfl⟩
  · exact .inl ⟨by simp, rfl⟩
  · exact .inl ⟨by simp, rfl⟩

theorem yields_untold {r : Except Trouble α} (yields : Yields (untold a) es r) :
    ∃ x, Yields a es x ∧ r = curtailed x := by
  obtain ⟨x, fs, gs, rfl, first, second⟩ := yields_outcome_bind_iff.1 yields
  obtain ⟨rfl, rfl⟩ := yields_ofExcept_iff.1 second
  rw [List.append_nil]
  exact ⟨x, first, rfl⟩

/-- What repeated attempts come to, by what the last of them came to: the same, and it is at the limit or no failure;
but where the limit has no text there is only one attempt, whose failure cannot be told. -/
def Concludes (n failed : Nat) (x r : Except Trouble α) : Prop :=
  (Decimal.fits (1 + n : Nat) = true ∧ r = x ∧ (failed = n ∨ ∀ f, x ≠ .error (.failure f))) ∨
    (Decimal.fits (1 + n : Nat) = false ∧ failed = 0 ∧ r = curtailed x)

/-- Repeated attempts are some that fail, and then the last one. -/
theorem yields_retry_until {n : Nat} {r : Except Trouble α} (yields : Yields (retry (1 + n) a) es r) :
    ∃ (failed : List (List (Exchange D))) (last : List (Exchange D)) (x : Except Trouble α),
      es = failed.flatten ++ last ∧ failed.length ≤ n ∧ (∀ fs ∈ failed, ∃ f, Yields a fs (.error (.failure f))) ∧
      Yields a last x ∧ Concludes n failed.length x r := by
  rw [retry_eq] at yields
  split at yields
  · rename_i short
    obtain ⟨failed, last, same, bound, fails, ended, ends⟩ := yields_again yields
    exact ⟨failed, last, r, same, bound, fails, ended, .inl ⟨short, rfl, ends⟩⟩
  · rename_i long
    obtain ⟨x, ended, same⟩ := yields_untold yields
    exact ⟨[], es, x, rfl, Nat.zero_le _, by simp, ended, .inr ⟨Bool.eq_false_iff.2 long, rfl, same⟩⟩

/-- What repeated attempts yield is what the last of them yields, unless the limit has no text. -/
theorem yields_retry {n : Nat} {r : Except Trouble α} (yields : Yields (retry (1 + n) a) es r) :
    ∃ fs gs, es = fs ++ gs ∧
      (Yields a gs r ∨ (r = .error (.fault Decimal.unwritable) ∧ Decimal.fits (1 + n : Nat) = false)) := by
  obtain ⟨failed, last, x, rfl, -, -, ended, ⟨-, rfl, -⟩ | ⟨long, -, rfl⟩⟩ := yields_retry_until yields
  · exact ⟨failed.flatten, last, rfl, .inl ended⟩
  · refine ⟨failed.flatten, last, rfl, ?_⟩
    rcases curtailed_cases x with ⟨-, same⟩ | ⟨-, same⟩
    · exact .inl (same.symm ▸ ended)
    · exact .inr ⟨same, long⟩

theorem yields_retry_ok {n : Nat} {v : α} (yields : Yields (retry (1 + n) a) es (.ok v)) :
    ∃ (failed : List (List (Exchange D))) (last : List (Exchange D)), es = failed.flatten ++ last ∧
      failed.length ≤ n ∧ (∀ fs ∈ failed, ∃ f, Yields a fs (.error (.failure f))) ∧ Yields a last (.ok v) := by
  obtain ⟨failed, last, x, rfl, bound, fails, ended, ⟨-, same, -⟩ | ⟨-, -, same⟩⟩ := yields_retry_until yields
  · exact ⟨failed, last, rfl, bound, fails, same ▸ ended⟩
  · rcases curtailed_cases x with ⟨-, kept⟩ | ⟨-, lost⟩
    · exact ⟨failed, last, rfl, bound, fails, same.trans kept ▸ ended⟩
    · cases same.trans lost

/-- Every exchange of repeated attempts is one of an attempt. -/
theorem exists_yields_of_mem_retry {n : Nat} {r : Except Trouble α} {e : Exchange D}
    (yields : Yields (retry (1 + n) a) es r) (he : e ∈ es) : ∃ fs x, Yields a fs x ∧ e ∈ fs := by
  obtain ⟨failed, last, x, rfl, -, fails, yields, -⟩ := yields_retry_until yields
  rcases List.mem_append.1 he with he | he
  · obtain ⟨fs, hfs, he⟩ := List.mem_flatten.1 he
    obtain ⟨f, yields⟩ := fails fs hfs
    exact ⟨fs, _, yields, he⟩
  · exact ⟨last, x, yields, he⟩

theorem Fails.retry {P : Failure → Prop} (fails : Fails P a) (n : Nat) : Fails P (retry (1 + n) a) := by
  intro es f yields
  obtain ⟨fs, gs, -, last | ⟨h, -⟩⟩ := yields_retry yields
  · exact fails gs f last
  · cases h

/-- Of some results in their order, the last one that is waited for: all before it are failures, and it is at the
limit or no failure. -/
structure IsLast (results : Nat → Except Trouble α) (limit k : Nat) : Prop where
  within : k ≤ limit
  failed : ∀ j < k, ∃ f, results j = .error (.failure f)
  ends : k = limit ∨ ∀ f, results k ≠ .error (.failure f)

theorem IsLast.unique {results : Nat → Except Trouble α} {limit k k' : Nat} (last : IsLast results limit k)
    (last' : IsLast results limit k') : k = k' := by
  have first : ∀ {k k'}, IsLast results limit k → IsLast results limit k' → ¬ k < k' := by
    intro k k' last last' before
    have within := last'.within
    obtain ⟨f, failed⟩ := last'.failed k before
    rcases last.ends with atLimit | other
    · omega
    · exact other f failed
  have := first last last'
  have := first last' last
  omega

section Computed

variable (reply : (q : D.Ask) → σ → D.Reply q × σ) (a : Attempt D α)

/-- What attempts made one after another come to, each with the state that it leaves. -/
def tried (s : σ) : Nat → Except Trouble α × σ
  | 0 => a.run.runWith reply s
  | k + 1 => a.run.runWith reply (tried s k).2

theorem tried_succ (s : σ) (k : Nat) : tried reply a s (k + 1) = tried reply a (a.run.runWith reply s).2 k := by
  induction k with
  | zero => rfl
  | succ k ih => rw [tried, ih, tried]

variable {a} in
theorem runWith_again_of_failure {s : σ} {f : Failure} (failed : (a.run.runWith reply s).1 = .error (.failure f))
    (n : Nat) : (again a (n + 1)).run.runWith reply s = (again a n).run.runWith reply (a.run.runWith reply s).2 := by
  rw [again, run_outcome_bind, Activity.runWith_bind, failed]

variable {a} in
theorem runWith_again_of_ne {s : σ} (other : ∀ f, (a.run.runWith reply s).1 ≠ .error (.failure f)) (n : Nat) :
    (again a (n + 1)).run.runWith reply s = a.run.runWith reply s := by
  rw [again, run_outcome_bind, Activity.runWith_bind]
  generalize a.run.runWith reply s = x at other
  obtain ⟨(f | f | e) | v, s'⟩ := x
  · exact absurd rfl (other f)
  · rfl
  · rfl
  · rfl

/-- With computed replies, repeated attempts come to what the last one of them comes to. -/
theorem runWith_again (n : Nat) (s : σ) :
    ∃ k, IsLast (fun j => (tried reply a s j).1) n k ∧ (again a n).run.runWith reply s = tried reply a s k := by
  induction n generalizing s with
  | zero =>
    refine ⟨0, ⟨Nat.le_refl 0, ?_, .inl rfl⟩, rfl⟩
    intro j before
    omega
  | succ n ih =>
    by_cases failed : ∃ f, (a.run.runWith reply s).1 = .error (.failure f)
    · obtain ⟨f, failed⟩ := failed
      obtain ⟨k, last, same⟩ := ih (a.run.runWith reply s).2
      rw [runWith_again_of_failure reply failed, same, ← tried_succ]
      refine ⟨k + 1, ⟨Nat.succ_le_succ last.within, ?_, ?_⟩, rfl⟩
      · intro j before
        cases j with
        | zero => exact ⟨f, failed⟩
        | succ j =>
          have failed := last.failed j (by omega)
          simpa only [tried_succ] using failed
      · simp only [tried_succ]
        rcases last.ends with atLimit | other
        · exact .inl (by omega)
        · exact .inr other
    · have other : ∀ f, (a.run.runWith reply s).1 ≠ .error (.failure f) := fun f h => failed ⟨f, h⟩
      refine ⟨0, ⟨Nat.zero_le _, ?_, .inr other⟩, runWith_again_of_ne reply other n⟩
      intro j before
      omega

theorem runWith_untold (s : σ) :
    (untold a).run.runWith reply s = (curtailed (a.run.runWith reply s).1, (a.run.runWith reply s).2) := by
  rw [untold, run_outcome_bind, Activity.runWith_bind]
  rfl

end Computed

/-- A dialogue in which it is asked what the next attempt comes to. -/
def sequel (α : Type) : Dialogue := ⟨Unit, fun _ => Except Trouble α⟩

/-- The next attempt, whatever it comes to. -/
def inTurn : Attempt (sequel α) α := ofActivity (Activity.query (D := sequel α) ())

/-- Replies with some results in their order, and counts them. -/
def outOf (results : Nat → Except Trouble α) (_ : Unit) (n : Nat) : Except Trouble α × Nat := (results n, n + 1)

theorem tried_inTurn (results : Nat → Except Trouble α) (k : Nat) :
    tried (D := sequel α) (outOf results) inTurn 0 k = (results k, k + 1) := by
  induction k with
  | zero => rfl
  | succ k ih =>
    change inTurn.run.runWith (D := sequel α) (outOf results) (tried (D := sequel α) (outOf results) inTurn 0 k).2 = _
    rw [ih]
    rfl

/-- What is made of attempts that come to some results in their order, up to `n` more than the first: the result, and
how many are made. All that are waited for are made, and their last result is the one; but where the limit has no text
there is one attempt, and its failure cannot be told. -/
structure Conducted (results : Nat → Except Trouble α) (n : Nat) (result : Except Trouble α) (made : Nat) : Prop where
  within : Decimal.fits (1 + n : Nat) = true → ∃ k, IsLast results n k ∧ result = results k ∧ made = k + 1
  beyond : Decimal.fits (1 + n : Nat) = false → made = 1 ∧
    (∀ f, results 0 = .error (.failure f) → result = .error (.fault Decimal.unwritable)) ∧
    ((∀ f, results 0 ≠ .error (.failure f)) → result = results 0)

/-- The fault of the last line is what comes of attempts only if it is what one of them came to. -/
theorem Conducted.of_unreachable {results : Nat → Except Trouble α} {n made : Nat} {result : Except Trouble α}
    (conducted : Conducted results n result made) (same : result = .error (.fault ⟨.runtime, "unreachable"⟩)) :
    ∃ k < made, results k = result := by
  rcases Bool.eq_false_or_eq_true (Decimal.fits (1 + n : Nat)) with short | long
  · obtain ⟨k, -, rfl, rfl⟩ := conducted.within short
    exact ⟨k, Nat.lt_succ_self k, rfl⟩
  · obtain ⟨rfl, failed, other⟩ := conducted.beyond long
    refine ⟨0, Nat.one_pos, (other fun f first => ?_).symm⟩
    cases (failed f first).symm.trans same

theorem conducted_retry (results : Nat → Except Trouble α) (n : Nat) :
    Conducted results n ((retry (1 + n) inTurn).run.runWith (D := sequel α) (outOf results) 0).1
      ((retry (1 + n) inTurn).run.runWith (D := sequel α) (outOf results) 0).2 := by
  rw [retry_eq]
  constructor
  · intro short
    rw [if_pos short]
    obtain ⟨k, last, same⟩ := runWith_again (D := sequel α) (outOf results) inTurn n 0
    simp only [tried_inTurn] at last same
    rw [same]
    exact ⟨k, last, rfl, rfl⟩
  · intro long
    rw [long, if_neg Bool.false_ne_true, runWith_untold (D := sequel α) (outOf results) inTurn 0]
    refine ⟨rfl, ?_, ?_⟩
    · intro f failed
      exact congrArg curtailed failed
    · intro other
      change curtailed (results 0) = results 0
      generalize results 0 = r at other
      rcases r with (f | f | e) | x
      · exact absurd rfl (other f)
      · rfl
      · rfl
      · rfl

end ProofRelay.Attempt
