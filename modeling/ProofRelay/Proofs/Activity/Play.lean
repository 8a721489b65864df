import ProofRelay.Proofs.Activity.Interleaving

/-!
Plays: runs of activities side by side that are computed. An oracle picks one of the answers that the
surroundings may give, and a list of turns says which task goes on next, or that the surroundings change.
What is computed is a run, so a play shows that its last crowd can be reached. For one activity by itself
it is enough to compute the replies.
-/

namespace ProofRelay

section Alone

variable {D : Dialogue} {σ α : Type} (reply : (q : D.Ask) → σ → D.Reply q × σ)

/-- The exchanges of an activity that is run with computed replies. -/
def Activity.trace : Activity D α → σ → List (Exchange D)
  | .done _, _ => []
  | .ask q k, s => ⟨q, (reply q s).1⟩ :: (k (reply q s).1).trace (reply q s).2

theorem Activity.path_trace (a : Activity D α) (s : σ) : Path a (a.trace reply s) (.done (a.runWith reply s).1) := by
  induction a generalizing s with
  | done x => exact .nil _
  | ask q k ih => exact .cons (ih _ _)

variable {reply} in
/-- Every exchange of such a run has a computed reply. -/
theorem Activity.mem_trace {a : Activity D α} {s : σ} {e : Exchange D} (he : e ∈ a.trace reply s) :
    ∃ s', e.reply = (reply e.ask s').1 := by
  induction a generalizing s with
  | done x => cases he
  | ask q k ih =>
    rcases List.mem_cons.1 he with rfl | he
    · exact ⟨s, rfl⟩
    · exact ih _ he

theorem Activity.runWith_bind {β : Type} (a : Activity D α) (f : α → Activity D β) (s : σ) :
    (a >>= f).runWith reply s = (f (a.runWith reply s).1).runWith reply (a.runWith reply s).2 := by
  induction a generalizing s with
  | done x => rfl
  | ask q k ih => exact ih _ _

theorem Activity.trace_bind {β : Type} (a : Activity D α) (f : α → Activity D β) (s : σ) :
    (a >>= f).trace reply s =
      a.trace reply s ++ (f (a.runWith reply s).1).trace reply (a.runWith reply s).2 := by
  induction a generalizing s with
  | done x => rfl
  | ask q k ih => exact congrArg _ (ih _ _)

variable {reply} in
theorem Attempt.exists_yields_of_runWith {a : Attempt D α} {s : σ} {P : α → Bool}
    (h : ((a.run.runWith reply s).1.toOption.any P) = true) :
    ∃ x, Yields a (a.run.trace reply s) (.ok x) ∧ P x = true := by
  obtain ⟨x, hx, hP⟩ := exists_ok_of_any h
  have path := a.run.path_trace reply s
  rw [hx] at path
  exact ⟨x, path, hP⟩

end Alone

/-- Surroundings that give one of the answers they may give. No answer means that the task has to wait. -/
structure Oracle {D : Dialogue} {σ : Type} (S : Setting D σ) where
  answer : (i : Nat) → (q : D.Ask) → σ → Option (D.Reply q × σ)
  drift : σ → σ
  answers : ∀ {i : Nat} {q : D.Ask} {s s' : σ} {r : D.Reply q}, answer i q s = some (r, s') → S.Answers s i ⟨q, r⟩ s'
  drifts : ∀ s, S.Drifts s (drift s)

/-- Who goes on next: a task, or the surroundings by themselves. -/
abbrev Turn : Type := Option Nat

namespace Crowd

variable {D : Dialogue} {σ α : Type} {S : Setting D σ}

instance decidableWaits (a : Activity D α) : Decidable (Waits S a) :=
  match a with
  | .done _ => .isTrue trivial
  | .ask q _ => inferInstanceAs (Decidable (S.prompt q = false))

/-- The crowd after a turn, with the exchange of the task that went on. A task that is over, that has to
wait, or that is kept from going on by another one's prompt question stays where it is. -/
def turn (O : Oracle S) (c : Crowd D σ α) : Turn → History D × Crowd D σ α
  | none => ([], ⟨c.tasks, O.drift c.state⟩)
  | some i =>
    match c.tasks[i]? with
    | some (.ask q k) =>
      if ∀ j < c.tasks.length, j ≠ i → ∀ a ∈ c.tasks[j]?, Waits S a then
        match O.answer i q c.state with
        | some (r, s) => ([(i, ⟨q, r⟩)], ⟨c.tasks.set i (k r), s⟩)
        | none => ([], c)
      else ([], c)
    | _ => ([], c)

/-- The crowd after some turns, with the history of them. -/
def play (O : Oracle S) : List Turn → Crowd D σ α → History D × Crowd D σ α
  | [], c => ([], c)
  | t :: turns, c =>
    let (h, c) := turn O c t
    let (h', c) := play O turns c
    (h ++ h', c)

theorem run_turn (O : Oracle S) (c : Crowd D σ α) (t : Turn) : Run S c (turn O c t).1 (turn O c t).2 := by
  cases t with
  | none => exact Run.nil.drift (O.drifts c.state)
  | some i =>
    simp only [turn]
    split
    · rename_i q k task
      split
      · rename_i others
        split
        · rename_i r s answer
          refine Run.nil.step (.reply task (fun j a hj ha => ?_) (O.answers answer))
          exact others j (List.getElem?_eq_some_iff.1 ha).1 hj a ha
        · exact .nil
      · exact .nil
    · exact .nil

/-- A turn in which a task gets its reply is a step. -/
theorem step_turn {O : Oracle S} {c : Crowd D σ α} {i : Nat} {P : Exchange D → Bool}
    (h : ((turn O c (some i)).1.map fun x => P x.2) = [true]) :
    ∃ e, P e = true ∧ (turn O c (some i)).1 = [(i, e)] ∧ Step S c i e (turn O c (some i)).2 := by
  simp only [turn] at h ⊢
  split at h
  · rename_i q k task
    split at h
    · rename_i others
      split at h
      · rename_i r s answer
        rw [if_pos others]
        refine ⟨⟨q, r⟩, by simpa using h, rfl, .reply task (fun j a hj ha => ?_) (O.answers answer)⟩
        exact others j (List.getElem?_eq_some_iff.1 ha).1 hj a ha
      · cases h
    · cases h
  · cases h

/-- What is played is a run. -/
theorem run_play (O : Oracle S) (turns : List Turn) (c : Crowd D σ α) :
    Run S c (play O turns c).1 (play O turns c).2 := by
  induction turns generalizing c with
  | nil => exact .nil
  | cons t turns ih => exact (run_turn O c t).append (ih (turn O c t).2)

/-- The result of a task that is over. -/
def result? (c : Crowd D σ α) (i : Nat) : Option α := (c.tasks[i]?).bind Activity.result?

theorem eq_done_of_result? {c : Crowd D σ α} {i : Nat} {x : α} (h : c.result? i = some x) :
    c.tasks[i]? = some (.done x) := by
  obtain ⟨a, ha, hx⟩ := Option.bind_eq_some_iff.1 h
  cases a with
  | ask => cases hx
  | done y =>
    obtain rfl := Option.some.inj hx
    exact ha

end Crowd

end ProofRelay
