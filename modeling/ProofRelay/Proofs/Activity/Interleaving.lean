import ProofRelay.Proofs.Activity.Path

/-!
Activities side by side, in every order that their waiting allows. The surroundings are a relation: they
may answer a question in more than one way, and they may change by themselves between two answers. A
prompt question is answered before any other activity goes on, since asking it takes no waiting; all other
questions are places where the activities may be interleaved.
-/

namespace ProofRelay

/-- Surroundings that activities share. -/
structure Setting (D : Dialogue) (σ : Type) where
  /-- Questions that are answered before another activity goes on. -/
  prompt : D.Ask → Bool
  /-- How a question of task `i` may be answered, and the state after that. -/
  Answers : σ → (i : Nat) → Exchange D → σ → Prop
  /-- What the surroundings may do by themselves. -/
  Drifts : σ → σ → Prop

/-- Activities, and the state of what they share. -/
structure Crowd (D : Dialogue) (σ α : Type) where
  tasks : List (Activity D α)
  state : σ

/-- Exchanges in the order in which they took place, each with the task that asked. -/
abbrev History (D : Dialogue) : Type := List (Nat × Exchange D)

/-- The exchanges of one task. -/
def History.of {D : Dialogue} (h : History D) (i : Nat) : List (Exchange D) :=
  h.filterMap fun e => if e.1 = i then some e.2 else none

/-- The exchanges of all tasks but one. -/
def History.without {D : Dialogue} (h : History D) (i : Nat) : History D := h.filter fun e => e.1 != i

namespace Crowd

variable {D : Dialogue} {σ α : Type}

/-- Whether a task waits for something, so that others may go on. -/
def Waits (S : Setting D σ) : Activity D α → Prop
  | .done _ => True
  | .ask q _ => S.prompt q = false

/-- Task `i` gets a reply, while no other task has a prompt question. -/
inductive Step (S : Setting D σ) (c : Crowd D σ α) (i : Nat) : Exchange D → Crowd D σ α → Prop where
  | reply {q : D.Ask} {k : D.Reply q → Activity D α} {r : D.Reply q} {s : σ}
      (task : c.tasks[i]? = some (.ask q k))
      (others : ∀ j a, j ≠ i → c.tasks[j]? = some a → Waits S a)
      (answer : S.Answers c.state i ⟨q, r⟩ s) : Step S c i ⟨q, r⟩ ⟨c.tasks.set i (k r), s⟩

/-- What activities side by side may come to, with the history of it. -/
inductive Run (S : Setting D σ) (c : Crowd D σ α) : History D → Crowd D σ α → Prop where
  | nil : Run S c [] c
  | step {h : History D} {i : Nat} {e : Exchange D} {c' c'' : Crowd D σ α} (run : Run S c h c')
      (last : Step S c' i e c'') : Run S c (h ++ [(i, e)]) c''
  | drift {h : History D} {c' : Crowd D σ α} {s : σ} (run : Run S c h c')
      (last : S.Drifts c'.state s) : Run S c h ⟨c'.tasks, s⟩

variable {S : Setting D σ}

theorem Run.append {c c' c'' : Crowd D σ α} {h h' : History D} (first : Run S c h c')
    (second : Run S c' h' c'') : Run S c (h ++ h') c'' := by
  induction second with
  | nil => simpa using first
  | step _ last ih => simpa using ih.step last
  | drift _ last ih => exact ih.drift last

theorem Run.split {c c'' : Crowd D σ α} {h h' : History D} (run : Run S c (h ++ h') c'') :
    ∃ c', Run S c h c' ∧ Run S c' h' c'' := by
  generalize hh : h ++ h' = g at run
  induction run generalizing h' with
  | nil =>
    obtain ⟨rfl, rfl⟩ := List.append_eq_nil_iff.1 hh
    exact ⟨c, .nil, .nil⟩
  | step run last ih =>
    rcases List.eq_nil_or_concat h' with rfl | ⟨front, e, rfl⟩
    · rw [List.append_nil] at hh
      subst hh
      exact ⟨_, run.step last, .nil⟩
    · rw [List.concat_eq_append, ← List.append_assoc] at hh
      obtain ⟨hf, he⟩ := List.append_inj' hh rfl
      obtain ⟨c', first, second⟩ := ih hf
      obtain rfl := List.cons.inj he |>.1
      exact ⟨c', first, by simpa using second.step last⟩
  | drift run last ih =>
    obtain ⟨c', first, second⟩ := ih hh
    exact ⟨c', first, second.drift last⟩

/-- The moment of one exchange in a run. -/
theorem Run.event {c c'' : Crowd D σ α} {h h' : History D} {i : Nat} {e : Exchange D}
    (run : Run S c (h ++ (i, e) :: h') c'') :
    ∃ d d', Run S c h d ∧ Step S d i e d' ∧ Run S d' h' c'' := by
  rw [← List.singleton_append, ← List.append_assoc] at run
  obtain ⟨d', first, second⟩ := run.split
  clear run
  generalize hg : h ++ [(i, e)] = g at first
  induction first generalizing h' with
  | nil => simp at hg
  | step run last _ =>
    obtain ⟨rfl, he⟩ := List.append_inj' hg rfl
    obtain ⟨rfl, rfl⟩ := Prod.mk.inj (List.cons.inj he).1
    exact ⟨_, _, run, last, second⟩
  | @drift _ d s _ last ih =>
    exact ih ((Run.nil.drift last).append second) hg

theorem history_of_append (h h' : History D) (i : Nat) :
    History.of (h ++ h') i = History.of h i ++ History.of h' i := by
  simp [History.of]

@[simp] theorem history_of_self (i : Nat) (e : Exchange D) : History.of [(i, e)] i = [e] := by
  simp [History.of]

theorem history_of_other {i j : Nat} (hne : j ≠ i) (e : Exchange D) : History.of [(j, e)] i = [] := by
  simp [History.of, hne]

theorem mem_history_of {h : History D} {i : Nat} {e : Exchange D} : e ∈ h.of i ↔ (i, e) ∈ h := by
  rw [History.of, List.mem_filterMap]
  constructor
  · rintro ⟨⟨j, e'⟩, mem, found⟩
    split at found
    · rename_i same
      cases found
      exact (show j = i from same) ▸ mem
    · cases found
  · exact fun mem => ⟨(i, e), mem, if_pos rfl⟩

/-- The exchanges of one task are a path of its activity, whatever the others do. -/
theorem Run.path {c c' : Crowd D σ α} {h : History D} (run : Run S c h c') {i : Nat} {a : Activity D α}
    (task : c.tasks[i]? = some a) : ∃ b, c'.tasks[i]? = some b ∧ Activity.Path a (h.of i) b := by
  induction run with
  | nil => exact ⟨a, task, .nil a⟩
  | drift _ _ ih => exact ih
  | @step h j e c' c'' run last ih =>
    obtain ⟨b, hb, path⟩ := ih
    cases last with
    | @reply q k r s found others answer =>
      have hj : j < c'.tasks.length := (List.getElem?_eq_some_iff.1 found).1
      by_cases hij : j = i
      · subst hij
        rw [found, Option.some.injEq] at hb
        subst hb
        refine ⟨k r, by simp [hj], ?_⟩
        rw [history_of_append, history_of_self]
        exact path.snoc r
      · refine ⟨b, by simpa [List.getElem?_set_ne hij] using hb, ?_⟩
        rw [history_of_append, history_of_other hij, List.append_nil]
        exact path

/-- An exchange of one task stands somewhere in the history of all, with what follows it. -/
theorem exists_of_history_of {h : History D} {i : Nat} {e : Exchange D} {es : List (Exchange D)}
    (sub : List.Sublist (e :: es) (h.of i)) :
    ∃ g g' : History D, h = g ++ (i, e) :: g' ∧ List.Sublist es (g'.of i) := by
  induction h with
  | nil => cases sub
  | cons x h ih =>
    obtain ⟨j, x⟩ := x
    rw [← List.singleton_append (l := h), history_of_append] at sub
    by_cases hj : j = i
    · subst hj
      rw [history_of_self] at sub
      cases sub with
      | cons _ rest =>
        obtain ⟨g, g', rfl, follow⟩ := ih rest
        exact ⟨(j, x) :: g, g', rfl, follow⟩
      | cons_cons _ follow => exact ⟨[], h, rfl, follow⟩
    · rw [history_of_other hj] at sub
      obtain ⟨g, g', rfl, follow⟩ := ih sub
      exact ⟨(j, x) :: g, g', rfl, follow⟩

/-- The moment at which a task got one of its replies. -/
theorem Run.reply {c c'' : Crowd D σ α} {h : History D} (run : Run S c h c'') {i : Nat} {e : Exchange D}
    {es : List (Exchange D)} (sub : List.Sublist (e :: es) (h.of i)) :
    ∃ (g g' : History D) (d d' : Crowd D σ α), Run S c g d ∧ Step S d i e d' ∧ Run S d' g' c'' ∧
      List.Sublist es (g'.of i) := by
  obtain ⟨g, g', rfl, follow⟩ := exists_of_history_of sub
  obtain ⟨d, d', before, step, after⟩ := run.event
  exact ⟨g, g', d, d', before, step, after, follow⟩

/-- A task that never changes the state may as well be over from the start: with the history of the
others, everything comes to the same. -/
theorem Run.without {c c' : Crowd D σ α} {h : History D} (run : Run S c h c') {i : Nat}
    (idle : ∀ e ∈ h.of i, ∀ s s', S.Answers s i e s' → s' = s) (x : α) :
    Run S ⟨c.tasks.set i (.done x), c.state⟩ (h.without i) ⟨c'.tasks.set i (.done x), c'.state⟩ := by
  induction run with
  | nil => exact .nil
  | drift _ last ih => exact (ih idle).drift last
  | @step h j e c' c'' _ last ih =>
    have before := ih fun e' he' => idle e' (by rw [history_of_append]; exact List.mem_append_left _ he')
    cases last with
    | @reply q k r s task others answer =>
      by_cases hj : j = i
      · subst hj
        have same : s = c'.state := idle ⟨q, r⟩ (by rw [history_of_append]; simp) _ _ answer
        simpa [History.without, same] using before
      · have hwithout : History.without (h ++ [(j, ⟨q, r⟩)]) i = h.without i ++ [(j, ⟨q, r⟩)] := by
          simp [History.without, hj]
        rw [hwithout]
        refine before.step ?_
        rw [List.set_comm _ _ hj]
        refine .reply (by rwa [List.getElem?_set_ne (Ne.symm hj)]) ?_ answer
        intro l a hl ha
        by_cases hli : l = i
        · subst hli
          have hlt : l < (c'.tasks.set l (.done x)).length := (List.getElem?_eq_some_iff.1 ha).1
          rw [List.getElem?_set_self (by simpa using hlt), Option.some.injEq] at ha
          rw [← ha]
          trivial
        · rw [List.getElem?_set_ne (Ne.symm hli)] at ha
          exact others l a hl ha

/-- Without an exchange no task goes on. -/
theorem Run.tasks_eq {c c' : Crowd D σ α} (run : Run S c [] c') : c'.tasks = c.tasks := by
  generalize hh : ([] : History D) = h at run
  induction run with
  | nil => rfl
  | step => simp at hh
  | drift _ _ ih => exact ih hh

theorem Run.length_tasks {c c' : Crowd D σ α} {h : History D} (run : Run S c h c') :
    c'.tasks.length = c.tasks.length := by
  induction run with
  | nil => rfl
  | drift _ _ ih => exact ih
  | step _ last ih =>
    cases last
    simpa using ih

/-- There are no exchanges of a task that does not exist. -/
theorem Run.history_of_eq_nil {c c' : Crowd D σ α} {h : History D} (run : Run S c h c') {i : Nat}
    (absent : c.tasks[i]? = none) : h.of i = [] := by
  induction run with
  | nil => rfl
  | drift _ _ ih => exact ih
  | @step h j e c' c'' run last ih =>
    cases last with
    | reply task others answer =>
      have hj : j ≠ i := by
        rintro rfl
        have := (List.getElem?_eq_some_iff.1 task).1
        rw [run.length_tasks] at this
        exact absurd this (Nat.not_lt.2 (List.getElem?_eq_none_iff.1 absent))
      rw [history_of_append, history_of_other hj, ih, List.append_nil]

end Crowd

end ProofRelay
