import ProofRelay.Activity.Basic
import ProofRelay.Number.Decimal

/-!
Pools of activities that run side by side in shared surroundings. An activity runs without interruption
until a question has to wait, for a point in time or for its turn; then the next one that need not wait
any longer goes on. A pool always settles, since every step answers a question of one activity.
-/

namespace ProofRelay

/-- What a question waits for before it takes effect. -/
inductive Wait (τ : Type) where
  | nothing
  | until (t : τ)
  | turn

/-- Surroundings with state `σ`. A question of task `i` first begins, which says what it waits for, and
then finishes with its reply. -/
structure Surroundings (D : Dialogue) (τ σ : Type) where
  begin : (i : Nat) → (now : τ) → D.Ask → σ → Wait τ × σ
  finish : (i : Nat) → (now : τ) → (q : D.Ask) → σ → D.Reply q × σ
  /-- Whether the turn of a waiting question has come. -/
  hasTurn : (i : Nat) → D.Ask → σ → Bool

/-- An activity and what its question waits for. -/
structure Task (D : Dialogue) (τ α : Type) where
  rest : Activity D α
  wait : Wait τ

structure Pool (D : Dialogue) (τ σ α : Type) where
  tasks : List (Task D τ α)
  now : τ
  state : σ

namespace Pool

variable {D : Dialogue} {τ σ α : Type}

/-- Runs an activity up to the first question that has to wait. -/
def drive (S : Surroundings D τ σ) (i : Nat) (now : τ) : Activity D α → σ → Task D τ α × σ
  | .done a, s => (⟨.done a, .nothing⟩, s)
  | .ask q k, s =>
    match S.begin i now q s with
    | (.nothing, s) =>
      let (r, s) := S.finish i now q s
      drive S i now (k r) s
    | (w, s) => (⟨.ask q k, w⟩, s)

/-- Starts activities one after the other, the first of them as task `i`. -/
def startFrom (S : Surroundings D τ σ) (now : τ) (i : Nat) :
    List (Activity D α) → σ → List (Task D τ α) × σ
  | [], s => ([], s)
  | a :: rest, s =>
    let (t, s) := drive S i now a s
    let (ts, s) := startFrom S now (i + 1) rest s
    (t :: ts, s)

/-- Whether a task waits for its turn and has it. -/
def turnCome (S : Surroundings D τ σ) (s : σ) (i : Nat) (t : Task D τ α) : Bool :=
  match t.wait, t.rest with
  | .turn, .ask q _ => S.hasTurn i q s
  | _, _ => false

/-- The point in time for which a task waits. -/
def due? (t : Task D τ α) : Option τ :=
  match t.wait, t.rest with
  | .until d, .ask _ _ => some d
  | _, _ => none

/-- The first task with the earliest due time. -/
def earliest [Time τ] (i : Nat) : List (Task D τ α) → Option (Nat × τ)
  | [] => none
  | t :: rest =>
    match due? t, earliest (i + 1) rest with
    | none, later => later
    | some d, none => some (i, d)
    | some d, some (j, d') => if Time.lt d' d then some (j, d') else some (i, d)

def withTurn (S : Surroundings D τ σ) (s : σ) (i : Nat) : List (Task D τ α) → Option Nat
  | [] => none
  | t :: rest => if turnCome S s i t then some i else withTurn S s (i + 1) rest

/-- The task that goes on next, and when. -/
def choose [Time τ] (S : Surroundings D τ σ) (p : Pool D τ σ α) : Option (Nat × τ) :=
  match withTurn S p.state 0 p.tasks with
  | some i => some (i, p.now)
  | none => earliest 0 p.tasks

/-- Answers the waiting question of task `i` at time `t` and runs that task on. -/
def resume (S : Surroundings D τ σ) (p : Pool D τ σ α) (i : Nat) (t : τ) : Option (Pool D τ σ α) :=
  match p.tasks[i]? with
  | some ⟨.ask q k, _⟩ =>
    let (r, s) := S.finish i t q p.state
    let (task, s) := drive S i t (k r) s
    some ⟨p.tasks.set i task, t, s⟩
  | _ => none

def step [Time τ] (S : Surroundings D τ σ) (p : Pool D τ σ α) : Option (Pool D τ σ α) :=
  match choose S p with
  | some (i, t) => resume S p i t
  | none => none

/-- What a task may become in one step or more. -/
def Later : Task D τ α → Task D τ α → Prop := Relation.TransGen fun b a => Activity.Next b.rest a.rest

theorem drive_later (S : Surroundings D τ σ) (i : Nat) (now : τ) (a : Activity D α) (s : σ) (t : Task D τ α)
    (h : Activity.Next a t.rest) : Later (drive S i now a s).1 t := by
  induction a generalizing s t with
  | done a => exact .single h
  | ask q k ih =>
    rw [drive]
    split
    · exact (ih _ _ ⟨.ask q k, .nothing⟩ (.reply q k _)).trans (.single h)
    · exact .single h

/-- One place of a list holds what its task may become, and the other places are the same. -/
inductive OneLater : List (Task D τ α) → List (Task D τ α) → Prop where
  | head {t u : Task D τ α} (ts : List (Task D τ α)) (h : Later u t) : OneLater (u :: ts) (t :: ts)
  | tail (t : Task D τ α) {us ts : List (Task D τ α)} (h : OneLater us ts) : OneLater (t :: us) (t :: ts)

theorem later_wellFounded : WellFounded (@Later D τ α) :=
  (InvImage.wf Task.rest Activity.next_wellFounded).transGen

theorem oneLater_acc (ts : List (Task D τ α)) : Acc OneLater ts := by
  induction ts with
  | nil => exact ⟨_, fun _ h => nomatch h⟩
  | cons t ts ih =>
    induction later_wellFounded.apply t generalizing ts with
    | intro t _ iht =>
      induction ih with
      | intro ts hts ihts =>
        refine ⟨_, fun us h => ?_⟩
        cases h with
        | head _ h => exact iht _ h ts ⟨ts, hts⟩
        | tail _ h => exact ihts _ h

theorem oneLater_set (ts : List (Task D τ α)) (i : Nat) (t u : Task D τ α) (hi : ts[i]? = some t)
    (h : Later u t) : OneLater (ts.set i u) ts := by
  induction ts generalizing i with
  | nil => simp at hi
  | cons v ts ih =>
    cases i with
    | zero =>
      simp only [List.getElem?_cons_zero, Option.some.injEq] at hi
      subst hi
      exact .head ts h
    | succ i => exact .tail v (ih i (by simpa using hi))

instance : WellFoundedRelation (List (Task D τ α)) := ⟨OneLater, ⟨oneLater_acc⟩⟩

theorem resume_oneLater {S : Surroundings D τ σ} {p p' : Pool D τ σ α} {i : Nat} {t : τ}
    (h : resume S p i t = some p') : OneLater p'.tasks p.tasks := by
  unfold resume at h
  split at h
  · rename_i q k w hi
    simp only [Option.some.injEq] at h
    subst h
    exact oneLater_set _ _ _ _ hi (drive_later _ _ _ _ _ _ (.reply q k _))
  · simp at h

theorem step_oneLater [Time τ] {S : Surroundings D τ σ} {p p' : Pool D τ σ α} (h : step S p = some p') :
    OneLater p'.tasks p.tasks := by
  unfold step at h
  split at h
  · exact resume_oneLater h
  · simp at h

/-- Runs a pool until no task can go on. -/
def settle [Time τ] (S : Surroundings D τ σ) (p : Pool D τ σ α) : Pool D τ σ α :=
  match _h : step S p with
  | none => p
  | some p' => settle S p'
termination_by p.tasks
decreasing_by exact step_oneLater _h

/-- Runs activities side by side from the start. -/
def run [Time τ] (S : Surroundings D τ σ) (now : τ) (s : σ) (activities : List (Activity D α)) :
    Pool D τ σ α :=
  let (tasks, s) := startFrom S now 0 activities s
  settle S ⟨tasks, now, s⟩

end Pool

end ProofRelay
