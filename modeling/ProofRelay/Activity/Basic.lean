import ProofRelay.Failure

/-!
Activities: programs that ask their surroundings. An activity is finished, or it has one question and a
way to go on for every reply. What the surroundings do is not part of it, so a statement about all the
paths of an activity holds whatever the replies are.
-/

namespace ProofRelay

/-- Questions, and what a reply to each of them is. -/
structure Dialogue where
  Ask : Type
  Reply : Ask → Type

inductive Activity (D : Dialogue) (α : Type) : Type where
  | done (a : α)
  | ask (q : D.Ask) (k : D.Reply q → Activity D α)

namespace Activity

variable {D E : Dialogue} {α β : Type}

def bind : Activity D α → (α → Activity D β) → Activity D β
  | .done a, f => f a
  | .ask q k, f => .ask q fun r => (k r).bind f

instance : Monad (Activity D) where
  pure := .done
  bind := bind

@[simp] theorem pure_eq (a : α) : (pure a : Activity D α) = .done a := rfl

@[simp] theorem done_bind (a : α) (f : α → Activity D β) : (Activity.done a >>= f) = f a := rfl

@[simp] theorem ask_bind (q : D.Ask) (k : D.Reply q → Activity D α) (f : α → Activity D β) :
    (Activity.ask q k >>= f) = .ask q fun r => k r >>= f := rfl

theorem bind_done (a : Activity D α) : (a >>= Activity.done) = a := by
  induction a with
  | done a => rfl
  | ask q k ih =>
    rw [ask_bind]
    congr 1
    funext r
    exact ih r

theorem bind_assoc {γ : Type} (a : Activity D α) (f : α → Activity D β) (g : β → Activity D γ) :
    (a >>= f >>= g) = (a >>= fun x => f x >>= g) := by
  induction a with
  | done a => rfl
  | ask q k ih =>
    simp only [ask_bind]
    congr 1
    funext r
    exact ih r

instance : LawfulMonad (Activity D) :=
  LawfulMonad.mk' _ bind_done (fun _ _ => rfl) bind_assoc

/-- Asks one question and gives the reply. -/
def query (q : D.Ask) : Activity D (D.Reply q) := .ask q .done

def result? : Activity D α → Option α
  | .done a => some a
  | .ask _ _ => none

/-- Runs an activity in surroundings that answer every question at once. -/
def runWith {σ : Type} (reply : (q : D.Ask) → σ → D.Reply q × σ) : Activity D α → σ → α × σ
  | .done a, s => (a, s)
  | .ask q k, s =>
    let (r, s) := reply q s
    (k r).runWith reply s

/-- One activity is what another becomes after one reply. -/
inductive Next : Activity D α → Activity D α → Prop where
  | reply (q : D.Ask) (k : D.Reply q → Activity D α) (r : D.Reply q) : Next (k r) (.ask q k)

theorem next_acc (a : Activity D α) : Acc Next a := by
  induction a with
  | done a => exact ⟨_, fun _ h => nomatch h⟩
  | ask q k ih =>
    refine ⟨_, fun b h => ?_⟩
    cases h with
    | reply _ _ r => exact ih r

theorem next_wellFounded : WellFounded (@Next D α) := ⟨next_acc⟩

end Activity

/-- A way to put the questions of one dialogue to the surroundings of another. -/
structure Dialogue.Embedding (D E : Dialogue) where
  ask : D.Ask → E.Ask
  reply : (q : D.Ask) → E.Reply (ask q) → D.Reply q

def Activity.via {D E : Dialogue} {α : Type} (e : D.Embedding E) : Activity D α → Activity E α
  | .done a => .done a
  | .ask q k => .ask (e.ask q) fun r => (k (e.reply q r)).via e

/-- An activity that may end early. -/
abbrev Attempt (D : Dialogue) (α : Type) : Type := ExceptT Trouble (Activity D) α

namespace Attempt

variable {D E : Dialogue} {α : Type}

def ofActivity (a : Activity D (Except Trouble α)) : Attempt D α := ExceptT.mk a

def ofExcept (r : Except Trouble α) : Attempt D α := ofActivity (.done r)

/-- Asks a question that surely has a reply. -/
def query (q : D.Ask) : Attempt D (D.Reply q) := ExceptT.lift (Activity.query q)

def fail (f : Failure) : Attempt D α := ofExcept (.error (.failure f))

def via (e : D.Embedding E) (a : Attempt D α) : Attempt E α := ofActivity (Activity.via e a.run)

/-- What an attempt came to, as a value. -/
def outcome (a : Attempt D α) : Attempt D (Except Trouble α) := ExceptT.lift a.run

/-- Puts integers into a line of the log. The line is made whether or not anybody reads it, so an integer that
has no text is a fault here. -/
def log (numbers : List Int) : Attempt D Unit := ofExcept ((Decimal.showAll numbers).mapError .fault)

/-- The attempts from the `n`-th on, as long as they fail and `left` of them are left, and the failure of the last
of all `attempts`. Other trouble is not retried. -/
def attemptsFrom (attempts : Nat) (a : Attempt D α) : (left : Nat) → (n : Nat) → Attempt D α
  | 0, _ => ofExcept (.error (.fault ⟨.runtime, "unreachable"⟩))
  | left + 1, n => do
    match ← a.outcome with
    | .error (.failure f) =>
      if n = attempts then fail f
      else
        log [n, attempts]
        attemptsFrom attempts a left (n + 1)
    | r => ofExcept r

/-- Makes an attempt, and again as long as it fails, but no more than `attempts` times. -/
def retry (attempts : Nat) (a : Attempt D α) : Attempt D α := attemptsFrom attempts a attempts 1

end Attempt

end ProofRelay
