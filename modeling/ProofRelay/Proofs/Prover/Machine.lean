import Mathlib.Algebra.Order.Group.Defs
import ProofRelay.Proofs.Prover.Attempts
import ProofRelay.Proofs.Prover.Foreseen

/-!
A machine on which the prover's processes run, with time in exact numbers. Time passes only while a process is waited
for. A plan says of a process whether it can be started, and after which delay it exits, if ever; what it does to the
files is left open. A process that exits at the very moment at which the wait for it ends may be seen to do so or not.
-/

namespace ProofRelay

/-- Time in exact numbers. -/
class ExactTime (τ : Type) [Time τ] [AddCommGroup τ] [LinearOrder τ] : Prop where
  zero_eq : (Time.zero : τ) = 0
  add_eq : ∀ a b : τ, Time.add a b = a + b
  sub_eq : ∀ a b : τ, Time.sub a b = a - b
  le_iff : ∀ a b : τ, Time.le a b = true ↔ a ≤ b

namespace Prover

variable {τ : Type} [AddCommGroup τ] [LinearOrder τ]

/-- How a process goes. One without a delay never exits. -/
structure Plan (τ : Type) [AddCommGroup τ] [LinearOrder τ] where
  refusal : Option Fault := none
  delay : Option τ := none
  exit : Exit := ⟨0, []⟩
  nonneg : ∀ d, delay = some d → 0 ≤ d

inductive Fate (τ : Type) where
  | running
  | exited (time : τ)
  | killed (time : τ)

/-- A process that was started. -/
structure Launch (τ : Type) [AddCommGroup τ] [LinearOrder τ] where
  args : List String
  dir : Path
  plan : Plan τ
  began : τ
  fate : Fate τ := .running

structure Machine (τ : Type) [AddCommGroup τ] [LinearOrder τ] where
  clock : τ
  files : FileTree
  /-- How often a process was to be started. -/
  asked : Nat := 0
  launches : List (Launch τ) := []

namespace Machine

/-- No process is running. -/
def Idle (m : Machine τ) : Prop := ∀ l ∈ m.launches, l.fate ≠ .running

/-- A process is running. -/
def Runs (m : Machine τ) (p : Nat) (l : Launch τ) : Prop := m.launches[p]? = some l ∧ l.fate = .running

/-- How a question may be answered, by the plans of the processes in the order of their starts. -/
inductive Answers (script : Nat → Plan τ) : Machine τ → Exchange (dialogue τ) → Machine τ → Prop where
  | now (m : Machine τ) : Answers script m ⟨.now, m.clock⟩ m
  | isFile (m : Machine τ) (file : Path) : Answers script m ⟨.isFile file, m.files.isFile file⟩ m
  | read (m : Machine τ) (file : Path) : Answers script m ⟨.read file, m.files.read file⟩ m
  | refused {m : Machine τ} {args : List String} {dir : Path} {f : Fault}
      (refusal : (script m.asked).refusal = some f) :
      Answers script m ⟨.start args dir, .error f⟩ { m with asked := m.asked + 1 }
  | started {m : Machine τ} {args : List String} {dir : Path} (willing : (script m.asked).refusal = none) :
      Answers script m ⟨.start args dir, .ok m.launches.length⟩
        { m with asked := m.asked + 1, launches := m.launches ++ [⟨args, dir, script m.asked, m.clock, .running⟩] }
  | exited {m : Machine τ} {p : Nat} {limit d : τ} {l : Launch τ} (files : FileTree) (runs : m.Runs p l)
      (ends : l.plan.delay = some d) (inTime : l.began + d ≤ m.clock + limit) :
      Answers script m ⟨.wait p limit, some l.plan.exit⟩
        { m with clock := max m.clock (l.began + d), files := files,
                 launches := m.launches.set p { l with fate := .exited (l.began + d) } }
  | late {m : Machine τ} {p : Nat} {limit : τ} {l : Launch τ} (files : FileTree) (runs : m.Runs p l)
      (beyond : ∀ d, l.plan.delay = some d → m.clock + limit ≤ l.began + d) :
      Answers script m ⟨.wait p limit, none⟩ { m with clock := m.clock + limit, files := files }
  | killed {m : Machine τ} {p : Nat} {l : Launch τ} (files : FileTree) (runs : m.Runs p l) :
      Answers script m ⟨.kill p, ()⟩
        { m with files := files, launches := m.launches.set p { l with fate := .killed m.clock } }

/-- What an invocation may ask: it starts a process, and looks at files, only when none is running, and waits only for
one that is, and for some time. -/
def May (m : Machine τ) : Ask τ → Prop
  | .now => True
  | .isFile _ | .read _ | .start _ _ => m.Idle
  | .wait p limit => 0 < limit ∧ ∃ l, m.Runs p l
  | .kill p => ∃ l, m.Runs p l
  | .openWorkspace _ _ | .discard _ | .write _ _ => False

def terms (script : Nat → Plan τ) : Terms (dialogue τ) (Machine τ) := ⟨May, Answers script⟩

/-- Whatever may be asked is answered. -/
theorem exists_answer (script : Nat → Plan τ) {m : Machine τ} {q : Ask τ} (may : m.May q) :
    ∃ r m', Answers script m ⟨q, r⟩ m' := by
  cases q with
  | now => exact ⟨_, _, .now m⟩
  | isFile file => exact ⟨_, _, .isFile m file⟩
  | read file => exact ⟨_, _, .read m file⟩
  | openWorkspace | discard | write => exact may.elim
  | start args dir =>
    cases refusal : (script m.asked).refusal with
    | none => exact ⟨_, _, .started refusal⟩
    | some f => exact ⟨_, _, .refused refusal⟩
  | kill p =>
    obtain ⟨l, runs⟩ := may
    exact ⟨_, _, .killed m.files runs⟩
  | wait p limit =>
    obtain ⟨-, l, runs⟩ := may
    cases ends : l.plan.delay with
    | none => exact ⟨_, _, .late m.files runs (by simp [ends])⟩
    | some d =>
      rcases le_total (l.began + d) (m.clock + limit) with inTime | late
      · exact ⟨_, _, .exited m.files runs ends inTime⟩
      · refine ⟨_, _, .late m.files runs fun d' ends' => ?_⟩
        obtain rfl := Option.some.inj (ends.symm.trans ends')
        exact late

end Machine

section Ways

variable [Time τ]

/-- Why a process is not started: the budget is used up, or the start is refused. -/
inductive Unstarted (c : Config τ) (stage : Step) (deadline : τ) (plan : Plan τ) (clock : τ) : Trouble → Prop where
  | exhausted (spent : deadline ≤ clock) :
      Unstarted c stage deadline plan clock (.failure (Prover.exhausted c stage))
  | refused {f : Fault} (left : clock < deadline) (refusal : plan.refusal = some f) :
      Unstarted c stage deadline plan clock (notStarted stage f)

/-- How a process ends, when that is, and what it comes to. -/
inductive Ended (c : Config τ) (stage : Step) (deadline : τ) (l : Launch τ) : τ → Except Trouble Unit → Prop where
  | killed (late : ∀ d, l.plan.delay = some d → deadline ≤ l.began + d) (fate : l.fate = .killed deadline) :
      Ended c stage deadline l deadline (.error (.failure (overrun c stage)))
  | failed {d : τ} (ends : l.plan.delay = some d) (inTime : l.began + d ≤ deadline)
      (fate : l.fate = .exited (l.began + d)) (bad : l.plan.exit.code ≠ 0) :
      Ended c stage deadline l (l.began + d) (.error (.failure (exited stage l.plan.exit)))
  | succeeded {d : τ} (ends : l.plan.delay = some d) (inTime : l.began + d ≤ deadline)
      (fate : l.fate = .exited (l.began + d)) (good : l.plan.exit.code = 0) :
      Ended c stage deadline l (l.began + d) (.ok ())

/-- What one process of an invocation comes to on a machine. -/
inductive Ran (c : Config τ) (stage : Step) (args : List String) (dir : Path) (deadline : τ) (plan : Plan τ)
    (m : Machine τ) : Except Trouble Unit → Machine τ → Prop where
  | unstarted {t : Trouble} (n : Nat) (unstarted : Unstarted c stage deadline plan m.clock t) :
      Ran c stage args dir deadline plan m (.error t) { m with asked := n }
  | ended {l : Launch τ} {time : τ} {y : Except Trouble Unit} (files : FileTree)
      (launched : l = ⟨args, dir, plan, m.clock, l.fate⟩) (left : m.clock < deadline) (willing : plan.refusal = none)
      (ended : Ended c stage deadline l time y) :
      Ran c stage args dir deadline plan m y ⟨time, files, m.asked + 1, m.launches ++ [l]⟩

namespace Ended

variable {c : Config τ} {stage : Step} {deadline time : τ} {l : Launch τ} {y : Except Trouble Unit}

theorem not_running (ended : Ended c stage deadline l time y) : l.fate ≠ .running := by
  cases ended with
  | killed _ fate | failed _ _ fate | succeeded _ _ fate => simp [fate]

theorem time_le (ended : Ended c stage deadline l time y) : time ≤ deadline := by
  cases ended with
  | killed => exact le_refl _
  | failed _ inTime | succeeded _ inTime => exact inTime

/-- A process succeeds if it exits in time with code zero. -/
theorem eq_ok_iff (ended : Ended c stage deadline l time y) :
    y = .ok () ↔ l.plan.exit.code = 0 ∧ ∃ at_, l.fate = .exited at_ := by
  cases ended with
  | killed _ fate => simp [fate]
  | failed _ _ fate bad => simp [bad]
  | succeeded _ _ fate good => simp [fate, good]

theorem exists_delay (ended : Ended c stage deadline l time (.ok ())) :
    ∃ d, l.plan.delay = some d ∧ time = l.began + d ∧ l.fate = .exited time := by
  cases ended with
  | succeeded ends _ fate => exact ⟨_, ends, rfl, fate⟩

/-- A process is killed only when the budget is used up. -/
theorem of_killed {at_ : τ} (ended : Ended c stage deadline l time y) (killed : l.fate = .killed at_) :
    y = .error (.failure (overrun c stage)) := by
  cases ended with
  | killed => rfl
  | failed _ _ fate | succeeded _ _ fate => cases fate.symm.trans killed

/-- A process that exits before the budget is used up is seen to do so. -/
theorem of_exits {d : τ} (ended : Ended c stage deadline l time y) (ends : l.plan.delay = some d)
    (before : l.began + d < deadline) :
    l.fate = .exited (l.began + d) ∧ time = l.began + d ∧
      y = if l.plan.exit.code = 0 then .ok () else .error (.failure (exited stage l.plan.exit)) := by
  cases ended with
  | killed late => exact absurd before (not_lt.2 (late d ends))
  | failed ends' _ fate bad =>
    obtain rfl := Option.some.inj (ends.symm.trans ends')
    exact ⟨fate, rfl, (if_neg bad).symm⟩
  | succeeded ends' _ fate good =>
    obtain rfl := Option.some.inj (ends.symm.trans ends')
    exact ⟨fate, rfl, (if_pos good).symm⟩

/-- A process that would exit after that is killed. -/
theorem of_overruns (ended : Ended c stage deadline l time y)
    (after : ∀ d, l.plan.delay = some d → deadline < l.began + d) :
    l.fate = .killed deadline ∧ y = .error (.failure (overrun c stage)) := by
  cases ended with
  | killed _ fate => exact ⟨fate, rfl⟩
  | failed ends inTime | succeeded ends inTime => exact absurd inTime (not_le.2 (after _ ends))

end Ended

end Ways

namespace Machine

variable [IsOrderedAddMonoid τ] [Time τ] [ExactTime τ] {c : Config τ} {script : Nat → Plan τ} {m : Machine τ}

theorem isSpent_iff (deadline now : τ) : Time.le (Time.sub deadline now) Time.zero = true ↔ deadline ≤ now := by
  rw [ExactTime.le_iff, ExactTime.sub_eq, ExactTime.zero_eq, sub_nonpos]

omit [IsOrderedAddMonoid τ] in
theorem add_remaining (deadline now : τ) : now + Time.sub deadline now = deadline := by
  rw [ExactTime.sub_eq, add_sub_cancel]

omit [IsOrderedAddMonoid τ] [Time τ] [ExactTime τ] in
theorem eq_of_runs_last {launches : List (Launch τ)} {l l' : Launch τ} {clock : τ} {files : FileTree} {n : Nat}
    (runs : Runs ⟨clock, files, n, launches ++ [l]⟩ launches.length l') : l' = l := by
  have there : (launches ++ [l])[launches.length]? = some l' := runs.1
  rw [List.getElem?_concat_length] at there
  exact (Option.some.inj there).symm

/-- One process is not started, or it ends by the deadline. -/
theorem meets_runStep (idle : m.Idle) (stage : Step) (args : List String) (dir : Path) (deadline : τ) :
    (runStep c stage args dir deadline).Meets (terms script) m
      (Ran c stage args dir deadline (script m.asked) m) := by
  refine Attempt.meets_query_bind trivial fun now m₁ answer => ?_
  cases answer with
  | now =>
    dsimp only
    by_cases spent : deadline ≤ m.clock
    · rw [if_pos ((isSpent_iff _ _).2 spent)]
      exact .unstarted m.asked (.exhausted spent)
    have left := not_le.1 spent
    rw [if_neg fun h => spent ((isSpent_iff _ _).1 h)]
    refine Attempt.meets_query_bind idle fun r m₂ answer => ?_
    cases answer with
    | refused refusal => exact .unstarted _ (.refused left refusal)
    | started willing =>
      have positive : 0 < Time.sub deadline m.clock := by
        rw [ExactTime.sub_eq]
        exact sub_pos.2 left
      refine Attempt.meets_query_bind ⟨positive, _, List.getElem?_concat_length, rfl⟩ fun r m₃ answer => ?_
      cases answer with
      | @exited _ _ d l files runs ends inTime =>
        obtain rfl := eq_of_runs_last runs
        -- It is waited for as long as something is left, so until the deadline.
        have inTime : m.clock + d ≤ deadline := add_remaining deadline m.clock ▸ inTime
        have later : max m.clock (m.clock + d) = m.clock + d :=
          max_eq_right (le_add_of_nonneg_right ((script m.asked).nonneg d ends))
        dsimp only
        rw [List.set_append_right _ _ (le_refl _), Nat.sub_self, later]
        by_cases good : (script m.asked).exit.code = 0
        · rw [if_pos good]
          exact .ended files rfl left willing (.succeeded ends inTime rfl good)
        · rw [if_neg good]
          exact .ended files rfl left willing (.failed ends inTime rfl good)
      | @late _ _ l files runs beyond =>
        obtain rfl := eq_of_runs_last runs
        have beyond : ∀ d, (script m.asked).delay = some d → deadline ≤ m.clock + d :=
          add_remaining deadline m.clock ▸ beyond
        dsimp only
        refine Attempt.meets_query_bind ⟨_, runs⟩ fun _ m₄ answer => ?_
        cases answer with
        | @killed _ l files' runs' =>
          obtain rfl := eq_of_runs_last runs'
          dsimp only
          rw [List.set_append_right _ _ (le_refl _), Nat.sub_self, add_remaining]
          exact .ended files' rfl left willing (.killed beyond rfl)

end Machine

end Prover

end ProofRelay
