import Mathlib.Algebra.Order.Ring.Int
import ProofRelay.Proofs.Pipeline.Arena
import ProofRelay.Proofs.Prover.Machine

/-!
The life cycle of an invocation's processes. Both have one budget: the second one is started only if the first one
has succeeded before the budget is used up, and what is running when it is used up is killed. So the invocation ends by
then, and no process outlives it. Which of the two are started, how they end and what the invocation comes to is told
by their plans and the budget, but for processes that exit at the very moment at which it is used up.
-/

namespace ProofRelay.Prover

open Attempt (Yields)

/-- The proof and the key that are read from a file tree. -/
def gathered (w : Workspace) (files : FileTree) : Except Trouble Artifact :=
  w.gather (fun name => files.isFile (w.root.child name)) fun name => files.read (w.root.child name)

/-- An artifact with what the files of a workspace hold: the proof is a file that can be read, and so is the key if
there is one. -/
structure Holds (w : Workspace) (files : FileTree) (a : Artifact) : Prop where
  request : a.requestId = w.requestId
  source : a.source = w.proof.toString
  isFile : files.isFile w.proof = .ok true
  data : files.read w.proof = .ok a.data
  key : (files.isFile w.verifyingKey = .ok true ∧
      ∃ key, files.read w.verifyingKey = .ok key ∧ a.verifyingKey = some key) ∨
    (files.isFile w.verifyingKey = .ok false ∧ a.verifyingKey = none)

theorem mapError_eq_ok {ε ε' α : Type} {x : Except ε α} {g : ε → ε'} {a : α} (h : x.mapError g = .ok a) :
    x = .ok a := by
  cases x with
  | error e => cases h
  | ok b => exact congrArg Except.ok (Except.ok.inj h)

theorem gatherKey_eq_ok_iff {look : String → Except Fault Bool} {content : String → Except Fault Bytes}
    {key : Option Bytes} :
    Workspace.gatherKey look content = .ok key ↔
      (look "vk.key" = .ok true ∧ ∃ data, content "vk.key" = .ok data ∧ key = some data) ∨
        (look "vk.key" = .ok false ∧ key = none) := by
  rw [Workspace.gatherKey, except_bind_eq_ok]
  constructor
  · rintro ⟨there, looked, read⟩
    have looked := mapError_eq_ok looked
    cases there with
    | false => exact .inr ⟨looked, (Except.ok.inj read).symm⟩
    | true =>
      obtain ⟨data, read, same⟩ := except_bind_eq_ok.1 read
      exact .inl ⟨looked, data, mapError_eq_ok read, (Except.ok.inj same).symm⟩
  · rintro (⟨looked, data, read, rfl⟩ | ⟨looked, rfl⟩)
    · refine ⟨true, by rw [looked]; rfl, ?_⟩
      rw [read]
      rfl
    · exact ⟨false, by rw [looked]; rfl, rfl⟩

theorem gathered_eq_ok_iff {w : Workspace} {files : FileTree} {a : Artifact} :
    gathered w files = .ok a ↔ Holds w files a := by
  rw [gathered, Workspace.gather, except_bind_eq_ok]
  constructor
  · rintro ⟨there, looked, rest⟩
    have isFile := mapError_eq_ok looked
    cases there with
    | false => cases rest
    | true =>
      obtain ⟨data, read, rest⟩ := except_bind_eq_ok.1 rest
      obtain ⟨key, found, same⟩ := except_bind_eq_ok.1 rest
      obtain rfl := Except.ok.inj same
      exact ⟨rfl, rfl, isFile, mapError_eq_ok read, gatherKey_eq_ok_iff.1 found⟩
  · obtain ⟨requestId, data, source, key⟩ := a
    rintro ⟨rfl, rfl, isFile, read, key⟩
    have isFile : files.isFile (w.root.child "proof.pf") = .ok true := isFile
    have read : files.read (w.root.child "proof.pf") = .ok data := read
    refine ⟨true, by rw [isFile]; rfl, ?_⟩
    simp only [if_true]
    rw [read, gatherKey_eq_ok_iff.2 key]
    rfl

/-- An invocation ends since its budget is used up. -/
def TimedOut {α : Type} (x : Except Trouble α) : Prop := ∃ f, x = .error (.failure f) ∧ f.kind = .proverTimeout

section Processes

variable {τ : Type} [AddCommGroup τ] [LinearOrder τ] [Time τ]

/-- A process of an invocation, started with some of the budget left. -/
structure Launched (c : Config τ) (script : Nat → Plan τ) (input model : String) (w : Workspace) (k : Nat)
    (stage : Step) (deadline clock : τ) (l : Launch τ) : Prop where
  texts : c.hasTexts = true
  line : commandLine c stage.template input model w = .ok l.args
  dir : l.dir = w.root
  plan : l.plan = script k
  began : l.began = clock
  left : clock < deadline
  willing : (script k).refusal = none

/-- What the two processes of an invocation come to, one after the other. Without texts for the settings there is no
command line, and none is started. -/
inductive Processed (c : Config τ) (script : Nat → Plan τ) (input model : String) (w : Workspace) (start deadline : τ) :
    Except Trouble Unit → Machine τ → Prop where
  | textless (files : FileTree) (n : Nat) (textless : c.hasTexts = false) :
      Processed c script input model w start deadline (.error (.fault Decimal.unwritable)) ⟨start, files, n, []⟩
  | unstarted {t : Trouble} (files : FileTree) (n : Nat) (texts : c.hasTexts = true)
      (unstarted : Unstarted c .setup deadline (script 0) start t) :
      Processed c script input model w start deadline (.error t) ⟨start, files, n, []⟩
  | unfinished {t : Trouble} {l : Launch τ} {time : τ} (files : FileTree) (n : Nat)
      (launched : Launched c script input model w 0 .setup deadline start l)
      (ended : Ended c .setup deadline l time (.error t)) :
      Processed c script input model w start deadline (.error t) ⟨time, files, n, [l]⟩
  | halfway {t : Trouble} {l : Launch τ} {time : τ} (files : FileTree) (n : Nat)
      (launched : Launched c script input model w 0 .setup deadline start l)
      (ended : Ended c .setup deadline l time (.ok ()))
      (unstarted : Unstarted c .prove deadline (script 1) time t) :
      Processed c script input model w start deadline (.error t) ⟨time, files, n, [l]⟩
  | both {l l' : Launch τ} {time time' : τ} {y : Except Trouble Unit} (files : FileTree) (n : Nat)
      (launched : Launched c script input model w 0 .setup deadline start l)
      (ended : Ended c .setup deadline l time (.ok ()))
      (launched' : Launched c script input model w 1 .prove deadline time l')
      (ended' : Ended c .prove deadline l' time' y) :
      Processed c script input model w start deadline y ⟨time', files, n, [l, l']⟩

theorem Unstarted.timedOut {c : Config τ} {stage : Step} {deadline clock : τ} {plan : Plan τ} {t : Trouble} {α : Type}
    (unstarted : Unstarted c stage deadline plan clock t) (willing : plan.refusal = none) :
    TimedOut (.error t : Except Trouble α) := by
  cases unstarted with
  | exhausted => exact ⟨_, rfl, rfl⟩
  | refused _ refusal => cases willing.symm.trans refusal

theorem Ended.timedOut_of_error {c : Config τ} {stage : Step} {deadline time : τ} {l : Launch τ} {t : Trouble}
    (ended : Ended c stage deadline l time (.error t)) (good : l.plan.exit.code = 0) :
    TimedOut (.error t : Except Trouble Unit) := by
  cases ended with
  | killed => exact ⟨_, rfl, rfl⟩
  | failed _ _ _ bad => exact absurd good bad

end Processes

namespace Machine

variable {τ : Type} [AddCommGroup τ] [LinearOrder τ] [IsOrderedAddMonoid τ] [Time τ] [ExactTime τ] {c : Config τ}
  {script : Nat → Plan τ} {m : Machine τ} {input model : String} {w : Workspace}

omit [IsOrderedAddMonoid τ] [Time τ] [ExactTime τ] in
theorem Idle.tells (idle : m.Idle) (dir : Path) (name : String) :
    Tells (terms script) m dir (fun name => m.files.isFile (dir.child name))
      (fun name => m.files.read (dir.child name)) name where
  mayLook := idle
  looks _ _ answer := by
    cases answer with
    | isFile => exact ⟨rfl, rfl⟩
  mayRead := idle
  reads _ _ _ answer := by
    cases answer with
    | read => exact ⟨rfl, rfl⟩

/-- One of the processes, with its command line. -/
theorem meets_runTemplate (idle : m.Idle) (texts : c.hasTexts = true) (stage : Step) (deadline : τ) :
    (runTemplate c input model w deadline stage).Meets (terms script) m
      (Ran c stage (stage.arguments c input model w) w.root deadline (script m.asked) m) := by
  refine Attempt.Meets.bind (Attempt.meets_ofExcept ?_)
  rw [commandLine_of_hasTexts _ _ _ _ texts]
  exact meets_runStep idle stage _ w.root deadline

/-- Both processes, one after the other. -/
theorem meets_steps (start deadline : τ) (files : FileTree) :
    (Step.all.forM (runTemplate c input model w deadline)).Meets (terms script) ⟨start, files, 0, []⟩
      (Processed c script input model w start deadline) := by
  have fresh : Idle (⟨start, files, 0, []⟩ : Machine τ) := by simp [Idle]
  cases texts : c.hasTexts with
  | false =>
    refine Attempt.Meets.bind (Attempt.Meets.bind (Attempt.meets_ofExcept ?_))
    rw [commandLine_of_textless _ _ _ _ texts]
    exact .textless files 0 texts
  | true =>
  refine Attempt.Meets.bind ((meets_runTemplate fresh texts .setup deadline).mono ?_)
  intro y m₁ ran
  have line (stage : Step) := commandLine_of_hasTexts input model w stage texts
  cases ran with
  | unstarted n unstarted => exact .unstarted files n texts unstarted
  | @ended l time y files₁ launched left willing ended =>
    have own : Launched c script input model w 0 .setup deadline start l := by
      rw [launched]
      exact ⟨texts, line .setup, rfl, rfl, rfl, left, willing⟩
    cases y with
    | error t => exact .unfinished files₁ _ own ended
    | ok _ =>
      have rest : Idle (⟨time, files₁, 1, [l]⟩ : Machine τ) := by simp [Idle, ended.not_running]
      refine Attempt.Meets.bind ((meets_runTemplate rest texts .prove deadline).mono ?_)
      intro y m₂ ran'
      cases ran' with
      | unstarted n unstarted => exact .halfway files₁ n own ended unstarted
      | @ended l' time' y files₂ launched' left' willing' ended' =>
        have own' : Launched c script input model w 1 .prove deadline time l' := by
          rw [launched']
          exact ⟨texts, line .prove, rfl, rfl, rfl, left', willing'⟩
        cases y with
        | error t => exact .both files₂ _ own ended own' ended'
        | ok _ => exact .both files₂ _ own ended own' ended'

omit [IsOrderedAddMonoid τ] [ExactTime τ] in
theorem idle_of_processed {start deadline : τ} {y : Except Trouble Unit}
    (processed : Processed c script input model w start deadline y m) : m.Idle := by
  cases processed with
  | textless | unstarted => simp [Idle]
  | unfinished _ _ _ ended => simp [Idle, ended.not_running]
  | halfway _ _ _ ended => simp [Idle, ended.not_running]
  | both _ _ _ ended _ ended' => simp [Idle, ended.not_running, ended'.not_running]

/-- Both processes, and then the proof is read. -/
theorem meets_generate (input : Path) (start : τ) (files : FileTree) :
    (generate c input model w).Meets (terms script) ⟨start, files, 0, []⟩ fun x m =>
      ∃ y, Processed c script input.toString model w start (start + c.timeout) y m ∧
        x = y >>= fun _ => gathered w m.files := by
  refine Attempt.meets_query_bind trivial fun now m₁ answer => ?_
  cases answer with
  | now =>
    rw [ExactTime.add_eq]
    refine Attempt.Meets.bind ((meets_steps start (start + c.timeout) files).mono ?_)
    rintro (t | _) m processed
    · exact ⟨.error t, processed, rfl⟩
    · have idle := idle_of_processed processed
      refine (meets_collect (idle.tells w.root _) (idle.tells w.root _)).mono ?_
      rintro x m ⟨rfl, rfl⟩
      exact ⟨.ok (), processed, rfl⟩

end Machine

namespace Processed

variable {τ : Type} [AddCommGroup τ] [LinearOrder τ] [Time τ] {c : Config τ} {script : Nat → Plan τ}
  {input model : String} {w : Workspace} {start deadline : τ} {y : Except Trouble Unit} {m : Machine τ}

theorem inOrder (processed : Processed c script input model w start deadline y m) :
    (m.launches.map fun l => (.ok l.args : Except Fault (List String))) <+:
      Step.all.map fun stage => commandLine c stage.template input model w := by
  cases processed with
  | textless | unstarted => exact List.nil_prefix
  | unfinished _ _ launched => simp [Step.all, launched.line]
  | halfway _ _ launched => simp [Step.all, launched.line]
  | both _ _ launched _ launched' => simp [Step.all, launched.line, launched'.line]

/-- Each process that was started has ended, and if it has not succeeded, that is what the invocation comes to. -/
theorem launch (processed : Processed c script input model w start deadline y m) {k : Nat} {l : Launch τ}
    (there : m.launches[k]? = some l) :
    ∃ stage clock time y', Launched c script input model w k stage deadline clock l ∧ (k = 0 → clock = start) ∧
      Ended c stage deadline l time y' ∧ ∀ t, y' = .error t → y = .error t := by
  cases processed with
  | textless | unstarted => simp at there
  | unfinished _ _ launched ended =>
    rcases k with _ | k
    · obtain rfl := Option.some.inj there
      exact ⟨_, _, _, _, launched, fun _ => rfl, ended, fun _ => id⟩
    · simp at there
  | halfway _ _ launched ended =>
    rcases k with _ | k
    · obtain rfl := Option.some.inj there
      exact ⟨_, _, _, _, launched, fun _ => rfl, ended, by simp⟩
    · simp at there
  | both _ _ launched ended launched' ended' =>
    rcases k with _ | _ | k
    · obtain rfl := Option.some.inj there
      exact ⟨_, _, _, _, launched, fun _ => rfl, ended, by simp⟩
    · obtain rfl := Option.some.inj there
      exact ⟨_, _, _, _, launched', by simp, ended', fun _ => id⟩
    · simp at there

theorem first_iff (processed : Processed c script input model w start deadline y m) :
    m.launches ≠ [] ↔ c.hasTexts = true ∧ start < deadline ∧ (script 0).refusal = none := by
  cases processed with
  | textless _ _ textless => simp [textless]
  | unstarted _ _ _ unstarted =>
    constructor
    · intro some
      exact absurd rfl some
    · rintro ⟨-, left, willing⟩
      cases unstarted with
      | exhausted spent => exact absurd left (not_lt.2 spent)
      | refused _ refusal => cases willing.symm.trans refusal
  | unfinished _ _ launched => simp [launched.texts, launched.left, launched.willing]
  | halfway _ _ launched => simp [launched.texts, launched.left, launched.willing]
  | both _ _ launched => simp [launched.texts, launched.left, launched.willing]

theorem eq_of_textless (processed : Processed c script input model w start deadline y m)
    (textless : c.hasTexts = false) :
    y = .error (.fault Decimal.unwritable) := by
  cases processed with
  | textless => rfl
  | unstarted _ _ texts => cases textless.symm.trans texts
  | unfinished _ _ launched => cases textless.symm.trans launched.texts
  | halfway _ _ launched => cases textless.symm.trans launched.texts
  | both _ _ launched => cases textless.symm.trans launched.texts

/-- The second process is started if the first one succeeds before the budget is used up, unless it is refused. -/
theorem second_iff (processed : Processed c script input model w start deadline y m) :
    2 ≤ m.launches.length ↔ m.launches ≠ [] ∧ (∃ d, (script 0).delay = some d ∧ start + d < deadline) ∧
      (script 0).exit.code = 0 ∧ (script 1).refusal = none := by
  cases processed with
  | textless | unstarted => simp
  | unfinished _ _ launched ended =>
    constructor
    · intro two
      simp at two
    · rintro ⟨-, ⟨d, ends, before⟩, good, -⟩
      -- A process that exits with code zero before the deadline cannot have ended with trouble.
      rw [← launched.plan] at ends good
      rw [← launched.began] at before
      have succeeded := (ended.of_exits ends before).2.2
      rw [if_pos good] at succeeded
      cases succeeded
  | halfway _ _ launched ended unstarted =>
    constructor
    · intro two
      simp at two
    · rintro ⟨-, ⟨d, ends, before⟩, good, willing⟩
      rw [← launched.plan] at ends
      rw [← launched.began] at before
      -- The second start would have been at the exit of the first process, with something of the budget left.
      have time := (ended.of_exits ends before).2.1
      cases unstarted with
      | exhausted spent => exact absurd before (not_lt.2 (time ▸ spent))
      | refused _ refusal => cases willing.symm.trans refusal
  | both _ _ launched ended launched' =>
    obtain ⟨d, ends, time, -⟩ := ended.exists_delay
    have good := (ended.eq_ok_iff.1 rfl).1
    rw [launched.plan] at ends good
    rw [launched.began] at time
    have before := launched'.left
    rw [time] at before
    simp [ends, before, good, launched'.willing]

/-- Two processes were started: the second one when the first one had succeeded. -/
theorem pair (processed : Processed c script input model w start deadline y m) {l l' : Launch τ}
    (two : m.launches = [l, l']) :
    l.fate = .exited l'.began ∧ l.plan.exit.code = 0 ∧ l'.began < deadline ∧
      ∃ time, Ended c .prove deadline l' time y := by
  cases processed with
  | textless | unstarted | unfinished | halfway => simp at two
  | both _ _ launched ended launched' ended' =>
    obtain ⟨rfl, rfl⟩ : _ = l ∧ _ = l' := by simpa using two
    obtain ⟨d, -, -, fate⟩ := ended.exists_delay
    rw [launched'.began]
    exact ⟨fate, (ended.eq_ok_iff.1 rfl).1, launched'.left, _, ended'⟩

theorem clock_le (processed : Processed c script input model w start deadline y m) :
    m.clock ≤ max start deadline := by
  cases processed with
  | textless | unstarted => exact le_max_left _ _
  | unfinished _ _ _ ended => exact le_max_of_le_right ended.time_le
  | halfway _ _ _ ended => exact le_max_of_le_right ended.time_le
  | both _ _ _ _ _ ended' => exact le_max_of_le_right ended'.time_le

theorem exists_pair (processed : Processed c script input model w start deadline (.ok ()) m) :
    ∃ l l', m.launches = [l, l'] := by
  cases processed with
  | both => exact ⟨_, _, rfl⟩

/-- Two processes that together take longer than the budget do not both end by themselves. -/
theorem timedOut_of_lt [IsOrderedAddMonoid τ] {budget : τ}
    (processed : Processed c script input model w start (start + budget) y m) (texts : c.hasTexts = true)
    (willing : (script 0).refusal = none)
    (willing' : (script 1).refusal = none) (good : (script 0).exit.code = 0)
    (long : ∀ d d', (script 0).delay = some d → (script 1).delay = some d' → budget < d + d') : TimedOut y := by
  cases processed with
  | textless _ _ textless => cases texts.symm.trans textless
  | unstarted _ _ _ unstarted => exact unstarted.timedOut willing
  | unfinished _ _ launched ended =>
    rw [← launched.plan] at good
    exact ended.timedOut_of_error good
  | halfway _ _ _ _ unstarted => exact unstarted.timedOut willing'
  | @both l l' _ _ _ _ _ launched ended launched' ended' =>
    have late : ∀ d', l'.plan.delay = some d' → start + budget < l'.began + d' := by
      intro d' ends'
      rw [launched'.plan] at ends'
      obtain ⟨d, ends, time, -⟩ := ended.exists_delay
      rw [launched.plan] at ends
      rw [launched'.began, time, launched.began, add_assoc]
      exact add_lt_add_right (long d d' ends ends') start
    exact ⟨_, (ended'.of_overruns late).2, rfl⟩

end Processed

section LifeCycle

variable {τ : Type} [AddCommGroup τ] [LinearOrder τ] [Time τ]

/-- What an invocation has done with its processes when it ends at the time of a machine. -/
structure LifeCycle (c : Config τ) (script : Nat → Plan τ) (input : Path) (model : String) (w : Workspace) (start : τ)
    (x : Except Trouble Artifact) (m : Machine τ) : Prop where
  /-- The processes that were started are the first ones of the two, in their order; -/
  inOrder : (m.launches.map fun l => (.ok l.args : Except Fault (List String))) <+:
    Step.all.map fun stage => commandLine c stage.template input.toString model w
  /-- each of them went by its plan, in the workspace, and the first one at once. -/
  planned : ∀ k l, m.launches[k]? = some l → l.plan = script k ∧ l.dir = w.root ∧ (k = 0 → l.began = start)
  /-- None is started without a budget, or without texts for the settings; -/
  first : m.launches ≠ [] ↔ c.hasTexts = true ∧ 0 < c.timeout ∧ (script 0).refusal = none
  /-- that no failure reports. -/
  textless : c.hasTexts = false → x = .error (.fault Decimal.unwritable)
  /-- The second one is started if the first one exits with code zero before the budget is used up, -/
  second : 2 ≤ m.launches.length ↔ m.launches ≠ [] ∧
    (∃ d, (script 0).delay = some d ∧ start + d < start + c.timeout) ∧ (script 0).exit.code = 0 ∧
    (script 1).refusal = none
  /-- and when it does. -/
  followed : ∀ l l', m.launches = [l, l'] →
    l.fate = .exited l'.began ∧ l.plan.exit.code = 0 ∧ l'.began < start + c.timeout
  /-- The budget is kept, -/
  inTime : m.clock ≤ start + max c.timeout 0
  /-- no process is running any more, -/
  reaped : m.Idle
  /-- and one is killed only if the invocation has timed out. -/
  killed : ∀ l ∈ m.launches, ∀ time, l.fate = .killed time → TimedOut x
  /-- A process that fails before the budget is used up fails the invocation, with its code and what it said. -/
  failed : ∀ l ∈ m.launches, ∀ d, l.plan.delay = some d → l.began + d < start + c.timeout → l.plan.exit.code ≠ 0 →
    l.fate = .exited (l.began + d) ∧ ∃ f, x = .error (.failure f) ∧ f.kind = .process l.plan.exit.code ∧
      f.detail = Utf8.decodeLossy l.plan.exit.errors
  /-- One that takes longer, or never exits, is killed when it is used up. -/
  overran : ∀ l ∈ m.launches, (∀ d, l.plan.delay = some d → start + c.timeout < l.began + d) →
    l.fate = .killed (start + c.timeout) ∧ TimedOut x
  /-- It is used up also by two that do not take longer by themselves. -/
  together : c.hasTexts = true → (script 0).refusal = none → (script 1).refusal = none → (script 0).exit.code = 0 →
    (∀ d d', (script 0).delay = some d → (script 1).delay = some d' → c.timeout < d + d') → TimedOut x
  /-- An artifact is what the files hold when both have exited in time with code zero. -/
  artifact : ∀ a, x = .ok a ↔
    (∃ l l' time time', m.launches = [l, l'] ∧
      l.fate = .exited time ∧ l.plan.exit.code = 0 ∧ time < start + c.timeout ∧
      l'.fate = .exited time' ∧ l'.plan.exit.code = 0 ∧ time' ≤ start + c.timeout) ∧ Holds w m.files a

variable {c : Config τ} {script : Nat → Plan τ} {input : Path} {model : String} {w : Workspace}
  {start : τ} {y : Except Trouble Unit} {m : Machine τ}

theorem Processed.ended
    (processed : Processed c script input.toString model w start (start + c.timeout) y m) {l : Launch τ}
    (mem : l ∈ m.launches) :
    ∃ stage time y', Ended c stage (start + c.timeout) l time y' ∧ ∀ t, y' = .error t → y = .error t := by
  obtain ⟨k, there⟩ := List.mem_iff_getElem?.1 mem
  obtain ⟨stage, -, time, y', -, -, ended, comes⟩ := processed.launch there
  exact ⟨stage, time, y', ended, comes⟩

/-- The processes are done just if both have exited in time with code zero; an artifact is then what the files hold. -/
theorem Processed.eq_ok_iff
    (processed : Processed c script input.toString model w start (start + c.timeout) y m) {a : Artifact} :
    (y >>= fun _ => gathered w m.files) = .ok a ↔
      (∃ l l' time time', m.launches = [l, l'] ∧
        l.fate = .exited time ∧ l.plan.exit.code = 0 ∧ time < start + c.timeout ∧
        l'.fate = .exited time' ∧ l'.plan.exit.code = 0 ∧ time' ≤ start + c.timeout) ∧ Holds w m.files a := by
  constructor
  · intro same
    obtain ⟨_, rfl, held⟩ := except_bind_eq_ok.1 same
    obtain ⟨l, l', two⟩ := processed.exists_pair
    obtain ⟨fate, good, before, _, ended⟩ := processed.pair two
    obtain ⟨-, -, -, fate'⟩ := ended.exists_delay
    have good' := (ended.eq_ok_iff.1 rfl).1
    exact ⟨⟨l, l', _, _, two, fate, good, before, fate', good', ended.time_le⟩, gathered_eq_ok_iff.1 held⟩
  · rintro ⟨⟨l, l', -, time', two, -, -, -, fate', good', -⟩, held⟩
    obtain ⟨-, -, -, _, ended⟩ := processed.pair two
    rw [ended.eq_ok_iff.2 ⟨good', time', fate'⟩]
    exact gathered_eq_ok_iff.2 held

variable [IsOrderedAddMonoid τ]

theorem lifeCycle_of_processed
    (processed : Processed c script input.toString model w start (start + c.timeout) y m) :
    LifeCycle c script input model w start (y >>= fun _ => gathered w m.files) m := by
  constructor
  · exact processed.inOrder
  · intro k l there
    obtain ⟨stage, clock, -, -, launched, atOnce, -⟩ := processed.launch there
    exact ⟨launched.plan, launched.dir, fun first => launched.began.trans (atOnce first)⟩
  · rw [processed.first_iff, lt_add_iff_pos_right]
  · exact fun textless => congrArg (· >>= _) (processed.eq_of_textless textless)
  · exact processed.second_iff
  · intro l l' two
    obtain ⟨fate, good, before, -⟩ := processed.pair two
    exact ⟨fate, good, before⟩
  · have kept := processed.clock_le
    rwa [← max_add_add_left, add_zero, max_comm]
  · exact Machine.idle_of_processed processed
  · intro l mem time killed
    obtain ⟨stage, _, y', ended, comes⟩ := processed.ended mem
    rw [comes _ (ended.of_killed killed)]
    exact ⟨_, rfl, rfl⟩
  · intro l mem d ends before bad
    obtain ⟨stage, _, y', ended, comes⟩ := processed.ended mem
    obtain ⟨fate, -, result⟩ := ended.of_exits ends before
    rw [if_neg bad] at result
    rw [comes _ result]
    exact ⟨fate, _, rfl, rfl, rfl⟩
  · intro l mem after
    obtain ⟨stage, _, y', ended, comes⟩ := processed.ended mem
    obtain ⟨fate, result⟩ := ended.of_overruns after
    rw [comes _ result]
    exact ⟨fate, _, rfl, rfl⟩
  · intro texts willing willing' good long
    obtain ⟨f, rfl, kind⟩ := processed.timedOut_of_lt texts willing willing' good long
    exact ⟨f, rfl, kind⟩
  · intro a
    exact processed.eq_ok_iff

/-- The processes of an invocation, by the plans of both and the budget. An invocation can always come to an end, and
on the way it is never stuck; at its end all is as its life cycle says. -/
theorem invocation_life_cycle [ExactTime τ] (c : Config τ) (script : Nat → Plan τ) (input : Path) (model : String)
    (w : Workspace) (start : τ) (files : FileTree) :
    (∃ es x m, Yields (generate c input model w) es x ∧
      (Machine.terms script).Leads ⟨start, files, 0, []⟩ es m) ∧
    ∀ es b m, Activity.Path (generate c input model w).run es b →
      (Machine.terms script).Leads ⟨start, files, 0, []⟩ es m →
        (∃ x, b = .done x ∧ LifeCycle c script input model w start x m) ∨
          ∃ q k r m', b = .ask q k ∧ Machine.Answers script m ⟨q, r⟩ m' := by
  have meets : (generate c input model w).Meets (Machine.terms script) ⟨start, files, 0, []⟩ _ :=
    Machine.meets_generate input start files
  constructor
  · exact meets.exists_path fun m q may => Machine.exists_answer script may
  · intro es b m path leads
    have left := Activity.Meets.path meets path leads
    cases b with
    | done x =>
      obtain ⟨y, processed, rfl⟩ := left
      exact .inl ⟨_, rfl, lifeCycle_of_processed processed⟩
    | ask q k =>
      obtain ⟨r, m', answer⟩ := Machine.exists_answer script left.1
      exact .inr ⟨q, k, r, m', rfl, answer⟩

end LifeCycle

instance : ExactTime Int where
  zero_eq := rfl
  add_eq _ _ := rfl
  sub_eq _ _ := rfl
  le_iff _ _ := decide_eq_true_iff

/-- Two processes that take two seconds and three. -/
def slowScript (k : Nat) : Plan Int where
  delay := some (if k = 0 then 2 else 3)
  nonneg := by
    intro d same
    obtain rfl := Option.some.inj same
    split <;> decide

/-- With a budget of four seconds both are started, each of which would be in time by itself, and time runs out. -/
theorem invocation_life_cycle_slow : ∃ es x m,
    Yields (generate { command := [], timeout := (4 : Int) } ⟨"", []⟩ "" ⟨"A", ⟨"/", ["A"]⟩⟩) es x ∧
    (Machine.terms slowScript).Leads ⟨0, {}, 0, []⟩ es m ∧ 2 ≤ m.launches.length ∧ TimedOut x ∧
    LifeCycle { command := [], timeout := (4 : Int) } slowScript ⟨"", []⟩ "" ⟨"A", ⟨"/", ["A"]⟩⟩ 0 x m := by
  obtain ⟨⟨es, x, m, yields, leads⟩, ends⟩ :=
    invocation_life_cycle { command := [], timeout := (4 : Int) } slowScript ⟨"", []⟩ "" ⟨"A", ⟨"/", ["A"]⟩⟩ 0 {}
  rcases ends es _ m yields leads with ⟨_, same, cycle⟩ | ⟨_, _, _, _, same, -⟩
  · obtain rfl := Activity.done.inj same
    have begun : m.launches ≠ [] := cycle.first.2 ⟨by decide, by decide, rfl⟩
    have both : 2 ≤ m.launches.length := cycle.second.2 ⟨begun, ⟨2, rfl, by decide⟩, rfl, rfl⟩
    have long : TimedOut x := by
      refine cycle.together (by decide) rfl rfl rfl ?_
      rintro d d' ⟨⟩ ⟨⟩
      decide
    exact ⟨es, x, m, yields, leads, both, long, cycle⟩
  · cases same

end ProofRelay.Prover
