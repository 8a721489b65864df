import ProofRelay.Proofs.Pipeline.Isolation
import ProofRelay.Proofs.Pipeline.Retries
import ProofRelay.Proofs.Prover.Housekeeping

/-!
What runs that share a file tree leave in it. If a directory that is removed is gone, and processes keep to their
directories, then at every moment the tree is what it was at first, but for the directories that stand for the runs
and those on the way to where they are made. A run that is past proving leaves no directory, or, if directories
are to be kept, one for each attempt that got one. Nothing that is done for one run touches the directories of
another.
-/

namespace ProofRelay

/-- Surroundings that moreover keep a promise about the state after each answer. -/
def Setting.promising {D : Dialogue} {σ : Type} (S : Setting D σ) (P : Exchange D → σ → Prop) : Setting D σ :=
  { S with Answers := fun s i e s' => S.Answers s i e s' ∧ P e s' }

namespace Crowd

variable {D : Dialogue} {σ α : Type} {S : Setting D σ} {P : Exchange D → σ → Prop} {c c' : Crowd D σ α}

theorem Step.of_promising {i : Nat} {e : Exchange D} (step : Step (S.promising P) c i e c') :
    Step S c i e c' ∧ P e c'.state := by
  cases step with
  | reply task others answer => exact ⟨.reply task others answer.1, answer.2⟩

theorem Run.of_promising {h : History D} (run : Run (S.promising P) c h c') : Run S c h c' := by
  induction run with
  | nil => exact .nil
  | step _ last ih => exact ih.step last.of_promising.1
  | drift _ last ih => exact ih.drift last

end Crowd

/-- An oracle that gives no answer after which a promise would not be kept. -/
def Oracle.keeping {D : Dialogue} {σ : Type} {S : Setting D σ} {P : Exchange D → σ → Prop} (O : Oracle S)
    (kept : D.Ask → σ → Bool) (sound : ∀ e s, kept e.ask s = true → P e s) : Oracle (S.promising P) where
  answer i q s := (O.answer i q s).filter fun x => kept q x.2
  drift := O.drift
  answers := by
    intro i q s s' r given
    obtain ⟨answer, keeps⟩ := Option.filter_eq_some_iff.1 given
    exact ⟨O.answers answer, sound ⟨q, r⟩ s' keeps⟩
  drifts := O.drifts

namespace Relay

open Attempt (Yields)
open Prover (Stall Script)
open FileTree (Change Tidy)

variable {τ : Type}

/-- A directory that is removed is gone. -/
def Gone (e : Exchange (dialogue τ)) (y : Yard τ) : Prop :=
  ∀ dir, e.ask = .prover (.discard dir) → y.files.IsBare dir.place

/-- The surroundings of runs that share an invoker and a file tree, in which removing a directory succeeds. -/
def clearing [Time τ] (c : Prover.Config τ) (temporary : Path) (scripts : Nat → Script τ) :
    Setting (dialogue τ) (Yard τ) :=
  (yard c temporary scripts).promising Gone

/-- The directories that stand for a run after an exchange. -/
def stands (dirs : List Path) : Exchange (dialogue τ) → List Path
  | ⟨.prover q, r⟩ => Prover.stands dirs ⟨q, r⟩
  | _ => dirs

/-- The directories that were made for a run and not removed since. -/
def standing (es : List (Exchange (dialogue τ))) : List Path := es.foldl stands []

/-- The exchanges of a run go beyond those of its proving stage, which begins when it has looked at the clock twice. -/
def PastProving [Time τ] (job : Job τ) (es : List (Exchange (dialogue τ))) : Prop :=
  ∃ t₀ t₁ front rest x, es = clock t₀ :: clock t₁ :: (front ++ rest) ∧
    Yields (proofAttempts job.config job.request) front x

section Exchanges

theorem foldl_stands_prover (fs : List (Exchange (Prover.dialogue τ))) (dirs : List Path) :
    (fs.map proverExchange).foldl stands dirs = fs.foldl Prover.stands dirs :=
  List.foldl_map

theorem foldl_stands_of_not_isForProver {es : List (Exchange (dialogue τ))} (none : ∀ e ∈ es, e.ask.isForProver = false)
    (dirs : List Path) : es.foldl stands dirs = dirs := by
  refine Prover.foldl_eq_self fun e he => ?_
  have other := none e he
  obtain ⟨q, r⟩ := e
  cases q with
  | prover => cases other
  | chain | now | pause => rfl

theorem standing_concat (h : History (dialogue τ)) (i : Nat) (e : Exchange (dialogue τ)) :
    (fun j => standing (History.of (h ++ [(i, e)]) j)) =
      Function.update (fun j => standing (h.of j)) i (stands (standing (h.of i)) e) := by
  funext j
  rw [Crowd.history_of_append]
  by_cases hj : j = i
  · subst hj
    rw [Crowd.history_of_self, Function.update_self, standing, List.foldl_append]
    rfl
  · rw [Crowd.history_of_other (Ne.symm hj), List.append_nil, Function.update_of_ne hj]

variable [Time τ] {c : Config τ} {r : Request} {es : List (Exchange (dialogue τ))}

/-- When a run is past proving, it asks nothing of the prover any more. -/
theorem not_isForProver_of_path {t₀ t₁ : τ} {front rest : List (Exchange (dialogue τ))}
    {x : Except Trouble Prover.Artifact} {b : Activity (dialogue τ) (Except Trouble (Outcome τ))}
    (path : Activity.Path (run c r).run (clock t₀ :: clock t₁ :: (front ++ rest)) b)
    (proof : Yields (proofAttempts c r) front x) : ∀ e ∈ rest, e.ask.isForProver = false := by
  rw [run_run] at path
  cases path with
  | cons path =>
    cases path with
    | cons path =>
      beta_reduce at path
      rw [Progress.work, Attempt.run_outcome_bind] at path
      have later := Activity.Path.of_bind proof path
      rcases x with (f | f | e) | artifact
      · exact Activity.AtMost.eq_false later (atMost_failed rfl 0 _ f)
      · obtain ⟨rfl, -⟩ := Activity.path_done_iff.1 later
        simp
      · obtain ⟨rfl, -⟩ := Activity.path_done_iff.1 later
        simp
      · exact Activity.AtMost.eq_false later (never_hashing (fun _ => rfl) c rfl _ artifact)

end Exchanges

section Steps

variable {invoker : Prover.Config τ} {temporary : Path} {scripts : Nat → Script τ} {y y' : Yard τ}
  {dirs : Nat → List Path} {i : Nat}

/-- The directory of each stall is one of those that stand for its run. -/
def Yard.Owned (y : Yard τ) (dirs : Nat → List Path) : Prop := ∀ i dir, (y.stalls i).dir = some dir → dir ∈ dirs i

theorem stalls_eq_of_view (same : y'.view i = y.view i) : y'.stalls i = y.stalls i := congrArg Prover.View.stall same

theorem change_of_answer [Time τ] {e : Exchange (dialogue τ)} (orderly : y.Orderly (invoker.home temporary))
    (may : (terms invoker temporary (scripts i)).May (y.view i) e.ask)
    (answer : Yard.Answers invoker temporary scripts y i e y') (gone : Gone e y') (owned : y.Owned dirs) :
    Change (invoker.home temporary) i y.files dirs y'.files (Function.update dirs i (stands (dirs i) e)) ∧
      y'.Owned (Function.update dirs i (stands (dirs i) e)) := by
  have others := (orderly_answer orderly may answer).2.2
  have still : Change (invoker.home temporary) i y.files dirs y.files (Function.update dirs i (dirs i)) := by
    rw [Function.update_eq_self]
    exact .makes (y.files.makes_self _)
  have step : Change (invoker.home temporary) i y.files dirs y'.files (Function.update dirs i (stands (dirs i) e)) ∧
      ∀ dir, (y'.stalls i).dir = some dir → dir ∈ stands (dirs i) e := by
    cases answer with
    | chain | now | pause => exact ⟨still, owned i⟩
    | prover answer =>
      refine (orderly.housed i).change may answer ?_ (owned i)
      intro dir same
      exact gone dir (congrArg Ask.prover same)
  refine ⟨step.1, fun j dir given => ?_⟩
  by_cases hj : j = i
  · subst hj
    rw [Function.update_self]
    exact step.2 dir given
  · rw [Function.update_of_ne hj]
    rw [stalls_eq_of_view (others j hj)] at given
    exact owned j dir given

/-- What happens by itself happens in the directory of one run. -/
theorem change_of_drift {home : Path} (orderly : y.Orderly home) (drifts : y.Drifts y') (owned : y.Owned dirs) :
    (∃ i, Change home i y.files dirs y'.files dirs) ∧ y'.Owned dirs := by
  have same := (orderly_drift orderly drifts).2
  constructor
  · cases drifts with
    | still => exact ⟨0, .makes (y.files.makes_self _)⟩
    | @work _ i dir found running fills =>
      exact ⟨i, .fills (owned i dir ((orderly.housed i).running dir found running)) fills⟩
  · intro j dir given
    rw [stalls_eq_of_view (same j)] at given
    exact owned j dir given

end Steps

section Runs

variable [Time τ] {invoker : Prover.Config τ} {temporary : Path} {jobs : List (Job τ)} {scripts : Nat → Script τ}
  {files : FileTree} {h : History (dialogue τ)}
  {crowd crowd' : Crowd (dialogue τ) (Yard τ) (Except Trouble (Outcome τ))}
  {dirs : Nat → List Path}

theorem change_of_step {i : Nat} {e : Exchange (dialogue τ)} (orderly : crowd.state.Orderly (invoker.home temporary))
    (meets : Crowd.Meets (fun i => terms invoker temporary (scripts i)) Yard.view (fun _ _ _ => True) crowd)
    (last : Crowd.Step (clearing invoker temporary scripts) crowd i e crowd') (owned : crowd.state.Owned dirs) :
    Change (invoker.home temporary) i crowd.state.files dirs crowd'.state.files
        (Function.update dirs i (stands (dirs i) e)) ∧
      crowd'.state.Owned (Function.update dirs i (stands (dirs i) e)) := by
  cases last with
  | reply task others answer => exact change_of_answer orderly (meets i _ task).1 answer.1 answer.2 owned

/-- In every run the file tree is tidy, with the directories that stand for the runs. -/
theorem tidy_of_run (shared : ∀ job ∈ jobs, job.config.prover = invoker)
    (run : Crowd.Run (clearing invoker temporary scripts) ⟨jobs.map Job.activity, .idle files⟩ h crowd) :
    Tidy (invoker.home temporary) files crowd.state.files (fun i => standing (h.of i)) ∧
      crowd.state.Owned fun i => standing (h.of i) := by
  have orderly := fun {h c}
      (run : Crowd.Run (clearing invoker temporary scripts) ⟨jobs.map Job.activity, .idle files⟩ h c) =>
    (parted_yard invoker temporary scripts).run run.of_promising (orderly_idle _ files) (meets_jobs shared)
  induction run with
  | nil => exact ⟨FileTree.tidy_nil _ files, fun i dir given => nomatch given⟩
  | @drift h c' y run last ih =>
    obtain ⟨tidy, owned⟩ := ih
    obtain ⟨⟨i, change⟩, owned'⟩ := change_of_drift (orderly run).1 last owned
    exact ⟨tidy.change change, owned'⟩
  | @step h i e c' c'' run last ih =>
    obtain ⟨tidy, owned⟩ := ih
    obtain ⟨inv, meets, -⟩ := orderly run
    obtain ⟨change, owned'⟩ := change_of_step inv meets last owned
    rw [standing_concat]
    exact ⟨tidy.change change, owned'⟩

/-- All that a run asked of the prover are some attempts. What they left is one directory for each of them that got
one, if directories are to be kept, and nothing otherwise. -/
def Leaves (invoker : Prover.Config τ) (job : Job τ) (es : List (Exchange (dialogue τ))) : Prop :=
  ∃ (t₀ t₁ : τ) (attempts : List (List (Exchange (Prover.dialogue τ)))) (rest : List (Exchange (dialogue τ))),
    es = clock t₀ :: clock t₁ :: (attempts.flatten.map proverExchange ++ rest) ∧ attempts ≠ [] ∧
    (∀ fs ∈ attempts, ∃ x,
      Yields (Prover.proveDocument invoker job.request.id job.request.proverInput job.config.model.toString) fs x) ∧
    (∀ e ∈ rest, e.ask.isForProver = false) ∧
    standing es = if invoker.keep then attempts.filterMap Prover.workspace? else []

/-- What runs leave in a file tree. -/
structure Cleaned (invoker : Prover.Config τ) (temporary : Path) (scripts : Nat → Script τ) (jobs : List (Job τ))
    (files : FileTree) (h : History (dialogue τ)) (crowd : Crowd (dialogue τ) (Yard τ) (Except Trouble (Outcome τ))) :
    Prop where
  /-- The tree is what it was, but for the directories that stand, which are new ones in the root. -/
  tidy : Tidy (invoker.home temporary) files crowd.state.files fun i => standing (h.of i)
  /-- Past proving, those that stand for a run are what its attempts are told to keep. -/
  left : ∀ i job, jobs[i]? = some job → PastProving job (h.of i) →
    Leaves invoker job (h.of i)
  /-- A run that is over is past proving. -/
  finished : ∀ i job x, jobs[i]? = some job → crowd.tasks[i]? = some (.done x) → PastProving job (h.of i)
  /-- When no run is at proving, at most the root and the directories above it are new. -/
  restored : invoker.keep = false →
    (∀ i job, jobs[i]? = some job → (∀ e ∈ h.of i, e.ask.isForProver = false) ∨ PastProving job (h.of i)) →
    files.Makes (invoker.home temporary) crowd.state.files
  /-- A step of one run leaves the directories of all others as they are. -/
  beside : ∀ i e crowd', Crowd.Step (clearing invoker temporary scripts) crowd i e crowd' → ∀ j, j ≠ i →
    ∀ dir ∈ standing (h.of j), ∀ rest,
      crowd'.state.files.find? (dir.place ++ rest) = crowd.state.files.find? (dir.place ++ rest)
  /-- So does what the process of one run does meanwhile. -/
  meanwhile : ∀ y, crowd.state.Drifts y → ∃ i, ∀ j, j ≠ i → ∀ dir ∈ standing (h.of j), ∀ rest,
    y.files.find? (dir.place ++ rest) = crowd.state.files.find? (dir.place ++ rest)

theorem leaves_of_pastProving {job : Job τ} (own : job.config.prover = invoker) {es : List (Exchange (dialogue τ))}
    {b : Activity (dialogue τ) (Except Trouble (Outcome τ))} (path : Activity.Path job.activity es b)
    (past : PastProving job es) : Leaves invoker job es := by
  subst own
  obtain ⟨t₀, t₁, front, rest, x, rfl, proof⟩ := past
  obtain ⟨failed, last, rfl, attempted⟩ := exists_attempted proof
  have off := not_isForProver_of_path path proof
  refine ⟨t₀, t₁, failed ++ [last], rest, rfl, by simp, attempted.each, off, ?_⟩
  change List.foldl stands [] (_ ++ rest) = _
  rw [List.foldl_append, foldl_stands_of_not_isForProver off, foldl_stands_prover]
  exact Prover.foldl_stands_attempts attempted.each fun _ => rfl

/-- Runs clean up after themselves: whatever their proofs come to, and however often they are tried, a run leaves
nothing but what it is told to keep, and never touches what is not its own. -/
theorem workspaces_cleaned_up (shared : ∀ job ∈ jobs, job.config.prover = invoker)
    (run : Crowd.Run (clearing invoker temporary scripts) ⟨jobs.map Job.activity, .idle files⟩ h crowd) :
    Cleaned invoker temporary scripts jobs files h crowd := by
  obtain ⟨tidy, owned⟩ := tidy_of_run shared run
  obtain ⟨orderly, meets, -⟩ :=
    (parted_yard invoker temporary scripts).run run.of_promising (orderly_idle _ files) (meets_jobs shared)
  have left {i : Nat} {job : Job τ} (hjob : jobs[i]? = some job) (past : PastProving job (h.of i)) :
      Leaves invoker job (h.of i) := by
    obtain ⟨b, -, path⟩ := path_of_run run hjob
    exact leaves_of_pastProving (shared job (List.mem_of_getElem? hjob)) path past
  constructor
  · exact tidy
  · intro i job hjob past
    exact left hjob past
  · intro i job x hjob ended
    obtain ⟨b, task, path⟩ := path_of_run run hjob
    rw [ended, Option.some.injEq] at task
    subst task
    obtain ⟨t₀, t₁, front, rest, y, split, proof, -⟩ := exists_proving path
    exact ⟨t₀, t₁, front, rest, y, split, proof⟩
  · intro discarding settled
    refine tidy.makes fun i => ?_
    cases hjob : jobs[i]? with
    | none =>
      have silent : h.of i = [] := run.history_of_eq_nil (by rw [List.getElem?_map, hjob, Option.map_none])
      rw [silent]
      rfl
    | some job =>
      rcases settled i job hjob with silent | past
      · exact foldl_stands_of_not_isForProver silent []
      · obtain ⟨t₀, t₁, attempts, rest, -, -, -, -, same⟩ := left hjob past
        rw [same, discarding]
        rfl
  · intro i e crowd' step j hj dir hdir rest
    obtain ⟨change, -⟩ := change_of_step orderly meets step owned
    exact tidy.find?_other change hj hdir rest
  · intro y drifts
    obtain ⟨⟨i, change⟩, -⟩ := change_of_drift orderly drifts owned
    exact ⟨i, fun j hj dir hdir rest => tidy.find?_other change hj hdir rest⟩

end Runs

section Plays

/-- Plays of runs in a yard in which a directory is removed only if it is gone then. -/
def clearingOracle (temporary : Path) (c : Prover.Config Int) (scripts : Nat → Script Int) :
    Oracle (clearing c temporary scripts) :=
  (yardOracle temporary c scripts).keeping
    (fun q y => match q with
      | .prover (.discard dir) => y.files.isBare dir.place
      | _ => true)
    (by
      rintro ⟨q, r⟩ y kept dir rfl
      exact FileTree.isBare_of_isBare kept)

/-- A file tree with a root for workspaces, in which something stands that was left there before. -/
def usedFiles : FileTree := ⟨[(["/", "work"], .directory), (["/", "work", "old"], .file [7])]⟩

/-- A prover that works in that root. -/
def tidyProver (keep : Bool) : Prover.Config Int :=
  { (Job.sample "A").config.prover with root := some ⟨"/", ["work"]⟩, keep := keep }

/-- Two jobs with one id, proved in that root. -/
def tidyJobs (keep : Bool) : List (Job Int) :=
  [twin "a", twin "b"].map fun job => { job with config := { job.config with prover := tidyProver keep } }

/-- A play of these jobs, turn by turn; the second one has its proof at the second attempt. -/
def tidyPlay (keep : Bool) : History (dialogue Int) × Crowd (dialogue Int) (Yard Int) (Except Trouble (Outcome Int)) :=
  Crowd.play (clearingOracle ⟨"/", []⟩ (tidyProver keep) twinScripts) (List.replicate 27 [some 0, some 1]).flatten
    ⟨(tidyJobs keep).map Job.activity, .idle usedFiles⟩

/-- Of two runs with three attempts nothing is left but what was there before, or, if directories are to be kept,
one for the first run and two for the second. -/
theorem workspaces_cleaned_up_twin : ∃ h crowd h' crowd',
    Crowd.Run (clearing (tidyProver false) ⟨"/", []⟩ twinScripts)
      ⟨(tidyJobs false).map Job.activity, .idle usedFiles⟩ h crowd ∧
    Crowd.Run (clearing (tidyProver true) ⟨"/", []⟩ twinScripts)
      ⟨(tidyJobs true).map Job.activity, .idle usedFiles⟩ h' crowd' ∧
    usedFiles.Makes ⟨"/", ["work"]⟩ crowd.state.files ∧
    (standing (h'.of 0)).length = 1 ∧ (standing (h'.of 1)).length = 2 ∧
    Cleaned (tidyProver false) ⟨"/", []⟩ twinScripts (tidyJobs false) usedFiles h crowd ∧
    Cleaned (tidyProver true) ⟨"/", []⟩ twinScripts (tidyJobs true) usedFiles h' crowd' := by
  have run (keep : Bool) : Crowd.Run (clearing (tidyProver keep) ⟨"/", []⟩ twinScripts) _ (tidyPlay keep).1
      (tidyPlay keep).2 := Crowd.run_play _ _ _
  have shared (keep : Bool) : ∀ job ∈ tidyJobs keep, job.config.prover = tidyProver keep := by simp [tidyJobs]
  have cleaned := workspaces_cleaned_up (shared false) (run false)
  have cleaned' := workspaces_cleaned_up (shared true) (run true)
  have ends : ((tidyPlay false).2.result? 0).isSome = true ∧ ((tidyPlay false).2.result? 1).isSome = true := by
    decide +kernel
  have kept : (standing ((tidyPlay true).1.of 0)).length = 1 ∧ (standing ((tidyPlay true).1.of 1)).length = 2 := by
    decide +kernel
  obtain ⟨x, first⟩ := Option.isSome_iff_exists.1 ends.1
  obtain ⟨y, second⟩ := Option.isSome_iff_exists.1 ends.2
  refine ⟨_, _, _, _, run false, run true, cleaned.restored rfl ?_, kept.1, kept.2, cleaned, cleaned'⟩
  intro i job hjob
  rcases i with _ | _ | i
  · exact .inr (cleaned.finished 0 job x hjob (Crowd.eq_done_of_result? first))
  · exact .inr (cleaned.finished 1 job y hjob (Crowd.eq_done_of_result? second))
  · cases hjob

end Plays

end Relay

end ProofRelay
