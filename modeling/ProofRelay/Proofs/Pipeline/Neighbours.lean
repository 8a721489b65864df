import ProofRelay.Proofs.Pipeline.Broadcasts
import ProofRelay.Proofs.Prover.Agreement

/-!
Runs side by side that share an invoker and a file tree. What the chain replies is left open, and so is the
order of all steps. Each run sees its own directory only, so what its proof comes to is decided by its
script, whoever else is there.
-/

namespace ProofRelay.Relay

open Attempt (Yields AtMost)
open Prover (Stall Script View Agree)

variable {τ : Type}

/-- A file tree, and the stall of each run. -/
structure Yard (τ : Type) where
  files : FileTree
  stalls : Nat → Stall τ

namespace Yard

/-- No run has begun. -/
def idle (files : FileTree) : Yard τ := ⟨files, fun _ => {}⟩

inductive Answers [Time τ] (c : Prover.Config τ) (temporary : Path) (scripts : Nat → Script τ) :
    Yard τ → Nat → Exchange (dialogue τ) → Yard τ → Prop where
  | prover {y y' : Yard τ} {i : Nat} {e : Exchange (Prover.dialogue τ)}
      (answer : Stall.Answers c.timeout temporary (scripts i) y.files (y.stalls i) e y'.files (y'.stalls i))
      (others : ∀ j, j ≠ i → Stall.Disturbs y.files y'.files (y.stalls j) (y'.stalls j)) :
      Answers c temporary scripts y i (proverExchange e) y'
  | chain {y : Yard τ} {i : Nat} (e : Exchange Client.dialogue) : Answers c temporary scripts y i (chainExchange e) y
  | now {y : Yard τ} {i : Nat} (t : τ) : Answers c temporary scripts y i (clock t) y
  | pause {y : Yard τ} {i : Nat} (d : τ) : Answers c temporary scripts y i ⟨.pause d, ()⟩ y

/-- A process changes what is in its directory while it is running. -/
inductive Drifts : Yard τ → Yard τ → Prop where
  | still (y : Yard τ) : Drifts y y
  | work {y y' : Yard τ} {i : Nat} {dir : Path} {found : Contents} (running : (y.stalls i).running = some (dir, found))
      (fills : y.files.Fills dir y'.files) (same : y'.stalls i = y.stalls i)
      (others : ∀ j, j ≠ i → Stall.Disturbs y.files y'.files (y.stalls j) (y'.stalls j)) : Drifts y y'

def view (y : Yard τ) (i : Nat) : View τ := (y.stalls i).view y.files

/-- All stalls have their directories in place, and no two of them share one. -/
structure Orderly (home : Path) (y : Yard τ) : Prop where
  housed : ∀ i, (y.stalls i).Housed y.files home
  apart : ∀ i j, i ≠ j → (y.stalls i).Apart (y.stalls j)

end Yard

/-- The surroundings of runs that share an invoker and a file tree. Nothing is prompt: the runs may be
interleaved at every step. -/
def yard [Time τ] (c : Prover.Config τ) (temporary : Path) (scripts : Nat → Script τ) :
    Setting (dialogue τ) (Yard τ) where
  prompt _ := false
  Answers := Yard.Answers c temporary scripts
  Drifts := Yard.Drifts

/-- The terms of a run: those of its prover, while the chain and the relay's clock may reply anything. -/
def terms [Time τ] (c : Prover.Config τ) (temporary : Path) (s : Script τ) : Terms (dialogue τ) (View τ) where
  May v
    | .prover q => Prover.May c v q
    | .chain _ | .now | .pause _ => True
  Answers v e v' := match e with
    | ⟨.prover q, r⟩ => (Prover.terms c temporary s).Answers v ⟨q, r⟩ v'
    | ⟨.chain _, _⟩ | ⟨.now, _⟩ | ⟨.pause _, _⟩ => v' = v

section Parted

theorem apart_symm {d d' : Stall τ} (apart : d.Apart d') : d'.Apart d :=
  fun dir dir' own own' => (apart dir' dir own' own).symm

variable {c : Prover.Config τ} {temporary : Path} {scripts : Nat → Script τ} {y y' : Yard τ} {i : Nat}

theorem orderly_idle (home : Path) (files : FileTree) : (Yard.idle files : Yard τ).Orderly home :=
  ⟨fun _ => ⟨nofun, nofun, nofun⟩, fun _ _ _ => nofun⟩

/-- What is done for one run leaves all others as they are. -/
theorem orderly_touches {home : Path} (orderly : y.Orderly home) (housed : (y'.stalls i).Housed y'.files home)
    (touches : Stall.Touches home y.files (y.stalls i) y'.files (y'.stalls i))
    (others : ∀ j, j ≠ i → Stall.Disturbs y.files y'.files (y.stalls j) (y'.stalls j)) :
    y'.Orderly home ∧ ∀ j, j ≠ i → y'.stalls j = y.stalls j ∧ y'.view j = y.view j := by
  have apart := fun j (hj : j ≠ i) => orderly.apart i j hj.symm
  have same : ∀ j, j ≠ i → y'.stalls j = y.stalls j := fun j hj =>
    touches.undisturbed (orderly.housed i) (orderly.housed j) (apart j hj) (others j hj)
  have other := fun j (hj : j ≠ i) => touches.other (orderly.housed i) (orderly.housed j) (apart j hj)
  refine ⟨⟨fun j => ?_, fun j k hjk => ?_⟩, fun j hj => ⟨same j hj, ?_⟩⟩
  · by_cases hj : j = i
    · exact hj ▸ housed
    · exact (same j hj).symm ▸ (other j hj).1
  · by_cases hj : j = i
    · subst hj
      exact (same k hjk.symm).symm ▸ (other k hjk.symm).2.2
    · rw [same j hj]
      by_cases hk : k = i
      · subst hk
        exact apart_symm (other j hj).2.2
      · exact (same k hk).symm ▸ orderly.apart j k hjk
  · rw [Yard.view, same j hj]
    exact (other j hj).2.1

theorem orderly_answer [Time τ] {e : Exchange (dialogue τ)} (orderly : y.Orderly (c.home temporary))
    (may : (terms c temporary (scripts i)).May (y.view i) e.ask) (answer : Yard.Answers c temporary scripts y i e y') :
    y'.Orderly (c.home temporary) ∧ (terms c temporary (scripts i)).Answers (y.view i) e (y'.view i) ∧
      ∀ j, j ≠ i → y'.view j = y.view j := by
  cases answer with
  | chain | now | pause => exact ⟨orderly, rfl, fun _ _ => rfl⟩
  | prover answer others =>
    obtain ⟨housed, touches⟩ := (orderly.housed i).answer may answer
    obtain ⟨orderly', other⟩ := orderly_touches orderly housed touches others
    exact ⟨orderly', ⟨_, _, _, _, orderly.housed i, answer, rfl, rfl⟩, fun j hj => (other j hj).2⟩

/-- What processes do in their directories is not seen from any stall. -/
theorem orderly_drift {home : Path} (orderly : y.Orderly home) (drifts : y.Drifts y') :
    y'.Orderly home ∧ ∀ j, y'.view j = y.view j := by
  cases drifts with
  | still => exact ⟨orderly, fun _ => rfl⟩
  | @work _ i dir found running fills same others =>
    obtain ⟨housed, seen, touches⟩ := (orderly.housed i).work running fills
    obtain ⟨orderly', other⟩ := orderly_touches orderly (same ▸ housed) (by rwa [same]) others
    refine ⟨orderly', fun j => ?_⟩
    by_cases hj : j = i
    · rw [hj, Yard.view, same]
      exact seen
    · exact (other j hj).2

variable (c temporary scripts) in
/-- What one run is answered is nothing to the others. -/
theorem parted_yard [Time τ] :
    Crowd.Parted (yard c temporary scripts) (fun i => terms c temporary (scripts i)) Yard.view
      (Yard.Orderly (c.home temporary)) :=
  ⟨orderly_answer, orderly_drift⟩

end Parted

/-- The directory that is made in an exchange. -/
def made? : Exchange (dialogue τ) → Option Path
  | ⟨.prover (.openWorkspace _ _), .ok dir⟩ => some dir
  | _ => none

/-- The directory that was made last. -/
def lastMade : List (Exchange (dialogue τ)) → Option Path
  | [] => none
  | e :: es => (lastMade es).or (made? e)

section Chain

variable {P : Ask τ → Bool} (off : ∀ q, P (.chain q) = false) (c : Config τ)

include off

theorem never_onChain {α : Type} (a : Attempt Client.dialogue α) : AtMost P 0 (onChain a) :=
  Activity.atMost_via_zero off a.run

theorem never_submit (commitment : String) : AtMost P 0 (submit c commitment) := by
  refine (never_onChain off _).zero_bind fun before => ?_
  refine (Attempt.atMost_ofExcept 0 _).zero_bind fun bytes => ?_
  refine (never_onChain off _).zero_bind fun tx => ?_
  refine (never_onChain off _).zero_bind fun receipt => ?_
  refine (never_onChain off _).zero_bind fun after => ?_
  split <;> exact Attempt.atMost_ofExcept _ _

theorem never_check (record : Record) : AtMost P 0 (verify c record) := by
  refine (Attempt.atMost_ofExcept 0 _).zero_bind fun bytes => ?_
  exact (never_onChain off _).zero_bind fun _ => Attempt.atMost_ofExcept _ _

/-- When a request is proved, the run has to do with the chain and the clock only. -/
theorem never_hashing [Time τ] (clockless : P .now = false) (run : Run τ) (artifact : Prover.Artifact) :
    AtMost P 0 (hashing c run artifact) := by
  refine (never_advance clockless _ _).zero_bind fun hashing =>
    (never_advance clockless _ _).zero_bind fun submitting => ?_
  refine atMost_work (n := 0) (m := 0) clockless (never_submit off c _) fun record => ?_
  refine (never_advance clockless _ _).zero_bind fun verifying => ?_
  refine atMost_work (n := 0) (m := 0) clockless ((never_check off c record).retry _) fun verified => ?_
  exact (never_advance clockless _ _).zero_bind fun done =>
    (Attempt.atMost_ofExcept 0 _).zero_bind fun _ => Attempt.atMost_ofExcept _ _

end Chain

/-- Whether a question is for the prover's surroundings. -/
def Ask.isForProver : Ask τ → Bool
  | .prover _ => true
  | _ => false

section Runs

variable [Time τ] {invoker : Prover.Config τ} {temporary : Path} {s : Script τ} {c : Config τ} {v v' : View τ}

theorem prover_carries : Activity.Carries prover (Prover.terms invoker temporary s) (terms invoker temporary s) :=
  ⟨fun _ _ may => may, fun _ _ _ _ answer => answer⟩

/-- Proving goes as the courses of its attempts tell it. -/
theorem meets_proofAttempts (own : c.prover = invoker) (r : Request) (idle : v.stall.running = none) :
    (proofAttempts c r).Meets (terms invoker temporary s) v fun x v' =>
      v'.stall.running = none ∧
        Attempt.Tries (s.Attempt invoker r.id r.proverInput c.model.toString) c.retries.toNat v x v' := by
  subst own
  refine Attempt.Meets.retry (P := fun v : View τ => v.stall.running = none) (fun v idle => ?_) _ idle
  exact Attempt.Meets.via prover_carries (Prover.meets_proveDocument idle ..)

/-- A run keeps to its own directory. -/
theorem meets_run (own : c.prover = invoker) (r : Request) (idle : v.stall.running = none) :
    (run c r).Meets (terms invoker temporary s) v fun _ _ => True := by
  have free : ∀ (v : View τ) q, q.isForProver = false → (terms invoker temporary s).May v q := by
    intro v q other
    cases q with
    | prover => cases other
    | chain | now | pause => trivial
  refine ⟨trivial, fun t₀ v₀ same₀ => ⟨trivial, fun t₁ v₁ same₁ => ?_⟩⟩
  obtain rfl : v₀ = v := same₀
  obtain rfl : v₁ = v₀ := same₁
  refine Attempt.Meets.outcome_bind ((meets_proofAttempts own r idle).mono fun x v' _ => ?_)
  rcases x with (f | f | e) | artifact
  · exact Activity.meets_of_never free (atMost_failed rfl 0 _ f) v'
  · trivial
  · trivial
  · exact Activity.meets_of_never free (never_hashing (fun _ => rfl) c rfl _ artifact) v'

/-- A run looks at the clock twice and proves, and what comes after that is not for the prover. -/
theorem exists_proving {r : Request} {es : List (Exchange (dialogue τ))} {result : Except Trouble (Outcome τ)}
    (yields : Yields (run c r) es result) : ∃ t₀ t₁ front rest x, es = clock t₀ :: clock t₁ :: (front ++ rest) ∧
      Yields (proofAttempts c r) front x ∧ ∀ e ∈ rest, e.ask.isForProver = false := by
  rw [Yields, run_run] at yields
  obtain ⟨t₀, es₀, rfl, rest₀⟩ := Activity.path_ask_done_iff.1 yields
  obtain ⟨t₁, es₁, rfl, rest₁⟩ := Activity.path_ask_done_iff.1 rest₀
  rcases (yields_work_iff rfl).1 rest₁ with ⟨f, front, t, rfl, proof, -⟩ | ⟨t, proof, -⟩ |
    ⟨artifact, front, rest, rfl, proof, later⟩
  · exact ⟨t₀, t₁, front, [clock t], _, rfl, proof, by simp [clock, Ask.isForProver]⟩
  · exact ⟨t₀, t₁, es₁, [], _, congrArg _ (congrArg _ (List.append_nil es₁).symm), proof, by simp⟩
  · exact ⟨t₀, t₁, front, rest, _, rfl, proof,
      Activity.AtMost.eq_false later (never_hashing (fun _ => rfl) c rfl _ artifact)⟩

theorem last_answer {e : Exchange (dialogue τ)} (answer : (terms invoker temporary s).Answers v e v') :
    v'.stall.last = (made? e).or v.stall.last := by
  obtain ⟨q, r⟩ := e
  cases q with
  | chain | now | pause =>
    obtain rfl : v' = v := answer
    rfl
  | prover q =>
    obtain ⟨t, d, t', d', -, answer, rfl, rfl⟩ := answer
    cases answer <;> rfl

/-- A look at the clock changes nothing. -/
theorem leads_of_clock {t : τ} {es : List (Exchange (dialogue τ))}
    (leads : (terms invoker temporary s).Leads v (clock t :: es) v') : (terms invoker temporary s).Leads v es v' := by
  cases leads with
  | cons first rest =>
    cases first
    exact rest

/-- The directory that a run was given last is the one that was made last in its exchanges. -/
theorem last_leads {es : List (Exchange (dialogue τ))} (leads : (terms invoker temporary s).Leads v es v') :
    v'.stall.last = (lastMade es).or v.stall.last := by
  induction leads with
  | nil => rfl
  | cons first _ ih => rw [ih, last_answer first, lastMade, Option.or_assoc]

variable {jobs : List (Job τ)} {scripts : Nat → Script τ} {files : FileTree} {h : History (dialogue τ)}
  {crowd : Crowd (dialogue τ) (Yard τ) (Except Trouble (Outcome τ))} {i : Nat} {job : Job τ}

theorem meets_jobs (shared : ∀ job ∈ jobs, job.config.prover = invoker) :
    Crowd.Meets (fun i => terms invoker temporary (scripts i)) Yard.view (fun _ _ _ => True)
      ⟨jobs.map Job.activity, Yard.idle files⟩ := by
  intro i a task
  rw [List.getElem?_map, Option.map_eq_some_iff] at task
  obtain ⟨job, found, rfl⟩ := task
  exact meets_run (shared job (List.mem_of_getElem? found)) job.request rfl

/-- What proving comes to in a run beside others is what its script gives. -/
theorem tries_of_run (shared : ∀ job ∈ jobs, job.config.prover = invoker) (hjob : jobs[i]? = some job)
    (run : Crowd.Run (yard invoker temporary scripts) ⟨jobs.map Job.activity, .idle files⟩ h crowd)
    {t₀ t₁ : τ} {es rest : List (Exchange (dialogue τ))} {x : Except Trouble Prover.Artifact}
    (front : h.of i = clock t₀ :: clock t₁ :: (es ++ rest))
    (proof : Yields (proofAttempts job.config job.request) es x) :
    ∃ v : View τ, v.stall.last = lastMade es ∧
      Attempt.Tries ((scripts i).Attempt invoker job.request.id job.request.proverInput job.config.model.toString)
        job.config.retries.toNat ((Yard.idle files).view i) x v := by
  obtain ⟨-, -, leads⟩ := (parted_yard invoker temporary scripts).run run (orderly_idle _ _) (meets_jobs shared)
  have leads := leads i
  rw [front] at leads
  have leads := leads_of_clock (leads_of_clock leads)
  obtain ⟨v, leads, -⟩ := leads.split
  have own := shared job (List.mem_of_getElem? hjob)
  have tries := ((meets_proofAttempts own job.request rfl).path proof leads).2
  refine ⟨v, ?_, tries⟩
  rw [last_leads leads]
  exact Option.or_none

end Runs

end ProofRelay.Relay
