import ProofRelay.Proofs.Activity.Play
import ProofRelay.Proofs.Pipeline.Arena

/-!
Coherence of outcomes. While a run goes on, its history is the way to success up to its stage, and the
stages before that are timed. So what an outcome tells of the way fits what it holds: a commitment if
submitting was begun, a record if verifying was begun, a cause if the run failed, and an answer if not.
-/

namespace ProofRelay

namespace Relay

open Attempt (Yields)

variable {τ : Type}

/-- What an outcome tells fits together. -/
structure Coherent (o : Outcome τ) : Prop where
  ending : (o.stage = .done ∧ o.history = Stage.way) ∨
    (o.stage = .failed ∧ ∃ s ∈ [Stage.proving, .submitting, .verifying], o.history = s.before ++ [s, .failed])
  last : o.history.getLast? = some o.stage
  timed : o.timings.map Prod.fst = o.history.dropLast
  ok : o.ok = true ↔ o.stage = .done
  done : o.stage = .done → o.failedStage = none ∧ o.error = none ∧ o.failure = none
  failed : o.stage = .failed → ∃ s f, o.history.dropLast.getLast? = some s ∧ o.failedStage = some s ∧
    o.error = some f ∧ f.stage = some s.name ∧ o.failure = some (s.name, f.summary)
  commitment : o.commitment.isSome = true ↔ .submitting ∈ o.history
  submission : o.submission.isSome = true ↔ .verifying ∈ o.history
  verified : o.verified.isSome = true ↔ o.stage = .done

variable [Time τ]

/-- A run on its way fails coherently, if it has what its history tells. -/
theorem coherent_failed {p : Progress τ} (way : p.run.OnWay) (f : Failure) (t : τ)
    (work : p.run.stage ∈ [Stage.proving, .submitting, .verifying])
    (commitment : p.commitment.isSome = true ↔ .submitting ∈ p.run.history)
    (submission : p.submission.isSome = true ↔ .verifying ∈ p.run.history) : Coherent (p.failedOutcome f t) where
  ending := by
    refine .inr ⟨rfl, p.run.stage, work, ?_⟩
    rw [Progress.failedOutcome, way.history, List.append_assoc]
    rfl
  last := List.getLast?_concat
  timed := by
    rw [Progress.failedOutcome, List.dropLast_concat, way.history, way.timed_entered]
  ok := decide_eq_true_iff
  done := nofun
  failed _ := by
    refine ⟨p.run.stage, f.inStage p.run.stage.name, ?_, rfl, rfl, rfl, rfl⟩
    rw [Progress.failedOutcome, List.dropLast_concat, way.history, List.getLast?_concat]
  commitment := by simpa [Progress.failedOutcome] using commitment
  submission := by simpa [Progress.failedOutcome] using submission
  verified := ⟨nofun, nofun⟩

theorem coherent_done {requestId : Text} {run : Run τ} (reached : run.Reaches requestId .verifying)
    (commitment : String) (record : Record) (verified : Bool) (t : τ) :
    Coherent (doneOutcome run commitment record verified t) := by
  have history : (doneOutcome run commitment record verified t).history = Stage.way := by
    rw [doneOutcome, reached.way.history, reached.stage]
    rfl
  have passed : Stage.submitting ∈ Stage.way ∧ Stage.verifying ∈ Stage.way := by decide
  exact {
    ending := .inl ⟨rfl, history⟩
    last := List.getLast?_concat
    timed := by rw [doneOutcome, List.dropLast_concat, reached.way.history, reached.way.timed_entered]
    ok := decide_eq_true_iff
    done := fun _ => ⟨rfl, rfl, rfl⟩
    failed := fun failed => by cases failed
    commitment := ⟨fun _ => history.symm ▸ passed.1, fun _ => rfl⟩
    submission := ⟨fun _ => history.symm ▸ passed.2, fun _ => rfl⟩
    verified := ⟨fun _ => rfl, fun _ => rfl⟩ }

/-- A run that fails in a stage has the commitment and the record that its history tells. -/
theorem coherent_of_reaches {requestId : Text} {run : Run τ} {s : Stage} (reached : run.Reaches requestId s)
    (work : s ∈ [Stage.proving, .submitting, .verifying]) {commitment : Option String} {submission : Option Record}
    (known : commitment.isSome = true ↔ .submitting ∈ s.before ++ [s])
    (recorded : submission.isSome = true ↔ .verifying ∈ s.before ++ [s]) (f : Failure) (t : τ) :
    Coherent (Progress.failedOutcome ⟨run, commitment, submission⟩ f t) := by
  obtain ⟨-, rfl, way⟩ := reached
  refine coherent_failed way f t work ?_ ?_
  · rwa [way.history]
  · rwa [way.history]

/-- Every outcome of a run is coherent, whatever the prover, the signer and the node do, and it is that of
the request. -/
theorem outcome_coherent {c : Config τ} {r : Request} {es : List (Exchange (dialogue τ))}
    {o : Outcome τ} (yields : Yields (run c r) es (.ok o)) : Coherent o ∧ o.requestId = r.id := by
  cases course_of_yields yields with
  | unproved reached =>
    exact ⟨coherent_of_reaches reached (by decide) (by decide) (by decide) _ _, reached.own⟩
  | unsubmitted reached =>
    exact ⟨coherent_of_reaches reached (by decide) ⟨fun _ => by decide, fun _ => rfl⟩ (by decide) _ _, reached.own⟩
  | unverified reached =>
    exact ⟨coherent_of_reaches reached (by decide) ⟨fun _ => by decide, fun _ => rfl⟩
      ⟨fun _ => by decide, fun _ => rfl⟩ _ _, reached.own⟩
  | finished reached => exact ⟨coherent_done reached _ _ _ _, reached.own⟩

/-- Everything works, but the contract cannot be asked for a commitment if `broken`. -/
def onceReply (broken : Bool) (q : Ask Int) (_ : Unit) : Reply q × Unit :=
  match q with
  | .prover q => (sampleProof 0 q, ())
  | .chain (.call c block) =>
    (if broken && c.method == "verify_proof" then .error ⟨.connection, "reset"⟩ else sampleReply 0 (.call c block), ())
  | .chain q => (sampleReply 0 q, ())
  | .now => ((0 : Int), ())
  | .pause _ => ((), ())

/-- One run is done, and another one fails in its last work. -/
theorem outcome_coherent_last : ∃ es o es' o',
    Yields (run (Job.sample "A").config (Job.sample "A").request) es (.ok o) ∧ o.stage = .done ∧
    Coherent o ∧
    Yields (run (Job.sample "A").config (Job.sample "A").request) es' (.ok o') ∧
    o'.failedStage = some .verifying ∧ Coherent o' := by
  have ends :
      ((Job.sample "A").activity.runWith (onceReply false) ()).1.toOption.any (fun o => o.stage = .done) = true ∧
      ((Job.sample "A").activity.runWith (onceReply true) ()).1.toOption.any
        (fun o => o.failedStage = some .verifying) = true := by
    decide +kernel
  obtain ⟨o, yields, done⟩ := Attempt.exists_yields_of_runWith ends.1
  obtain ⟨o', yields', failed⟩ := Attempt.exists_yields_of_runWith ends.2
  exact ⟨_, o, _, o', yields, of_decide_eq_true done, (outcome_coherent yields).1, yields', of_decide_eq_true failed,
    (outcome_coherent yields').1⟩

end Relay

end ProofRelay
