import ProofRelay.Proofs.Pipeline.Ending
import ProofRelay.Proofs.Pipeline.Neighbours
import ProofRelay.Proofs.Prover.Discipline

/-!
How often the stages of a run are tried. Proving and verifying are tried until they do not fail, but no more often
than the setting says; a negative setting counts as none, and all else is tried once. Only a limit that has no text
stops them before: the first attempt that fails is the last one then. In a run the attempts at proving come first,
each in a directory of its own and with the whole budget, and the contract is asked for the record no more often than
verifying may be tried.
-/

namespace ProofRelay

open Attempt (Yields)

namespace Relay

variable {τ : Type}

/-- Asks the contract for a record. -/
def Ask.isCheck : Ask τ → Bool
  | .chain (.call c _) => c.method == "verify_proof"
  | _ => false

section Checks

variable {c : Config τ} {es : List (Exchange (dialogue τ))}

/-- The contract is asked for a record when it is verified. -/
theorem asked_isCheck (es : List (Exchange (dialogue τ))) :
    asked Ask.isCheck es = asked Ask.isCheck (asked (Ask.isOf .verifying) es) := by
  have own : ∀ q : Ask τ, q.isCheck = (q.isCheck && q.isOf .verifying) := by
    intro q
    cases check : q.isCheck with
    | false => rfl
    | true =>
      refine (Ask.isOf_iff.2 ?_).symm
      cases q with
      | chain q =>
        cases q with
        | call c block => exact congrArg some (if_pos (beq_iff_eq.1 check))
        | _ => cases check
      | _ => cases check
  rw [asked, asked, asked, List.filter_filter]
  exact List.filter_congr fun e _ => own e.ask

/-- One check asks the contract at most once. -/
theorem length_asked_of_verify {record : Record} {r : Except Trouble Bool} (yields : Yields (verify c record) es r) :
    (asked Ask.isCheck es).length ≤ 1 := by
  cases encoded : Commitment.toBytes record.commitment with
  | error f =>
    rw [verify, encoded] at yields
    obtain ⟨rfl, -⟩ := Activity.path_done_iff.1 yields
    exact Nat.zero_le 1
  | ok digest =>
    obtain ⟨fs, x, rfl, -, called⟩ := yields_verify_cases encoded yields
    rcases Client.yields_call_cases called with rfl | ⟨p, rfl⟩ | ⟨p, reply, rfl⟩
    · exact Nat.zero_le 1
    · exact Nat.zero_le 1
    · exact Nat.le_refl 1

theorem length_asked_of_checks {record : Record} {r : Except Trouble Bool}
    (yields : Yields (checkAttempts c record) es r) : (asked Ask.isCheck es).length ≤ 1 + c.retries.toNat := by
  have yields : Yields (Attempt.retry (1 + c.retries.toNat) (verify c record)) es r := yields
  obtain ⟨failed, last, x, rfl, bound, fails, yields, -⟩ := Attempt.yields_retry_until yields
  have first : (asked Ask.isCheck failed.flatten).length ≤ failed.length := by
    refine length_asked_flatten_le fun fs hfs => ?_
    obtain ⟨f, part⟩ := fails fs hfs
    exact length_asked_of_verify part
  have second := length_asked_of_verify yields
  rw [asked_append, List.length_append]
  omega

end Checks

section Run

variable [Time τ] {c : Config τ} {r : Request} {es : List (Exchange (dialogue τ))} {result : Except Trouble (Outcome τ)}

/-- In a run the contract is asked for the record as often as verifying may be tried. -/
theorem length_asked_of_run (yields : Yields (run c r) es result) :
    (asked Ask.isCheck es).length ≤ 1 + c.retries.toNat := by
  rw [asked_isCheck]
  cases staged_of_course (course_of_yields yields) with
  | proof composed | submission composed =>
    rw [composed.verifying]
    exact Nat.zero_le _
  | check composed proof submission check =>
    rw [composed.verifying]
    exact length_asked_of_checks check

omit [Time τ] in
/-- A negative setting counts as none, and only proving and verifying are tried again. -/
theorem attemptsIn_eq (c : Config τ) (s : Stage) : ∃ n : Nat,
    (n : Int) = (if s = .proving ∨ s = .verifying then max 0 c.retries else 0) ∧ c.attemptsIn s = 1 + n := by
  have clamped : (c.retries.toNat : Int) = max 0 c.retries := by omega
  cases s with
  | proving | verifying => exact ⟨c.retries.toNat, by simpa using clamped, rfl⟩
  | _ => exact ⟨0, by simp, rfl⟩

end Run

/-- The attempts at proving in a run. All but the last one have failed, and so has that only at the limit, or as the
first one if the limit has no text; each asks for a directory of its own first, and then keeps to it and to its own
time. Nothing is asked of the prover after them, and the contract is asked for the record within the limit too. -/
structure Retried [Time τ] (c : Config τ) (r : Request) (es : List (Exchange (dialogue τ))) : Prop where
  proving : ∃ (t₀ t₁ : τ) (failed : List (List (Exchange (Prover.dialogue τ))))
    (last : List (Exchange (Prover.dialogue τ))) (rest : List (Exchange (dialogue τ))),
      es = clock t₀ :: clock t₁ :: (((failed ++ [last]).flatten.map proverExchange) ++ rest) ∧
      ((failed ++ [last]).length : Int) ≤ 1 + max 0 c.retries ∧
      (∀ fs ∈ failed, ∃ f, Yields (Prover.proveDocument c.prover r.id r.proverInput c.model.toString) fs
        (.error (.failure f))) ∧
      (∃ x, Yields (Prover.proveDocument c.prover r.id r.proverInput c.model.toString) last x ∧
        ((failed.length : Int) = max 0 c.retries ∨ (∀ f, x ≠ .error (.failure f)) ∨
          (failed = [] ∧ Decimal.fits (1 + max 0 c.retries) = false))) ∧
      (∀ fs ∈ failed ++ [last], (∃ reply gs, fs = ⟨.openWorkspace c.prover.root (Workspace.stem r.id), reply⟩ :: gs) ∧
        Prover.Disciplined c.prover r.id fs) ∧
      ∀ e ∈ rest, e.ask.isForProver = false
  verifying : ((asked Ask.isCheck es).length : Int) ≤ 1 + max 0 c.retries

/-- An attempt asks for a directory before all else. -/
theorem exists_opening [Time τ] {c : Prover.Config τ} {requestId : Text} {model : String} {d : Json}
    {fs : List (Exchange (Prover.dialogue τ))} {x : Except Trouble Prover.Artifact}
    (yields : Yields (Prover.proveDocument c requestId d model) fs x) :
    ∃ reply gs, fs = ⟨.openWorkspace c.root (Workspace.stem requestId), reply⟩ :: gs := by
  obtain ⟨reply, gs, rfl, -⟩ := Activity.path_ask_done_iff.1 yields
  exact ⟨reply, gs, rfl⟩

/-- Attempts at proving are attempts of the prover. -/
theorem exists_attempts [Time τ] {c : Config τ} {r : Request} {failed : List (List (Exchange (dialogue τ)))}
    (fails : ∀ fs ∈ failed, ∃ f, Yields (prove c r) fs (.error (.failure f))) :
    ∃ attempts : List (List (Exchange (Prover.dialogue τ))), failed.flatten = attempts.flatten.map proverExchange ∧
      attempts.length = failed.length ∧
      ∀ fs ∈ attempts, ∃ f, Yields (Prover.proveDocument c.prover r.id r.proverInput c.model.toString) fs
        (.error (.failure f)) := by
  induction failed with
  | nil => exact ⟨[], rfl, rfl, by simp⟩
  | cons fs failed ih =>
    obtain ⟨attempts, same, length, each⟩ := ih fun gs hgs => fails gs (List.mem_cons_of_mem _ hgs)
    obtain ⟨f, first⟩ := fails fs List.mem_cons_self
    obtain ⟨gs, rfl, own⟩ := (Attempt.yields_via_iff prover_lifts).1 first
    refine ⟨gs :: attempts, ?_, by simp [length], ?_⟩
    · simp [same]
    · intro hs mem
      rcases List.mem_cons.1 mem with rfl | mem
      · exact ⟨f, own⟩
      · exact each hs mem

/-- The exchanges of proving: some attempts that failed, and the last one. -/
structure Attempted [Time τ] (c : Config τ) (r : Request) (failed : List (List (Exchange (Prover.dialogue τ))))
    (last : List (Exchange (Prover.dialogue τ))) : Prop where
  bound : failed.length ≤ c.retries.toNat
  fails : ∀ fs ∈ failed, ∃ f, Yields (Prover.proveDocument c.prover r.id r.proverInput c.model.toString) fs
    (.error (.failure f))
  ends : ∃ x, Yields (Prover.proveDocument c.prover r.id r.proverInput c.model.toString) last x ∧
    ((failed.length : Int) = max 0 c.retries ∨ (∀ f, x ≠ .error (.failure f)) ∨
      (failed = [] ∧ Decimal.fits (1 + max 0 c.retries) = false))

theorem exists_attempted [Time τ] {c : Config τ} {r : Request} {es : List (Exchange (dialogue τ))}
    {x : Except Trouble Prover.Artifact} (yields : Yields (proofAttempts c r) es x) :
    ∃ failed last, es = (failed ++ [last]).flatten.map proverExchange ∧ Attempted c r failed last := by
  have yields : Yields (Attempt.retry (1 + c.retries.toNat) (prove c r)) es x := yields
  obtain ⟨failed, _, y, rfl, bound, fails, ended, concludes⟩ := Attempt.yields_retry_until yields
  obtain ⟨attempts, same, length, each⟩ := exists_attempts fails
  obtain ⟨last, rfl, proved⟩ := (Attempt.yields_via_iff prover_lifts).1 ended
  rw [← length] at bound
  rw [Attempt.Concludes, attempts_eq, ← length] at concludes
  refine ⟨attempts, last, by simp [same], bound, each, y, proved, ?_⟩
  rcases concludes with ⟨-, -, atLimit | other⟩ | ⟨long, first, -⟩
  · exact .inl (by omega)
  · exact .inr (.inl other)
  · exact .inr (.inr ⟨List.length_eq_zero_iff.1 first, long⟩)

/-- Each of the attempts is over. -/
theorem Attempted.each [Time τ] {c : Config τ} {r : Request} {failed : List (List (Exchange (Prover.dialogue τ)))}
    {last : List (Exchange (Prover.dialogue τ))} (attempted : Attempted c r failed last) : ∀ fs ∈ failed ++ [last],
      ∃ y, Yields (Prover.proveDocument c.prover r.id r.proverInput c.model.toString) fs y := by
  intro fs mem
  rcases List.mem_append.1 mem with mem | mem
  · obtain ⟨f, failed⟩ := attempted.fails fs mem
    exact ⟨_, failed⟩
  · obtain ⟨x, ended, -⟩ := attempted.ends
    rw [List.mem_singleton.1 mem]
    exact ⟨x, ended⟩

theorem retried_of_yields [Time τ] {c : Config τ} {r : Request} {es : List (Exchange (dialogue τ))}
    {result : Except Trouble (Outcome τ)} (yields : Yields (run c r) es result) : Retried c r es := by
  constructor
  · obtain ⟨t₀, t₁, front, rest, x, rfl, proof, off⟩ := exists_proving yields
    obtain ⟨failed, last, rfl, attempted⟩ := exists_attempted proof
    have bound := attempted.bound
    refine ⟨t₀, t₁, failed, last, rest, rfl, ?_, attempted.fails, attempted.ends, ?_, off⟩
    · rw [List.length_append, List.length_singleton]
      omega
    · intro fs mem
      obtain ⟨y, ended⟩ := attempted.each fs mem
      exact ⟨exists_opening ended, Prover.disciplined_of_path ended⟩
  · have bound := length_asked_of_run yields
    omega

/-- Of attempts with any results in their order, those up to the first one that is no failure are made in a stage,
or as many as its limit says; what they come to is what the last one comes to. The limit is one more than the setting
in proving and verifying, a negative setting counting as none, and one in all other stages. Only a limit that has no
text stops them before, and its fault takes the place of the failure. The last line of the loop is never reached: its
fault is the result only if an attempt came to that. Every run keeps to all this. -/
theorem attempts_until_last [Time τ] (c : Config τ) (r : Request) :
    (∀ s : Stage, ∃ n : Nat, (n : Int) = (if s = .proving ∨ s = .verifying then max 0 c.retries else 0) ∧
      ∀ {α : Type} (results : Nat → Except Trouble α), ∃ result made,
        (Attempt.retry (c.attemptsIn s) Attempt.inTurn).run.runWith (D := Attempt.sequel α) (Attempt.outOf results) 0 =
          (result, made) ∧
        Attempt.Conducted results n result made ∧
        (result = .error (.fault ⟨.runtime, "unreachable"⟩) → ∃ k < made, results k = result)) ∧
    ∀ es result, Yields (run c r) es result → Retried c r es := by
  refine ⟨fun s => ?_, fun _ _ yields => retried_of_yields yields⟩
  obtain ⟨n, limit, attempts⟩ := attemptsIn_eq c s
  refine ⟨n, limit, fun results => ⟨_, _, rfl, ?_⟩⟩
  rw [attempts]
  have conducted := Attempt.conducted_retry results n
  exact ⟨conducted, conducted.of_unreachable⟩

/-- Replies to a run in which the prover never leaves a proof. -/
def fruitlessReply (q : Ask Int) (s : Nat × Nat) : Reply q × Nat × Nat :=
  match q with
  | .prover (.isFile _) => (.ok false, s)
  | q => secondTryReply q s

/-- A run that may try again does so once, in a second directory. -/
theorem attempts_until_last_fruitless : ∃ es result,
    Yields (run Job.patient.config Job.patient.request) es result ∧ (asked Ask.isFetch es).length = 2 ∧
    Retried Job.patient.config Job.patient.request es := by
  have ran : Yields (run Job.patient.config Job.patient.request) _ _ :=
    Activity.path_trace fruitlessReply Job.patient.activity (0, 0)
  have opened : (asked Ask.isFetch (Job.patient.activity.trace fruitlessReply (0, 0))).length = 2 := by
    decide +kernel
  exact ⟨_, _, ran, opened, (attempts_until_last Job.patient.config Job.patient.request).2 _ _ ran⟩

/-- Results of which only the first one is a failure. -/
def onceFailing : Nat → Except Trouble Unit
  | 0 => .error (.failure { kind := .process 1, message := "Prover setup failed" })
  | _ + 1 => .ok ()

/-- A second attempt, which would succeed, is within the limit and is not made where the limit has no text. -/
theorem attempts_cut_short : ∃ n : Nat, (n : Int) = max 0 Job.restless.config.retries ∧
    Attempt.IsLast onceFailing n 1 ∧
    (Attempt.retry (Job.restless.config.attemptsIn .proving) Attempt.inTurn).run.runWith (D := Attempt.sequel Unit)
      (Attempt.outOf onceFailing) 0 = (.error (.fault Decimal.unwritable), 1) := by
  obtain ⟨n, limit, attempts⟩ := attemptsIn_eq Job.restless.config .proving
  rw [if_pos (.inl rfl)] at limit
  have long : Decimal.fits ((1 + n : Nat) : Int) = false := by
    rw [Int.natCast_add, limit]
    exact restless_attempts
  have several : 1 ≤ n := by
    rcases n with _ | n
    · cases (show Decimal.fits 1 = true by decide +kernel).symm.trans long
    · exact Nat.le_add_left 1 n
  refine ⟨n, limit, ⟨several, fun j first => ?_, .inr (by simp [onceFailing])⟩, ?_⟩
  · obtain rfl : j = 0 := by omega
    exact ⟨_, rfl⟩
  · rw [attempts]
    obtain ⟨made, failed, -⟩ := (Attempt.conducted_retry onceFailing n).beyond long
    exact Prod.ext (failed _ rfl) made

end Relay

end ProofRelay
