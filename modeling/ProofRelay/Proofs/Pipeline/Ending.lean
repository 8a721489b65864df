import ProofRelay.Proofs.Pipeline.Coherence
import ProofRelay.Proofs.Pipeline.Escape

/-!
How a run ends. The stages of a run ask one after the other, so what escapes one of them escapes the run, and nothing
else does. Where all that is told has a text and no attempt at proving lets anything out, that is the error of a
negative position alone, and there is none if the offset is at most one.
-/

namespace ProofRelay.Relay

open Attempt (Yields)

variable {τ : Type}

section Run

variable [Time τ] {c : Config τ} {r : Request} {es : List (Exchange (dialogue τ))} {result : Except Trouble (Outcome τ)}

/-- The last stage whose work a run did, and how the trouble of the run comes from that. -/
inductive Staged (c : Config τ) (r : Request) (es : List (Exchange (dialogue τ)))
    (result : Except Trouble (Outcome τ)) :
    Prop where
  | proof {fs : List (Exchange (dialogue τ))} {x : Except Trouble Prover.Artifact} (composed : Composed es fs [] [])
      (proof : Yields (proofAttempts c r) fs x) (same : ∀ t, result = .error t ↔ Astray x t) : Staged c r es result
  | submission {fs gs : List (Exchange (dialogue τ))} {artifact : Prover.Artifact} {x : Except Trouble Record}
      (composed : Composed es fs gs []) (proof : Yields (proofAttempts c r) fs (.ok artifact))
      (submission : Yields (submit c (Commitment.ofBytes artifact.data)) gs x)
      (same : ∀ t, result = .error t ↔ Astray x t) : Staged c r es result
  | check {fs gs hs : List (Exchange (dialogue τ))} {artifact : Prover.Artifact} {record : Record}
      {x : Except Trouble Bool} (composed : Composed es fs gs hs)
      (proof : Yields (proofAttempts c r) fs (.ok artifact))
      (submission : Yields (submit c (Commitment.ofBytes artifact.data)) gs (.ok record))
      (check : Yields (checkAttempts c record) hs x)
      (same : ∀ t, result = .error t ↔
        Astray x t ∨ ((∃ v, x = .ok v) ∧ Decimal.fits record.index = false ∧ t = .fault Decimal.unwritable)) :
      Staged c r es result

theorem composed_of_checks {fs gs hs rest whole : List (Exchange (dialogue τ))} {t₀ t₁ t₂ t₃ t₄ : τ}
    {artifact : Prover.Artifact} {record : Record} {x : Except Trouble Bool}
    (proof : Yields (proofAttempts c r) fs (.ok artifact))
    (submission : Yields (submit c (Commitment.ofBytes artifact.data)) gs (.ok record))
    (check : Yields (checkAttempts c record) hs x) (last : Composed rest [] [] []) (joined : whole = hs ++ rest) :
    Composed (clock t₀ :: clock t₁ :: (fs ++ clock t₂ :: clock t₃ :: (gs ++ clock t₄ :: whole))) fs gs hs := by
  have checked := (last.check (stage_of_checks check) joined).look (t := t₄)
  have submitted := ((checked.submit (stage_of_submit submission) rfl).look (t := t₃)).look (t := t₂)
  exact (submitted.proof (stage_of_proof proof) rfl).look.look

theorem staged_of_course (course : Course c r es result) : Staged c r es result := by
  cases course with
  | unproved reached proof =>
    refine .proof (Composed.nil.look.proof (stage_of_proof proof) rfl).look.look proof fun t => ?_
    simp [not_astray_failure]
  | strayProof other proof =>
    refine .proof (Composed.nil.proof (stage_of_proof proof) (List.append_nil _).symm).look.look proof fun t => ?_
    simp [astray_error_iff other]
  | unsubmitted reached proof submission =>
    refine .submission ?_ proof submission fun t => ?_
    · have own := stage_of_submit submission
      exact ((Composed.nil.look.submit own rfl).look.look.proof (stage_of_proof proof) rfl).look.look
    · simp [not_astray_failure]
  | straySubmission other proof submission =>
    refine .submission ?_ proof submission fun t => ?_
    · have own := stage_of_submit submission
      exact ((Composed.nil.submit own (List.append_nil _).symm).look.look.proof (stage_of_proof proof) rfl).look.look
    · simp [astray_error_iff other]
  | unverified reached proof submission check =>
    exact .check (composed_of_checks proof submission check Composed.nil.look rfl) proof submission check fun t => by
      simp [not_astray_failure]
  | strayCheck other proof submission check =>
    exact .check (composed_of_checks proof submission check .nil (List.append_nil _).symm)
      proof submission check fun t => by
      simp [astray_error_iff other]
  | untold proof submission check long =>
    exact .check (composed_of_checks proof submission check Composed.nil.look rfl) proof submission check fun t => by
      simp [not_astray_ok, long, eq_comm]
  | finished reached proof submission check fits =>
    exact .check (composed_of_checks proof submission check Composed.nil.look rfl) proof submission check fun t => by
      simp [not_astray_ok, fits]

omit [Time τ] in
/-- The record of a submission is of its commitment. -/
theorem commitment_of_submit {commitment : String} {record : Record}
    (submission : Yields (submit c commitment) es (.ok record)) : record.commitment = commitment := by
  obtain ⟨before, receipt, after, -, -, same, -⟩ := submit_ok submission
  rw [same]
  rfl

/-- What escapes a run is its trouble: every run with foreseen replies has an outcome, or something escapes it. -/
theorem error_iff_escapes {t : Trouble} (yields : Yields (run c r) es result)
    (methods : ∀ m ∈ Interface.required, c.contract.checkMethod m = .ok ()) (all : ∀ e ∈ es, Foreseen c e) :
    result = .error t ↔ Escapes c r es t := by
  have part (s : Stage) : ∀ e ∈ asked (Ask.isOf s) es, Foreseen c e := fun e mem => all e (mem_asked.1 mem).1
  cases staged_of_course (course_of_yields yields) with
  | proof composed proof same =>
    rw [same, composed.escapes_iff, escapes_proof proof (composed.proving ▸ part _)]
    simp [not_escapes_nil]
  | submission composed proof submission same =>
    rw [same, composed.escapes_iff, escapes_proof proof (composed.proving ▸ part _),
      escapes_submit submission methods (composed.submitting ▸ part _)]
    simp [not_escapes_nil, not_astray_ok]
  | @check fs gs hs artifact record x composed proof submission check same =>
    have encoded : Commitment.toBytes record.commitment = .ok (Sha256.digest artifact.data) := by
      rw [commitment_of_submit submission, Commitment.toBytes_ofBytes]
    have has : c.contract.checkMethod "verify_proof" = .ok () := methods _ (by simp [Interface.required])
    rw [same, composed.escapes_iff, escapes_proof proof (composed.proving ▸ part _),
      escapes_submit submission methods (composed.submitting ▸ part _),
      escapes_check check encoded has (composed.verifying ▸ part _)]
    simp [not_astray_ok]

omit [Time τ] in
/-- A counter that is not negative cannot advance below one. -/
theorem not_overshot (all : ∀ e ∈ es, Foreseen c e) (small : c.indexOffset ≤ 1) : ¬ Overshot c es := by
  rintro ⟨-, -, -, -, -, counted, number, -, -, advanced, below⟩
  obtain ⟨n, natural⟩ : Client.IsNumber _ := all _ counted rfl
  have same := Except.ok.inj (number.symm.trans natural)
  omega

/-- Attempts whose number has no text end with the first one, and its failure escapes the run. -/
theorem yields_run_of_untold {t₀ t₁ : τ} {f : Failure} (failed : Yields (prove c r) es (.error (.failure f)))
    (long : Decimal.fits (1 + max 0 c.retries) = false) :
    Yields (run c r) (clock t₀ :: clock t₁ :: es) (.error (.fault Decimal.unwritable)) := by
  have proof : Yields (proofAttempts c r) es (.error (.fault Decimal.unwritable)) := by
    change Yields (Attempt.retry (1 + c.retries.toNat) (prove c r)) es _
    rw [Attempt.retry_eq, attempts_eq, long, if_neg Bool.false_ne_true]
    exact Attempt.yields_outcome_bind_iff.2
      ⟨_, es, [], (List.append_nil es).symm, failed, Attempt.yields_ofExcept_iff.2 ⟨rfl, rfl⟩⟩
  rw [Yields, run_run]
  exact .cons (.cons ((yields_work_iff rfl).2 (.inr (.inl ⟨_, proof, by simp, rfl⟩))))

end Run

/-- A run in which everything that is told has a text, and in which nothing gets past an attempt at proving. -/
structure Plain [Time τ] (c : Config τ) (r : Request) (es : List (Exchange (dialogue τ))) : Prop where
  proof : ∀ e ∈ es, slip? c r e = none
  told : ∀ n, Told es n → Decimal.fits n = true
  attempts : Faltered c r es → Decimal.fits (1 + max 0 c.retries) = true

/-- From a plain run only the error of a negative position escapes. -/
theorem Plain.escapes_iff [Time τ] {c : Config τ} {r : Request} {es : List (Exchange (dialogue τ))} {t : Trouble}
    (plain : Plain c r es) : Escapes c r es t ↔ t = negativePosition ∧ Overshot c es := by
  constructor
  · intro escapes
    cases escapes with
    | proof mem slip => cases (plain.proof _ mem).symm.trans slip
    | overshot overshot => exact ⟨rfl, overshot⟩
    | told told long => cases (plain.told _ told).symm.trans long
    | retried faltered long => cases (plain.attempts faltered).symm.trans long
  · rintro ⟨rfl, overshot⟩
    exact .overshot overshot

/-- How a run ends: with an outcome that is done or failed, unless something escapes it. From a plain run something
does exactly if the counter is below the offset. -/
structure Ending [Time τ] (c : Config τ) (r : Request) (es : List (Exchange (dialogue τ)))
    (result : Except Trouble (Outcome τ)) : Prop where
  settled : ∀ o, result = .ok o → o.stage = .done ∨ o.stage = .failed
  escapes_iff : ∀ t, result = .error t ↔ Escapes c r es t
  overshot_iff : Plain c r es → ∀ t, result = .error t ↔ t = negativePosition ∧ Overshot c es
  contained : Plain c r es → c.indexOffset ≤ 1 → ∃ o, result = .ok o

/-- Every run with foreseen replies ends so, for every request, number of retries and offset. The contract has the
methods that loading asks for. -/
theorem run_ending [Time τ] {σ : Type} {c : Config τ} {r : Request} (reply : (q : Ask τ) → σ → Reply q × σ) (s : σ)
    (methods : ∀ m ∈ Interface.required, c.contract.checkMethod m = .ok ())
    (foreseen : ∀ e ∈ (run c r).run.trace reply s, Foreseen c e) :
    Ending c r ((run c r).run.trace reply s) ((run c r).run.runWith reply s).1 := by
  have path := (run c r).run.path_trace reply s
  have yields : Yields (run c r) ((run c r).run.trace reply s) ((run c r).run.runWith reply s).1 := path
  generalize (run c r).run.trace reply s = es at foreseen yields
  generalize ((run c r).run.runWith reply s).1 = result at yields
  have escapes (t : Trouble) := error_iff_escapes (t := t) yields methods foreseen
  refine ⟨?_, escapes, fun plain t => (escapes t).trans plain.escapes_iff, fun plain small => ?_⟩
  · rintro o rfl
    cases course_of_yields yields with
    | unproved | unsubmitted | unverified => exact .inr rfl
    | finished => exact .inl rfl
  · cases result with
    | ok o => exact ⟨o, rfl⟩
    | error t =>
      obtain ⟨-, overshot⟩ := plain.escapes_iff.1 ((escapes t).1 rfl)
      exact (not_overshot foreseen small overshot).elim

/-- The trouble that a result is. -/
def trouble? {α : Type} : Except Trouble α → Option Trouble
  | .ok _ => none
  | .error t => some t

theorem eq_error_of_trouble? {α : Type} {x : Except Trouble α} {t : Trouble} (h : trouble? x = some t) :
    x = .error t := by
  cases x with
  | ok v => cases h
  | error t' => exact congrArg Except.error (Option.some.inj h)

/-- A job with an offset. -/
def Job.withOffset (n : Int) : Job Int :=
  { Job.sample "A" with config := { (Job.sample "A").config with indexOffset := n } }

theorem foreseen_onceReply (n : Int) (q : Ask Int) :
    Foreseen (Job.withOffset n).config ⟨q, (onceReply false q ()).1⟩ := by
  cases q with
  | now => trivial
  | pause d => trivial
  | prover q =>
    cases q <;> first | trivial | nofun
  | chain q =>
    cases q with
    | call c block =>
      change Client.Sound (fun v => c.method = "counter" → Client.IsNumber v) (sampleReply 0 (.call c block))
      cases block with
      | int => exact fun _ => ⟨1, rfl⟩
      | _ =>
        intro counter
        rw [if_pos counter]
        exact ⟨0, rfl⟩
    | prepare c => exact ⟨trivial, fun _ => rfl⟩
    | isConnected => trivial
    | chainId | gasPrice => exact ⟨1, rfl⟩
    | pendingCount => exact ⟨0, rfl⟩
    | estimate => exact ⟨1, 1, rfl, rfl⟩
    | build => exact ⟨⟨_, rfl⟩, 0, rfl⟩
    | send => exact ⟨_, rfl⟩
    | awaitReceipt => exact ⟨⟨_, rfl, 1, rfl⟩, ⟨_, rfl, 1, rfl⟩, 0, rfl⟩
    | _ => trivial

theorem checkMethod_withOffset (n : Int) :
    ∀ m ∈ Interface.required, (Job.withOffset n).config.contract.checkMethod m = .ok () := by
  intro m hm
  simp only [Interface.required, List.mem_cons, List.not_mem_nil, or_false] at hm
  rcases hm with rfl | rfl | rfl <;> rfl

theorem foreseen_trace_withOffset (n : Int) :
    ∀ e ∈ (Job.withOffset n).activity.trace (onceReply false) (), Foreseen (Job.withOffset n).config e := by
  rintro ⟨q, x⟩ he
  obtain ⟨_, same⟩ := Activity.mem_trace he
  obtain rfl : x = (onceReply false q ()).1 := same
  exact foreseen_onceReply n q

/-- The numbers in a question of a run. -/
def Ask.numbers : Ask τ → List Int
  | .chain (.build _ terms) => [terms.gas, terms.gasPrice]
  | .chain (.rememberNonce _ n) => [n]
  | .chain (.call ⟨_, .value (.int n) :: _⟩ _) => [n]
  | _ => []

/-- Whether an exchange gives an attempt at proving no way out, and asks for numbers that have a text. -/
def isPlain (j : Job Int) (e : Exchange (dialogue Int)) : Bool :=
  (slip? j.config j.request e).isNone && e.ask.numbers.all Decimal.fits

/-- The replies of a run where everything works are small numbers, so its questions decide whether it is plain. -/
theorem plain_withOffset {n : Int} (checked : ((Job.withOffset n).activity.trace (onceReply false) ()).all
      (isPlain (Job.withOffset n)) = true) :
    Plain (Job.withOffset n).config (Job.withOffset n).request
      ((Job.withOffset n).activity.trace (onceReply false) ()) := by
  have replied {q : Ask Int} {x : Reply q} (mem : ⟨q, x⟩ ∈ (Job.withOffset n).activity.trace (onceReply false) ()) :
      x = (onceReply false q ()).1 ∧ q.numbers.all Decimal.fits = true := by
    obtain ⟨_, same⟩ := Activity.mem_trace mem
    exact ⟨same, (Bool.and_eq_true_iff.1 (List.all_eq_true.1 checked _ mem)).2⟩
  have one : Decimal.fits 1 = true := by decide +kernel
  refine ⟨fun e mem => ?_, fun k told => ?_, fun _ => one⟩
  · exact Option.isNone_iff_eq_none.1 (Bool.and_eq_true_iff.1 (List.all_eq_true.1 checked e mem)).1
  cases told with
  | price estimated number built told =>
    obtain rfl := Except.ok.inj (replied estimated).1
    obtain rfl := Except.ok.inj number
    have small := List.all_eq_true.1 (replied built).2
    rcases List.mem_cons.1 told with rfl | told
    · exact one
    · exact small k told
  | nonce remembered => exact List.all_eq_true.1 (replied remembered).2 k List.mem_cons_self
  | block confirmed status mined =>
    cases (replied confirmed).1
    obtain rfl := Except.ok.inj mined
    exact one
  | counter counted number recounted number' stuck told =>
    obtain rfl := Except.ok.inj (replied counted).1
    obtain rfl := Except.ok.inj (replied recounted).1
    cases number
    cases number'
    exact absurd stuck (by decide)
  | position answered => exact List.all_eq_true.1 (replied answered).2 k List.mem_cons_self

/-- With the same replies, one run escapes with an offset of two, and with an offset of one it is done. -/
theorem run_ending_offset :
    ((Job.withOffset 2).activity.runWith (onceReply false) ()).1 = .error negativePosition ∧
      Overshot (Job.withOffset 2).config ((Job.withOffset 2).activity.trace (onceReply false) ()) ∧
      ∃ o, ((Job.withOffset 1).activity.runWith (onceReply false) ()).1 = .ok o ∧ o.stage = .done := by
  have plain (n : Int) (offset : n = 1 ∨ n = 2) : ((Job.withOffset n).activity.trace (onceReply false) ()).all
      (isPlain (Job.withOffset n)) = true := by
    rcases offset with rfl | rfl <;> decide +kernel
  have ends : ((Job.withOffset 2).activity.runWith (onceReply false) ()).1.isOk = false ∧
      ((Job.withOffset 1).activity.runWith (onceReply false) ()).1.toOption.all (fun o => o.stage = .done) = true := by
    decide +kernel
  have escaped := run_ending (onceReply false) () (checkMethod_withOffset 2) (foreseen_trace_withOffset 2)
  have contained := run_ending (onceReply false) () (checkMethod_withOffset 1) (foreseen_trace_withOffset 1)
  change Ending _ _ _ ((Job.withOffset 2).activity.runWith (onceReply false) ()).1 at escaped
  change Ending _ _ _ ((Job.withOffset 1).activity.runWith (onceReply false) ()).1 at contained
  obtain ⟨t, error⟩ : ∃ t, ((Job.withOffset 2).activity.runWith (onceReply false) ()).1 = .error t := by
    cases h : ((Job.withOffset 2).activity.runWith (onceReply false) ()).1 with
    | ok o => cases (congrArg Except.isOk h).symm.trans ends.1
    | error t => exact ⟨t, rfl⟩
  obtain ⟨rfl, overshot⟩ := (escaped.overshot_iff (plain_withOffset (plain 2 (.inr rfl))) t).1 error
  obtain ⟨o, ended⟩ := contained.contained (plain_withOffset (plain 1 (.inl rfl))) (Int.le_refl 1)
  have done := ends.2
  rw [ended] at done
  exact ⟨error, overshot, o, ended, of_decide_eq_true done⟩

/-- A job with so many retries that the number of its attempts has no text. -/
def Job.restless : Job Int :=
  { Job.sample "A" with config := { (Job.sample "A").config with retries := (Decimal.leastLong : Int) - 1 } }

theorem restless_attempts : Decimal.fits (1 + max 0 Job.restless.config.retries) = false := by
  have positive : (0 : Int).natAbs < Decimal.leastLong := (Decimal.fits_iff 0).1 (by decide +kernel)
  have count : 1 + max 0 Job.restless.config.retries = (Decimal.leastLong : Int) := by
    change 1 + max 0 ((Decimal.leastLong : Int) - 1) = _
    omega
  rw [count]
  exact Decimal.not_fits_leastLong

def denied : Fault := ⟨.system, "denied"⟩

/-- An attempt at proving fails if its directory is refused. -/
theorem yields_prove_refused [Time τ] (c : Config τ) (r : Request) :
    Yields (prove c r) [⟨.prover (.openWorkspace c.prover.root (Workspace.stem r.id)), .error denied⟩]
      (.error (.failure ⟨.process (-1), "Could not create prover workspace", denied.text, none, 502⟩)) :=
  Activity.path_ask_done_iff.2 ⟨.error denied, [], rfl, .nil _⟩

/-- No file may be looked for. -/
def deniedReply (q : Ask Int) (s : Unit) : Reply q × Unit :=
  match q with
  | .prover (.isFile _) => (.error denied, s)
  | q => onceReply false q s

theorem foreseen_deniedReply (n : Int) (q : Ask Int) :
    Foreseen (Job.withOffset n).config ⟨q, (deniedReply q ()).1⟩ := by
  cases q with
  | prover q =>
    cases q with
    | isFile file =>
      rintro f ⟨⟩
      rfl
    | _ => exact foreseen_onceReply n _
  | _ => exact foreseen_onceReply n _

/-- Foreseen replies do not give every run an outcome, even where no position is negative. A directory that is refused
leaves none if the number of attempts has no text, and nor does a proof that may not be looked for. -/
theorem run_without_outcome :
    (∃ es, (∀ e ∈ es, Foreseen Job.restless.config e) ∧ ¬ Overshot Job.restless.config es ∧
      Yields (run Job.restless.config Job.restless.request) es (.error (.fault Decimal.unwritable))) ∧
    ∃ es, (∀ e ∈ es, Foreseen (Job.withOffset 1).config e) ∧ ¬ Overshot (Job.withOffset 1).config es ∧
      Yields (run (Job.withOffset 1).config (Job.withOffset 1).request) es (.error (.fault denied)) := by
  constructor
  · have failed := yields_prove_refused Job.restless.config Job.restless.request
    have foreseen : ∀ e ∈ [clock 0, clock 0, ⟨.prover (.openWorkspace none (Workspace.stem "A")), .error denied⟩],
        Foreseen Job.restless.config e := by
      simp only [List.forall_mem_cons]
      refine ⟨trivial, trivial, ?_, by simp⟩
      rintro f ⟨⟩
      rfl
    exact ⟨_, foreseen, not_overshot foreseen (by decide), yields_run_of_untold failed restless_attempts⟩
  · have ended : trouble? ((Job.withOffset 1).activity.runWith deniedReply ()).1 = some (.fault denied) := by
      decide +kernel
    have path := (Job.withOffset 1).activity.path_trace deniedReply ()
    rw [eq_error_of_trouble? ended] at path
    have foreseen : ∀ e ∈ (Job.withOffset 1).activity.trace deniedReply (), Foreseen (Job.withOffset 1).config e := by
      rintro ⟨q, x⟩ mem
      obtain ⟨_, same⟩ := Activity.mem_trace mem
      obtain rfl : x = (deniedReply q ()).1 := same
      exact foreseen_deniedReply 1 q
    exact ⟨_, foreseen, not_overshot foreseen (by decide), path⟩

end ProofRelay.Relay
