import Mathlib.Data.List.Basic
import ProofRelay.Pipeline.Relay
import ProofRelay.Proofs.Activity.Questions

/-!
What a run of one request can come to. A run is three works in a row: proving, submitting, verifying, of which the first
and the last are tried again. Before each stage and at the end it looks at the clock. `Course` tells all its ways with
the exchanges on them, and `course_of_yields` says that there is no other.
-/

namespace ProofRelay

namespace Stage

/-- The stages of a run that succeeds. -/
def way : List Stage := [.idle, .proving, .hashing, .submitting, .verifying, .done]

/-- The stages before this one on the way. -/
def before (s : Stage) : List Stage := way.takeWhile (· ≠ s)

theorem before_next {s t : Stage} (next : s.next? = some t) : t.before = s.before ++ [s] := by
  cases s <;> cases next <;> rfl

theorem not_mem_before (s : Stage) : s ∉ s.before := by
  cases s <;> decide

theorem permit_failed {s : Stage} (going : s.isTerminal = false) : s.permit .failed = .ok () := by
  simp [permit, going]

end Stage

namespace Run

variable {τ : Type}

/-- A stage that has no time yet is put at the end. -/
theorem putTiming_of_not_mem {s : Stage} {l : List (Stage × τ)} (d : τ) (new : s ∉ l.map Prod.fst) :
    putTiming s d l = l ++ [(s, d)] := by
  induction l with
  | nil => rfl
  | cons p l ih =>
    obtain ⟨s', d'⟩ := p
    rw [List.map_cons, List.mem_cons, not_or] at new
    rw [putTiming, if_neg (Ne.symm new.1), ih new.2]
    rfl

/-- A run keeps to the way: it has been in all stages up to its own, and those before it are timed. -/
structure OnWay (r : Run τ) : Prop where
  history : r.history = r.stage.before ++ [r.stage]
  timed : r.timings.map Prod.fst = r.stage.before

/-- A run of a request keeps to the way and has come to a stage. -/
structure Reaches (r : Run τ) (requestId : Text) (s : Stage) : Prop where
  own : r.requestId = requestId
  stage : r.stage = s
  way : r.OnWay

variable [Time τ] {r : Run τ} {requestId : Text} {s target : Stage}

/-- The stages that are timed when a run on its way enters another stage. -/
theorem OnWay.timed_entered (way : r.OnWay) (now : τ) (target : Stage) :
    (r.entered now target).timings.map Prod.fst = r.stage.before ++ [r.stage] := by
  have new : r.stage ∉ r.timings.map Prod.fst := by
    rw [way.timed]
    exact r.stage.not_mem_before
  change (putTiming r.stage (r.elapsed now) r.timings).map Prod.fst = _
  rw [putTiming_of_not_mem _ new, List.map_append, way.timed]
  rfl

theorem OnWay.entered (way : r.OnWay) (next : r.stage.next? = some target) (now : τ) :
    (r.entered now target).OnWay := by
  have before := Stage.before_next next
  constructor
  · change r.history ++ [target] = target.before ++ [target]
    rw [way.history, before]
  · rw [way.timed_entered, ← before]
    rfl

omit [Time τ] in
theorem reaches_idle (requestId : Text) (now : τ) :
    Reaches { requestId := requestId, enteredAt := now } requestId .idle :=
  ⟨rfl, rfl, rfl, rfl⟩

theorem Reaches.entered (reached : r.Reaches requestId s) (target : Stage) (next : s.next? = some target) (now : τ) :
    (r.entered now target).Reaches requestId target :=
  ⟨reached.own, rfl, reached.way.entered (reached.stage.symm ▸ next) now⟩

theorem advance_of_permitted (permitted : r.stage.permit target = .ok ()) (now : τ) :
    r.advance now target = .ok (r.entered now target) := by
  rw [advance, attempt_of_permitted permitted]

end Run

namespace Relay

open Attempt (Yields AtMost)

variable {τ : Type} {α : Type}

/-- An exchange with the chain, as one of a relay. -/
def chainExchange (e : Exchange Client.dialogue) : Exchange (dialogue τ) := ⟨.chain e.ask, e.reply⟩

/-- An exchange with the prover's surroundings, as one of a relay. -/
def proverExchange (e : Exchange (Prover.dialogue τ)) : Exchange (dialogue τ) := ⟨.prover e.ask, e.reply⟩

/-- A look at the clock. -/
def clock (t : τ) : Exchange (dialogue τ) := ⟨.now, t⟩

theorem chainExchange_injective {e e' : Exchange Client.dialogue}
    (h : chainExchange (τ := τ) e = chainExchange e') : e = e' := by
  obtain ⟨q, r⟩ := e
  obtain ⟨q', r'⟩ := e'
  cases h
  rfl

theorem chain_lifts : Activity.Lifts (chain (τ := τ)) chainExchange :=
  ⟨fun _ _ => rfl, fun _ r => ⟨r, rfl, rfl⟩⟩

theorem prover_lifts : Activity.Lifts (prover (τ := τ)) proverExchange :=
  ⟨fun _ _ => rfl, fun _ r => ⟨r, rfl, rfl⟩⟩

section Submit

variable {c : Config τ} {commitment : String} {es : List (Exchange (dialogue τ))}

theorem yields_onChain_iff {a : Attempt Client.dialogue α} {r : Except Trouble α} :
    Yields (onChain a) es r ↔ ∃ fs, es = fs.map chainExchange ∧ Yields a fs r :=
  Attempt.yields_via_iff chain_lifts

/-- A commitment is written: the exchanges are those of a counter, a transaction that is built, a receipt
for it, and the counter as of the receipt's block. -/
inductive Written (c : Config τ) (commitment : String) :
    List (Exchange (dialogue τ)) → Int → Receipt → Int → Prop where
  | intro {es fs gs hs : List (Exchange Client.dialogue)} {before after : Int} {bytes : Bytes} {tx : Transaction}
      {receipt : Receipt} (first : Yields (Client.readCounter c.contract Client.latest) es (.ok before))
      (encoded : Commitment.toBytes commitment = .ok bytes)
      (built : Yields (Client.buildTransaction c.client c.contract ⟨"create_proof", [.bytes bytes]⟩
        c.signer.address) fs (.ok tx))
      (submitted : Yields (Client.submit c.client tx c.signer) gs (.ok receipt))
      (second : Yields (Client.readCounter c.contract (.int receipt.blockNumber)) hs (.ok after)) :
      Written c commitment ((es ++ (fs ++ (gs ++ hs))).map chainExchange) before receipt after

/-- A submission that ends with trouble in one of its parts, and the exchanges up to there. -/
inductive Halted (c : Config τ) (commitment : String) : List (Exchange (dialogue τ)) → Trouble → Prop where
  | first {es : List (Exchange Client.dialogue)} {t : Trouble}
      (part : Yields (Client.readCounter c.contract Client.latest) es (.error t)) :
      Halted c commitment (es.map chainExchange) t
  | encode {es : List (Exchange Client.dialogue)} {before : Int} {f : Fault}
      (first : Yields (Client.readCounter c.contract Client.latest) es (.ok before))
      (part : Commitment.toBytes commitment = .error f) : Halted c commitment (es.map chainExchange) (.fault f)
  | build {es fs : List (Exchange Client.dialogue)} {before : Int} {bytes : Bytes} {t : Trouble}
      (first : Yields (Client.readCounter c.contract Client.latest) es (.ok before))
      (encoded : Commitment.toBytes commitment = .ok bytes)
      (part : Yields (Client.buildTransaction c.client c.contract ⟨"create_proof", [.bytes bytes]⟩
        c.signer.address) fs (.error t)) : Halted c commitment ((es ++ fs).map chainExchange) t
  | submit {es fs gs : List (Exchange Client.dialogue)} {before : Int} {bytes : Bytes} {tx : Transaction} {t : Trouble}
      (first : Yields (Client.readCounter c.contract Client.latest) es (.ok before))
      (encoded : Commitment.toBytes commitment = .ok bytes)
      (built : Yields (Client.buildTransaction c.client c.contract ⟨"create_proof", [.bytes bytes]⟩
        c.signer.address) fs (.ok tx))
      (part : Yields (Client.submit c.client tx c.signer) gs (.error t)) :
      Halted c commitment ((es ++ (fs ++ gs)).map chainExchange) t
  | second {es fs gs hs : List (Exchange Client.dialogue)} {before : Int} {bytes : Bytes} {tx : Transaction}
      {receipt : Receipt} {t : Trouble}
      (first : Yields (Client.readCounter c.contract Client.latest) es (.ok before))
      (encoded : Commitment.toBytes commitment = .ok bytes)
      (built : Yields (Client.buildTransaction c.client c.contract ⟨"create_proof", [.bytes bytes]⟩
        c.signer.address) fs (.ok tx))
      (submitted : Yields (Client.submit c.client tx c.signer) gs (.ok receipt))
      (part : Yields (Client.readCounter c.contract (.int receipt.blockNumber)) hs (.error t)) :
      Halted c commitment ((es ++ (fs ++ (gs ++ hs))).map chainExchange) t

/-- Trouble of one of the parts of a submission. -/
inductive Stray (c : Config τ) : Trouble → Prop where
  | count {block : Json} {es : List (Exchange Client.dialogue)} {t : Trouble}
      (part : Yields (Client.readCounter c.contract block) es (.error t)) : Stray c t
  | encode (f : Fault) : Stray c (.fault f)
  | build {call : Client.Call} {es : List (Exchange Client.dialogue)} {t : Trouble}
      (part : Yields (Client.buildTransaction c.client c.contract call c.signer.address) es (.error t)) : Stray c t
  | submit {tx : Transaction} {es : List (Exchange Client.dialogue)} {t : Trouble}
      (part : Yields (Client.submit c.client tx c.signer) es (.error t)) : Stray c t

/-- The record of a commitment that is written. -/
def recordOf (c : Config τ) (commitment : String) (before : Int) (receipt : Receipt) (after : Int) : Record :=
  ⟨commitment, receipt.txHash, receipt.blockNumber, receipt.nonce, before, after, after - c.indexOffset⟩

theorem Halted.stray {t : Trouble} (halted : Halted c commitment es t) : Stray c t := by
  cases halted with
  | first part => exact .count part
  | encode _ _ => exact .encode _
  | build _ _ part => exact .build part
  | submit _ _ _ part => exact .submit part
  | second _ _ _ _ part => exact .count part

/-- A submission halts in one of its parts, or its commitment is written, and then the counter decides. -/
theorem submit_parts {r : Except Trouble Record} (yields : Yields (submit c commitment) es r) :
    (∃ t, r = .error t ∧ Halted c commitment es t) ∨
      ∃ before receipt after, Written c commitment es before receipt after ∧
        ((after ≤ before ∧ r = .error (stuckTrouble before after receipt.txHash)) ∨
          (before < after ∧ r = (recordOf c commitment before receipt after).checked.mapError .invalid)) := by
  rcases Attempt.yields_bind_iff.1 yields with ⟨t, part, rfl⟩ | ⟨before, _, _, rfl, first, rest₁⟩
  · obtain ⟨_, rfl, halt⟩ := yields_onChain_iff.1 part
    exact .inl ⟨t, rfl, .first halt⟩
  obtain ⟨es, rfl, hfirst⟩ := yields_onChain_iff.1 first
  rcases Attempt.yields_bind_iff.1 rest₁ with ⟨t, part, rfl⟩ | ⟨bytes, _, _, rfl, encoded, rest₂⟩
  · obtain ⟨rfl, ⟨f, refused, h⟩ | ⟨_, _, h⟩⟩ := Attempt.yields_mapError part
    · obtain rfl := Except.error.inj h
      exact .inl ⟨_, rfl, by simpa using Halted.encode hfirst refused⟩
    · cases h
  obtain ⟨rfl, hencoded⟩ := Attempt.yields_mapError_ok encoded
  rcases Attempt.yields_bind_iff.1 rest₂ with ⟨t, part, rfl⟩ | ⟨tx, _, _, rfl, built, rest₃⟩
  · obtain ⟨_, rfl, halt⟩ := yields_onChain_iff.1 part
    exact .inl ⟨t, rfl, by simpa using Halted.build hfirst hencoded halt⟩
  obtain ⟨fs, rfl, hbuilt⟩ := yields_onChain_iff.1 built
  rcases Attempt.yields_bind_iff.1 rest₃ with ⟨t, part, rfl⟩ | ⟨receipt, _, _, rfl, submitted, rest₄⟩
  · obtain ⟨_, rfl, halt⟩ := yields_onChain_iff.1 part
    exact .inl ⟨t, rfl, by simpa using Halted.submit hfirst hencoded hbuilt halt⟩
  obtain ⟨gs, rfl, hsubmitted⟩ := yields_onChain_iff.1 submitted
  rcases Attempt.yields_bind_iff.1 rest₄ with ⟨t, part, rfl⟩ | ⟨after, _, _, rfl, second, rest₅⟩
  · obtain ⟨_, rfl, halt⟩ := yields_onChain_iff.1 part
    exact .inl ⟨t, rfl, by simpa using Halted.second hfirst hencoded hbuilt hsubmitted halt⟩
  obtain ⟨hs, rfl, hsecond⟩ := yields_onChain_iff.1 second
  have written := Written.intro hfirst hencoded hbuilt hsubmitted hsecond
  refine .inr ⟨before, receipt, after, ?_⟩
  split at rest₅
  · rename_i stuck
    obtain ⟨rfl, h⟩ := Attempt.yields_ofExcept_iff.1 rest₅
    exact ⟨by simpa using written, .inl ⟨stuck, h⟩⟩
  · rename_i advanced
    obtain ⟨rfl, h⟩ := Attempt.yields_ofExcept_iff.1 rest₅
    exact ⟨by simpa using written, .inr ⟨Int.not_le.1 advanced, h⟩⟩

/-- A submission has trouble in one of its parts, or its commitment is written, and then the counter
decides. -/
theorem submit_cases {r : Except Trouble Record} (yields : Yields (submit c commitment) es r) :
    (∃ t, r = .error t ∧ Stray c t) ∨
      ∃ before receipt after, Written c commitment es before receipt after ∧
        ((after ≤ before ∧ r = .error (stuckTrouble before after receipt.txHash)) ∨
          (before < after ∧ r = (recordOf c commitment before receipt after).checked.mapError .invalid)) := by
  rcases submit_parts yields with ⟨t, h, halted⟩ | written
  · exact .inl ⟨t, h, halted.stray⟩
  · exact .inr written

/-- A submission that succeeds has its commitment written, and the counter has advanced. -/
theorem submit_ok {record : Record} (yields : Yields (submit c commitment) es (.ok record)) :
    ∃ before receipt after, Written c commitment es before receipt after ∧ before < after ∧
      record = recordOf c commitment before receipt after ∧ 0 ≤ record.index := by
  rcases submit_cases yields with ⟨_, h, -⟩ | ⟨before, receipt, after, written, ⟨-, h⟩ | ⟨advanced, h⟩⟩
  · cases h
  · cases h
  · rw [Record.checked] at h
    split at h
    · cases h
    · obtain rfl := Except.ok.inj h
      exact ⟨before, receipt, after, written, advanced, rfl, by omega⟩

end Submit

/-- What a run does from its submission on is part of what it does. -/
theorem sublist_from_submission (t₀ t₁ t₂ t₃ : τ) (es fs : List (Exchange (dialogue τ))) :
    List.Sublist fs (clock t₀ :: clock t₁ :: (es ++ clock t₂ :: clock t₃ :: fs)) :=
  .cons _ (.cons _ (.trans (.cons _ (.cons _ (.refl _))) (List.sublist_append_right es _)))

/-- The check of a record is part of what a run does after its submission. -/
theorem sublist_check (t₄ : τ) (gs hs : List (Exchange (dialogue τ))) :
    List.Sublist gs (clock t₄ :: (gs ++ hs)) :=
  .cons _ (List.sublist_append_left gs hs)

section Stages

variable [Time τ] {run : Run τ} {target : Stage} {es : List (Exchange (dialogue τ))}

theorem never_advance {P : Ask τ → Bool} (off : P .now = false) (run : Run τ) (target : Stage) :
    AtMost P 0 (advance run target) :=
  AtMost.zero_bind (Attempt.atMost_query_zero off) fun _ => Attempt.atMost_ofExcept 0 _

/-- A move that is permitted looks at the clock, and goes on. -/
theorem run_advance_bind (permitted : run.stage.permit target = .ok ()) (next : Run τ → Attempt (dialogue τ) α) :
    (advance run target >>= next).run = .ask .now fun t => (next (run.entered t target)).run := by
  have looks : (advance run target >>= next).run = .ask .now fun t =>
      (Attempt.ofExcept ((run.advance t target).mapError .fault) >>= next : Attempt (dialogue τ) α).run := rfl
  rw [looks]
  refine congrArg (Activity.ask (D := dialogue τ) Ask.now) (funext fun t => ?_)
  rw [Run.advance_of_permitted permitted]
  rfl

theorem yields_advance_bind {r : Except Trouble α} (permitted : run.stage.permit target = .ok ())
    {next : Run τ → Attempt (dialogue τ) α} :
    Yields (advance run target >>= next) es r ↔
      ∃ t fs, es = clock t :: fs ∧ Yields (next (run.entered t target)) fs r := by
  rw [Yields, run_advance_bind permitted, Activity.path_ask_done_iff]
  rfl

/-- The outcome of a run that fails in its stage at some time. -/
def Progress.failedOutcome (p : Progress τ) (f : Failure) (t : τ) : Outcome τ :=
  { requestId := p.run.requestId, stage := .failed, history := p.run.history ++ [.failed],
    timings := (p.run.entered t .failed).timings, commitment := p.commitment, submission := p.submission,
    failedStage := some p.run.stage, error := some (f.inStage p.run.stage.name) }

theorem yields_failed {p : Progress τ} (going : p.run.stage.isTerminal = false) {f : Failure}
    {r : Except Trouble (Outcome τ)} :
    Yields (p.failed f) es r ↔ ∃ t, es = [clock t] ∧ r = .ok (p.failedOutcome f t) := by
  rw [Progress.failed, yields_advance_bind (Stage.permit_failed going)]
  constructor
  · rintro ⟨t, fs, rfl, rest⟩
    obtain ⟨rfl, rfl⟩ := Attempt.yields_pure_iff.1 rest
    exact ⟨t, rfl, rfl⟩
  · rintro ⟨t, rfl, rfl⟩
    exact ⟨t, [], rfl, Attempt.yields_pure_iff.2 ⟨rfl, rfl⟩⟩

/-- What a stage's work comes to is a failure, trouble that escapes, or the rest. -/
theorem yields_work_iff {p : Progress τ} {work : Attempt (dialogue τ) α} {next : α → Attempt (dialogue τ) (Outcome τ)}
    {r : Except Trouble (Outcome τ)} (going : p.run.stage.isTerminal = false) :
    Yields (p.work work next) es r ↔
      (∃ f fs t, es = fs ++ [clock t] ∧ Yields work fs (.error (.failure f)) ∧ r = .ok (p.failedOutcome f t)) ∨
        (∃ t, Yields work es (.error t) ∧ (∀ f, t ≠ .failure f) ∧ r = .error t) ∨
        ∃ x fs gs, es = fs ++ gs ∧ Yields work fs (.ok x) ∧ Yields (next x) gs r := by
  rw [Progress.work, Attempt.yields_outcome_bind_iff]
  constructor
  · rintro ⟨x, fs, gs, rfl, first, second⟩
    rcases x with (f | f | e) | x
    · obtain ⟨t, rfl, h⟩ := (yields_failed going).1 second
      exact .inl ⟨f, fs, t, rfl, first, h⟩
    · obtain ⟨rfl, h⟩ := Attempt.yields_ofExcept_iff.1 second
      exact .inr (.inl ⟨.fault f, by rwa [List.append_nil], fun _ same => Trouble.noConfusion same, h⟩)
    · obtain ⟨rfl, h⟩ := Attempt.yields_ofExcept_iff.1 second
      exact .inr (.inl ⟨.invalid e, by rwa [List.append_nil], fun _ same => Trouble.noConfusion same, h⟩)
    · exact .inr (.inr ⟨x, fs, gs, rfl, first, second⟩)
  · rintro (⟨f, fs, t, rfl, first, rfl⟩ | ⟨t, first, other, rfl⟩ | ⟨x, fs, gs, rfl, first, second⟩)
    · exact ⟨_, fs, _, rfl, first, (yields_failed going).2 ⟨t, rfl, rfl⟩⟩
    · refine ⟨.error t, es, [], (List.append_nil es).symm, first, ?_⟩
      rcases t with f | f | e
      · exact (other f rfl).elim
      · exact Attempt.yields_ofExcept_iff.2 ⟨rfl, rfl⟩
      · exact Attempt.yields_ofExcept_iff.2 ⟨rfl, rfl⟩
    · exact ⟨.ok x, fs, gs, rfl, first, second⟩

/-- The outcome of a run that is done at some time. -/
def doneOutcome (run : Run τ) (commitment : String) (record : Record) (verified : Bool) (t : τ) : Outcome τ :=
  { requestId := run.requestId, stage := .done, history := run.history ++ [.done],
    timings := (run.entered t .done).timings, commitment := some commitment, submission := some record,
    verified := some verified }

/-- A run that is done tells the position of its record, if that has a text. -/
theorem yields_finish {commitment : String} {record : Record} {verified : Bool} {r : Except Trouble (Outcome τ)}
    (verifying : run.stage = .verifying) :
    Yields (finish run commitment record verified) es r ↔
      ∃ t, es = [clock t] ∧
        ((Decimal.fits record.index = true ∧ r = .ok (doneOutcome run commitment record verified t)) ∨
          (Decimal.fits record.index = false ∧ r = .error (.fault Decimal.unwritable))) := by
  have permitted : run.stage.permit .done = .ok () := by
    rw [verifying]
    rfl
  rw [finish, yields_advance_bind permitted]
  constructor
  · rintro ⟨t, fs, rfl, rest⟩
    rcases Bool.eq_false_or_eq_true (Decimal.fits record.index) with fits | long
    · rw [Attempt.log_bind_of_fits (List.forall_mem_singleton.2 fits)] at rest
      obtain ⟨rfl, rfl⟩ := Attempt.yields_pure_iff.1 rest
      exact ⟨t, rfl, .inl ⟨fits, rfl⟩⟩
    · rw [Attempt.log_bind_of_not_fits (List.mem_singleton_self _) long] at rest
      obtain ⟨rfl, rfl⟩ := Attempt.yields_ofExcept_iff.1 rest
      exact ⟨t, rfl, .inr ⟨long, rfl⟩⟩
  · rintro ⟨t, rfl, ⟨fits, rfl⟩ | ⟨long, rfl⟩⟩ <;> refine ⟨t, [], rfl, ?_⟩
    · rw [Attempt.log_bind_of_fits (List.forall_mem_singleton.2 fits)]
      exact Attempt.yields_pure_iff.2 ⟨rfl, rfl⟩
    · rw [Attempt.log_bind_of_not_fits (List.mem_singleton_self _) long]
      exact Attempt.yields_ofExcept_iff.2 ⟨rfl, rfl⟩

end Stages

variable [Time τ]

/-- Proving with its retries. -/
def proofAttempts (c : Config τ) (r : Request) : Attempt (dialogue τ) Prover.Artifact :=
  Attempt.retry (c.attemptsIn .proving) (prove c r)

omit [Time τ] in
/-- The check of a record with its retries. -/
def checkAttempts (c : Config τ) (record : Record) : Attempt (dialogue τ) Bool :=
  Attempt.retry (c.attemptsIn .verifying) (verify c record)

/-- How a run comes to its result, with the exchanges on the way. -/
inductive Course (c : Config τ) (r : Request) : List (Exchange (dialogue τ)) → Except Trouble (Outcome τ) → Prop where
  | unproved {t₀ t₁ t : τ} {run : Run τ} {es : List (Exchange (dialogue τ))} {f : Failure}
      (reached : run.Reaches r.id .proving) (proof : Yields (proofAttempts c r) es (.error (.failure f))) :
      Course c r (clock t₀ :: clock t₁ :: (es ++ [clock t])) (.ok (Progress.failedOutcome ⟨run, none, none⟩ f t))
  | strayProof {t₀ t₁ : τ} {es : List (Exchange (dialogue τ))} {t : Trouble} (other : ∀ f, t ≠ .failure f)
      (proof : Yields (proofAttempts c r) es (.error t)) : Course c r (clock t₀ :: clock t₁ :: es) (.error t)
  | unsubmitted {t₀ t₁ t₂ t₃ t : τ} {run : Run τ} {es fs : List (Exchange (dialogue τ))} {artifact : Prover.Artifact}
      {f : Failure} (reached : run.Reaches r.id .submitting) (proof : Yields (proofAttempts c r) es (.ok artifact))
      (submission : Yields (submit c (Commitment.ofBytes artifact.data)) fs (.error (.failure f))) :
      Course c r (clock t₀ :: clock t₁ :: (es ++ clock t₂ :: clock t₃ :: (fs ++ [clock t])))
        (.ok (Progress.failedOutcome ⟨run, some (Commitment.ofBytes artifact.data), none⟩ f t))
  | straySubmission {t₀ t₁ t₂ t₃ : τ} {es fs : List (Exchange (dialogue τ))} {artifact : Prover.Artifact} {t : Trouble}
      (other : ∀ f, t ≠ .failure f) (proof : Yields (proofAttempts c r) es (.ok artifact))
      (submission : Yields (submit c (Commitment.ofBytes artifact.data)) fs (.error t)) :
      Course c r (clock t₀ :: clock t₁ :: (es ++ clock t₂ :: clock t₃ :: fs)) (.error t)
  | unverified {t₀ t₁ t₂ t₃ t₄ t : τ} {run : Run τ} {es fs gs : List (Exchange (dialogue τ))}
      {artifact : Prover.Artifact} {record : Record} {f : Failure} (reached : run.Reaches r.id .verifying)
      (proof : Yields (proofAttempts c r) es (.ok artifact))
      (submission : Yields (submit c (Commitment.ofBytes artifact.data)) fs (.ok record))
      (check : Yields (checkAttempts c record) gs (.error (.failure f))) :
      Course c r (clock t₀ :: clock t₁ :: (es ++ clock t₂ :: clock t₃ :: (fs ++ clock t₄ :: (gs ++ [clock t]))))
        (.ok (Progress.failedOutcome ⟨run, some (Commitment.ofBytes artifact.data), some record⟩ f t))
  | strayCheck {t₀ t₁ t₂ t₃ t₄ : τ} {es fs gs : List (Exchange (dialogue τ))} {artifact : Prover.Artifact}
      {record : Record} {t : Trouble} (other : ∀ f, t ≠ .failure f)
      (proof : Yields (proofAttempts c r) es (.ok artifact))
      (submission : Yields (submit c (Commitment.ofBytes artifact.data)) fs (.ok record))
      (check : Yields (checkAttempts c record) gs (.error t)) :
      Course c r (clock t₀ :: clock t₁ :: (es ++ clock t₂ :: clock t₃ :: (fs ++ clock t₄ :: gs))) (.error t)
  | untold {t₀ t₁ t₂ t₃ t₄ t : τ} {es fs gs : List (Exchange (dialogue τ))} {artifact : Prover.Artifact}
      {record : Record} {verified : Bool} (proof : Yields (proofAttempts c r) es (.ok artifact))
      (submission : Yields (submit c (Commitment.ofBytes artifact.data)) fs (.ok record))
      (check : Yields (checkAttempts c record) gs (.ok verified)) (long : Decimal.fits record.index = false) :
      Course c r (clock t₀ :: clock t₁ :: (es ++ clock t₂ :: clock t₃ :: (fs ++ clock t₄ :: (gs ++ [clock t]))))
        (.error (.fault Decimal.unwritable))
  | finished {t₀ t₁ t₂ t₃ t₄ t : τ} {run : Run τ} {es fs gs : List (Exchange (dialogue τ))}
      {artifact : Prover.Artifact} {record : Record} {verified : Bool} (reached : run.Reaches r.id .verifying)
      (proof : Yields (proofAttempts c r) es (.ok artifact))
      (submission : Yields (submit c (Commitment.ofBytes artifact.data)) fs (.ok record))
      (check : Yields (checkAttempts c record) gs (.ok verified)) (fits : Decimal.fits record.index = true) :
      Course c r (clock t₀ :: clock t₁ :: (es ++ clock t₂ :: clock t₃ :: (fs ++ clock t₄ :: (gs ++ [clock t]))))
        (.ok (doneOutcome run (Commitment.ofBytes artifact.data) record verified t))

section Course

variable {c : Config τ} {r : Request} {es : List (Exchange (dialogue τ))} {result : Except Trouble (Outcome τ)}

/-- A run looks at the clock twice, and begins with proving. -/
theorem run_run (c : Config τ) (r : Request) :
    (run c r).run = .ask .now fun t₀ => .ask .now fun t₁ =>
      (Progress.work ⟨Run.entered { requestId := r.id, enteredAt := t₀ } t₁ .proving, none, none⟩ (proofAttempts c r)
        (hashing c (Run.entered { requestId := r.id, enteredAt := t₀ } t₁ .proving))).run := rfl

theorem yields_verifying {run : Run τ} {commitment : String} {record : Record}
    (reached : run.Reaches r.id .submitting) :
    Yields (verifying c run commitment record) es result ↔ ∃ t₄ gs, es = clock t₄ :: gs ∧
      Yields (Progress.work ⟨run.entered t₄ .verifying, some commitment, some record⟩ (checkAttempts c record)
        (finish (run.entered t₄ .verifying) commitment record)) gs result := by
  have permitted : run.stage.permit .verifying = .ok () := by
    rw [reached.stage]
    rfl
  rw [verifying, yields_advance_bind permitted]
  rfl

theorem yields_submitting (run : Run τ) {commitment : String} (hashed : run.stage = .hashing) :
    Yields (submitting c run commitment) es result ↔ ∃ t₃ fs, es = clock t₃ :: fs ∧
      Yields (Progress.work ⟨run.entered t₃ .submitting, some commitment, none⟩ (submit c commitment)
        (verifying c (run.entered t₃ .submitting) commitment)) fs result := by
  have permitted : run.stage.permit .submitting = .ok () := by
    rw [hashed]
    rfl
  rw [submitting, yields_advance_bind permitted]

theorem yields_hashing {run : Run τ} {artifact : Prover.Artifact} (reached : run.Reaches r.id .proving) :
    Yields (hashing c run artifact) es result ↔ ∃ t₂ t₃ fs, es = clock t₂ :: clock t₃ :: fs ∧
      Yields (Progress.work ⟨(run.entered t₂ .hashing).entered t₃ .submitting,
          some (Commitment.ofBytes artifact.data), none⟩
        (submit c (Commitment.ofBytes artifact.data))
        (verifying c ((run.entered t₂ .hashing).entered t₃ .submitting) (Commitment.ofBytes artifact.data)))
        fs result := by
  have permitted : run.stage.permit .hashing = .ok () := by
    rw [reached.stage]
    rfl
  rw [hashing, yields_advance_bind permitted]
  constructor
  · rintro ⟨t₂, fs, rfl, hashed⟩
    obtain ⟨t₃, gs, rfl, rest⟩ := (yields_submitting (run.entered t₂ .hashing) rfl).1 hashed
    exact ⟨t₂, t₃, gs, rfl, rest⟩
  · rintro ⟨t₂, t₃, gs, rfl, rest⟩
    exact ⟨t₂, _, rfl, (yields_submitting (run.entered t₂ .hashing) rfl).2 ⟨t₃, gs, rfl, rest⟩⟩

theorem course_of_yields (yields : Yields (run c r) es result) : Course c r es result := by
  rw [Yields, run_run] at yields
  obtain ⟨t₀, es₀, rfl, rest₀⟩ := Activity.path_ask_done_iff.1 yields
  obtain ⟨t₁, es₁, rfl, rest₁⟩ := Activity.path_ask_done_iff.1 rest₀
  have proving := (Run.reaches_idle r.id t₀).entered .proving rfl t₁
  rcases (yields_work_iff rfl).1 rest₁ with ⟨f, es, t, rfl, proof, rfl⟩ | ⟨t, proof, other, rfl⟩ |
    ⟨artifact, es, after, rfl, proof, rest₂⟩
  · exact .unproved proving proof
  · exact .strayProof other proof
  obtain ⟨t₂, t₃, es₃, rfl, rest₃⟩ := (yields_hashing proving).1 rest₂
  have submitting := (proving.entered .hashing rfl t₂).entered .submitting rfl t₃
  rcases (yields_work_iff rfl).1 rest₃ with ⟨f, fs, t, rfl, submission, rfl⟩ | ⟨t, submission, other, rfl⟩ |
    ⟨record, fs, after, rfl, submission, rest₄⟩
  · exact .unsubmitted submitting proof submission
  · exact .straySubmission other proof submission
  obtain ⟨t₄, es₅, rfl, rest₅⟩ := (yields_verifying submitting).1 rest₄
  have verifying := submitting.entered .verifying rfl t₄
  rcases (yields_work_iff rfl).1 rest₅ with ⟨f, gs, t, rfl, check, rfl⟩ | ⟨t, check, other, rfl⟩ |
    ⟨verified, gs, last, rfl, check, rest₆⟩
  · exact .unverified verifying proof submission check
  · exact .strayCheck other proof submission check
  obtain ⟨t, rfl, ⟨fits, rfl⟩ | ⟨long, rfl⟩⟩ := (yields_finish rfl).1 rest₆
  · exact .finished verifying proof submission check fits
  · exact .untold proof submission check long

end Course

end Relay

end ProofRelay
