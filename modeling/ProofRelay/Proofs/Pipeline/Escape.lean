import ProofRelay.Proofs.Pipeline.Told

/-!
What escapes a run. Under foreseen replies every part of a run ends with its result or with a failure, and a
failure becomes an outcome. What is left escapes: what gets past an attempt at proving, what gets past a submission, and
the numbers without a text that are told when a stage is tried again or when the run is done. Nothing else does, and
whether it does is decided by what the stages asked and were replied.
-/

namespace ProofRelay.Relay

open Attempt (Yields Unslipped Settles)

variable {τ : Type}

/-- The fault that an exchange of an attempt at proving brings about. -/
def slip? (c : Config τ) (r : Request) : Exchange (dialogue τ) → Option Fault
  | ⟨.prover q, reply⟩ => Prover.slip? c.prover r.proverInput ⟨q, reply⟩
  | _ => none

/-- An attempt of a stage that may be tried again has failed: the one at proving, or a check of the record. -/
inductive Faltered [Time τ] (c : Config τ) (r : Request) (es : List (Exchange (dialogue τ))) : Prop where
  | proof {f : Failure} (failed : Yields (prove c r) (asked (Ask.isOf .proving) es) (.error (.failure f))) :
      Faltered c r es
  | encoding {n : Int} {digest : Bytes} {f : Fault}
      (refused : ⟨.chain (.prepare ⟨"verify_proof", [.value (.int n), .bytes digest]⟩), .error f⟩ ∈ es) :
      Faltered c r es
  | check {n : Int} {digest : Bytes} {f : Fault} (refused : ⟨verifyCall n digest, .error f⟩ ∈ es) : Faltered c r es

/-- The trouble that escapes a run with some exchanges. -/
inductive Escapes [Time τ] (c : Config τ) (r : Request) (es : List (Exchange (dialogue τ))) : Trouble → Prop where
  /-- Something gets past an attempt at proving. -/
  | proof {e : Exchange (dialogue τ)} {f : Fault} (mem : e ∈ es) (slip : slip? c r e = some f) :
      Escapes c r es (.fault f)
  /-- The record would have a negative position. -/
  | overshot (overshot : Overshot c es) : Escapes c r es negativePosition
  /-- A number that is told has no text. -/
  | told {n : Int} (told : Told es n) (long : Decimal.fits n = false) : Escapes c r es (.fault Decimal.unwritable)
  /-- A stage would be tried again, and the number of its attempts has no text. -/
  | retried (faltered : Faltered c r es) (long : Decimal.fits (1 + max 0 c.retries) = false) :
      Escapes c r es (.fault Decimal.unwritable)

section Stages

variable {c : Config τ} {r : Request} {s : Stage} {es fs : List (Exchange (dialogue τ))} {t : Trouble}

theorem mem_of_asked_eq (same : asked (Ask.isOf s) es = asked (Ask.isOf s) fs) :
    ∀ e ∈ fs, e.ask.stage? = some s → e ∈ es := by
  intro e mem own
  have mem : e ∈ asked (Ask.isOf s) fs := mem_asked.2 ⟨mem, Ask.isOf_iff.2 own⟩
  rw [← same] at mem
  exact (mem_asked.1 mem).1

theorem asked_asked (s : Stage) (es : List (Exchange (dialogue τ))) :
    asked (Ask.isOf s) (asked (Ask.isOf s) es) = asked (Ask.isOf s) es :=
  asked_of_stage fun _ mem => Ask.isOf_iff.1 (mem_asked.1 mem).2

theorem Overshot.mono (overshot : Overshot c fs) (sub : ∀ e ∈ fs, e.ask.stage? = some .submitting → e ∈ es) :
    Overshot c es := by
  obtain ⟨accepted, hash, confirmed, status, mined, counted, number, recounted, number', advanced, below⟩ := overshot
  have accepted := sub _ accepted rfl
  have confirmed := sub _ confirmed rfl
  have counted := sub _ counted rfl
  have recounted := sub _ recounted rfl
  exact ⟨accepted, hash, confirmed, status, mined, counted, number, recounted, number', advanced, below⟩

/-- What is told is told in one stage. -/
theorem Told.stage {n : Int} (told : Told fs n) :
    ∃ s ∈ [Stage.proving, .submitting, .verifying], ∀ {es : List (Exchange (dialogue τ))},
      (∀ e ∈ fs, e.ask.stage? = some s → e ∈ es) → Told es n := by
  cases told with
  | price estimated number built told =>
    exact ⟨.submitting, by simp, fun sub => .price (sub _ estimated rfl) number (sub _ built rfl) told⟩
  | nonce remembered => exact ⟨.submitting, by simp, fun sub => .nonce (sub _ remembered rfl)⟩
  | block confirmed status mined => exact ⟨.submitting, by simp, fun sub => .block (sub _ confirmed rfl) status mined⟩
  | counter counted number recounted number' stuck told =>
    exact ⟨.submitting, by simp, fun sub =>
      .counter (sub _ counted rfl) number (sub _ recounted rfl) number' stuck told⟩
  | position answered => exact ⟨.verifying, by simp, fun sub => .position (sub _ answered rfl)⟩

variable [Time τ]

theorem Faltered.stage (faltered : Faltered c r fs) :
    ∃ s ∈ [Stage.proving, .submitting, .verifying], ∀ {es : List (Exchange (dialogue τ))},
      asked (Ask.isOf s) es = asked (Ask.isOf s) fs → Faltered c r es := by
  cases faltered with
  | proof failed => exact ⟨.proving, by simp, fun same => .proof (same.symm ▸ failed)⟩
  | encoding refused => exact ⟨.verifying, by simp, fun same => .encoding (mem_of_asked_eq same _ refused rfl)⟩
  | check refused => exact ⟨.verifying, by simp, fun same => .check (mem_of_asked_eq same _ refused rfl)⟩

/-- What escapes is decided by what one stage asked. -/
theorem Escapes.stage (escapes : Escapes c r fs t) :
    ∃ s ∈ [Stage.proving, .submitting, .verifying], ∀ {es : List (Exchange (dialogue τ))},
      asked (Ask.isOf s) es = asked (Ask.isOf s) fs → Escapes c r es t := by
  cases escapes with
  | @proof e f mem slip =>
    have own : e.ask.stage? = some .proving := by
      obtain ⟨q, reply⟩ := e
      cases q with
      | prover => rfl
      | chain | now | pause => cases slip
    exact ⟨.proving, by simp, fun same => .proof (mem_of_asked_eq same _ mem own) slip⟩
  | overshot overshot =>
    exact ⟨.submitting, by simp, fun same => .overshot (overshot.mono (mem_of_asked_eq same))⟩
  | told told long =>
    obtain ⟨s, mem, kept⟩ := told.stage
    exact ⟨s, mem, fun same => .told (kept (mem_of_asked_eq same)) long⟩
  | retried faltered long =>
    obtain ⟨s, mem, kept⟩ := faltered.stage
    exact ⟨s, mem, fun same => .retried (kept same) long⟩

/-- An attempt at proving asks something. -/
theorem prove_asks {x : Except Trouble Prover.Artifact} : ¬ Yields (prove c r) [] x := by
  intro yields
  obtain ⟨_, _, h, -⟩ := Activity.path_ask_done_iff.1 yields
  cases h

theorem not_escapes_nil : ¬ Escapes c r [] t := by
  intro escapes
  cases escapes with
  | proof mem => cases mem
  | overshot overshot =>
    obtain ⟨accepted⟩ := overshot
    cases accepted
  | told told =>
    obtain ⟨estimated⟩ | ⟨remembered⟩ | ⟨confirmed⟩ | ⟨counted⟩ | ⟨answered⟩ := told
    · cases estimated
    · cases remembered
    · cases confirmed
    · cases counted
    · cases answered
  | retried faltered =>
    obtain ⟨failed⟩ | ⟨refused⟩ | ⟨refused⟩ := faltered
    · exact prove_asks failed
    · cases refused
    · cases refused

/-- What the stages of a run asked. -/
structure Composed (whole es fs gs : List (Exchange (dialogue τ))) : Prop where
  proving : asked (Ask.isOf .proving) whole = es
  submitting : asked (Ask.isOf .submitting) whole = fs
  verifying : asked (Ask.isOf .verifying) whole = gs

namespace Composed

variable {whole rest gs : List (Exchange (dialogue τ))}

omit [Time τ] in
theorem nil : Composed (τ := τ) [] [] [] [] := ⟨rfl, rfl, rfl⟩

omit [Time τ] in
theorem look {t : τ} (composed : Composed whole es fs gs) : Composed (clock t :: whole) es fs gs := by
  obtain ⟨proving, submitting, verifying⟩ := composed
  refine ⟨?_, ?_, ?_⟩
  · rw [asked_clock rfl, proving]
  · rw [asked_clock rfl, submitting]
  · rw [asked_clock rfl, verifying]

omit [Time τ] in
theorem check (composed : Composed rest [] [] []) (own : ∀ e ∈ gs, e.ask.stage? = some .verifying)
    (joined : whole = gs ++ rest) : Composed whole [] [] gs := by
  obtain ⟨proving, submitting, verifying⟩ := composed
  subst joined
  refine ⟨?_, ?_, ?_⟩
  · rw [asked_append, proving, asked_of_other own (by decide), List.append_nil]
  · rw [asked_append, submitting, asked_of_other own (by decide), List.append_nil]
  · rw [asked_append, verifying, asked_of_stage own, List.append_nil]

omit [Time τ] in
theorem submit (composed : Composed rest [] [] gs) (own : ∀ e ∈ fs, e.ask.stage? = some .submitting)
    (joined : whole = fs ++ rest) : Composed whole [] fs gs := by
  obtain ⟨proving, submitting, verifying⟩ := composed
  subst joined
  refine ⟨?_, ?_, ?_⟩
  · rw [asked_append, proving, asked_of_other own (by decide), List.append_nil]
  · rw [asked_append, submitting, asked_of_stage own, List.append_nil]
  · rw [asked_append, verifying, asked_of_other own (by decide), List.nil_append]

omit [Time τ] in
theorem proof (composed : Composed rest [] fs gs) (own : ∀ e ∈ es, e.ask.stage? = some .proving)
    (joined : whole = es ++ rest) : Composed whole es fs gs := by
  obtain ⟨proving, submitting, verifying⟩ := composed
  subst joined
  refine ⟨?_, ?_, ?_⟩
  · rw [asked_append, proving, asked_of_stage own, List.append_nil]
  · rw [asked_append, submitting, asked_of_other own (by decide), List.nil_append]
  · rw [asked_append, verifying, asked_of_other own (by decide), List.nil_append]

end Composed

/-- What escapes a run escapes one of its stages. -/
theorem Composed.escapes_iff {whole gs : List (Exchange (dialogue τ))} (composed : Composed whole es fs gs) :
    Escapes c r whole t ↔ Escapes c r es t ∨ Escapes c r fs t ∨ Escapes c r gs t := by
  have part (s : Stage) (escapes : Escapes c r (asked (Ask.isOf s) whole) t) : Escapes c r whole t := by
    obtain ⟨s', -, kept⟩ := escapes.stage
    by_cases same : s = s'
    · subst same
      exact kept (asked_asked s whole).symm
    · -- Another stage asked nothing here.
      have none : asked (Ask.isOf s') (asked (Ask.isOf s) whole) = [] :=
        asked_of_other (fun _ mem => Ask.isOf_iff.1 (mem_asked.1 mem).2) same
      exact (not_escapes_nil (kept (none.symm ▸ asked_nil _))).elim
  rw [← composed.proving, ← composed.submitting, ← composed.verifying]
  constructor
  · intro escapes
    obtain ⟨s, mem, kept⟩ := escapes.stage
    have here := kept (asked_asked s whole)
    simp only [List.mem_cons, List.not_mem_nil, or_false] at mem
    rcases mem with rfl | rfl | rfl
    · exact .inl here
    · exact .inr (.inl here)
    · exact .inr (.inr here)
  · rintro (escapes | escapes | escapes)
    · exact part _ escapes
    · exact part _ escapes
    · exact part _ escapes

end Stages

/-- A negative setting counts as none. -/
theorem attempts_eq (c : Config τ) : ((1 + c.retries.toNat : Nat) : Int) = 1 + max 0 c.retries := by omega

section Proof

variable [Time τ] {c : Config τ} {r : Request} {es : List (Exchange (dialogue τ))} {t : Trouble}

theorem settles_prove {y : Except Trouble Prover.Artifact} (yields : Yields (prove c r) es y)
    (all : ∀ e ∈ es, Foreseen c e) : Settles (slip? c r) y es := by
  obtain ⟨fs, rfl, proved⟩ := (Attempt.yields_via_iff prover_lifts).1 yields
  have settles := Prover.settles_proveDocument proved fun e mem => all _ (List.mem_map_of_mem mem)
  refine ⟨fun f => (settles.slips f).trans ⟨?_, ?_⟩, settles.valid⟩
  · rintro ⟨e, mem, slip⟩
    exact ⟨proverExchange e, List.mem_map_of_mem mem, slip⟩
  · rintro ⟨e, mem, slip⟩
    obtain ⟨e', own, rfl⟩ := List.mem_map.1 mem
    exact ⟨e', own, slip⟩

/-- What escapes proving gets past an attempt, or the only attempt has failed. -/
theorem Escapes.of_proving (escapes : Escapes c r es t) (own : ∀ e ∈ es, e.ask.stage? = some .proving) :
    (∃ f, t = .fault f ∧ Attempt.Slipped (slip? c r) es f) ∨
      (t = .fault Decimal.unwritable ∧ Decimal.fits (1 + max 0 c.retries) = false ∧
        ∃ f, Yields (prove c r) es (.error (.failure f))) := by
  cases escapes with
  | proof mem slip => exact .inl ⟨_, rfl, _, mem, slip⟩
  | overshot overshot =>
    obtain ⟨accepted⟩ := overshot
    cases own _ accepted
  | told told =>
    obtain ⟨estimated⟩ | ⟨remembered⟩ | ⟨confirmed⟩ | ⟨counted⟩ | ⟨answered⟩ := told
    · cases own _ estimated
    · cases own _ remembered
    · cases own _ confirmed
    · cases own _ counted
    · cases own _ answered
  | retried faltered long =>
    obtain ⟨failed⟩ | ⟨refused⟩ | ⟨refused⟩ := faltered
    · rw [asked_of_stage own] at failed
      exact .inr ⟨rfl, long, _, failed⟩
    · cases own _ refused
    · cases own _ refused

/-- Attempts that failed brought no fault about, so the last one settles for all of them. -/
theorem settles_attempts {failed : List (List (Exchange (dialogue τ)))} {last : List (Exchange (dialogue τ))}
    {y : Except Trouble Prover.Artifact} (fails : ∀ fs ∈ failed, ∃ f, Yields (prove c r) fs (.error (.failure f)))
    (ended : Yields (prove c r) last y) (all : ∀ e ∈ failed.flatten ++ last, Foreseen c e) :
    Settles (slip? c r) y (failed.flatten ++ last) := by
  obtain ⟨front, back⟩ := List.forall_mem_append.1 all
  refine Unslipped.append_settles (fun e mem => ?_) (settles_prove ended back)
  obtain ⟨fs, mem, here⟩ := List.mem_flatten.1 mem
  obtain ⟨f, part⟩ := fails fs mem
  exact (settles_prove part fun e he => front e (List.mem_flatten.2 ⟨fs, mem, he⟩)).unslipped_of_failure e here

theorem escapes_of_settles {y : Except Trouble Prover.Artifact} (settles : Settles (slip? c r) y es)
    (astray : Astray y t) : Escapes c r es t := by
  obtain ⟨rfl, other⟩ := astray
  rcases t with f | f | problems
  · exact (other f rfl).elim
  · obtain ⟨e, mem, slip⟩ := (settles.slips f).1 rfl
    exact .proof mem slip
  · exact (settles.valid problems rfl).elim

/-- What escapes proving is what its attempts come to, if that is no failure. -/
theorem escapes_proof {x : Except Trouble Prover.Artifact} (proof : Yields (proofAttempts c r) es x)
    (all : ∀ e ∈ es, Foreseen c e) : Escapes c r es t ↔ Astray x t := by
  have own := stage_of_proof proof
  have proof : Yields (Attempt.retry (1 + c.retries.toNat) (prove c r)) es x := proof
  obtain ⟨failed, last, y, rfl, -, fails, ended, concludes⟩ := Attempt.yields_retry_until proof
  have settles := settles_attempts fails ended all
  rw [Attempt.Concludes, attempts_eq] at concludes
  rcases concludes with ⟨short, rfl, -⟩ | ⟨long, none, rfl⟩
  · refine ⟨fun escapes => ?_, escapes_of_settles settles⟩
    rcases escapes.of_proving own with ⟨f, rfl, slipped⟩ | ⟨-, long, -⟩
    · exact ⟨(settles.slips f).2 slipped, by simp⟩
    · cases short.symm.trans long
  · obtain rfl := List.length_eq_zero_iff.1 none
    constructor
    · intro escapes
      rcases escapes.of_proving own with ⟨f, rfl, slipped⟩ | ⟨rfl, -, f, only⟩
      · exact ⟨congrArg Attempt.curtailed ((settles.slips f).2 slipped), by simp⟩
      · obtain ⟨-, rfl⟩ := Activity.Path.unique ended only (rfl : last ++ [] = last ++ [])
        exact ⟨rfl, by simp⟩
    · intro astray
      rcases Attempt.curtailed_cases y with ⟨-, same⟩ | ⟨⟨f, rfl⟩, lost⟩
      · exact escapes_of_settles settles (same ▸ astray)
      · obtain rfl := (astray_error_iff (by simp)).1 (lost ▸ astray)
        refine .retried (.proof (f := f) ?_) long
        rw [asked_of_stage own]
        exact ended

end Proof

section Submission

variable [Time τ] {c : Config τ} {r : Request} {es : List (Exchange (dialogue τ))} {t : Trouble}

theorem Escapes.of_submitting (escapes : Escapes c r es t) (own : ∀ e ∈ es, e.ask.stage? = some .submitting) :
    (t = negativePosition ∧ Overshot c es) ∨
      (t = .fault Decimal.unwritable ∧ ∃ n, Told es n ∧ Decimal.fits n = false) := by
  cases escapes with
  | @proof e f mem slip =>
    obtain ⟨q, reply⟩ := e
    cases q with
    | prover => cases own _ mem
    | chain | now | pause => cases slip
  | overshot overshot => exact .inl ⟨rfl, overshot⟩
  | told told long => exact .inr ⟨rfl, _, told, long⟩
  | retried faltered =>
    obtain ⟨failed⟩ | ⟨refused⟩ | ⟨refused⟩ := faltered
    · rw [asked_of_other own (by decide)] at failed
      exact (prove_asks failed).elim
    · cases own _ refused
    · cases own _ refused

/-- What escapes a submission is what it comes to, if that is no failure. -/
theorem escapes_submit {data : Bytes} {x : Except Trouble Record}
    (submission : Yields (submit c (Commitment.ofBytes data)) es x)
    (methods : ∀ m ∈ Interface.required, c.contract.checkMethod m = .ok ()) (all : ∀ e ∈ es, Foreseen c e) :
    Escapes c r es t ↔ Astray x t := by
  constructor
  · intro escapes
    rcases escapes.of_submitting (stage_of_submit submission) with ⟨rfl, overshot⟩ | ⟨rfl, n, told, long⟩
    · exact ⟨submit_of_overshot submission overshot, by simp [negativePosition]⟩
    · exact ⟨submit_of_told submission all methods told long, by simp⟩
  · intro astray
    rcases told_of_submit submission all methods astray with ⟨rfl, overshot⟩ | ⟨rfl, n, told, long⟩
    · exact .overshot overshot
    · exact .told told long

end Submission

section Check

variable {c : Config τ} {r : Request} {es : List (Exchange (dialogue τ))} {t : Trouble}

/-- How a check of a record goes. -/
inductive Checked (n : Int) (digest : Bytes) : List (Exchange (dialogue τ)) → Except Trouble Bool → Prop where
  | encoding {f : Fault} {g : Failure} :
      Checked n digest [⟨.chain (.prepare ⟨"verify_proof", [.value (.int n), .bytes digest]⟩), .error f⟩]
        (.error (.failure g))
  | refused {f : Fault} {g : Failure} :
      Checked n digest [⟨.chain (.prepare ⟨"verify_proof", [.value (.int n), .bytes digest]⟩), .ok ()⟩,
        ⟨verifyCall n digest, .error f⟩] (.error (.failure g))
  | answered {answer : Json} :
      Checked n digest [⟨.chain (.prepare ⟨"verify_proof", [.value (.int n), .bytes digest]⟩), .ok ()⟩,
        ⟨verifyCall n digest, .ok answer⟩] (.ok answer.isTruthy)

/-- Under foreseen replies a check ends with the contract's answer or with a failure. -/
theorem checked_of_verify {record : Record} {digest : Bytes} {x : Except Trouble Bool}
    (yields : Yields (verify c record) es x) (encoded : Commitment.toBytes record.commitment = .ok digest)
    (has : c.contract.checkMethod "verify_proof" = .ok ()) (all : ∀ e ∈ es, Foreseen c e) :
    Checked record.index digest es x := by
  obtain ⟨fs, y, rfl, rfl, called⟩ := yields_verify_cases encoded yields
  have foreseen := foreseen_chain all
  rcases Client.yields_call_reply called with ⟨f, prepared, rfl⟩ | ⟨reply, rfl, -, rfl⟩
  · obtain ⟨p, same, ⟨rfl, -⟩ | rfl⟩ := Client.yields_prepare_cases prepared
    · -- The handle has the method, so its encoding is asked for.
      rw [Client.prepare, has] at prepared
      obtain ⟨_, h, -⟩ := Attempt.yields_query_iff.1 prepared
      cases h
    · cases same
      have sound : f.kind.isNode = true := (List.forall_mem_singleton.1 foreseen).1
      obtain ⟨g, failure⟩ := Client.callTrouble_sound "verify_proof" sound
      rw [failure]
      exact .encoding
  · have sound := (List.forall_mem_cons.1 (List.forall_mem_cons.1 foreseen).2).1
    cases reply with
    | error f =>
      obtain ⟨g, failure⟩ := Client.callTrouble_sound "verify_proof" sound
      have ended : (Except.mapError (Client.callTrouble "verify_proof") (.error f)).map Json.isTruthy =
          .error (.failure g) := congrArg Except.error failure
      rw [ended]
      exact .refused
    | ok answer => exact .answered

section Attempts

variable {n : Int} {digest : Bytes} {x : Except Trouble Bool}

/-- The contract's answer to a check is what the check comes to. -/
theorem Checked.of_answer (checked : Checked n digest es x) {m : Int} {digest' : Bytes} {answer : Json}
    (mem : ⟨verifyCall m digest', .ok answer⟩ ∈ es) : m = n ∧ x = .ok answer.isTruthy := by
  cases checked with
  | encoding => simp [verifyCall] at mem
  | refused => simp [verifyCall] at mem
  | answered =>
    obtain ⟨⟨rfl, rfl⟩, rfl⟩ : (m = n ∧ digest' = digest) ∧ answer = _ := by simpa [verifyCall] using mem
    exact ⟨rfl, rfl⟩

theorem Checked.of_refusal [Time τ] (checked : Checked n digest es x) (faltered : Faltered c r es) :
    ∃ f, x = .error (.failure f) := by
  cases checked with
  | encoding | refused => exact ⟨_, rfl⟩
  | answered =>
    obtain ⟨failed⟩ | ⟨refused⟩ | ⟨refused⟩ := faltered
    · exact (prove_asks failed).elim
    · simp [verifyCall] at refused
    · simp [verifyCall] at refused

/-- Checks of a record, as often as they are tried: some that failed, and the last one. -/
inductive Checks (c : Config τ) (n : Int) (digest : Bytes) :
    List (Exchange (dialogue τ)) → Except Trouble Bool → Prop where
  | intro {failed : List (List (Exchange (dialogue τ)))} {last : List (Exchange (dialogue τ))}
      {y x : Except Trouble Bool}
      (fails : ∀ fs ∈ failed, ∃ f, Checked n digest fs (.error (.failure f))) (ended : Checked n digest last y)
      (concludes : Attempt.Concludes c.retries.toNat failed.length y x) : Checks c n digest (failed.flatten ++ last) x

theorem checks_of_yields {record : Record} (check : Yields (checkAttempts c record) es x)
    (encoded : Commitment.toBytes record.commitment = .ok digest)
    (has : c.contract.checkMethod "verify_proof" = .ok ()) (all : ∀ e ∈ es, Foreseen c e) :
    Checks c record.index digest es x := by
  have check : Yields (Attempt.retry (1 + c.retries.toNat) (verify c record)) es x := check
  obtain ⟨failed, last, y, rfl, -, fails, ended, concludes⟩ := Attempt.yields_retry_until check
  obtain ⟨front, back⟩ := List.forall_mem_append.1 all
  refine .intro (fun fs mem => ?_) (checked_of_verify ended encoded has back) concludes
  obtain ⟨f, part⟩ := fails fs mem
  exact ⟨f, checked_of_verify part encoded has fun e he => front e (List.mem_flatten.2 ⟨fs, mem, he⟩)⟩

/-- An answer of the contract is for the record, and ends the checks. -/
theorem Checks.of_answer (checks : Checks c n digest es x) {m : Int} {digest' : Bytes} {answer : Json}
    (mem : ⟨verifyCall m digest', .ok answer⟩ ∈ es) : m = n ∧ ∃ v, x = .ok v := by
  obtain ⟨fails, ended, concludes⟩ := checks
  rcases List.mem_append.1 mem with mem | mem
  · obtain ⟨fs, here, mem⟩ := List.mem_flatten.1 mem
    obtain ⟨f, checked⟩ := fails fs here
    cases (checked.of_answer mem).2
  · obtain ⟨rfl, rfl⟩ := ended.of_answer mem
    rcases concludes with ⟨-, rfl, -⟩ | ⟨-, -, rfl⟩
    · exact ⟨rfl, _, rfl⟩
    · exact ⟨rfl, _, rfl⟩

variable [Time τ]

/-- A check that failed ends the checks if their number has no text. -/
theorem Checks.of_refusal (checks : Checks c n digest es x) (faltered : Faltered c r es)
    (long : Decimal.fits (1 + max 0 c.retries) = false) : x = .error (.fault Decimal.unwritable) := by
  obtain ⟨fails, ended, concludes⟩ := checks
  rw [Attempt.Concludes, attempts_eq] at concludes
  rcases concludes with ⟨short, -⟩ | ⟨-, none, rfl⟩
  · cases short.symm.trans long
  · obtain rfl := List.length_eq_zero_iff.1 none
    obtain ⟨f, rfl⟩ := ended.of_refusal faltered
    rfl

/-- What checks come to: an answer, a failure, or the fault of their number. -/
theorem Checks.cases (r : Request) (checks : Checks c n digest es x) :
    (∃ v answer, x = .ok v ∧ ⟨verifyCall n digest, .ok answer⟩ ∈ es) ∨ (∃ f, x = .error (.failure f)) ∨
      (x = .error (.fault Decimal.unwritable) ∧ Faltered c r es ∧ Decimal.fits (1 + max 0 c.retries) = false) := by
  obtain ⟨fails, ended, concludes⟩ := checks
  rw [Attempt.Concludes, attempts_eq] at concludes
  rcases concludes with ⟨-, rfl, -⟩ | ⟨long, none, rfl⟩
  · cases ended with
    | encoding | refused => exact .inr (.inl ⟨_, rfl⟩)
    | answered => exact .inl ⟨_, _, rfl, List.mem_append_right _ (List.mem_cons_of_mem _ List.mem_cons_self)⟩
  · obtain rfl := List.length_eq_zero_iff.1 none
    cases ended with
    | encoding => exact .inr (.inr ⟨rfl, .encoding List.mem_cons_self, long⟩)
    | refused => exact .inr (.inr ⟨rfl, .check (List.mem_cons_of_mem _ List.mem_cons_self), long⟩)
    | answered => exact .inl ⟨_, _, rfl, List.mem_cons_of_mem _ List.mem_cons_self⟩

theorem Escapes.of_verifying (escapes : Escapes c r es t) (own : ∀ e ∈ es, e.ask.stage? = some .verifying) :
    t = .fault Decimal.unwritable ∧
      ((∃ n digest answer, ⟨verifyCall n digest, .ok answer⟩ ∈ es ∧ Decimal.fits n = false) ∨
        (Faltered c r es ∧ Decimal.fits (1 + max 0 c.retries) = false)) := by
  cases escapes with
  | @proof e f mem slip =>
    obtain ⟨q, reply⟩ := e
    cases q with
    | prover => cases own _ mem
    | chain | now | pause => cases slip
  | overshot overshot =>
    obtain ⟨accepted⟩ := overshot
    cases own _ accepted
  | told told long =>
    obtain ⟨estimated⟩ | ⟨remembered⟩ | ⟨confirmed⟩ | ⟨counted⟩ | ⟨answered⟩ := told
    · cases own _ estimated
    · cases own _ remembered
    · cases own _ confirmed
    · cases own _ counted
    · exact ⟨rfl, .inl ⟨_, _, _, answered, long⟩⟩
  | retried faltered long => exact ⟨rfl, .inr ⟨faltered, long⟩⟩

/-- What escapes verifying is what the checks come to, if that is no failure; and once the contract has answered, a
position without a text. -/
theorem escapes_check {record : Record} (check : Yields (checkAttempts c record) es x)
    (encoded : Commitment.toBytes record.commitment = .ok digest)
    (has : c.contract.checkMethod "verify_proof" = .ok ()) (all : ∀ e ∈ es, Foreseen c e) :
    Escapes c r es t ↔
      Astray x t ∨ ((∃ v, x = .ok v) ∧ Decimal.fits record.index = false ∧ t = .fault Decimal.unwritable) := by
  have checks := checks_of_yields check encoded has all
  constructor
  · intro escapes
    obtain ⟨rfl, ⟨n, digest', answer, mem, long⟩ | ⟨faltered, long⟩⟩ := escapes.of_verifying (stage_of_checks check)
    · obtain ⟨rfl, answered⟩ := checks.of_answer mem
      exact .inr ⟨answered, long, rfl⟩
    · exact .inl ⟨checks.of_refusal faltered long, by simp⟩
  · rcases checks.cases r with ⟨v, answer, rfl, mem⟩ | ⟨f, rfl⟩ | ⟨rfl, faltered, long⟩
    · rintro (astray | ⟨-, long, rfl⟩)
      · exact (not_astray_ok _ astray).elim
      · exact .told (.position mem) long
    · rintro (astray | ⟨⟨v, h⟩, -⟩)
      · exact (not_astray_failure _ astray).elim
      · cases h
    · rintro (astray | ⟨⟨v, h⟩, -⟩)
      · obtain rfl := (astray_error_iff (by simp)).1 astray
        exact .retried faltered long
      · cases h

end Attempts

end Check

end ProofRelay.Relay
