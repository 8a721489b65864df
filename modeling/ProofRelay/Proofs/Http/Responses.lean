import ProofRelay.Http.Service
import ProofRelay.Proofs.Bytes.Utf8
import ProofRelay.Proofs.Pipeline.Ending

/-!
How a relay request is answered. A request that is refused reaches neither the prover nor the chain. Any
other one is run, and its outcome decides: what was written if the run is done, and else a report of the
failure, with the stage it arose in and the status of its kind.
-/

namespace ProofRelay

/-- The kinds of failures that a run ends with. -/
def Failure.Kind.isRelayed : Failure.Kind → Bool
  | .process _ | .artifact | .proverTimeout | .estimation | .submission | .receiptTimeout | .call => true
  | _ => false

/-- The kinds of failures that keep the service from starting. -/
def Failure.Kind.isStartup : Failure.Kind → Bool
  | .load | .interface | .key => true
  | _ => false

/-- A failure that a run ends with, with the status of its kind. -/
def Failure.IsRelayed (f : Failure) : Prop := f.kind.isRelayed = true ∧ f.IsRegular

namespace Relay

open Attempt (Yields)

variable {τ : Type} {c : Config τ}

theorem isRelayed_of_stray {f : Failure} (stray : Stray c (.failure f)) : f.IsRelayed := by
  cases stray with
  | count part =>
    obtain ⟨kind, regular⟩ := Client.fails_readCounter _ _ _ _ part
    exact ⟨by rw [kind]; rfl, regular⟩
  | build part =>
    obtain ⟨kind, regular⟩ := Client.fails_buildTransaction _ _ _ _ _ _ part
    exact ⟨by rw [kind]; rfl, regular⟩
  | submit part =>
    obtain ⟨-, kind | kind, regular⟩ := Client.fails_submit _ _ _ _ _ part
    · exact ⟨by rw [kind]; rfl, regular⟩
    · exact ⟨by rw [kind]; rfl, regular⟩

theorem isRelayed_of_stuck {before after : Int} {txHash : String} {f : Failure}
    (stuck : stuckTrouble before after txHash = .failure f) : f.IsRelayed := by
  rw [stuckTrouble] at stuck
  split at stuck
  · obtain rfl := Trouble.failure.inj stuck
    exact ⟨rfl, rfl⟩
  · cases stuck
  · cases stuck

theorem fails_submit (commitment : String) : Attempt.Fails Failure.IsRelayed (submit c commitment) := by
  intro es f yields
  rcases submit_cases yields with ⟨t, h, stray⟩ | ⟨before, receipt, after, -, ⟨-, h⟩ | ⟨-, h⟩⟩
  · obtain rfl := Except.error.inj h
    exact isRelayed_of_stray stray
  · exact isRelayed_of_stuck (Except.error.inj h).symm
  · cases (checked_eq_error h.symm).2

variable [Time τ] {r : Request} {es : List (Exchange (dialogue τ))} {o : Outcome τ}

end Relay

namespace Request

end Request

namespace Http

/-- The value in a response's document under names, each in the value of the one before. -/
def Response.member? (r : Response) (names : List String) : Option Json :=
  match r.body with
  | .document d => names.foldlM Json.get? d
  | _ => none

/-- A response reports a kind of failure. -/
structure Response.Reports (r : Response) (code : Int) (requestId : Json) (stage : String) (k : Failure.Kind) :
    Prop where
  status : r.status = code
  requestId : r.member? ["detail", "request_id"] = some requestId
  stage : r.member? ["detail", "stage"] = some (.text stage)
  error : r.member? ["detail", "error"] = some (.text k.label)
  reason : r.member? ["detail", "reason"] = some (.text k.reason)

/-- A response delivers an outcome with its record. -/
def Response.Delivers {τ : Type} (r : Response) (o : Outcome τ) : Prop :=
  ∃ record commitment verified, o.submission = some record ∧ o.commitment = some commitment ∧
    o.verified = some verified ∧ r.member? ["request_id"] = some (.str o.requestId) ∧
    r.member? ["commitment"] = some (.text commitment) ∧ r.member? ["tx_hash"] = some (.text record.txHash) ∧
    r.member? ["index"] = some (.int record.index) ∧ r.member? ["verified"] = some (.bool verified)

/-- A response reports the failure that an outcome ends with, in its stage. -/
def Response.Admits {τ : Type} (r : Response) (o : Outcome τ) : Prop :=
  o.stage = .failed ∧ ∃ f stage, o.error = some f ∧ o.failedStage = some stage ∧
    r.Reports (if f.kind.isTimeout then 504 else 502) (.str o.requestId) stage.name f.kind

/-- How the response to a relay request follows from the request that was read and from its run. -/
structure Response.Follows {τ : Type} (r : Response) (parsed : Except Failure ProofRelay.Request)
    (ran : ProofRelay.Request → Except Trouble (Outcome τ)) : Prop where
  ok_iff : r.status = 200 ↔ ∃ p o, parsed = .ok p ∧ ran p = .ok o ∧ o.stage = .done
  delivers : ∀ p o, parsed = .ok p → ran p = .ok o → o.stage = .done → r.Delivers o
  refused_iff : r.status = 400 ↔ ∃ f, parsed = .error f
  refused : ∀ f, parsed = .error f → r.Reports 400 .null "Idle" .request
  failed : ∀ p o, parsed = .ok p → ran p = .ok o → o.stage ≠ .done → r.Admits o
  started : ∀ k : Failure.Kind, k.isStartup = true → r.member? ["detail", "error"] ≠ some (.text k.label)

namespace Service

variable {τ : Type}

section Follows

variable {resp : Response} {p : ProofRelay.Request} {o : Outcome τ}
  {ran : ProofRelay.Request → Except Trouble (Outcome τ)}

end Follows

section Answer

variable [Time τ] {s : Service τ} {id hello setter : String} {q : Request}

/-- What is given out: a response with its mark, or a plain error with the trouble behind it. -/
def given (s : Service τ) (q : Request) : Except Trouble Response → Response × Option Trouble
  | .ok response => (Origin.mark s.origins q response, none)
  | .error t => (.text 500 "Internal Server Error", some t)

/-- A relay request as it is answered: refused, or run. -/
def answer (s : Service τ) (q : Request) :
    Except Failure ProofRelay.Request → Activity (Relay.dialogue τ) (Except Trouble (Response × Option Trouble))
  | .error f => .done (.ok (s.given q (.ok (failureResponse f none))))
  | .ok p => (Relay.run s.relay p).run >>= fun ran => .done (.ok (s.given q (ran >>= outcomeResponse p)))

end Answer

def sample : Service Int := { relay := (Relay.Job.sample "A").config }

end Service

end Http

end ProofRelay
