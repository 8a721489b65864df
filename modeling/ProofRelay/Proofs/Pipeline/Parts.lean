import ProofRelay.Proofs.Client.Guards
import ProofRelay.Proofs.Pipeline.RoundTrip

/-!
The questions of a run by the stage whose work asks them. The prover is asked when a request is proved, the contract
for a record when it is verified, and all else is asked of the chain when the commitment is submitted; so what a
stage's work asked can be told from all that a run asked.
-/

namespace ProofRelay.Relay

open Attempt (Yields)

variable {τ : Type}

/-- The stage whose work asks a question. -/
def Ask.stage? : Ask τ → Option Stage
  | .prover _ => some .proving
  | .chain (.prepare call) | .chain (.call call _) =>
    some (if call.method = "verify_proof" then .verifying else .submitting)
  | .chain _ => some .submitting
  | .now | .pause _ => none

def Ask.isOf (s : Stage) (q : Ask τ) : Bool := q.stage? == some s

theorem Ask.isOf_iff {s : Stage} {q : Ask τ} : q.isOf s = true ↔ q.stage? = some s := beq_iff_eq

section Asked

variable {s s' : Stage} {es : List (Exchange (dialogue τ))}

theorem mem_asked {P : Ask τ → Bool} {e : Exchange (dialogue τ)} : e ∈ asked P es ↔ e ∈ es ∧ P e.ask = true :=
  List.mem_filter

theorem asked_of_stage (own : ∀ e ∈ es, e.ask.stage? = some s) : asked (Ask.isOf s) es = es :=
  List.filter_eq_self.2 fun e mem => Ask.isOf_iff.2 (own e mem)

theorem asked_of_other (own : ∀ e ∈ es, e.ask.stage? = some s) (other : s ≠ s') : asked (Ask.isOf s') es = [] := by
  refine asked_eq_nil fun e mem => ?_
  rw [Ask.isOf, own e mem]
  exact beq_false_of_ne fun same => other (Option.some.inj same)

end Asked

section Chain

variable {c : Config τ} {es : List (Exchange (dialogue τ))} {fs : List (Exchange Client.dialogue)}

theorem stage_of_chain {s : Stage} (each : ∀ e ∈ fs, (Ask.chain (τ := τ) e.ask).stage? = some s) :
    ∀ e ∈ fs.map (chainExchange (τ := τ)), e.ask.stage? = some s := by
  intro e mem
  obtain ⟨x, own, rfl⟩ := List.mem_map.1 mem
  exact each x own

/-- The counter is read when the commitment is submitted. -/
theorem stage_of_counter {block : Json} {x : Except Trouble Int}
    (part : Yields (Client.readCounter c.contract block) fs x) :
    ∀ e ∈ fs.map (chainExchange (τ := τ)), e.ask.stage? = some .submitting := by
  refine stage_of_chain fun e mem => ?_
  rcases Client.asks_readCounter part e mem with same | same <;> rw [same] <;> rfl

theorem stage_of_build {digest : Bytes} {x : Except Trouble Transaction}
    (part : Yields (Client.buildTransaction c.client c.contract ⟨"create_proof", [.bytes digest]⟩ c.signer.address)
      fs x) :
    ∀ e ∈ fs.map (chainExchange (τ := τ)), e.ask.stage? = some .submitting := by
  refine stage_of_chain fun e mem => ?_
  rcases Client.asks_buildTransaction part e mem with same | prices
  · rw [same]
    rfl
  · generalize e.ask = q at prices
    cases q <;> first | rfl | cases prices

theorem stage_of_sending {tx : Transaction} {x : Except Trouble Receipt}
    (part : Yields (Client.submit c.client tx c.signer) fs x) :
    ∀ e ∈ fs.map (chainExchange (τ := τ)), e.ask.stage? = some .submitting := by
  refine stage_of_chain fun e mem => ?_
  have submitting := Client.asks_submit part e mem
  generalize e.ask = q at submitting
  cases q <;> first | rfl | cases submitting

theorem stage_of_submit {commitment : String} {x : Except Trouble Record} (yields : Yields (submit c commitment) es x) :
    ∀ e ∈ es, e.ask.stage? = some .submitting := by
  rcases submit_parts yields with ⟨t, -, halted⟩ | ⟨before, receipt, after, written, -⟩
  · cases halted with
    | first part => exact stage_of_counter part
    | encode first _ => exact stage_of_counter first
    | build first _ part =>
      rw [List.map_append, List.forall_mem_append]
      exact ⟨stage_of_counter first, stage_of_build part⟩
    | submit first _ built part =>
      simp only [List.map_append, List.forall_mem_append]
      exact ⟨stage_of_counter first, stage_of_build built, stage_of_sending part⟩
    | second first _ built submitted part =>
      simp only [List.map_append, List.forall_mem_append]
      exact ⟨stage_of_counter first, stage_of_build built, stage_of_sending submitted, stage_of_counter part⟩
  · cases written with
    | intro first _ built submitted second =>
      simp only [List.map_append, List.forall_mem_append]
      exact ⟨stage_of_counter first, stage_of_build built, stage_of_sending submitted, stage_of_counter second⟩

/-- A check of a record asks for the encoding of its call, and for the call. -/
theorem stage_of_verify {record : Record} {x : Except Trouble Bool} (yields : Yields (verify c record) es x) :
    ∀ e ∈ es, e.ask.stage? = some .verifying := by
  cases encoded : Commitment.toBytes record.commitment with
  | error f =>
    rw [verify, encoded] at yields
    obtain ⟨rfl, -⟩ := Activity.path_done_iff.1 yields
    exact List.forall_mem_nil _
  | ok digest =>
    obtain ⟨fs, x, rfl, -, called⟩ := yields_verify_cases encoded yields
    refine stage_of_chain fun e mem => ?_
    rcases Client.asks_call called e mem with same | same <;> rw [same] <;> rfl

theorem stage_of_checks {record : Record} {x : Except Trouble Bool} (yields : Yields (checkAttempts c record) es x) :
    ∀ e ∈ es, e.ask.stage? = some .verifying := by
  intro e mem
  obtain ⟨fs, y, part, mem⟩ := Attempt.exists_yields_of_mem_retry yields mem
  exact stage_of_verify part e mem

end Chain

theorem stage_of_proof [Time τ] {c : Config τ} {r : Request} {es : List (Exchange (dialogue τ))}
    {x : Except Trouble Prover.Artifact} (yields : Yields (proofAttempts c r) es x) :
    ∀ e ∈ es, e.ask.stage? = some .proving := by
  intro e mem
  obtain ⟨fs, y, part, mem⟩ := Attempt.exists_yields_of_mem_retry yields mem
  obtain ⟨gs, rfl, -⟩ := (Attempt.yields_via_iff prover_lifts).1 part
  obtain ⟨e, -, rfl⟩ := List.mem_map.1 mem
  rfl

end ProofRelay.Relay
