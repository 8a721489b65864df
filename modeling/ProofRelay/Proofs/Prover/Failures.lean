import ProofRelay.Prover.Invocation
import ProofRelay.Proofs.Activity.Path

/-!
How proving may fail. Every failure of an invocation is one of the prover's kinds: a process that failed
or was never started, an artifact that is missing, or time that ran out.
-/

namespace ProofRelay

/-- The kinds of failures that proving ends with. -/
def Failure.Kind.isProver : Failure.Kind → Bool
  | .process _ | .artifact | .proverTimeout => true
  | _ => false

namespace Prover

open Attempt (Fails)

variable {τ α : Type}

/-- A failure of one of the prover's kinds. -/
def IsProverFailure (f : Failure) : Prop := f.kind.isProver = true

/-- A failure of one of the prover's kinds, with the status of its kind. -/
def IsOwnFailure (f : Failure) : Prop := IsProverFailure f ∧ f.IsRegular

theorem fails_ask {P : Failure → Prop} (q : Ask τ) : Fails P (ask q) :=
  Attempt.fails_query (D := dialogue τ) q

theorem fails_within {root : Option Path} {keep : Bool} {requestId : Text}
    {work : Workspace → Attempt (dialogue τ) α} (fails : ∀ w, Fails IsOwnFailure (work w)) :
    Fails IsOwnFailure (Workspace.within root keep requestId work) := by
  refine Attempt.Fails.bind ?_ fun w => (fails w).outcome_bind fun result caught => ?_
  · refine (fails_ask _).bind fun r => ?_
    cases r with
    | ok dir => exact Attempt.fails_pure _
    | error f => exact Attempt.fails_ite f ⟨rfl, rfl⟩
  · refine Attempt.Fails.bind ?_ fun _ => Attempt.fails_ofExcept caught
    rw [Workspace.close]
    split
    · exact Attempt.fails_pure _
    · exact fails_ask _

/-- A fault is no failure. -/
theorem fails_faults {P : Failure → Prop} (x : Except Fault α) :
    Fails P (Attempt.ofExcept (D := dialogue τ) (x.mapError .fault)) := by
  refine Attempt.fails_ofExcept fun f h => ?_
  cases x <;> cases h

theorem fails_writeInput (w : Workspace) (levels : Nat) (d : Json) :
    Fails IsOwnFailure (w.writeInput (τ := τ) levels d) := by
  refine (fails_faults (d.write levels)).bind fun text => (fails_ask _).bind fun r => ?_
  cases r with
  | ok _ => exact Attempt.fails_pure _
  | error f => exact Attempt.fails_ite f ⟨rfl, rfl⟩

theorem fails_readFile (file : Path) : Fails IsOwnFailure (readFile (τ := τ) file) := by
  refine (fails_ask _).bind fun r => ?_
  cases r with
  | ok _ => exact Attempt.fails_pure _
  | error f => exact Attempt.fails_ite f ⟨rfl, rfl⟩

theorem fails_readKey (w : Workspace) : Fails IsOwnFailure (readKey (τ := τ) w) := by
  refine (fails_ask _).bind fun (hasKey : Except Fault Bool) => ?_
  rcases hasKey with f | _ | _
  · exact Attempt.fails_ite f ⟨rfl, rfl⟩
  · exact Attempt.fails_pure _
  · exact (fails_readFile _).bind fun key => Attempt.fails_pure _

theorem fails_collect (w : Workspace) : Fails IsOwnFailure (collect (τ := τ) w) := by
  refine (fails_ask _).bind fun (written : Except Fault Bool) => ?_
  rcases written with f | _ | _
  · exact fails_faults (.error f)
  · exact Attempt.fails_fail ⟨rfl, rfl⟩
  · exact (fails_readFile _).bind fun data => (fails_readKey w).bind fun _ => Attempt.fails_pure _

variable [Time τ]

theorem fails_runStep (c : Config τ) (s : Step) (args : List String) (dir : Path) (deadline : τ) :
    Fails IsOwnFailure (runStep c s args dir deadline) := by
  refine (fails_ask _).bind fun now => ?_
  dsimp only
  split
  · exact Attempt.fails_fail ⟨rfl, rfl⟩
  · refine (fails_ask _).bind fun started => ?_
    cases started with
    | error f => exact Attempt.fails_ite f ⟨rfl, rfl⟩
    | ok process =>
      refine (fails_ask _).bind fun ended => ?_
      cases ended with
      | none => exact (fails_ask _).bind fun _ => Attempt.fails_fail ⟨rfl, rfl⟩
      | some e =>
        dsimp only
        split
        · exact Attempt.fails_pure _
        · exact Attempt.fails_fail ⟨rfl, rfl⟩

theorem fails_runTemplate (c : Config τ) (input model : String) (w : Workspace) (deadline : τ) (s : Step) :
    Fails IsOwnFailure (runTemplate c input model w deadline s) :=
  (fails_faults _).bind fun args => fails_runStep c s args w.root deadline

theorem fails_generate (c : Config τ) (input : Path) (model : String) (w : Workspace) :
    Fails IsOwnFailure (generate c input model w) := by
  refine (fails_ask _).bind fun now => Attempt.Fails.bind ?_ fun _ => fails_collect w
  exact (fails_runTemplate c _ model w _ .setup).bind fun _ =>
    (fails_runTemplate c _ model w _ .prove).bind fun _ => Attempt.fails_pure _

/-- Proving fails in the prover's own kinds only. -/
theorem fails_proveDocument (c : Config τ) (requestId : Text) (d : Json) (model : String) :
    Fails IsOwnFailure (proveDocument c requestId d model) :=
  fails_within fun w => (fails_writeInput w c.levels d).bind fun input => fails_generate c input model w

end Prover

end ProofRelay
