import ProofRelay.Simulation.World

/-!
Scenarios: activities that ask what the relay asks, and may also change the world around it between two of
their questions.
-/

namespace ProofRelay.Simulation.Scenario

inductive Ask (τ : Type) where
  | relay (q : Relay.Ask τ)
  | change (f : World τ → World τ)

abbrev Reply {τ : Type} : Ask τ → Type
  | .relay q => Relay.Reply q
  | .change _ => Unit

abbrev dialogue (τ : Type) : Dialogue := ⟨Ask τ, Reply⟩

variable {τ α : Type}

def relay : (Relay.dialogue τ).Embedding (dialogue τ) := ⟨.relay, fun _ r => r⟩

def onRelay (a : Attempt (Relay.dialogue τ) α) : Attempt (dialogue τ) α := a.via relay

def onChain (a : Attempt Client.dialogue α) : Attempt (dialogue τ) α := onRelay (Relay.onChain a)

def onProver (a : Attempt (Prover.dialogue τ) α) : Attempt (dialogue τ) α := onRelay (Relay.onProver a)

def change (f : World τ → World τ) : Attempt (dialogue τ) Unit := @Attempt.query (dialogue τ) (.change f)

/-- A world for scenarios. A change waits for nothing. -/
def surroundings [Time τ] : Surroundings (dialogue τ) τ (World τ) where
  begin i now q w := match q with
    | .relay q => World.surroundings.begin i now q w
    | .change _ => (.nothing, w)
  finish i now q w := match q with
    | .relay q => World.surroundings.finish i now q w
    | .change f => ((), f w)
  hasTurn i q w := match q with
    | .relay q => World.surroundings.hasTurn i q w
    | .change _ => false

end ProofRelay.Simulation.Scenario
