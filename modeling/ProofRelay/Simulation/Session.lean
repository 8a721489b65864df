import ProofRelay.Simulation.Scenario

/-!
Sessions: one world in which activities run one after another or side by side, while its clock goes on.
-/

namespace ProofRelay.Simulation

structure Session (τ : Type) where
  now : τ
  world : World τ

/-- What an activity came to, when it ended, and its bench. -/
structure Finished (τ α : Type) where
  result : Except Trouble α
  time : τ
  bench : Bench τ

namespace Session

variable {τ α : Type}

/-- An attempt that also tells when it ended. -/
def timed (a : Attempt (Scenario.dialogue τ) α) : Activity (Scenario.dialogue τ) (Except Trouble α × τ) := do
  let result ← a.run
  let time ← @Activity.query (Scenario.dialogue τ) (.relay (.prover .now))
  return (result, time)

def finished (tasks : List (Task (Scenario.dialogue τ) τ (Except Trouble α × τ))) (benches : List (Bench τ)) :
    List (Finished τ α) :=
  (tasks.zip benches).filterMap fun (t, b) => t.rest.result?.map fun (r, time) => ⟨r, time, b⟩

/-- Runs attempts side by side, each on its own bench. -/
def runAll [Time τ] (s : Session τ) (jobs : List (Bench τ × Attempt (Scenario.dialogue τ) α)) :
    List (Finished τ α) × Session τ :=
  let world := { s.world with benches := jobs.map Prod.fst }
  let pool := Pool.run Scenario.surroundings s.now world (jobs.map fun j => timed j.2)
  (finished pool.tasks pool.state.benches, ⟨pool.now, pool.state⟩)

/-- Runs one attempt to its end. -/
def runOne [Time τ] (s : Session τ) (b : Bench τ) (a : Attempt (Scenario.dialogue τ) α) :
    Option (Finished τ α) × Session τ :=
  let (fs, s) := s.runAll [(b, a)]
  (fs.head?, s)

end Session

end ProofRelay.Simulation
