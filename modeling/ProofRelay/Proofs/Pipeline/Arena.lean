import ProofRelay.Proofs.Client.Site
import ProofRelay.Proofs.Pipeline.Story

/-!
Runs side by side. They share the chain client's memory and its node; what the prover's surroundings
reply is left open, and so is the order of all steps that wait for something. Nothing but an exchange
with the chain changes the memory or the node.
-/

namespace ProofRelay.Relay

open Attempt (Yields)
open Client (Conduct Site Replier)

variable {τ ν : Type}

/-- A request, with the settings under which it is run. -/
structure Job (τ : Type) where
  config : Config τ
  request : Request

def Job.activity [Time τ] (j : Job τ) : Activity (dialogue τ) (Except Trouble (Outcome τ)) :=
  (run j.config j.request).run

/-- The chain answers as it does for its client; the prover's surroundings and the clock give any reply. -/
inductive Answers (N : Conduct ν) : Site ν → Nat → Exchange (dialogue τ) → Site ν → Prop where
  | chain {w w' : Site ν} {i : Nat} {e : Exchange Client.dialogue} (answer : Site.Answers N w i e w') :
      Answers N w i (chainExchange e) w'
  | prover {w : Site ν} {i : Nat} (e : Exchange (Prover.dialogue τ)) : Answers N w i (proverExchange e) w
  | now {w : Site ν} {i : Nat} (t : τ) : Answers N w i (clock t) w
  | pause {w : Site ν} {i : Nat} (d : τ) : Answers N w i ⟨.pause d, ()⟩ w

/-- The questions that take no waiting are those of the chain client. -/
def Ask.isPrompt : Ask τ → Bool
  | .chain q => q.isPrompt
  | _ => false

/-- The surroundings of runs that share a client and a node. -/
def arena (N : Conduct ν) : Setting (dialogue τ) (Site ν) where
  prompt := Ask.isPrompt
  Answers := Answers N
  Drifts w w' := w'.memory = w.memory ∧ N.Drifts w.node w'.node

/-- Whether a question is for the chain. -/
def Ask.isOnChain : Ask τ → Bool
  | .chain _ => true
  | _ => false

/-- Only the chain's answers change anything. -/
theorem eq_of_not_isOnChain {N : Conduct ν} {w w' : Site ν} {i : Nat} {e : Exchange (dialogue τ)}
    (answer : Answers N w i e w') (off : e.ask.isOnChain = false) : w' = w := by
  cases answer with
  | chain => cases off
  | prover | now | pause => rfl

theorem chain_answer {N : Conduct ν} {w w' : Site ν} {i : Nat} {e : Exchange Client.dialogue}
    (answer : Answers (τ := τ) N w i (chainExchange e) w') : Site.Answers N w i e w' := by
  generalize hx : chainExchange e = x at answer
  cases answer with
  | chain answer => exact chainExchange_injective hx ▸ answer
  | prover | now | pause => cases hx

section Crowd

variable [Time τ] {σ : Type} {S : Setting (dialogue τ) σ} {jobs : List (Job τ)} {w : σ} {h : History (dialogue τ)}
  {c : Crowd (dialogue τ) σ (Except Trouble (Outcome τ))} {i : Nat} {job : Job τ}

theorem path_of_run (run : Crowd.Run S ⟨jobs.map Job.activity, w⟩ h c) (hjob : jobs[i]? = some job) :
    ∃ b, c.tasks[i]? = some b ∧ Activity.Path job.activity (h.of i) b :=
  run.path (by rw [List.getElem?_map, hjob, Option.map_some])

/-- A task that is over has taken one of the ways of its job. -/
theorem course_of_run (run : Crowd.Run S ⟨jobs.map Job.activity, w⟩ h c) (hjob : jobs[i]? = some job)
    {x : Except Trouble (Outcome τ)} (ended : c.tasks[i]? = some (.done x)) :
    Course job.config job.request (h.of i) x := by
  obtain ⟨b, hb, path⟩ := path_of_run run hjob
  rw [ended, Option.some.injEq] at hb
  subst hb
  exact course_of_yields path

end Crowd

section Plays

/-- The outcome of a task that is over with one. -/
def outcome? {σ : Type} (c : Crowd (dialogue τ) σ (Except Trouble (Outcome τ))) (i : Nat) : Option (Outcome τ) :=
  (c.result? i).bind Except.toOption

theorem exists_of_outcome? {σ : Type} {c : Crowd (dialogue τ) σ (Except Trouble (Outcome τ))} {i : Nat}
    {P : Outcome τ → Prop} [DecidablePred P] (h : (outcome? c i).any (fun o => decide (P o)) = true) :
    ∃ o, c.tasks[i]? = some (.done (.ok o)) ∧ P o := by
  obtain ⟨o, ho, hP⟩ := (Option.any_eq_true _ _).1 h
  obtain ⟨r, hr, hro⟩ := Option.bind_eq_some_iff.1 ho
  cases r with
  | error => cases hro
  | ok o' =>
    obtain rfl := Option.some.inj hro
    exact ⟨o', Crowd.eq_done_of_result? hr, of_decide_eq_true hP⟩

/-- Plays of runs with a node, and with given replies of the prover's surroundings. The relay's clock stands still. -/
def oracle [Time τ] {N : Conduct ν} (R : Replier N) (proof : Nat → (q : Prover.Ask τ) → Prover.Reply q) :
    Oracle (arena (τ := τ) N) where
  answer i q w :=
    match q with
    | .chain q => R.answer i q w
    | .prover q => some (proof i q, w)
    | .now => some (Time.zero, w)
    | .pause _ => some ((), w)
  drift := R.oracle.drift
  answers := by
    intro i q w w' r h
    cases q with
    | chain q => exact .chain (e := ⟨q, r⟩) (R.answers_of_answer h)
    | prover q =>
      cases h
      exact .prover ⟨q, _⟩
    | now =>
      cases h
      exact .now _
    | pause d =>
      cases h
      exact .pause d
  drifts := R.oracle.drifts

/-- Time in whole seconds. -/
instance : Time Int where
  zero := 0
  add := (· + ·)
  sub := (· - ·)
  lt a b := a < b
  le a b := a ≤ b
  wholeSeconds := Decimal.ofInt
  rounded := id

/-- A job of a plain signer, for plays. -/
def Job.sample (account : String) : Job Int where
  config :=
    { prover := { command := [], timeout := 1 }
      client := { gasFactor := .whole 1 }
      contract := ⟨"", Handle.registry⟩
      signer := .plain account
      model := ⟨"", []⟩ }
  request := ⟨account, "", "", none⟩

/-- A prover that works, with the number of the task as the proof. -/
def sampleProof (i : Nat) (q : Prover.Ask Int) : Prover.Reply q :=
  match q with
  | .now => (0 : Int)
  | .openWorkspace _ _ => .ok ⟨"/", [Decimal.ofNat i]⟩
  | .write _ _ => .ok ()
  | .isFile _ => .ok true
  | .read _ => .ok [UInt8.ofNat i]
  | .start _ _ => .ok i
  | .wait _ _ => some ⟨0, []⟩
  | .discard _ | .kill _ => ()

/-- A node that takes everything, and has one entry more as of a block than before. -/
def sampleReply (i : Nat) (q : Client.Ask) : Client.Reply q :=
  match q with
  | .isConnected => .ok (.bool true)
  | .chainId | .gasPrice | .estimate _ _ => .ok (.int 1)
  | .prepare _ => .ok ()
  | .build _ _ => .ok (.fields [("data", .text "0x")])
  | .pendingCount _ => .ok (.int 0)
  | .send _ => .ok (.bytes [UInt8.ofNat i])
  | .awaitReceipt _ => .ok (.record [("blockNumber", .int 1), ("status", .int 1)])
  | .call _ (.int _) => .ok (.int 1)
  | .call c _ => .ok (if c.method = "counter" then .int 0 else .bool true)
  | .knownChainId | .lastNonce _ => none
  | .rememberChainId _ | .lock _ | .unlock _ | .rememberNonce _ _ | .forgetNonce _ => ()

end Plays

end ProofRelay.Relay
