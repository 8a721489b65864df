import ProofRelay.Proofs.Client.Calls
import ProofRelay.Proofs.Client.Submission
import ProofRelay.Proofs.Pipeline.Arena

/-!
At most one broadcast per run. Whatever the node and the prover reply, however often stages are tried
again, and whatever other runs do meanwhile, a run hands raw bytes to the node at most once; a run that is
done did so exactly once, and a run without a proof leaves the chain alone. So a contract that writes each
transaction at most once gets at most one entry from each run, and none from a run without a proof.
-/

namespace ProofRelay.Relay

open Attempt (Yields AtMost)
open Client (Conduct Site)

variable {τ ν : Type}

/-- The question that hands raw bytes to the node. -/
def Ask.isBroadcast : Ask τ → Bool
  | .chain q => q.isSend
  | _ => false

/-- The exchanges in which raw bytes were handed to the node. -/
def broadcasts (es : List (Exchange (dialogue τ))) : List (Exchange (dialogue τ)) :=
  es.filter fun e => e.ask.isBroadcast

theorem broadcasts_append (es fs : List (Exchange (dialogue τ))) :
    broadcasts (es ++ fs) = broadcasts es ++ broadcasts fs :=
  List.filter_append _ _

theorem broadcasts_clock (t : τ) (es : List (Exchange (dialogue τ))) : broadcasts (clock t :: es) = broadcasts es := rfl

section Bounds

variable (c : Config τ)

theorem never_onProver {α : Type} {P : Ask τ → Bool} (off : ∀ q, P (.prover q) = false)
    (a : Attempt (Prover.dialogue τ) α) : AtMost P 0 (onProver a) :=
  Activity.atMost_via_zero off a.run

theorem AtMost.onChain {α : Type} {n : Nat} {a : Attempt Client.dialogue α}
    (atMost : AtMost Client.Ask.isSend n a) : AtMost (Ask.isBroadcast (τ := τ)) n (onChain a) :=
  Activity.AtMost.via atMost fun _ => rfl

theorem atMost_submit (commitment : String) : AtMost Ask.isBroadcast 1 (submit c commitment) := by
  refine (AtMost.onChain (Client.never_readCounter _ _)).zero_bind fun before => ?_
  refine (Attempt.atMost_ofExcept 0 _).zero_bind fun bytes => ?_
  refine (AtMost.onChain (Client.never_buildTransaction _ _ _ _)).zero_bind fun tx => ?_
  refine (AtMost.onChain (Client.atMost_submit _ _ _)).bind_zero fun receipt => ?_
  refine (AtMost.onChain (Client.never_readCounter _ _)).zero_bind fun after => ?_
  split <;> exact Attempt.atMost_ofExcept _ _

theorem never_verify (record : Record) : AtMost Ask.isBroadcast 0 (verify c record) := by
  refine (Attempt.atMost_ofExcept 0 _).zero_bind fun bytes => ?_
  exact (AtMost.onChain (Client.never_call _ _ _)).zero_bind fun _ => Attempt.atMost_ofExcept _ _

theorem broadcasts_eq_nil {α : Type} {es : List (Exchange (dialogue τ))} {a : Attempt (dialogue τ) α}
    {b : Activity (dialogue τ) (Except Trouble α)} (path : Activity.Path a.run es b)
    (never : AtMost Ask.isBroadcast 0 a) : broadcasts es = [] := by
  refine List.filter_eq_nil_iff.2 fun e he => ?_
  rw [Activity.AtMost.eq_false path never e he]
  exact Bool.false_ne_true

variable {c} in
/-- A commitment that is written was broadcast once, and the node took it. -/
theorem broadcasts_of_written {es : List (Exchange (dialogue τ))} {commitment : String} {before after : Int}
    {receipt : Receipt} (written : Written c commitment es before receipt after) :
    ∃ raw sent, broadcasts es = [⟨.chain (.send raw), .ok sent⟩] := by
  cases written with
  | @intro es fs gs hs before after bytes tx receipt first encoded built submitted second =>
    have none : ∀ {α : Type} {a : Attempt Client.dialogue α} {es : List (Exchange Client.dialogue)}
        {r : Except Trouble α}, AtMost Client.Ask.isSend 0 a → Yields a es r →
        broadcasts (es.map (chainExchange (τ := τ))) = [] := fun never yields =>
      broadcasts_eq_nil (yields_onChain_iff.2 ⟨_, rfl, yields⟩) (AtMost.onChain never)
    obtain ⟨count, last, nonce, raw, sent, v, rfl, -⟩ :=
      Client.yields_submit_ok (s := ⟨tx, c.signer⟩) submitted
    refine ⟨raw, sent, ?_⟩
    have hfirst := none (Client.never_readCounter _ _) first
    have hbuilt := none (Client.never_buildTransaction _ _ _ _) built
    have hsecond := none (Client.never_readCounter _ _) second
    simp only [List.map_append, broadcasts_append, hfirst, hbuilt, hsecond]
    rfl

variable [Time τ]

theorem atMost_failed {P : Ask τ → Bool} (off : P .now = false) (m : Nat) (p : Progress τ) (f : Failure) :
    AtMost P m (p.failed f) :=
  (never_advance off _ _).zero_bind fun _ => Attempt.atMost_ofExcept _ _

theorem atMost_work {α : Type} {P : Ask τ → Bool} {n m : Nat} {p : Progress τ} {work : Attempt (dialogue τ) α}
    {next : α → Attempt (dialogue τ) (Outcome τ)} (off : P .now = false) (first : AtMost P n work)
    (second : ∀ x, AtMost P m (next x)) : AtMost P (n + m) (p.work work next) := by
  refine Attempt.AtMost.bind first.outcome fun x => ?_
  rcases x with (f | f | e) | x
  · exact atMost_failed off m p f
  · exact Attempt.atMost_ofExcept _ _
  · exact Attempt.atMost_ofExcept _ _
  · exact second x

theorem never_proofAttempts {P : Ask τ → Bool} (off : ∀ q, P (.prover q) = false) (r : Request) :
    AtMost P 0 (proofAttempts c r) :=
  (never_onProver off _).retry _

/-- Submitting is not tried again, and the other stages broadcast nothing. -/
theorem atMost_run (r : Request) : AtMost Ask.isBroadcast 1 (run c r) := by
  refine (Attempt.atMost_query_zero rfl).zero_bind fun t₀ => (never_advance rfl _ _).zero_bind fun proving => ?_
  refine atMost_work (n := 0) (m := 1) rfl ((never_onProver (fun _ => rfl) _).retry _) fun artifact => ?_
  refine (never_advance rfl _ _).zero_bind fun hashing => (never_advance rfl _ _).zero_bind fun submitting => ?_
  refine atMost_work (n := 1) (m := 0) rfl (atMost_submit c _) fun record => ?_
  refine (never_advance rfl _ _).zero_bind fun verifying => ?_
  refine atMost_work (n := 0) (m := 0) rfl ((never_verify c record).retry _) fun verified => ?_
  exact (never_advance rfl _ _).zero_bind fun done =>
    (Attempt.atMost_ofExcept 0 _).zero_bind fun _ => Attempt.atMost_ofExcept _ _

end Bounds

section Stories

variable [Time τ] {c : Config τ} {r : Request} {es : List (Exchange (dialogue τ))}

/-- A proof artifact was produced in the first of the exchanges, after two looks at the clock. -/
def Produced (j : Job τ) (es : List (Exchange (dialogue τ))) : Prop :=
  ∃ t₀ t₁ fs gs artifact, es = clock t₀ :: clock t₁ :: (fs ++ gs) ∧
    Yields (proofAttempts j.config j.request) fs (.ok artifact)

theorem not_isOnChain_of_proofAttempts {b : Activity (dialogue τ) (Except Trouble Prover.Artifact)}
    (path : Activity.Path (proofAttempts c r).run es b) : ∀ e ∈ es, e.ask.isOnChain = false :=
  Activity.AtMost.eq_false path (never_proofAttempts c (fun _ => rfl) r)

/-- A run turns to the chain only when its proof is there. -/
theorem produced_of_isOnChain {j : Job τ} {b : Activity (dialogue τ) (Except Trouble (Outcome τ))}
    (path : Activity.Path j.activity es b) {e : Exchange (dialogue τ)} (he : e ∈ es)
    (onChain : e.ask.isOnChain = true) : Produced j es := by
  rw [Job.activity, run_run] at path
  rcases Activity.path_ask_iff.1 path with ⟨rfl, -⟩ | ⟨t₀, es₀, rfl, path₀⟩
  · cases he
  rcases Activity.path_ask_iff.1 path₀ with ⟨rfl, -⟩ | ⟨t₁, es₁, rfl, path₁⟩
  · obtain rfl := List.mem_singleton.1 he
    cases onChain
  have inner : e ∈ es₁ := by
    rcases List.mem_cons.1 he with rfl | he
    · cases onChain
    rcases List.mem_cons.1 he with rfl | he
    · cases onChain
    exact he
  rw [Progress.work, Attempt.run_outcome_bind] at path₁
  rcases Activity.path_bind_iff.1 path₁ with ⟨_, proof, -⟩ | ⟨x, fs, gs, rfl, proof, rest⟩
  · cases onChain.symm.trans (not_isOnChain_of_proofAttempts proof e inner)
  rcases x with f | artifact
  · -- Without a proof there is one more look at the clock at most.
    have never : ∀ e ∈ gs, e.ask.isOnChain = false := by
      rcases f with f | f | f
      · exact Activity.AtMost.eq_false rest (atMost_failed rfl 0 _ f)
      · exact Activity.AtMost.eq_false rest (Attempt.atMost_ofExcept 0 _)
      · exact Activity.AtMost.eq_false rest (Attempt.atMost_ofExcept 0 _)
    rcases List.mem_append.1 inner with inner | inner
    · cases onChain.symm.trans (not_isOnChain_of_proofAttempts proof e inner)
    · cases onChain.symm.trans (never e inner)
  · exact ⟨t₀, t₁, fs, gs, artifact, rfl, proof⟩

theorem broadcasts_of_done {o : Outcome τ} (course : Course c r es (.ok o)) (done : o.stage = .done) :
    ∃ raw sent, broadcasts es = [⟨.chain (.send raw), .ok sent⟩] := by
  cases course with
  | unproved | unsubmitted | unverified => cases done
  | @finished t₀ t₁ t₂ t₃ t₄ t run es fs gs artifact record verified reached proof submission check =>
    obtain ⟨before, receipt, after, written, -⟩ := submit_ok submission
    obtain ⟨raw, sent, h⟩ := broadcasts_of_written written
    have hproof : broadcasts es = [] := broadcasts_eq_nil proof (never_proofAttempts c (fun _ => rfl) r)
    have hcheck : broadcasts gs = [] := broadcasts_eq_nil check ((never_verify c record).retry _)
    refine ⟨raw, sent, ?_⟩
    simp only [broadcasts_clock, broadcasts_append, hproof, hcheck, h]
    rfl

theorem not_isOnChain_of_unproved {o : Outcome τ} (course : Course c r es (.ok o))
    (unproved : o.failedStage = some .proving) : ∀ e ∈ es, e.ask.isOnChain = false := by
  cases course with
  | @unproved t₀ t₁ t run es f reached proof =>
    have off := not_isOnChain_of_proofAttempts proof
    intro e mem
    rw [List.mem_cons, List.mem_cons, List.mem_append, List.mem_singleton] at mem
    rcases mem with rfl | rfl | mem | rfl
    · rfl
    · rfl
    · exact off e mem
    · rfl
  | unsubmitted reached | unverified reached =>
    rw [Progress.failedOutcome, reached.stage] at unproved
    cases unproved
  | finished => cases unproved

end Stories

/-- A contract behind a node: the runs whose transactions the node holds and has not written yet, and the
entries of the contract, each with the run whose transaction wrote it, or with none if it is another
party's. A transaction comes from a broadcast, and it is written at most once. -/
structure Registry (N : Conduct ν) where
  held : ν → List Nat
  entries : ν → List (Option Nat)
  reply : ∀ {n n' : ν} {i : Nat} {e : Exchange Client.dialogue}, N.Replies n i e n' → ∀ j,
    (held n').count j + (entries n').count (some j) ≤
      (held n).count j + (entries n).count (some j) + if e.ask.isSend ∧ i = j then 1 else 0
  drift : ∀ {n n' : ν}, N.Drifts n n' → ∀ j,
    (held n').count j + (entries n').count (some j) ≤ (held n).count j + (entries n).count (some j)

namespace Registry

variable {N : Conduct ν} (R : Registry N)

/-- How many transactions of a run the node holds or has written. -/
def load (n : ν) (j : Nat) : Nat := (R.held n).count j + (R.entries n).count (some j)

theorem load_answer {w w' : Site ν} {i : Nat} {e : Exchange (dialogue τ)} (answer : Answers N w i e w')
    (j : Nat) : R.load w'.node j ≤ R.load w.node j + (broadcasts (History.of [(i, e)] j)).length := by
  cases answer with
  | prover | now | pause => exact Nat.le_add_right _ _
  | chain answer =>
    cases answer with
    | memory => exact Nat.le_add_right _ _
    | node asked reply =>
      refine Nat.le_trans (R.reply reply j) (Nat.add_le_add_left ?_ _)
      split
      · rename_i own
        obtain ⟨send, rfl⟩ := own
        simp [broadcasts, chainExchange, Ask.isBroadcast, send]
      · exact Nat.zero_le _

theorem load_run {c c' : Crowd (dialogue τ) (Site ν) (Except Trouble (Outcome τ))} {h : History (dialogue τ)}
    (run : Crowd.Run (arena N) c h c') (j : Nat) :
    R.load c'.state.node j ≤ R.load c.state.node j + (broadcasts (h.of j)).length := by
  induction run with
  | nil => exact Nat.le_add_right _ _
  | drift _ last ih => exact Nat.le_trans (R.drift last.2 j) ih
  | @step h i e c' c'' _ last ih =>
    cases last with
    | reply task others answer =>
      have step := R.load_answer answer j
      rw [Crowd.history_of_append, broadcasts_append, List.length_append]
      dsimp only
      omega

end Registry

section Crowd

variable [Time τ] {N : Conduct ν} {jobs : List (Job τ)} {w : Site ν} {h : History (dialogue τ)}
  {c : Crowd (dialogue τ) (Site ν) (Except Trouble (Outcome τ))} {i : Nat} {job : Job τ}

theorem length_broadcasts_le (run : Crowd.Run (arena N) ⟨jobs.map Job.activity, w⟩ h c)
    (hjob : jobs[i]? = some job) : (broadcasts (h.of i)).length ≤ 1 := by
  obtain ⟨b, -, path⟩ := path_of_run run hjob
  rw [broadcasts, ← List.countP_eq_length_filter]
  exact Activity.AtMost.countP_le path (atMost_run job.config job.request)

/-- Without a run that has no proof everything else comes to the same. -/
theorem run_without_unproved (run : Crowd.Run (arena N) ⟨jobs.map Job.activity, w⟩ h c)
    (hjob : jobs[i]? = some job) {o : Outcome τ} (ended : c.tasks[i]? = some (.done (.ok o)))
    (unproved : o.failedStage = some .proving) :
    Crowd.Run (arena N) ⟨(jobs.map Job.activity).set i (.done (.ok o)), w⟩ (h.without i) c := by
  have off := not_isOnChain_of_unproved (course_of_run run hjob ended) unproved
  have without := run.without (fun e he s s' answer => eq_of_not_isOnChain answer (off e he)) (.ok o)
  obtain ⟨hi, hget⟩ := List.getElem?_eq_some_iff.1 ended
  have same : c.tasks.set i (.done (.ok o)) = c.tasks := by rw [← hget, List.set_getElem_self]
  rwa [same] at without

/-- A transaction that the node holds or has written comes from a run whose proof was produced, and there is
no second one from that run. -/
theorem load_le_one (run : Crowd.Run (arena N) ⟨jobs.map Job.activity, w⟩ h c) (R : Registry N)
    (fresh : ∀ j, R.load w.node j = 0) (j : Nat) :
    R.load c.state.node j ≤ 1 ∧
      (0 < R.load c.state.node j → ∃ job, jobs[j]? = some job ∧ Produced job (h.of j)) := by
  have load : R.load c.state.node j ≤ (broadcasts (h.of j)).length := by
    have := R.load_run run j
    rwa [fresh, Nat.zero_add] at this
  cases hjob : jobs[j]? with
  | none =>
    rw [run.history_of_eq_nil (by rw [List.getElem?_map, hjob, Option.map_none])] at load
    exact ⟨Nat.le_trans load (Nat.zero_le 1), fun some => absurd (Nat.lt_of_lt_of_le some load) (Nat.lt_irrefl 0)⟩
  | some job =>
    refine ⟨Nat.le_trans load (length_broadcasts_le run hjob), fun some => ⟨job, rfl, ?_⟩⟩
    obtain ⟨e, he⟩ := List.exists_mem_of_length_pos (Nat.lt_of_lt_of_le some load)
    obtain ⟨hmem, send⟩ := List.mem_filter.1 he
    obtain ⟨b, -, path⟩ := path_of_run run hjob
    refine produced_of_isOnChain path hmem ?_
    cases hq : e.ask with
    | chain q => rfl
    | prover | now | pause => rw [hq] at send; cases send

end Crowd

/-- A run, however it ends, hands raw bytes to the node at most once. If it is done, the node took them. If it
fails in proving, it asks nothing of the chain, and without it the others, the client's memory and the
node come to the same. So the contract behind the node gets at most one entry from each run, and only from
runs whose proof was produced. -/
theorem one_broadcast_per_run [Time τ] {N : Conduct ν} {jobs : List (Job τ)} {w : Site ν}
    {h : History (dialogue τ)} {c : Crowd (dialogue τ) (Site ν) (Except Trouble (Outcome τ))}
    (run : Crowd.Run (arena N) ⟨jobs.map Job.activity, w⟩ h c) :
    (∀ (i : Nat) (job : Job τ), jobs[i]? = some job →
      (broadcasts (h.of i)).length ≤ 1 ∧
      (∀ o, c.tasks[i]? = some (.done (.ok o)) → o.stage = .done →
        ∃ raw sent, broadcasts (h.of i) = [⟨.chain (.send raw), .ok sent⟩]) ∧
      ∀ o, c.tasks[i]? = some (.done (.ok o)) → o.failedStage = some .proving →
        (∀ e ∈ h.of i, e.ask.isOnChain = false) ∧
        Crowd.Run (arena N) ⟨(jobs.map Job.activity).set i (.done (.ok o)), w⟩ (h.without i) c) ∧
    ∀ R : Registry N, (∀ j, R.load w.node j = 0) → ∀ j,
      (R.entries c.state.node).count (some j) ≤ 1 ∧
      (some j ∈ R.entries c.state.node → ∃ job, jobs[j]? = some job ∧ Produced job (h.of j)) := by
  refine ⟨fun i job hjob => ⟨length_broadcasts_le run hjob, ?_, ?_⟩, fun R fresh j => ?_⟩
  · intro o ended done
    exact broadcasts_of_done (course_of_run run hjob ended) done
  · intro o ended unproved
    exact ⟨not_isOnChain_of_unproved (course_of_run run hjob ended) unproved,
      run_without_unproved run hjob ended unproved⟩
  · obtain ⟨le, produced⟩ := load_le_one run R fresh j
    refine ⟨Nat.le_trans (Nat.le_add_left _ _) le, fun written => produced ?_⟩
    exact Nat.lt_of_lt_of_le (List.count_pos_iff.2 written) (Nat.le_add_left _ _)

/-- The runs whose transactions a node holds, and the entries of the contract behind it. -/
structure Desk where
  held : List Nat := []
  entries : List (Option Nat) := []

def Desk.sent (d : Desk) (i : Nat) (q : Client.Ask) : Desk := if q.isSend then { d with held := i :: d.held } else d

def Desk.written (d : Desk) : Desk := ⟨[], d.held.map some ++ d.entries⟩

/-- A node that replies as it likes, holds what it is sent, and writes what it holds at any time. -/
def deskNode : Conduct Desk := ⟨fun d i e d' => d' = d.sent i e.ask, fun d d' => d' = d.written⟩

def deskRegistry : Registry deskNode where
  held := Desk.held
  entries := Desk.entries
  reply := by
    rintro d d' i e rfl j
    rw [Desk.sent]
    by_cases send : e.ask.isSend = true
    · by_cases own : i = j
      · simp [send, own]
        omega
      · simp [send, own]
    · simp [send]
  drift := by
    rintro d d' rfl j
    have same : (d.held.map some).count (some j) = d.held.count j := by
      simp [List.count, List.countP_map, Function.comp_def]
    simp only [Desk.written, List.count_nil, List.count_append, same]
    omega

def deskReplier : Client.Replier deskNode where
  reply i q d := some (sampleReply i q, d.sent i q)
  drift := Desk.written
  replies h := (Prod.mk.inj (Option.some.inj h)).2.symm
  drifts _ := rfl

/-- The second of two jobs finds no place to work in. -/
def proofOfFirst (i : Nat) (q : Prover.Ask Int) : Prover.Reply q :=
  match i, q with
  | 1, .openWorkspace _ _ => .error ⟨.system, "no space left"⟩
  | i, q => sampleProof i q

/-- A play of two jobs: the first is done, and the node writes while it waits for its receipt. -/
def deskPlay : History (dialogue Int) × Crowd (dialogue Int) (Site Desk) (Except Trouble (Outcome Int)) :=
  Crowd.play (oracle deskReplier proofOfFirst)
    (List.replicate 4 (some 0) ++ List.replicate 4 (some 1) ++ List.replicate 27 (some 0) ++
      none :: List.replicate 9 (some 0))
    ⟨[Job.sample "A", .sample "B"].map Job.activity, {}, {}⟩

/-- Two runs side by side, of which one is done and the other fails in proving. -/
theorem one_broadcast_per_run_two : ∃ h c o o',
    Crowd.Run (arena deskNode) ⟨[Job.sample "A", .sample "B"].map Job.activity, {}, {}⟩ h c ∧
    c.tasks[0]? = some (.done (.ok o)) ∧ o.stage = .done ∧
    (∃ raw sent, broadcasts (h.of 0) = [⟨.chain (.send raw), .ok sent⟩]) ∧
    c.tasks[1]? = some (.done (.ok o')) ∧ o'.failedStage = some .proving ∧
    (∀ e ∈ h.of 1, e.ask.isOnChain = false) ∧
    c.state.node.entries = [some 0] ∧ ∀ j, c.state.node.entries.count (some j) ≤ 1 := by
  have run : Crowd.Run (arena deskNode) _ deskPlay.1 deskPlay.2 := Crowd.run_play _ _ _
  have ends : (outcome? deskPlay.2 0).any (fun o => o.stage = .done) = true ∧
      (outcome? deskPlay.2 1).any (fun o => o.failedStage = some .proving) = true ∧
      deskPlay.2.state.node.entries = [some 0] := by decide +kernel
  obtain ⟨o, ended, done⟩ := exists_of_outcome? ends.1
  obtain ⟨o', ended', unproved⟩ := exists_of_outcome? ends.2.1
  obtain ⟨runs, contract⟩ := one_broadcast_per_run run
  obtain ⟨-, once, -⟩ := runs 0 (.sample "A") rfl
  obtain ⟨-, -, never⟩ := runs 1 (.sample "B") rfl
  exact ⟨_, _, o, o', run, ended, done, once o ended done, ended', unproved, (never o' ended' unproved).1, ends.2.2,
    fun j => (contract deskRegistry (fun _ => rfl) j).1⟩

end ProofRelay.Relay
