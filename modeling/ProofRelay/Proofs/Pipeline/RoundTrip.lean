import ProofRelay.Proofs.Commitment
import ProofRelay.Proofs.Pipeline.Broadcasts
import ProofRelay.Proofs.Prover.Provenance

/-!
The round trip of a run that is done. The digest of the proof file goes through the text of the commitment
twice, into the transaction and into the question to the contract, and comes out of both as it was. All
that the record and the outcome say was replied in the exchanges of the run: by the last attempt at proving,
by the one transaction, and by the calls of the contract, of which there are no others.
-/

namespace ProofRelay.Relay

open Attempt (Yields AtMost)

variable {τ : Type}

/-- Asks a contract. -/
def Ask.isCall : Ask τ → Bool
  | .chain (.call _ _) => true
  | _ => false

/-- Has the node build a transaction. -/
def Ask.isBuild : Ask τ → Bool
  | .chain (.build _ _) => true
  | _ => false

/-- Waits for a receipt. -/
def Ask.isAwait : Ask τ → Bool
  | .chain (.awaitReceipt _) => true
  | _ => false

/-- Opens a workspace, or reads a file. -/
def Ask.isFetch : Ask τ → Bool
  | .prover q => q.isFetch
  | _ => false

/-- The exchanges of a kind, in their order. -/
def asked (P : Ask τ → Bool) (es : List (Exchange (dialogue τ))) : List (Exchange (dialogue τ)) :=
  es.filter fun e => P e.ask

theorem asked_nil (P : Ask τ → Bool) : asked P [] = [] := rfl

theorem asked_append (P : Ask τ → Bool) (es fs : List (Exchange (dialogue τ))) :
    asked P (es ++ fs) = asked P es ++ asked P fs :=
  List.filter_append _ _

theorem asked_eq_nil {P : Ask τ → Bool} {es : List (Exchange (dialogue τ))} (none : ∀ e ∈ es, P e.ask = false) :
    asked P es = [] :=
  List.filter_eq_nil_iff.2 fun e he => by simp [none e he]

/-- The counter of the contract, as of a block. -/
def counterCall (block : Json) : Ask τ := .chain (.call ⟨"counter", []⟩ block)

/-- Whether the contract has a digest at a position. -/
def verifyCall (position : Int) (digest : Bytes) : Ask τ :=
  .chain (.call ⟨"verify_proof", [.value (.int position), .bytes digest]⟩ Client.latest)

/-- The one transaction among some exchanges. It is what the node built for a call, from the signer's account and to the
contract unless the node says otherwise; the bytes that were sent carry it with the nonce; the node took them and
returned their hash, and confirmed under that hash that they succeeded in the block. -/
def Transacted (c : Config τ) (es : List (Exchange (dialogue τ))) (call : Client.Call) (txHash : String)
    (blockNumber nonce : Int) : Prop :=
  ∃ (terms : Client.Terms) (built : Client.Built) (tx : Transaction) (raw : Bytes) (sent : Datum) (doc : Json),
    asked Ask.isBuild es = [⟨.chain (.build call terms), .ok built⟩] ∧ built.Makes terms c.contract.address tx ∧
    tx.sender = c.signer.address ∧ c.signer.Carries tx nonce raw ∧
    broadcasts es = [⟨.chain (.send raw), .ok sent⟩] ∧ Client.hashText sent = .ok txHash ∧
    asked Ask.isAwait es = [⟨.chain (.awaitReceipt txHash), .ok doc⟩] ∧
    (doc.member "blockNumber").bind Json.toInt = .ok blockNumber ∧ (doc.member "status").bind Json.toInt = .ok 1

section Chain

variable {c : Config τ} {es fs : List (Exchange (dialogue τ))}

/-- What comes before and after the transaction may be anything that is no transaction. -/
theorem Transacted.extend {call : Client.Call} {txHash : String} {blockNumber nonce : Int}
    (transacted : Transacted c es call txHash blockNumber nonce) {before after : List (Exchange (dialogue τ))}
    (hbefore : ∀ P ∈ [Ask.isBuild, Ask.isBroadcast, Ask.isAwait], asked P before = [])
    (hafter : ∀ P ∈ [Ask.isBuild, Ask.isBroadcast, Ask.isAwait], asked P after = []) :
    Transacted c (before ++ (es ++ after)) call txHash blockNumber nonce := by
  have same : ∀ P ∈ [Ask.isBuild, Ask.isBroadcast, Ask.isAwait],
      asked P (before ++ (es ++ after)) = asked P es := by
    intro P hP
    rw [asked_append, asked_append, hbefore P hP, hafter P hP, List.nil_append, List.append_nil]
  obtain ⟨terms, built, tx, raw, sent, doc, hbuild, makes, hsender, carries, hsend, hhash, hawait, hdoc⟩ := transacted
  refine ⟨terms, built, tx, raw, sent, doc, ?_, makes, hsender, carries, ?_, hhash, ?_, hdoc⟩
  · rw [same _ (by simp), hbuild]
  · exact (same Ask.isBroadcast (by simp)).trans hsend
  · rw [same _ (by simp), hawait]

/-- A commitment that is written: its transaction, and the two counters around it. -/
theorem Written.transacted {commitment : String} {before after : Int} {receipt : Receipt} {bytes : Bytes}
    (written : Written c commitment es before receipt after) (hbytes : Commitment.toBytes commitment = .ok bytes) :
    Transacted c es ⟨"create_proof", [.bytes bytes]⟩ receipt.txHash receipt.blockNumber receipt.nonce ∧
    ∃ v v',
      asked Ask.isCall es = [⟨counterCall Client.latest, .ok v⟩, ⟨counterCall (.int receipt.blockNumber), .ok v'⟩] ∧
      Json.toInt v = .ok before ∧ Json.toInt v' = .ok after := by
  cases written with
  | @intro es fs gs hs before after bytes' tx receipt first encoded built submitted second =>
    obtain rfl := Except.ok.inj (encoded.symm.trans hbytes)
    obtain ⟨v, rfl, hbefore⟩ := Client.yields_readCounter_ok first
    obtain ⟨v', rfl, hafter⟩ := Client.yields_readCounter_ok second
    obtain ⟨gasPrice, amount, ids, terms, made, rfl, known, makes, hsender⟩ := Client.yields_buildTransaction_ok built
    obtain ⟨count, last, nonce, raw, sent, doc, rfl, hhash, hreceipt, success, signs⟩ :=
      Client.yields_submit_ok (s := ⟨tx, c.signer⟩) submitted
    obtain ⟨hblock, hstatus, -, rfl⟩ := Client.receiptOf_eq_ok hreceipt
    rw [success] at hstatus
    have carries := Signer.carries_of_signs signs
    rcases Client.yields_chainId_ok known with rfl | ⟨id, rfl⟩ <;>
      exact ⟨⟨terms, made, tx, raw, sent, doc, rfl, makes, hsender, carries, rfl, hhash, rfl, hblock, hstatus⟩,
        v, v', rfl, hbefore, hafter⟩

/-- A check of a record is one call of the contract. -/
theorem yields_verify_cases {record : Record} {digest : Bytes} {r : Except Trouble Bool}
    (encoded : Commitment.toBytes record.commitment = .ok digest) (yields : Yields (verify c record) es r) :
    ∃ fs x, es = fs.map chainExchange ∧ r = x.map Json.isTruthy ∧
      Yields (Client.call c.contract ⟨"verify_proof", [.value (.int record.index), .bytes digest]⟩ Client.latest)
        fs x := by
  rw [verify, encoded] at yields
  change Yields (onChain (Client.call c.contract _ Client.latest) >>= fun v => pure v.isTruthy) es r at yields
  rcases Attempt.yields_bind_iff.1 yields with ⟨t, part, rfl⟩ | ⟨v, _, _, rfl, part, returned⟩
  · obtain ⟨fs, rfl, called⟩ := yields_onChain_iff.1 part
    exact ⟨fs, .error t, rfl, rfl, called⟩
  · obtain ⟨fs, rfl, called⟩ := yields_onChain_iff.1 part
    obtain ⟨rfl, rfl⟩ := Attempt.yields_pure_iff.1 returned
    exact ⟨fs, .ok v, by rw [List.append_nil], rfl, called⟩

/-- The exchanges of a check hold at most the one call, and nothing of a transaction. -/
theorem asked_of_verify {record : Record} {digest : Bytes} {r : Except Trouble Bool}
    (encoded : Commitment.toBytes record.commitment = .ok digest) (yields : Yields (verify c record) es r) :
    (asked Ask.isCall es = [] ∨ ∃ reply, asked Ask.isCall es = [⟨verifyCall record.index digest, reply⟩]) ∧
      (∀ P ∈ [Ask.isBuild, Ask.isBroadcast, Ask.isAwait], asked P es = []) ∧ ∀ e ∈ es, e.ask.isOnChain = true := by
  obtain ⟨fs, x, rfl, -, called⟩ := yields_verify_cases encoded yields
  rcases Client.yields_call_cases called with rfl | ⟨p, rfl⟩ | ⟨p, reply, rfl⟩
  · exact ⟨.inl rfl, by simp [asked], by simp⟩
  · exact ⟨.inl rfl, by simp [asked, chainExchange, Ask.isBuild, Ask.isBroadcast, Client.Ask.isSend, Ask.isAwait],
      by simp [chainExchange, Ask.isOnChain]⟩
  · exact ⟨.inr ⟨reply, rfl⟩,
      by simp [asked, chainExchange, Ask.isBuild, Ask.isBroadcast, Client.Ask.isSend, Ask.isAwait],
      by simp [chainExchange, Ask.isOnChain]⟩

theorem mem_asked_flatten {P : Ask τ → Bool} {tries : List (List (Exchange (dialogue τ)))} {e : Exchange (dialogue τ)}
    (he : e ∈ asked P tries.flatten) : ∃ fs ∈ tries, e ∈ asked P fs := by
  obtain ⟨mem, kind⟩ := List.mem_filter.1 he
  obtain ⟨fs, hfs, mem⟩ := List.mem_flatten.1 mem
  exact ⟨fs, hfs, List.mem_filter.2 ⟨mem, kind⟩⟩

theorem length_asked_flatten_le {P : Ask τ → Bool} {tries : List (List (Exchange (dialogue τ)))}
    (each : ∀ fs ∈ tries, (asked P fs).length ≤ 1) : (asked P tries.flatten).length ≤ tries.length := by
  induction tries with
  | nil => exact Nat.le_refl 0
  | cons fs tries ih =>
    have first := each fs List.mem_cons_self
    have rest := ih fun gs hgs => each gs (List.mem_cons_of_mem _ hgs)
    rw [List.flatten_cons, asked_append, List.length_append, List.length_cons]
    omega

/-- Checks that are tried again hold the same call again and again, and the last of them got the answer. -/
theorem asked_of_checks {record : Record} {digest : Bytes} {n : Nat} {verified : Bool}
    (encoded : Commitment.toBytes record.commitment = .ok digest)
    (yields : Yields (Attempt.retry (1 + n) (verify c record)) es (.ok verified)) :
    ∃ checks answer, asked Ask.isCall es = checks ++ [⟨verifyCall record.index digest, .ok answer⟩] ∧
      (∀ e ∈ checks, e.ask = verifyCall record.index digest) ∧ checks.length ≤ n ∧ verified = answer.isTruthy := by
  obtain ⟨failed, last, rfl, bound, fails, yields⟩ := Attempt.yields_retry_ok yields
  obtain ⟨fs, x, rfl, h, called⟩ := yields_verify_cases encoded yields
  rcases x with t | answer
  · cases h
  obtain rfl := Client.yields_call_ok called
  refine ⟨asked Ask.isCall failed.flatten, answer, asked_append _ _ _, ?_, ?_, Except.ok.inj h⟩
  · intro e he
    obtain ⟨fs, hfs, mem⟩ := mem_asked_flatten he
    obtain ⟨f, part⟩ := fails fs hfs
    rcases (asked_of_verify encoded part).1 with h | ⟨reply, h⟩
    · rw [h] at mem
      cases mem
    · rw [h] at mem
      rw [List.mem_singleton.1 mem]
  · refine Nat.le_trans (length_asked_flatten_le fun fs hfs => ?_) bound
    obtain ⟨f, part⟩ := fails fs hfs
    rcases (asked_of_verify encoded part).1 with h | ⟨reply, h⟩ <;> simp [h]

/-- However often a check is tried, it is for the chain, and nothing of a transaction. -/
theorem silent_of_checks {record : Record} {digest : Bytes} {n : Nat} {r : Except Trouble Bool}
    (encoded : Commitment.toBytes record.commitment = .ok digest)
    (yields : Yields (Attempt.retry (1 + n) (verify c record)) es r) :
    (∀ P ∈ [Ask.isBuild, Ask.isBroadcast, Ask.isAwait], asked P es = []) ∧ ∀ e ∈ es, e.ask.isOnChain = true := by
  refine ⟨fun P hP => asked_eq_nil fun e he => ?_, fun e he => ?_⟩
  · obtain ⟨fs, x, part, mem⟩ := Attempt.exists_yields_of_mem_retry yields he
    simpa using List.filter_eq_nil_iff.1 ((asked_of_verify encoded part).2.1 P hP) e mem
  · obtain ⟨fs, x, part, mem⟩ := Attempt.exists_yields_of_mem_retry yields he
    exact (asked_of_verify encoded part).2.2 e mem

theorem Written.isOnChain {commitment : String} {before after : Int} {receipt : Receipt}
    (written : Written c commitment es before receipt after) : ∀ e ∈ es, e.ask.isOnChain = true := by
  cases written
  intro e he
  obtain ⟨x, -, rfl⟩ := List.mem_map.1 he
  rfl

end Chain

section Proving

variable [Time τ] {c : Config τ} {r : Request} {es : List (Exchange (dialogue τ))} {artifact : Prover.Artifact}

/-- Some exchanges hold a successful attempt at proving, and no other after it: only the chain and the clock are asked
later. The attempt opened one workspace and read the data from the proof file in it. -/
def Proved (c : Config τ) (r : Request) (es : List (Exchange (dialogue τ))) (data : Bytes) : Prop :=
  ∃ earlier attempt rest artifact dir keys, es = earlier ++ (attempt ++ rest) ∧
    Yields (prove c r) attempt (.ok artifact) ∧ (∀ e ∈ rest, e.ask.isOnChain = true ∨ e.ask = .now) ∧
    asked Ask.isFetch attempt = ⟨.prover (.openWorkspace c.prover.root (Workspace.stem r.id)), .ok dir⟩ ::
      ⟨.prover (.read (dir.child "proof.pf")), .ok data⟩ :: keys ∧
    ∀ e ∈ keys, e.ask = .prover (.read (dir.child "vk.key"))

theorem proved_of_proofAttempts (before : List (Exchange (dialogue τ))) {rest : List (Exchange (dialogue τ))}
    (proof : Yields (proofAttempts c r) es (.ok artifact)) (later : ∀ e ∈ rest, e.ask.isOnChain = true ∨ e.ask = .now) :
    Proved c r (before ++ (es ++ rest)) artifact.data := by
  obtain ⟨failed, attempt, rfl, -, -, yields⟩ := Attempt.yields_retry_ok proof
  obtain ⟨fs, rfl, proved⟩ := (Attempt.yields_via_iff prover_lifts).1 yields
  obtain ⟨dir, keys, hfetches, own⟩ := Prover.yields_proveDocument_ok proved
  refine ⟨before ++ failed.flatten, fs.map proverExchange, rest, artifact, dir, keys.map proverExchange, ?_, yields,
    later, ?_, ?_⟩
  · rw [List.append_assoc, List.append_assoc]
  · have lifted : asked Ask.isFetch (fs.map proverExchange) = (Prover.fetches fs).map (proverExchange (τ := τ)) :=
      List.filter_map
    rw [lifted, hfetches]
    rfl
  · intro e he
    obtain ⟨x, hx, rfl⟩ := List.mem_map.1 he
    exact congrArg Ask.prover (own x hx)

end Proving

/-- What a run that is done tells, and what was replied in its exchanges, is one and the same. -/
structure RoundTrip [Time τ] (c : Config τ) (r : Request) (es : List (Exchange (dialogue τ))) (o : Outcome τ)
    (data : Bytes) (record : Record) : Prop where
  proved : Proved c r es data
  commitment : o.commitment = some record.commitment ∧ record.commitment = "0x" ++ Bytes.toHex (Sha256.digest data) ∧
    Commitment.isCommitment record.commitment = true
  submission : o.submission = some record
  transacted : Transacted c es ⟨"create_proof", [.bytes (Sha256.digest data)]⟩ record.txHash record.blockNumber
    record.nonce
  /-- The calls of the contract are two of its counter, and then one check or more, of which the last got the answer. -/
  calls : ∃ before after checks answer,
    asked Ask.isCall es = ⟨counterCall Client.latest, .ok before⟩ ::
      ⟨counterCall (.int record.blockNumber), .ok after⟩ ::
      (checks ++ [⟨verifyCall record.index (Sha256.digest data), .ok answer⟩]) ∧
    (∀ e ∈ checks, e.ask = verifyCall record.index (Sha256.digest data)) ∧ checks.length ≤ c.retries.toNat ∧
    Json.toInt before = .ok record.counterBefore ∧ Json.toInt after = .ok record.counterAfter ∧
    o.verified = some answer.isTruthy
  position : record.counterBefore < record.counterAfter ∧ record.index = record.counterAfter - c.indexOffset ∧
    0 ≤ record.index

/-- Looks at the clock are none of the things that a round trip is about. -/
theorem asked_clock {P : Ask τ → Bool} (off : P .now = false) (t : τ) (es : List (Exchange (dialogue τ))) :
    asked P (clock t :: es) = asked P es :=
  List.filter_cons_of_neg (by rw [clock, off]; exact Bool.false_ne_true)

/-- The kinds of questions that tell of a transaction. -/
theorem off_of_mem {P : Ask τ → Bool} (mem : P ∈ [Ask.isBuild, Ask.isBroadcast, Ask.isAwait]) :
    P .now = false ∧ ∀ q, P (.prover q) = false := by
  rw [List.mem_cons, List.mem_cons, List.mem_singleton] at mem
  rcases mem with rfl | rfl | rfl <;> exact ⟨rfl, fun _ => rfl⟩

/-- Every run that is done makes the round trip, whatever the prover and the node reply. -/
theorem done_round_trip [Time τ] {c : Config τ} {r : Request} {es : List (Exchange (dialogue τ))} {o : Outcome τ}
    (yields : Yields (run c r) es (.ok o)) (done : o.stage = .done) :
    ∃ data record, RoundTrip c r es o data record ∧ (Sha256.digest data).length = 32 := by
  cases course_of_yields yields with
  | unproved | unsubmitted | unverified => cases done
  | @finished t₀ t₁ t₂ t₃ t₄ t run es fs gs artifact record verified reached proof submission check =>
    obtain ⟨before, receipt, after, written, advanced, rfl, natural⟩ := submit_ok submission
    have encoded := Commitment.toBytes_ofBytes artifact.data
    obtain ⟨transacted, v, v', hcounters, hbefore, hafter⟩ := written.transacted encoded
    have recorded : Commitment.toBytes (recordOf c (Commitment.ofBytes artifact.data) before receipt after).commitment =
        .ok (Sha256.digest artifact.data) := encoded
    obtain ⟨checks, answer, hchecks, own, bound, rfl⟩ := asked_of_checks recorded check
    obtain ⟨silent, onChain⟩ := silent_of_checks recorded check
    have off : ∀ P : Ask τ → Bool, (∀ q, P (.prover q) = false) → asked P es = [] := fun P off =>
      asked_eq_nil (Activity.AtMost.eq_false proof (never_proofAttempts c off r))
    refine ⟨artifact.data, _, ⟨?_, ⟨rfl, rfl, ?_⟩, rfl, ?_, ?_, advanced, rfl, natural⟩, Sha256.length_digest _⟩
    · refine proved_of_proofAttempts [clock t₀, clock t₁] proof fun e he => ?_
      simp only [List.mem_cons, List.mem_append, List.not_mem_nil, or_false] at he
      rcases he with rfl | rfl | he | rfl | he | rfl
      · exact .inr rfl
      · exact .inr rfl
      · exact .inl (written.isOnChain e he)
      · exact .inr rfl
      · exact .inl (onChain e he)
      · exact .inr rfl
    · exact Commitment.isCommitment_toHex0x (Sha256.length_digest _)
    · have apart : clock t₀ :: clock t₁ :: (es ++ clock t₂ :: clock t₃ :: (fs ++ clock t₄ :: (gs ++ [clock t]))) =
          (clock t₀ :: clock t₁ :: (es ++ [clock t₂, clock t₃])) ++ (fs ++ clock t₄ :: (gs ++ [clock t])) := by simp
      rw [apart]
      refine transacted.extend (fun P mem => ?_) fun P mem => ?_
      · obtain ⟨clockless, proofless⟩ := off_of_mem mem
        simp only [asked_clock clockless, asked_append, off P proofless]
        rfl
      · obtain ⟨clockless, -⟩ := off_of_mem mem
        simp only [asked_clock clockless, asked_append, silent P mem]
        rfl
    · refine ⟨v, v', checks, answer, ?_, own, bound, hbefore, hafter, rfl⟩
      have clockless : Ask.isCall (τ := τ) .now = false := rfl
      simp only [asked_clock clockless, asked_append, off Ask.isCall fun _ => rfl, hcounters, hchecks, asked_nil,
        List.append_nil]
      rfl

/-- Replies to a run that has to try twice: the first workspace is left without a proof, and the first check
is not answered. The state counts the workspaces and the checks so far. -/
def secondTryReply (q : Ask Int) (s : Nat × Nat) : Reply q × Nat × Nat :=
  match q with
  | .prover (.openWorkspace _ _) => (.ok ⟨"/", [Decimal.ofNat s.1]⟩, s.1 + 1, s.2)
  | .prover (.isFile _) => (.ok (s.1 != 1), s)
  | .prover (.read _) => (.ok [UInt8.ofNat s.1], s)
  | .prover q => (sampleProof 0 q, s)
  | .chain (.call c block) =>
    if c.method == "verify_proof" then
      (if s.2 == 0 then .error ⟨.connection, "reset"⟩ else .ok (.bool true), s.1, s.2 + 1)
    else (sampleReply 0 (.call c block), s)
  | .chain q => (sampleReply 0 q, s)
  | .now => ((0 : Int), s)
  | .pause _ => ((), s)

/-- A job of a standard signer that may be tried again. -/
def Job.patient : Job Int :=
  { Job.sample "A" with
    config := { (Job.sample "A").config with retries := 1, signer := .standard "A" fun _ => ⟨1, 1, true⟩ } }

/-- A run that is done at its second proof and its second check. From the bytes that were sent its transaction is
read. -/
theorem done_round_trip_second : ∃ es o data record raw sent t,
    Yields (run Job.patient.config Job.patient.request) es (.ok o) ∧ o.stage = .done ∧
    (asked Ask.isFetch es).length = 4 ∧ (asked Ask.isCall es).length = 4 ∧
    RoundTrip Job.patient.config Job.patient.request es o data record ∧
    broadcasts es = [⟨.chain (.send raw), .ok sent⟩] ∧ SignedTransaction.decode? raw = some t ∧
    (t.payload.nonce : Int) = record.nonce := by
  have ends : (Job.patient.activity.runWith secondTryReply (0, 0)).1.toOption.any (fun o => o.stage = .done) = true ∧
      (asked Ask.isFetch (Job.patient.activity.trace secondTryReply (0, 0))).length = 4 ∧
      (asked Ask.isCall (Job.patient.activity.trace secondTryReply (0, 0))).length = 4 := by
    decide +kernel
  obtain ⟨o, yields, done⟩ := Attempt.exists_yields_of_runWith ends.1
  obtain ⟨data, record, trip, -⟩ := done_round_trip yields (of_decide_eq_true done)
  obtain ⟨terms, built, tx, raw, sent, doc, -, -, -, carries, sends, -⟩ := trip.transacted
  obtain ⟨t, decoded, described⟩ := carries.decoded _ _ rfl
  exact ⟨_, o, data, record, raw, sent, t, yields, of_decide_eq_true done, ends.2.1, ends.2.2, trip, sends, decoded,
    described.nonce⟩

end ProofRelay.Relay
