import ProofRelay.Proofs.Client.Calls
import ProofRelay.Proofs.Client.Submission
import ProofRelay.Proofs.Contract.Ledger
import ProofRelay.Proofs.Pipeline.Arena
import ProofRelay.Proofs.Prover.Failures

/-!
Which entry of the contract a record names. The node is honest about an append-only ledger, to which other
runs and other parties append whatever they like, in any order and any packing into blocks. A run reads the
counter before it sends, and again as of its receipt's block; its own entry comes in between, so the
counter advances, and one below it is the position of the last entry of that block.
-/

namespace ProofRelay.Relay

open Attempt (Yields Fails)
open Client (Conduct Site)

/-- What a node that is honest about a ledger may reply. Every question may end with a fault, and what is
not said here is open: how raw bytes are answered and when they are mined, and what a mined transaction
appends. -/
structure Honest (l : Ledger) (e : Exchange Client.dialogue) (l' : Ledger) : Prop where
  appends : l.Extends l'
  counted : ∀ v, e = ⟨.call ⟨"counter", []⟩ Client.latest, .ok v⟩ → Json.toInt v = .ok l.entries.length
  countedAt : ∀ block v, e = ⟨.call ⟨"counter", []⟩ (.int block), .ok v⟩ → Json.toInt v = .ok (l.counterAt block)
  verified : ∀ position argument v,
    e = ⟨.call ⟨"verify_proof", [.value (.int position), .bytes argument]⟩ Client.latest, .ok v⟩ →
    (v.isTruthy = true ↔ l.Holds position argument)
  /-- A hash that is returned for raw bytes is not that of a transaction mined before. -/
  fresh : ∀ raw sent txHash, e = ⟨.send raw, .ok sent⟩ → Client.hashText sent = .ok txHash →
    ∀ t ∈ l.mined, t.txHash ≠ txHash
  mined : ∀ txHash v block status, e = ⟨.awaitReceipt txHash, .ok v⟩ →
    (v.member "blockNumber").bind Json.toInt = .ok block → (v.member "status").bind Json.toInt = .ok status →
    ∃ t ∈ l.mined, t.txHash = txHash ∧ t.block = block ∧ t.status = status

/-- A node that is honest about a ledger, to which anybody may append meanwhile. -/
def ledgerNode : Conduct Ledger := ⟨fun l _ e l' => Honest l e l', Ledger.Extends⟩

/-- A transaction has a receipt in the ledger, `before` was counted before it came, and `after` is the
counter as of its block. -/
def Recorded (l : Ledger) (before : Int) (receipt : Receipt) (after : Int) : Prop :=
  ∃ (p : Nat) (own : Mined), l.entries[p]? = some own ∧ own.txHash = receipt.txHash ∧
    own.block = receipt.blockNumber ∧ before ≤ p ∧ after = l.counterAt own.block

section Ledger

variable {τ : Type} {c c' d d' : Crowd (dialogue τ) (Site Ledger) (Except Trouble (Outcome τ))}
  {h : History (dialogue τ)}
  {i : Nat} {l l' : Ledger} {before after : Int} {receipt : Receipt}

theorem honest_of_step {e : Exchange Client.dialogue} (step : Crowd.Step (arena ledgerNode) d i (chainExchange e) d')
    (asked : e.ask.isForMemory = false) : Honest d.state.node e d'.state.node := by
  generalize hx : chainExchange e = x at step
  cases step with
  | reply task others answer =>
    rw [← hx] at answer
    have answer := chain_answer answer
    generalize d.state = w at answer
    cases answer with
    | memory recalls => cases recalls <;> cases asked
    | node _ reply => exact reply

theorem extends_of_answer {w w' : Site Ledger} {e : Exchange (dialogue τ)} (answer : Answers ledgerNode w i e w') :
    w.node.Extends w'.node := by
  cases answer with
  | prover | now | pause => exact .refl _
  | chain answer =>
    cases answer with
    | memory => exact .refl _
    | node _ reply => exact reply.appends

/-- Nothing is ever removed. -/
theorem extends_of_run (run : Crowd.Run (arena ledgerNode) c h c') : c.state.node.Extends c'.state.node := by
  induction run with
  | nil => exact .refl _
  | drift _ last ih => exact ih.trans last.2
  | step _ last ih =>
    cases last with
    | reply task others answer => exact ih.trans (extends_of_answer answer)

theorem Recorded.extend (recorded : Recorded l before receipt after) (ext : l.Extends l') :
    Recorded l' before receipt after := by
  obtain ⟨p, own, hown, hhash, hblock, le, hafter⟩ := recorded
  have hmined : own ∈ l.mined := (List.mem_filter.1 (List.mem_of_getElem? hown)).1
  exact ⟨p, own, ext.getElem?_entries hown, hhash, hblock, le, by rw [ext.counterAt_eq hmined, hafter]⟩

/-- The counter advances, and one below it is the position of the last entry of the block. -/
theorem Recorded.last (recorded : Recorded l before receipt after) :
    before < after ∧ ∃ (n p : Nat) (own : Mined), after - 1 = n ∧ LastOf l.entries receipt.blockNumber n ∧
      l.entries[p]? = some own ∧ own.txHash = receipt.txHash ∧ own.block = receipt.blockNumber := by
  obtain ⟨p, own, hown, hhash, hblock, le, hafter⟩ := recorded
  obtain ⟨n, hcount, hle, last⟩ := lastOf_countP l.ordered_entries hown
  have hcount : l.counterAt own.block = n + 1 := hcount
  rw [hcount] at hafter
  refine ⟨by omega, n, p, own, by omega, hblock ▸ last, hown, hhash, hblock⟩

/-- The moment of a reply to one of a task's questions to the node. -/
theorem reply_honest (run : Crowd.Run (arena ledgerNode) c h c') {e : Exchange Client.dialogue}
    {es : List (Exchange (dialogue τ))} (sub : List.Sublist (chainExchange e :: es) (h.of i))
    (asked : e.ask.isForMemory = false) :
    ∃ (l : Ledger) (g : History (dialogue τ)) (d : Crowd (dialogue τ) (Site Ledger) (Except Trouble (Outcome τ))),
      c.state.node.Extends l ∧ Honest l e d.state.node ∧ Crowd.Run (arena ledgerNode) d g c' ∧
      List.Sublist es (g.of i) := by
  obtain ⟨_, g, d, d', before, step, after, follow⟩ := run.reply sub
  exact ⟨d.state.node, g, d', extends_of_run before, honest_of_step step asked, after, follow⟩

end Ledger

section Written

variable {τ : Type} {config : Config τ} {commitment : String} {before after : Int} {receipt : Receipt}

/-- Of the exchanges that write a commitment, four tell what its record says. -/
theorem Written.exchanges {es : List (Exchange (dialogue τ))}
    (written : Written config commitment es before receipt after) :
    ∃ v raw sent doc v',
      List.Sublist [chainExchange ⟨.call ⟨"counter", []⟩ Client.latest, .ok v⟩, chainExchange ⟨.send raw, .ok sent⟩,
        chainExchange ⟨.awaitReceipt receipt.txHash, .ok doc⟩,
        chainExchange ⟨.call ⟨"counter", []⟩ (.int receipt.blockNumber), .ok v'⟩] es ∧
      Json.toInt v = .ok before ∧ Client.hashText sent = .ok receipt.txHash ∧
      (doc.member "blockNumber").bind Json.toInt = .ok receipt.blockNumber ∧
      (doc.member "status").bind Json.toInt = .ok 1 ∧ Json.toInt v' = .ok after := by
  cases written with
  | @intro es fs gs hs before after bytes tx receipt first encoded built submitted second =>
    obtain ⟨v, rfl, hbefore⟩ := Client.yields_readCounter_ok first
    obtain ⟨v', rfl, hafter⟩ := Client.yields_readCounter_ok second
    obtain ⟨count, last, nonce, raw, sent, doc, rfl, hhash, hreceipt, success, -⟩ :=
      Client.yields_submit_ok (s := ⟨tx, config.signer⟩) submitted
    obtain ⟨hblock, hstatus, -⟩ := Client.receiptOf_eq_ok hreceipt
    rw [success] at hstatus
    refine ⟨v, raw, sent, doc, v', ?_, hbefore, hhash, hblock, hstatus, hafter⟩
    change List.Sublist (List.map chainExchange [_, _, _, _]) _
    refine List.Sublist.map chainExchange (.cons _ (.cons_cons _ ?_))
    refine .trans ?_ (List.sublist_append_right fs _)
    exact .cons _ (.cons _ (.cons _ (.cons_cons _ (.cons _ (.cons _ (.cons_cons _ (.cons _ (.cons_cons _ .slnil))))))))

variable {c c' : Crowd (dialogue τ) (Site Ledger) (Except Trouble (Outcome τ))} {h : History (dialogue τ)} {i : Nat}
  {es fs : List (Exchange (dialogue τ))}

/-- A commitment that is written is recorded. Its transaction is none of those that were mined before the
first count, since it was sent later. -/
theorem recorded_of_written (run : Crowd.Run (arena ledgerNode) c h c')
    (written : Written config commitment es before receipt after) (sub : List.Sublist (es ++ fs) (h.of i)) :
    ∃ (d : Crowd (dialogue τ) (Site Ledger) (Except Trouble (Outcome τ))) (g : History (dialogue τ)),
      Recorded d.state.node before receipt after ∧ Crowd.Run (arena ledgerNode) d g c' ∧
      List.Sublist fs (g.of i) := by
  obtain ⟨v, raw, sent, doc, v', four, hbefore, hhash, hblock, hstatus, hafter⟩ := written.exchanges
  obtain ⟨l₁, g₁, d₁, -, count, run₁, sub₁⟩ := reply_honest run ((four.append_right fs).trans sub) rfl
  obtain ⟨l₂, g₂, d₂, ext₂, send, run₂, sub₂⟩ := reply_honest run₁ sub₁ rfl
  obtain ⟨l₃, g₃, d₃, ext₃, await, run₃, sub₃⟩ := reply_honest run₂ sub₂ rfl
  obtain ⟨l₄, g₄, d₄, ext₄, recount, run₄, sub₄⟩ := reply_honest run₃ sub₃ rfl
  refine ⟨d₄, g₄, ?_, run₄, sub₄⟩
  obtain ⟨own, hmined, sameHash, sameBlock, status⟩ := await.mined _ _ _ _ rfl hblock hstatus
  obtain ⟨p, hp⟩ := Ledger.exists_position hmined status
  have first : l₁.Extends l₂ := count.appends.trans ext₂
  have new : ∀ t ∈ l₁.mined, t.txHash ≠ own.txHash := fun t ht =>
    sameHash ▸ send.fresh _ _ _ rfl hhash t (first.mem_mined ht)
  have counted := Except.ok.inj (hbefore.symm.trans (count.counted v rfl))
  have recounted := Except.ok.inj (hafter.symm.trans (recount.countedAt _ v' rfl))
  have last : l₃.Extends l₄ := await.appends.trans ext₄
  have le := (first.trans (send.appends.trans ext₃)).length_le_of_new hp new
  have recorded : Recorded l₄ before receipt after :=
    ⟨p, own, last.getElem?_entries hp, sameHash, sameBlock, by omega, by rw [sameBlock, recounted]⟩
  exact recorded.extend recount.appends

/-- A submission that succeeds makes the record of a commitment that is recorded. -/
theorem recorded_of_submit (run : Crowd.Run (arena ledgerNode) c h c') {record : Record}
    (yields : Yields (submit config commitment) es (.ok record)) (sub : List.Sublist (es ++ fs) (h.of i)) :
    ∃ (before after : Int) (receipt : Receipt)
        (d : Crowd (dialogue τ) (Site Ledger) (Except Trouble (Outcome τ))) (g : History (dialogue τ)),
      record = recordOf config commitment before receipt after ∧ Recorded d.state.node before receipt after ∧
      Crowd.Run (arena ledgerNode) d g c' ∧ List.Sublist fs (g.of i) := by
  obtain ⟨before, receipt, after, written, -, own, -⟩ := submit_ok yields
  obtain ⟨d, g, recorded, rest⟩ := recorded_of_written run written sub
  exact ⟨before, after, receipt, d, g, own, recorded, rest⟩

/-- What is verified is whether the contract has the commitment at the record's position. -/
theorem holds_of_verify (run : Crowd.Run (arena ledgerNode) c h c') {record : Record} {verified : Bool}
    (yields : Yields (verify config record) es (.ok verified)) (sub : List.Sublist es (h.of i)) :
    ∃ (bytes : Bytes) (l : Ledger), Commitment.toBytes record.commitment = .ok bytes ∧ c.state.node.Extends l ∧
      l.Extends c'.state.node ∧ (verified = true ↔ l.Holds record.index bytes) := by
  rcases Attempt.yields_bind_iff.1 yields with ⟨_, -, h⟩ | ⟨bytes, _, _, rfl, encoded, rest⟩
  · cases h
  obtain ⟨rfl, ⟨_, -, h⟩ | ⟨bytes', hbytes, h⟩⟩ := Attempt.yields_mapError encoded
  · cases h
  obtain rfl := Except.ok.inj h
  rcases Attempt.yields_bind_iff.1 rest with ⟨_, -, h⟩ | ⟨v, _, _, rfl, called, returned⟩
  · cases h
  obtain ⟨fs, rfl, call⟩ := yields_onChain_iff.1 called
  obtain rfl := Client.yields_call_ok call
  obtain ⟨rfl, h⟩ := Attempt.yields_pure_iff.1 returned
  obtain rfl := Except.ok.inj h
  obtain ⟨l, g, d, ext, honest, rest, -⟩ := reply_honest run ((List.Sublist.cons _ (.refl _)).trans sub) rfl
  exact ⟨bytes, l, hbytes, ext, honest.appends.trans (extends_of_run rest), honest.verified _ _ v rfl⟩

end Written

section Failures

variable {τ : Type} {c : Config τ}

/-- No failure of a part of a submission reads like that of a counter that did not advance. -/
theorem ne_of_isSubmitFailure {f : Failure} (own : Client.IsSubmitFailure f) :
    f.message ≠ "Contract counter did not advance after create_proof" := by
  obtain ⟨m, hm, s, hs⟩ := own
  intro h
  have start : Text.ofString m <+: Text.ofString "Contract counter did not advance after create_proof" := by
    rw [← h, hs]
    exact List.prefix_append _ _
  have none : ∀ m ∈ Client.submitMessages,
      ¬ Text.ofString m <+: Text.ofString "Contract counter did not advance after create_proof" := by decide +kernel
  exact none m hm start

/-- Whether a failure is that of a counter that did not advance. -/
def IsStuck (f : Failure) : Prop :=
  f.kind = .submission ∧ f.message = "Contract counter did not advance after create_proof"

@[simp] theorem isStuck_inStage {f : Failure} {stage : String} : IsStuck (f.inStage stage) ↔ IsStuck f := Iff.rfl

theorem not_isStuck_of_stray {f : Failure} (stray : Stray c (.failure f)) : ¬ IsStuck f := by
  rintro ⟨hkind, hmessage⟩
  cases stray with
  | count part => cases hkind.symm.trans (Client.fails_readCounter _ _ _ _ part).1
  | build part => cases hkind.symm.trans (Client.fails_buildTransaction _ _ _ _ _ _ part).1
  | submit part => exact ne_of_isSubmitFailure (Client.fails_submit _ _ _ _ _ part).1 hmessage

theorem fails_verify (record : Record) : Fails Client.IsCallFailure (verify c record) := by
  refine Attempt.Fails.bind (Attempt.fails_ofExcept fun f h => ?_) fun bytes => ?_
  · cases hbytes : Commitment.toBytes record.commitment <;> rw [hbytes] at h <;> cases h
  · exact ((Client.fails_call _ _ _).via chain_lifts).bind fun _ => Attempt.fails_pure _

theorem fails_proofAttempts [Time τ] (r : Request) : Fails Prover.IsOwnFailure (proofAttempts c r) :=
  ((Prover.fails_proveDocument _ _ _ _).via prover_lifts).retry _

end Failures

section Courses

variable {τ : Type} [Time τ] {c c' : Crowd (dialogue τ) (Site Ledger) (Except Trouble (Outcome τ))}
  {h : History (dialogue τ)} {i : Nat} {config : Config τ} {r : Request} {o : Outcome τ}

theorem not_isStuck_of_course (run : Crowd.Run (arena ledgerNode) c h c') (course : Course config r (h.of i) (.ok o))
    {f : Failure} (failed : o.error = some f) : ¬ IsStuck f := by
  generalize hof : h.of i = es at course
  cases course with
  | unproved reached proof =>
    obtain rfl := Option.some.inj failed
    rw [isStuck_inStage]
    rintro ⟨hkind, -⟩
    have own := (fails_proofAttempts r _ _ proof).1
    rw [Prover.IsProverFailure, hkind] at own
    cases own
  | @unsubmitted t₀ t₁ t₂ t₃ t r' es fs artifact f reached proof submission =>
    obtain rfl := Option.some.inj failed
    rw [isStuck_inStage]
    rcases submit_cases submission with ⟨t, h, stray⟩ | ⟨before, receipt, after, written, ⟨stuck, -⟩ | ⟨-, h⟩⟩
    · obtain rfl := Except.error.inj h
      exact not_isStuck_of_stray stray
    · have sub : List.Sublist (fs ++ []) (h.of i) := by
        rw [hof, List.append_nil]
        exact (List.sublist_append_left _ _).trans (sublist_from_submission ..)
      obtain ⟨d, g, recorded, -⟩ := recorded_of_written run written sub
      exact absurd recorded.last.1 (Int.not_lt.2 stuck)
    · rw [Record.checked] at h
      split at h <;> cases h
  | @unverified t₀ t₁ t₂ t₃ t₄ t r' es fs gs artifact record f reached proof submission check =>
    obtain rfl := Option.some.inj failed
    rw [isStuck_inStage]
    rintro ⟨hkind, -⟩
    cases hkind.symm.trans ((fails_verify record).retry _ _ _ check).1
  | finished => cases failed

/-- The record of a run is that of a commitment that is recorded. -/
theorem recorded_of_course (run : Crowd.Run (arena ledgerNode) c h c') (course : Course config r (h.of i) (.ok o))
    {record : Record} (submitted : o.submission = some record) :
    ∃ commitment before after receipt, record = recordOf config commitment before receipt after ∧
      Recorded c'.state.node before receipt after := by
  have of_submit : ∀ {commitment fs gs}, List.Sublist (fs ++ gs) (h.of i) →
      Yields (submit config commitment) fs (.ok record) →
      ∃ commitment before after receipt, record = recordOf config commitment before receipt after ∧
        Recorded c'.state.node before receipt after := by
    intro commitment fs gs sub yields
    obtain ⟨before, after, receipt, d, g, hrecord, recorded, rest, -⟩ := recorded_of_submit run yields sub
    exact ⟨commitment, before, after, receipt, hrecord, recorded.extend (extends_of_run rest)⟩
  generalize hof : h.of i = es at course
  cases course with
  | unproved | unsubmitted => cases submitted
  | unverified reached proof submission | finished reached proof submission =>
    obtain rfl := Option.some.inj submitted
    exact of_submit (hof ▸ sublist_from_submission ..) submission

/-- A run that is done has found out whether the contract has its commitment at its record's position. -/
theorem verified_of_course (run : Crowd.Run (arena ledgerNode) c h c') (course : Course config r (h.of i) (.ok o))
    (offset : config.indexOffset = 1) (done : o.stage = .done) :
    ∃ record bytes, o.submission = some record ∧ o.commitment = some record.commitment ∧
      Commitment.toBytes record.commitment = .ok bytes ∧
      (o.verified = some true ↔ c'.state.node.Holds record.index bytes) := by
  generalize hof : h.of i = es at course
  cases course with
  | unproved | unsubmitted | unverified => cases done
  | @finished t₀ t₁ t₂ t₃ t₄ t r' es fs gs artifact record verified reached proof submission check =>
    obtain ⟨before, after, receipt, d, g, rfl, recorded, rest, sub⟩ :=
      recorded_of_submit run submission (hof ▸ sublist_from_submission ..)
    obtain ⟨earlier, last, rfl, -, -, lastCheck⟩ := Attempt.yields_retry_ok check
    obtain ⟨bytes, l, hbytes, ext, ext', holds⟩ :=
      holds_of_verify rest lastCheck (((List.sublist_append_right _ _).trans (sublist_check ..)).trans sub)
    -- the position is one that the contract has had since the receipt
    obtain ⟨-, n, p, own, hn, ⟨⟨t, ht, -⟩, -⟩, -⟩ := recorded.last
    have index : (recordOf config (Commitment.ofBytes artifact.data) before receipt after).index = n := by
      rw [recordOf, offset, hn]
    refine ⟨_, bytes, rfl, rfl, hbytes, ?_⟩
    rw [index] at holds ⊢
    rw [ext'.holds_iff (ext.getElem?_entries ht), ← holds]
    exact Option.some_inj

end Courses

/-- Which entry a record names, when runs and other parties append to a ledger side by side. A run does not
find that the counter did not advance. The position in its record is that of the last entry of its
receipt's block, and so that of its own entry exactly when that one is the last of its block. A run that is
done is verified exactly when the contract has its commitment at that position. -/
theorem index_last_of_block {τ : Type} [Time τ] {jobs : List (Job τ)} {w : Site Ledger} {h : History (dialogue τ)}
    {c : Crowd (dialogue τ) (Site Ledger) (Except Trouble (Outcome τ))} {i : Nat} {job : Job τ} {o : Outcome τ}
    (run : Crowd.Run (arena ledgerNode) ⟨jobs.map Job.activity, w⟩ h c) (hjob : jobs[i]? = some job)
    (offset : job.config.indexOffset = 1) (ended : c.tasks[i]? = some (.done (.ok o))) :
    (∀ f, o.error = some f → ¬ IsStuck f) ∧
    (∀ record, o.submission = some record →
      ∃ (n p : Nat) (own : Mined), record.index = n ∧ LastOf c.state.node.entries record.blockNumber n ∧
        c.state.node.entries[p]? = some own ∧ own.txHash = record.txHash ∧ own.block = record.blockNumber ∧
        (∀ (q : Nat) (e : Mined), c.state.node.entries[q]? = some e → e.txHash = record.txHash → q = p) ∧
        (record.index = p ↔ LastOf c.state.node.entries record.blockNumber p)) ∧
    (o.stage = .done →
      ∃ record bytes, o.submission = some record ∧ o.commitment = some record.commitment ∧
        Commitment.toBytes record.commitment = .ok bytes ∧
        (o.verified = some true ↔ c.state.node.Holds record.index bytes)) := by
  have course := course_of_run run hjob ended
  refine ⟨fun f failed => not_isStuck_of_course run course failed, fun record submitted => ?_,
    fun done => verified_of_course run course offset done⟩
  obtain ⟨commitment, before, after, receipt, rfl, recorded⟩ := recorded_of_course run course submitted
  obtain ⟨-, n, p, own, hn, last, hown, sameHash, sameBlock⟩ := recorded.last
  have index : (recordOf job.config commitment before receipt after).index = n := by rw [recordOf, offset, hn]
  refine ⟨n, p, own, index, last, hown, sameHash, sameBlock, ?_, ?_⟩
  · exact fun q e he same => Ledger.position_unique he hown (same.trans sameHash.symm)
  · rw [index]
    constructor
    · intro same
      exact Int.ofNat_inj.1 same ▸ last
    · intro own
      rw [last.unique own]

/-- Replies of a node that is honest about a ledger, and does as it likes otherwise. -/
def honestReply (l : Ledger) (i : Nat) (q : Client.Ask) : Client.Reply q :=
  match q with
  | .send _ =>
    if l.mined.any (fun t => t.txHash = Bytes.toHex0x [UInt8.ofNat i]) then .error (.value "already known")
    else .ok (.bytes [UInt8.ofNat i])
  | .awaitReceipt txHash =>
    match l.mined.find? fun t => t.txHash = txHash with
    | some t => .ok (.record [("blockNumber", .int t.block), ("status", .int t.status)])
    | none => .error (.raised .timeExhausted "no receipt")
  | .call ⟨_, []⟩ (.int block) => .ok (.int (l.counterAt block))
  | .call ⟨_, []⟩ _ => .ok (.int l.entries.length)
  | .call ⟨_, [.value (.int position), .bytes argument]⟩ _ => .ok (.bool (decide (l.Holds position argument)))
  | .call _ _ => .error (.raised .contractLogic "not a view")
  | q => sampleReply i q

theorem honest_honestReply (l : Ledger) (i : Nat) (q : Client.Ask) : Honest l ⟨q, honestReply l i q⟩ l where
  appends := .refl l
  counted v h := by
    obtain ⟨rfl, h⟩ := Exchange.mk.inj h
    obtain rfl := Except.ok.inj (eq_of_heq h)
    rfl
  countedAt block v h := by
    obtain ⟨rfl, h⟩ := Exchange.mk.inj h
    obtain rfl := Except.ok.inj (eq_of_heq h)
    rfl
  verified position argument v h := by
    obtain ⟨rfl, h⟩ := Exchange.mk.inj h
    obtain rfl := Except.ok.inj (eq_of_heq h)
    exact decide_eq_true_iff
  fresh raw sent txHash h hhash t ht same := by
    obtain ⟨rfl, h⟩ := Exchange.mk.inj h
    have h := eq_of_heq h
    simp only [honestReply] at h
    split at h
    · cases h
    · rename_i unknown
      obtain rfl := Except.ok.inj h
      obtain rfl := Except.ok.inj hhash
      exact unknown (List.any_eq_true.2 ⟨t, ht, decide_eq_true same⟩)
  mined txHash v block status h hblock hstatus := by
    obtain ⟨rfl, h⟩ := Exchange.mk.inj h
    have h := eq_of_heq h
    simp only [honestReply] at h
    split at h
    · rename_i t found
      obtain rfl := Except.ok.inj h
      refine ⟨t, List.mem_of_find?_eq_some found, by simpa using List.find?_some found, ?_, ?_⟩
      · exact Except.ok.inj hblock
      · exact Except.ok.inj hstatus
    · cases h

/-- Two transactions in one block, with the commitments of two sample proofs. -/
def sharedLedger : Ledger where
  mined := [⟨1, "0x00", 1, Sha256.digest [0]⟩, ⟨1, "0x01", 1, Sha256.digest [1]⟩]
  ordered := by simp
  distinct := by simp

/-- An honest node, of which the first block is the shared one. -/
def honestReplier : Client.Replier ledgerNode where
  reply i q l := some (honestReply l i q, l)
  drift l := if l.mined.isEmpty then sharedLedger else l
  replies {i q l l' r} h := by
    obtain ⟨rfl, rfl⟩ := Prod.mk.inj (Option.some.inj h)
    exact honest_honestReply l i q
  drifts l := by
    split
    · rename_i empty
      rw [List.isEmpty_iff] at empty
      exact ⟨sharedLedger.mined, by rw [empty, List.nil_append], by simp [empty]⟩
    · exact .refl l

/-- A play of two jobs whose transactions come in one block. -/
def sharedPlay : History (dialogue Int) × Crowd (dialogue Int) (Site Ledger) (Except Trouble (Outcome Int)) :=
  Crowd.play (oracle honestReplier sampleProof)
    (List.replicate 33 (some 0) ++ List.replicate 31 (some 1) ++ none :: List.replicate 7 (some 0) ++
      List.replicate 7 (some 1))
    ⟨[Job.sample "A", .sample "B"].map Job.activity, {}, ⟨[], .nil, .nil⟩⟩

/-- Two runs are done whose transactions came in one block. The record of the first names the entry of the
second, so it is not verified. -/
theorem index_last_of_block_shared : ∃ h c o record,
    Crowd.Run (arena ledgerNode) ⟨[Job.sample "A", .sample "B"].map Job.activity, {}, ⟨[], .nil, .nil⟩⟩ h c ∧
    c.tasks[0]? = some (.done (.ok o)) ∧ o.stage = .done ∧ o.submission = some record ∧ record.index = 1 ∧
    LastOf c.state.node.entries record.blockNumber 1 ∧ ¬ LastOf c.state.node.entries record.blockNumber 0 ∧
    o.verified = some false ∧
    ∃ bytes, Commitment.toBytes record.commitment = .ok bytes ∧ ¬ c.state.node.Holds record.index bytes := by
  have run : Crowd.Run (arena ledgerNode) _ sharedPlay.1 sharedPlay.2 := Crowd.run_play _ _ _
  have ends : (outcome? sharedPlay.2 0).any (fun o => o.stage = .done ∧ o.verified = some false ∧
      o.submission.map Record.index = some 1) = true := by decide +kernel
  obtain ⟨o, ended, done, unverified, hindex⟩ := exists_of_outcome? ends
  have hjob : [Job.sample "A", .sample "B"][0]? = some (.sample "A") := rfl
  obtain ⟨-, position, check⟩ := index_last_of_block run hjob rfl ended
  obtain ⟨record, bytes, submitted, -, hbytes, iff⟩ := check done
  obtain ⟨n, p, own, hn, last, -⟩ := position record submitted
  rw [submitted, Option.map_some, Option.some.injEq] at hindex
  obtain rfl : n = 1 := by omega
  refine ⟨_, _, o, record, run, ended, done, submitted, hindex, last, ?_, unverified, bytes, hbytes, ?_⟩
  · intro first
    cases last.unique first
  · rw [← iff, unverified]
    exact nofun

end ProofRelay.Relay
