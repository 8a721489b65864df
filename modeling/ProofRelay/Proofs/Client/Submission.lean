import Mathlib.Logic.Function.Basic
import ProofRelay.Proofs.Client.Calls
import ProofRelay.Proofs.Client.Signing
import ProofRelay.Proofs.Client.Site

/-!
A submission as a small machine. Its points are the places at which it has a question open, with what it
knows there; a move is what one reply does. `At` says that an activity is what is left at a point, and
`at_start` that a submission is such an activity from its start on, so that every statement about many
submissions side by side can be made on points. Between taking and giving back the lock of its account a
submission is inside, and no two submissions of one account are inside at once.
-/

namespace ProofRelay.Client

open Simulation (Memory)

/-- A transaction to be signed and sent by a signer. -/
structure Submission where
  tx : Transaction
  signer : Signer

def Submission.account (s : Submission) : String := s.signer.address

def Submission.activity (cfg : Config) (s : Submission) : Activity dialogue (Except Trouble Receipt) :=
  (submit cfg s.tx s.signer).run

/-- Raw bytes are what the signer makes of the fields of the transaction with a nonce. -/
def Submission.Signs (s : Submission) (nonce : Int) (raw : Bytes) : Prop :=
  s.signer.sign (s.tx.given nonce) = .ok raw

/-- The account of a task's submission. -/
def accountOf (subs : List Submission) (i : Nat) : Option String := (subs[i]?).map Submission.account

theorem accountOf_eq {subs : List Submission} {i : Nat} {s : Submission} (hs : subs[i]? = some s) :
    accountOf subs i = some s.account := by
  rw [accountOf, hs, Option.map_some]

/-- Raw bytes that a node took, and the task that handed them over. -/
structure Broadcast where
  caller : Nat
  raw : Bytes

inductive Point where
  /-- Asks for the lock. -/
  | arriving
  /-- Has the lock, and asks the node for its count. -/
  | counting
  /-- Asks for the last nonce. -/
  | recalling (pending : Int)
  | sending (pending nonce : Int) (raw : Bytes)
  /-- The node has replied to the raw bytes, and the nonce is to be remembered. -/
  | recording (nonce : Int) (sent : Datum)
  /-- The node has refused, and the last nonce is to be forgotten. -/
  | refused (f : Fault)
  /-- Gives the lock back. -/
  | leaving (result : Except Trouble (Int × Datum))
  | awaiting (nonce : Int) (txHash : String)
  /-- No receipt has come, and the last nonce is to be forgotten. -/
  | lost (t : Trouble)
  | ended (result : Except Trouble Receipt)

namespace Point

def isInside : Point → Bool
  | .counting | .recalling _ | .sending _ _ _ | .recording _ _ | .refused _ | .leaving _ => true
  | _ => false

/-- Whether others may go on while a submission is at this point. -/
def isAtRest : Point → Bool
  | .recalling _ | .recording _ _ | .refused _ | .leaving _ | .lost _ => false
  | _ => true

/-- Where a submission begins: one of a stranger's transaction is over at once. -/
def start (s : Submission) : Point :=
  if s.tx.sender = s.account then .arriving else .ended (.error (.failure (strangerFailure s.tx s.account)))

def countTrouble (f : Fault) : Trouble :=
  if f.kind.isNode then .failure { kind := .submission, message := "Could not fetch nonce", detail := f.text }
  else .fault f

def counted (r : Except Fault Json) : Point :=
  match r.bind Json.toInt with
  | .ok pending => .recalling pending
  | .error f => .leaving (.error (countTrouble f))

def chosen (s : Submission) (pending : Int) (last : Option Int) : Point :=
  match signed s.tx s.signer (nonceAfter pending last) with
  | .ok raw => .sending pending (nonceAfter pending last) raw
  | .error f => .leaving (.error (.failure (signingFailure f)))

def answered (nonce : Int) : Except Fault Datum → Point
  | .ok sent => .recording nonce sent
  | .error f => if f.kind.isNode then .refused f else .leaving (.error (.fault f))

def left : Except Trouble (Int × Datum) → Point
  | .error t => .ended (.error t)
  | .ok (nonce, sent) =>
    match sentHash nonce sent with
    | .ok txHash => .awaiting nonce txHash
    | .error f => .ended (.error (.fault f))

def received (cfg : Config) (nonce : Int) (txHash : String) (reply : Except Fault Json) : Point :=
  match receiptFrom cfg txHash nonce reply with
  | .ok r => .ended (.ok r)
  | .error t => if isMissingReceipt t then .lost t else .ended (.error t)

end Point

/-- What one reply does to a submission. -/
inductive Moves (cfg : Config) (s : Submission) : Point → Exchange dialogue → Point → Prop where
  | lock : Moves cfg s .arriving ⟨.lock s.account, ()⟩ .counting
  | count (r : Except Fault Json) : Moves cfg s .counting ⟨.pendingCount s.account, r⟩ (.counted r)
  | retrieve (pending : Int) (last : Option Int) :
      Moves cfg s (.recalling pending) ⟨.lastNonce s.account, last⟩ (.chosen s pending last)
  | send (pending nonce : Int) (raw : Bytes) (r : Except Fault Datum) :
      Moves cfg s (.sending pending nonce raw) ⟨.send raw, r⟩ (.answered nonce r)
  | record (nonce : Int) (sent : Datum) :
      Moves cfg s (.recording nonce sent) ⟨.rememberNonce s.account nonce, ()⟩ (.leaving (.ok (nonce, sent)))
  | forget (f : Fault) :
      Moves cfg s (.refused f) ⟨.forgetNonce s.account, ()⟩ (.leaving (.error (.failure (sendingFailure f))))
  | unlock (result : Except Trouble (Int × Datum)) :
      Moves cfg s (.leaving result) ⟨.unlock s.account, ()⟩ (.left result)
  | receive (nonce : Int) (txHash : String) (r : Except Fault Json) :
      Moves cfg s (.awaiting nonce txHash) ⟨.awaitReceipt txHash, r⟩ (.received cfg nonce txHash r)
  | lose (t : Trouble) : Moves cfg s (.lost t) ⟨.forgetNonce s.account, ()⟩ (.ended (.error t))

/-- An activity is what is left of a submission at a point. -/
inductive At (cfg : Config) (s : Submission) : Point → Activity dialogue (Except Trouble Receipt) → Prop where
  | ended (result : Except Trouble Receipt) : At cfg s (.ended result) (.done result)
  | ask {p : Point} {q : Ask} {k : Reply q → Activity dialogue (Except Trouble Receipt)}
      (next : Reply q → Point) (moves : ∀ r, Moves cfg s p ⟨q, r⟩ (next r))
      (rest : ∀ r, At cfg s (next r) (k r)) : At cfg s p (.ask q k)

section Start

open Attempt

variable (cfg : Config) (s : Submission)

@[simp] theorem run_ask_bind {β : Type} (q : Ask) (f : Reply q → Attempt dialogue β) :
    (ask q >>= f).run = .ask q fun r => (f r).run := rfl

theorem run_demand_bind {α β : Type} (r : Except Fault α) (f : α → Attempt dialogue β) :
    (demand r >>= f).run = match r with
      | .ok x => (f x).run
      | .error g => .done (.error (.fault g)) := by
  cases r <;> rfl

theorem run_nextNonce (a : String) : (nextNonce a).run =
    .ask (.pendingCount a) fun r =>
      match r.bind Json.toInt with
      | .error f => .done (.error (Point.countTrouble f))
      | .ok pending => .ask (.lastNonce a) fun last => .done (.ok (nonceAfter pending last)) := by
  rw [nextNonce, run_bind, onNode, run_outcome_bind, run_ask_bind, Activity.ask_bind, Activity.ask_bind]
  congr 1
  funext r
  rcases r.bind Json.toInt with f | pending
  · change ExceptT.run (Attempt.ofExcept (.error (Point.countTrouble f))) >>= _ = _
    rfl
  · rfl

theorem run_sendRaw (a : String) (nonce : Int) (raw : Bytes) : (sendRaw a nonce raw).run =
    .ask (.send raw) fun r =>
      match r with
      | .ok sent => .ask (.rememberNonce a nonce) fun _ => .done (.ok (nonce, sent))
      | .error f =>
        if f.kind.isNode then .ask (.forgetNonce a) fun _ => .done (.error (.failure (sendingFailure f)))
        else .done (.error (.fault f)) := by
  rw [sendRaw, run_ask_bind]
  congr 1
  funext r
  rcases r with f | sent
  · dsimp only
    split <;> rfl
  · rfl

theorem run_broadcast (tx : Transaction) (signer : Signer) : (broadcast tx signer).run =
    .ask (.pendingCount signer.address) fun r =>
      match r.bind Json.toInt with
      | .error f => .done (.error (Point.countTrouble f))
      | .ok pending => .ask (.lastNonce signer.address) fun last =>
        match signed tx signer (nonceAfter pending last) with
        | .error f => .done (.error (.failure (signingFailure f)))
        | .ok raw => (sendRaw signer.address (nonceAfter pending last) raw).run := by
  rw [broadcast, run_bind, run_nextNonce, Activity.ask_bind]
  congr 1
  funext r
  rcases r.bind Json.toInt with f | pending <;> rfl

theorem run_locked_bind {α β : Type} (a : String) (work : Attempt dialogue α) (f : α → Attempt dialogue β) :
    (locked a work >>= f).run = .ask (.lock a) fun _ => work.run >>= fun result =>
      .ask (.unlock a) fun _ => match result with
        | .ok x => (f x).run
        | .error t => .done (.error t) := by
  rw [run_bind, locked, run_ask_bind, Activity.ask_bind]
  congr 1
  funext _
  rw [run_outcome_bind, Activity.bind_assoc]
  rfl

theorem run_awaitReceipt (txHash : String) (nonce : Int) : (awaitReceipt cfg txHash nonce).run =
    .ask (.awaitReceipt txHash) fun r => .done (receiptFrom cfg txHash nonce r) := rfl

/-- A receipt says what the node's document says, for the transaction and the nonce it is asked about. -/
theorem receiptOf_eq_ok {txHash : String} {nonce : Int} {v : Json} {r : Receipt}
    (h : receiptOf txHash nonce v = .ok r) :
    (v.member "blockNumber").bind Json.toInt = .ok r.blockNumber ∧
      (v.member "status").bind Json.toInt = .ok r.status ∧ r.txHash = txHash ∧ r.nonce = nonce := by
  unfold receiptOf at h
  obtain ⟨block, hb, h⟩ := except_bind_eq_ok.1 h
  obtain ⟨number, hn, h⟩ := except_bind_eq_ok.1 h
  obtain ⟨mark, hm, h⟩ := except_bind_eq_ok.1 h
  obtain ⟨status, hs, h⟩ := except_bind_eq_ok.1 h
  obtain ⟨gasUsed, _, h⟩ := except_bind_eq_ok.1 h
  obtain rfl := Except.ok.inj h
  refine ⟨?_, ?_, rfl, rfl⟩
  · rw [hb]
    exact hn
  · rw [hm]
    exact hs

/-- Only a wait that took too long makes a receipt missing. -/
theorem isMissingReceipt_lookupTrouble (txHash : String) (f : Fault) :
    isMissingReceipt (lookupTrouble cfg txHash f) = (f.kind == .timeExhausted) := by
  unfold lookupTrouble
  split
  · rename_i late
    rw [late]
    rfl
  · rename_i late
    rw [Bool.not_eq_true _ |>.mp late]
    split <;> rfl

/-- The hash of a transaction that was sent is told with its nonce, which must have a text. -/
theorem sentHash_eq_ok_iff {nonce : Int} {sent : Datum} {txHash : String} :
    sentHash nonce sent = .ok txHash ↔ hashText sent = .ok txHash ∧ Decimal.fits nonce = true := by
  rw [sentHash, except_bind_eq_ok]
  constructor
  · rintro ⟨hash, hashed, rest⟩
    obtain ⟨_, told, same⟩ := except_bind_eq_ok.1 rest
    obtain rfl := Except.ok.inj same
    exact ⟨hashed, Decimal.showAll_eq_ok_iff.1 told nonce (List.mem_singleton_self nonce)⟩
  · rintro ⟨hashed, fits⟩
    refine ⟨txHash, hashed, ?_⟩
    rw [Decimal.showAll_eq_ok_iff.2 (List.forall_mem_singleton.2 fits)]
    rfl

theorem sentHash_of_long {nonce : Int} {sent : Datum} {txHash : String} (hash : hashText sent = .ok txHash)
    (long : Decimal.fits nonce = false) : sentHash nonce sent = .error Decimal.unwritable := by
  rw [sentHash, hash]
  exact congrArg (· >>= fun _ => Except.ok txHash) (Decimal.showAll_of_not_fits (List.mem_singleton_self _) long)

namespace Point

theorem counted_cases (r : Except Fault Json) :
    (∃ v pending, r = .ok v ∧ Json.toInt v = .ok pending ∧ counted r = .recalling pending) ∨
      ∃ t, counted r = .leaving (.error t) := by
  rcases r with f | v
  · exact .inr ⟨_, rfl⟩
  · cases hv : Json.toInt v with
    | ok pending =>
      have hr : (Except.ok v).bind Json.toInt = .ok pending := hv
      exact .inl ⟨v, pending, rfl, hv, by rw [counted, hr]⟩
    | error f =>
      have hr : (Except.ok v).bind Json.toInt = .error f := hv
      exact .inr ⟨_, by rw [counted, hr]⟩

theorem answered_cases (nonce : Int) (r : Except Fault Datum) :
    (∃ sent, r = .ok sent ∧ answered nonce r = .recording nonce sent) ∨
      (∃ f, r = .error f ∧ f.kind.isNode = true ∧ answered nonce r = .refused f) ∨
      ∃ f, r = .error f ∧ answered nonce r = .leaving (.error (.fault f)) := by
  rcases r with f | sent
  · by_cases hnode : f.kind.isNode = true
    · exact .inr (.inl ⟨f, rfl, hnode, if_pos hnode⟩)
    · exact .inr (.inr ⟨f, rfl, if_neg hnode⟩)
  · exact .inl ⟨sent, rfl, rfl⟩

theorem left_cases (r : Except Trouble (Int × Datum)) :
    (∃ t, left r = .ended (.error t)) ∨
      ∃ nonce sent txHash, r = .ok (nonce, sent) ∧ left r = .awaiting nonce txHash := by
  rcases r with t | ⟨nonce, sent⟩
  · exact .inl ⟨t, rfl⟩
  · rw [left]
    rcases sentHash nonce sent with f | txHash
    · exact .inl ⟨.fault f, rfl⟩
    · exact .inr ⟨nonce, sent, txHash, rfl, rfl⟩

theorem received_cases (nonce : Int) (txHash : String) (r : Except Fault Json) :
    (∃ f, r = .error f ∧ f.kind = .timeExhausted ∧
        received cfg nonce txHash r = .lost (lookupTrouble cfg txHash f)) ∨
      (∃ t, received cfg nonce txHash r = .ended (.error t)) ∨
      ∃ receipt : Receipt, receipt.nonce = nonce ∧ received cfg nonce txHash r = .ended (.ok receipt) := by
  rw [received]
  rcases receiptFrom_cases cfg txHash nonce r with ⟨f, rfl, h⟩ | ⟨v, f, -, -, h⟩ | ⟨v, receipt, -, read, h⟩
  · rw [h]
    dsimp only
    rw [isMissingReceipt_lookupTrouble]
    by_cases late : f.kind = .timeExhausted
    · exact .inl ⟨f, rfl, late, if_pos (beq_iff_eq.2 late)⟩
    · exact .inr (.inl ⟨_, if_neg (by simpa using late)⟩)
  · rw [h]
    exact .inr (.inl ⟨_, rfl⟩)
  · rcases h with ⟨-, h⟩ | ⟨-, -, h⟩ | ⟨-, -, h⟩
    · rw [h]
      exact .inr (.inl ⟨_, rfl⟩)
    · rw [h]
      exact .inr (.inl ⟨_, rfl⟩)
    · rw [h]
      exact .inr (.inr ⟨receipt, (receiptOf_eq_ok read).2.2.2, rfl⟩)

end Point

/-- What is left of a submission once its transaction is sent. -/
def afterSending (sent : Int × Datum) : Attempt dialogue Receipt := do
  let txHash ← demand (sentHash sent.1 sent.2)
  match ← (awaitReceipt cfg txHash sent.1).outcome with
  | .ok r => return r
  | .error t =>
    if isMissingReceipt t then ask (.forgetNonce s.account)
    Attempt.ofExcept (.error t)

theorem submit_eq : submit cfg s.tx s.signer =
    if s.tx.sender = s.account then locked s.account (broadcast s.tx s.signer) >>= afterSending cfg s
    else Attempt.fail (strangerFailure s.tx s.account) := rfl

variable {cfg s} in
/-- A broadcast that succeeds asks four questions. -/
theorem yields_broadcast_ok {es : List (Exchange dialogue)} {nonce : Int} {sent : Datum}
    (yields : Yields (broadcast s.tx s.signer) es (.ok (nonce, sent))) :
    ∃ count last raw, es = [⟨.pendingCount s.account, .ok count⟩, ⟨.lastNonce s.account, last⟩,
      ⟨.send raw, .ok sent⟩, ⟨.rememberNonce s.account nonce, ()⟩] ∧ s.Signs nonce raw := by
  rw [Yields, run_broadcast, Activity.path_ask_done_iff] at yields
  obtain ⟨r, es, rfl, counted⟩ := yields
  cases hpending : r.bind Json.toInt with
  | error f =>
    rw [hpending] at counted
    cases (Activity.path_done_iff.1 counted).2
  | ok pending =>
    rw [hpending] at counted
    obtain ⟨last, es, rfl, recalled⟩ := Activity.path_ask_done_iff.1 counted
    cases hraw : signed s.tx s.signer (nonceAfter pending last) with
    | error f =>
      rw [hraw] at recalled
      cases (Activity.path_done_iff.1 recalled).2
    | ok raw =>
      rw [hraw] at recalled
      dsimp only at recalled
      rw [run_sendRaw] at recalled
      obtain ⟨d, es, rfl, replied⟩ := Activity.path_ask_done_iff.1 recalled
      rcases d with f | d
      · dsimp only at replied
        split at replied
        · obtain ⟨_, es, rfl, forgotten⟩ := Activity.path_ask_done_iff.1 replied
          cases (Activity.path_done_iff.1 forgotten).2
        · cases (Activity.path_done_iff.1 replied).2
      · obtain ⟨_, es, rfl, recorded⟩ := Activity.path_ask_done_iff.1 replied
        obtain ⟨rfl, h⟩ := Activity.path_done_iff.1 recorded
        obtain ⟨rfl, rfl⟩ := Prod.mk.inj (Except.ok.inj (Activity.done.inj h))
        rcases r with f | count
        · cases hpending
        · exact ⟨count, last, raw, rfl, hraw⟩

variable {cfg s} in
/-- After a broadcast there is one more question to success, the one for the receipt. -/
theorem yields_afterSending_ok {es : List (Exchange dialogue)} {nonce : Int} {sent : Datum} {receipt : Receipt}
    (yields : Yields (afterSending cfg s (nonce, sent)) es (.ok receipt)) :
    ∃ v, es = [⟨.awaitReceipt receipt.txHash, .ok v⟩] ∧ hashText sent = .ok receipt.txHash ∧
      receiptOf receipt.txHash nonce v = .ok receipt ∧ receipt.status = 1 := by
  rw [afterSending, Yields, run_demand_bind] at yields
  cases hhash : sentHash nonce sent with
  | error f =>
    rw [hhash] at yields
    cases (Activity.path_done_iff.1 yields).2
  | ok txHash =>
    rw [hhash] at yields
    dsimp only at yields
    rw [run_outcome_bind, run_awaitReceipt, Activity.ask_bind, Activity.path_ask_done_iff] at yields
    obtain ⟨r, es, rfl, received⟩ := yields
    rw [Activity.done_bind] at received
    cases hreceipt : receiptFrom cfg txHash nonce r with
    | error t =>
      rw [hreceipt] at received
      dsimp only at received
      split at received
      · obtain ⟨_, es, rfl, forgotten⟩ := Activity.path_ask_done_iff.1 received
        cases (Activity.path_done_iff.1 forgotten).2
      · cases (Activity.path_done_iff.1 received).2
    | ok found =>
      rw [hreceipt] at received
      obtain ⟨rfl, h⟩ := Activity.path_done_iff.1 received
      obtain rfl := Except.ok.inj (Activity.done.inj h)
      rcases receiptFrom_cases cfg txHash nonce r with ⟨f, -, h⟩ | ⟨v, f, -, -, h⟩ | ⟨v, found, rfl, read, h⟩
      · cases h.symm.trans hreceipt
      · cases h.symm.trans hreceipt
      · rcases h with ⟨-, h⟩ | ⟨-, -, h⟩ | ⟨mined, -, h⟩
        · cases h.symm.trans hreceipt
        · cases h.symm.trans hreceipt
        · obtain rfl := Except.ok.inj (h.symm.trans hreceipt)
          obtain rfl : found.txHash = txHash := (receiptOf_eq_ok read).2.2.1
          exact ⟨v, rfl, (sentHash_eq_ok_iff.1 hhash).1, read, mined⟩

variable {cfg s} in
/-- A submission that returns a receipt has asked seven questions: the node took its raw bytes, and
confirms under the hash that it returned for them that they are mined. -/
theorem yields_submit_ok {es : List (Exchange dialogue)} {receipt : Receipt}
    (yields : Yields (submit cfg s.tx s.signer) es (.ok receipt)) :
    ∃ count last nonce raw sent v,
      es = [⟨.lock s.account, ()⟩, ⟨.pendingCount s.account, .ok count⟩, ⟨.lastNonce s.account, last⟩,
        ⟨.send raw, .ok sent⟩, ⟨.rememberNonce s.account nonce, ()⟩, ⟨.unlock s.account, ()⟩,
        ⟨.awaitReceipt receipt.txHash, .ok v⟩] ∧ hashText sent = .ok receipt.txHash ∧
      receiptOf receipt.txHash nonce v = .ok receipt ∧ receipt.status = 1 ∧ s.Signs nonce raw := by
  rw [submit_eq] at yields
  split at yields
  · rw [Yields, run_locked_bind, Activity.path_ask_done_iff] at yields
    obtain ⟨_, es, rfl, entered⟩ := yields
    obtain ⟨result, es, fs, rfl, inside, leaving⟩ := Activity.path_bind_done_iff.1 entered
    obtain ⟨_, fs, rfl, outside⟩ := Activity.path_ask_done_iff.1 leaving
    rcases result with t | ⟨nonce, sent⟩
    · cases (Activity.path_done_iff.1 outside).2
    · obtain ⟨count, last, raw, rfl, signs⟩ := yields_broadcast_ok inside
      obtain ⟨v, rfl, hhash, hreceipt, mined⟩ := yields_afterSending_ok outside
      exact ⟨count, last, nonce, raw, sent, v, rfl, hhash, hreceipt, mined, signs⟩
  · cases (yields_fail_iff.1 yields).2

theorem at_left (sent : Int × Datum) : At cfg s (.left (.ok sent)) (afterSending cfg s sent).run := by
  obtain ⟨nonce, d⟩ := sent
  rw [afterSending, run_demand_bind, Point.left]
  rcases sentHash nonce d with f | txHash
  · exact .ended _
  · dsimp only
    rw [run_outcome_bind, run_awaitReceipt, Activity.ask_bind]
    refine .ask _ (.receive nonce txHash) fun r => ?_
    rw [Activity.done_bind, Point.received]
    rcases receiptFrom cfg txHash nonce r with t | receipt
    · dsimp only
      split
      · exact .ask _ (fun _ => .lose _) fun _ => .ended _
      · exact .ended _
    · exact .ended _

theorem at_leaving (result : Except Trouble (Int × Datum)) :
    At cfg s (.leaving result) (.ask (.unlock s.account) fun _ => match result with
      | .ok sent => (afterSending cfg s sent).run
      | .error t => .done (.error t)) := by
  refine .ask _ (fun _ => .unlock result) fun _ => ?_
  rcases result with t | sent
  · exact .ended _
  · exact at_left cfg s sent

/-- A submission is at its first point to begin with. -/
theorem at_start : At cfg s (.start s) (s.activity cfg) := by
  rw [Submission.activity, submit_eq, Point.start]
  split
  · rw [run_locked_bind, run_broadcast]
    refine .ask _ (fun _ => .lock) fun _ => ?_
    rw [Activity.ask_bind]
    refine .ask _ .count fun r => ?_
    dsimp only [Point.counted]
    rcases r.bind Json.toInt with f | pending
    · exact at_leaving cfg s _
    · dsimp only
      rw [Activity.ask_bind]
      refine .ask _ (.retrieve pending) fun last => ?_
      dsimp only [Point.chosen]
      rcases signed s.tx s.signer (nonceAfter pending last) with f | raw
      · exact at_leaving cfg s _
      · dsimp only
        rw [run_sendRaw, Activity.ask_bind]
        refine .ask _ (.send pending _ raw) fun r => ?_
        rcases r with f | sent
        · dsimp only [Point.answered]
          split
          · exact .ask _ (fun _ => .forget f) fun _ => at_leaving cfg s _
          · exact at_leaving cfg s _
        · exact .ask _ (fun _ => .record _ sent) fun _ => at_leaving cfg s _
  · exact .ended _

end Start

section Crowd

variable {ν : Type} {N : Conduct ν} {cfg : Config}

/-- All that task `i` can do at a point, together with what it does to the memory and the node. -/
inductive Acts (N : Conduct ν) (cfg : Config) (s : Submission) (i : Nat) :
    Point → Site ν → Exchange dialogue → Point → Site ν → Prop where
  | lock {m : Memory} {n : ν} (free : m.locks.lookup s.account = none) :
      Acts N cfg s i .arriving ⟨m, n⟩ ⟨.lock s.account, ()⟩ .counting ⟨m.putLock s.account ⟨i, []⟩, n⟩
  | count {m : Memory} {n n' : ν} {r : Except Fault Json}
      (reply : N.Replies n i ⟨.pendingCount s.account, r⟩ n') :
      Acts N cfg s i .counting ⟨m, n⟩ ⟨.pendingCount s.account, r⟩ (.counted r) ⟨m, n'⟩
  | retrieve {m : Memory} {n : ν} (pending : Int) :
      Acts N cfg s i (.recalling pending) ⟨m, n⟩ ⟨.lastNonce s.account, m.nonces.lookup s.account⟩
        (.chosen s pending (m.nonces.lookup s.account)) ⟨m, n⟩
  | send {m : Memory} {n n' : ν} (pending nonce : Int) {raw : Bytes} {r : Except Fault Datum}
      (reply : N.Replies n i ⟨.send raw, r⟩ n') :
      Acts N cfg s i (.sending pending nonce raw) ⟨m, n⟩ ⟨.send raw, r⟩ (.answered nonce r) ⟨m, n'⟩
  | record {m : Memory} {n : ν} (nonce : Int) (sent : Datum) :
      Acts N cfg s i (.recording nonce sent) ⟨m, n⟩ ⟨.rememberNonce s.account nonce, ()⟩
        (.leaving (.ok (nonce, sent))) ⟨m.withNonce s.account nonce, n⟩
  | forget {m : Memory} {n : ν} (f : Fault) :
      Acts N cfg s i (.refused f) ⟨m, n⟩ ⟨.forgetNonce s.account, ()⟩
        (.leaving (.error (.failure (sendingFailure f)))) ⟨m.withoutNonce s.account, n⟩
  | unlock {m : Memory} {n : ν} (result : Except Trouble (Int × Datum)) :
      Acts N cfg s i (.leaving result) ⟨m, n⟩ ⟨.unlock s.account, ()⟩ (.left result) ⟨m.release s.account, n⟩
  | receive {m : Memory} {n n' : ν} (nonce : Int) {txHash : String} {r : Except Fault Json}
      (reply : N.Replies n i ⟨.awaitReceipt txHash, r⟩ n') :
      Acts N cfg s i (.awaiting nonce txHash) ⟨m, n⟩ ⟨.awaitReceipt txHash, r⟩
        (.received cfg nonce txHash r) ⟨m, n'⟩
  | lose {m : Memory} {n : ν} (t : Trouble) :
      Acts N cfg s i (.lost t) ⟨m, n⟩ ⟨.forgetNonce s.account, ()⟩ (.ended (.error t))
        ⟨m.withoutNonce s.account, n⟩

theorem acts_of_moves {s : Submission} {i : Nat} {p p' : Point} {e : Exchange dialogue} {w w' : Site ν}
    (move : Moves cfg s p e p') (answer : Site.Answers N w i e w') : Acts N cfg s i p w e p' w' := by
  cases answer with
  | memory recalls =>
    cases recalls with
    | knownChainId => cases move
    | rememberChainId n => cases move
    | lock a free =>
      cases move
      obtain ⟨hfree, rfl⟩ := (acquire_eq_true_iff _ _ _).1 free
      exact .lock hfree
    | unlock a => cases move; exact .unlock _
    | lastNonce a => cases move; exact .retrieve _
    | rememberNonce a n => cases move; exact .record _ _
    | forgetNonce a =>
      cases move with
      | forget f => exact .forget f
      | lose t => exact .lose t
  | node asked reply =>
    cases move with
    | count r => exact .count reply
    | send pending nonce raw r => exact .send pending nonce reply
    | receive nonce txHash r => exact .receive nonce reply
    | lock | retrieve | record | forget | unlock | lose => cases asked

/-- Every task of a list is what is left of its submission at a point. -/
structure Placed (cfg : Config) (subs : List Submission) (points : Nat → Point)
    (tasks : List (Activity dialogue (Except Trouble Receipt))) : Prop where
  length_eq : tasks.length = subs.length
  place : ∀ i s a, subs[i]? = some s → tasks[i]? = some a → At cfg s (points i) a

/-- The points at which submissions begin. -/
def startPoints (subs : List Submission) (i : Nat) : Point :=
  match subs[i]? with
  | some s => .start s
  | none => .arriving

theorem placed_start (subs : List Submission) :
    Placed cfg subs (startPoints subs) (subs.map (Submission.activity cfg)) := by
  refine ⟨List.length_map _, ?_⟩
  intro i s a hs ha
  rw [List.getElem?_map, hs, Option.map_some, Option.some.injEq] at ha
  subst ha
  simp only [startPoints, hs]
  exact at_start cfg s

theorem nonempty_reply (q : Ask) : Nonempty (Reply q) := by
  cases q <;> first | exact ⟨()⟩ | exact ⟨none⟩ | exact ⟨.error ⟨.runtime, ""⟩⟩

theorem At.next {s : Submission} {p : Point} {q : Ask} {k : Reply q → Activity dialogue (Except Trouble Receipt)}
    (place : At cfg s p (.ask q k)) (r : Reply q) : ∃ p', Moves cfg s p ⟨q, r⟩ p' ∧ At cfg s p' (k r) := by
  cases place with
  | ask next moves rest => exact ⟨next r, moves r, rest r⟩

/-- Every exchange of a submission is one of its moves. -/
theorem At.moves {s : Submission} {p : Point} {a b : Activity dialogue (Except Trouble Receipt)}
    {es : List (Exchange dialogue)} (place : At cfg s p a) (path : Activity.Path a es b) :
    ∀ e ∈ es, ∃ p p', Moves cfg s p e p' := by
  induction path generalizing p with
  | nil => nofun
  | @cons q k r es b _ ih =>
    obtain ⟨p', move, place⟩ := place.next r
    intro e he
    rcases List.mem_cons.1 he with rfl | he
    · exact ⟨p, p', move⟩
    · exact ih place e he

/-- The questions of a submission. -/
def Ask.isSubmitting : Ask → Bool
  | .lock _ | .unlock _ | .pendingCount _ | .lastNonce _ | .send _ | .rememberNonce _ _ | .forgetNonce _
  | .awaitReceipt _ => true
  | _ => false

theorem asks_submit {tx : Transaction} {signer : Signer} {es : List (Exchange dialogue)} {r : Except Trouble Receipt}
    (yields : Attempt.Yields (submit cfg tx signer) es r) : ∀ e ∈ es, e.ask.isSubmitting = true := by
  intro e mem
  obtain ⟨p, p', move⟩ := (at_start cfg ⟨tx, signer⟩).moves yields e mem
  cases move <;> rfl

theorem At.isAtRest {s : Submission} {p : Point} {a : Activity dialogue (Except Trouble Receipt)}
    (place : At cfg s p a) (waits : Crowd.Waits N.setting a) : p.isAtRest = true := by
  cases place with
  | ended result => rfl
  | @ask p q k next moves rest =>
    change Ask.isPrompt q = false at waits
    obtain ⟨r⟩ := nonempty_reply q
    have move := moves r
    generalize next r = p' at move
    cases move <;> first | rfl | cases waits

/-- What holds of every submission at its point holds after one of them went on, if it holds of that one. -/
theorem forall_update {subs : List Submission} {points : Nat → Point} {i : Nat} {s : Submission} {p : Point}
    {P : Nat → Submission → Point → Prop} (hs : subs[i]? = some s) (own : P i s p)
    (others : ∀ j s', j ≠ i → subs[j]? = some s' → P j s' (points j)) :
    ∀ j s', subs[j]? = some s' → P j s' (Function.update points i p j) := by
  intro j s' hs'
  by_cases hj : j = i
  · subst hj
    rw [hs, Option.some.injEq] at hs'
    rw [Function.update_self]
    exact hs' ▸ own
  · rw [Function.update_of_ne hj]
    exact others j s' hj hs'

/-- One task goes on to another point, and the others stay. -/
theorem Placed.set {subs : List Submission} {points : Nat → Point} {i : Nat} {s : Submission} {p : Point}
    {tasks : List (Activity dialogue (Except Trouble Receipt))}
    {a : Activity dialogue (Except Trouble Receipt)} (placed : Placed cfg subs points tasks)
    (hs : subs[i]? = some s) (place : At cfg s p a) :
    Placed cfg subs (Function.update points i p) (tasks.set i a) := by
  refine ⟨by simpa using placed.length_eq, ?_⟩
  intro j s' b hs'
  revert b
  refine forall_update (P := fun j s' q => ∀ b, (tasks.set i a)[j]? = some b → At cfg s' q b) hs ?_ ?_ j s' hs'
  · intro b hb
    have hlt : i < tasks.length := by simpa using (List.getElem?_eq_some_iff.1 hb).1
    rw [List.getElem?_set_self hlt, Option.some.injEq] at hb
    exact hb ▸ place
  · intro j s' hj hs' b hb
    rw [List.getElem?_set_ne (Ne.symm hj)] at hb
    exact placed.place j s' b hs' hb

/-- A step of the crowd is an act of one submission, and the others rest meanwhile. -/
theorem Placed.step {subs : List Submission} {points : Nat → Point} {i : Nat} {e : Exchange dialogue}
    {c c' : Crowd dialogue (Site ν) (Except Trouble Receipt)} (placed : Placed cfg subs points c.tasks)
    (step : Crowd.Step N.setting c i e c') :
    ∃ s p, subs[i]? = some s ∧ Acts N cfg s i (points i) c.state e p c'.state ∧
      Placed cfg subs (Function.update points i p) c'.tasks ∧
      ∀ j s', j ≠ i → subs[j]? = some s' → (points j).isAtRest = true := by
  cases step with
  | @reply q k r w task others answer =>
    have hi : i < c.tasks.length := (List.getElem?_eq_some_iff.1 task).1
    obtain ⟨s, hs⟩ : ∃ s, subs[i]? = some s :=
      ⟨_, List.getElem?_eq_getElem (placed.length_eq ▸ hi)⟩
    obtain ⟨p, move, rest⟩ := (placed.place i s _ hs task).next r
    refine ⟨s, p, hs, acts_of_moves move answer, placed.set hs rest, ?_⟩
    intro j s' hj hs'
    have hlt : j < c.tasks.length := placed.length_eq ▸ (List.getElem?_eq_some_iff.1 hs').1
    have ha := List.getElem?_eq_getElem hlt
    exact (placed.place j s' _ hs' ha).isAtRest (others j _ hj ha)

theorem Acts.moves {s : Submission} {i : Nat} {p p' : Point} {e : Exchange dialogue} {w w' : Site ν}
    (acts : Acts N cfg s i p w e p' w') : Moves cfg s p e p' ∧ Site.Answers N w i e w' := by
  cases acts with
  | lock free => exact ⟨.lock, .memory (.lock _ ((acquire_eq_true_iff _ _ _).2 ⟨free, rfl⟩))⟩
  | count reply => exact ⟨.count _, .node rfl reply⟩
  | retrieve pending => exact ⟨.retrieve _ _, .memory (.lastNonce _)⟩
  | send pending nonce reply => exact ⟨.send _ _ _ _, .node rfl reply⟩
  | record nonce sent => exact ⟨.record _ _, .memory (.rememberNonce _ _)⟩
  | forget f => exact ⟨.forget _, .memory (.forgetNonce _)⟩
  | unlock result => exact ⟨.unlock _, .memory (.unlock _)⟩
  | receive nonce reply => exact ⟨.receive _ _ _, .node rfl reply⟩
  | lose t => exact ⟨.lose _, .memory (.forgetNonce _)⟩

/-- What holds of the points, the memory and the node at first, and stays through every act of a
submission and every drift, holds after every run. -/
theorem Placed.invariant {subs : List Submission} {points : Nat → Point}
    {c c' : Crowd dialogue (Site ν) (Except Trouble Receipt)} {h : History dialogue}
    (placed : Placed cfg subs points c.tasks) (run : Crowd.Run N.setting c h c')
    {I : History dialogue → (Nat → Point) → Site ν → Prop} (first : I [] points c.state)
    (act : ∀ h points i s e p w w', subs[i]? = some s → Acts N cfg s i (points i) w e p w' →
      (∀ j s', j ≠ i → subs[j]? = some s' → (points j).isAtRest = true) → I h points w →
      I (h ++ [(i, e)]) (Function.update points i p) w')
    (drift : ∀ h points m n n', N.Drifts n n' → I h points ⟨m, n⟩ → I h points ⟨m, n'⟩) :
    ∃ points', Placed cfg subs points' c'.tasks ∧ I h points' c'.state := by
  induction run with
  | nil => exact ⟨points, placed, first⟩
  | step _ last ih =>
    obtain ⟨points', placed', hI⟩ := ih
    obtain ⟨s, p, hs, acts, placed'', others⟩ := placed'.step last
    exact ⟨_, placed'', act _ _ _ _ _ _ _ _ hs acts others hI⟩
  | @drift h c' w _ last ih =>
    obtain ⟨points', placed', hI⟩ := ih
    obtain ⟨m, n⟩ := w
    obtain ⟨rfl, hn⟩ := last
    exact ⟨points', placed', drift _ _ _ _ _ hn hI⟩

/-- A submission of a standard signer, for runs of two of them. -/
def Submission.sample : Submission :=
  ⟨{ sender := "A", recipient := .null, data := .text "0x", gas := 0, gasPrice := 0, chainId := 1 },
    .standard "A" fun _ => ⟨1, 1, true⟩⟩

theorem legible_samples (n : Nat) :
    ∀ s ∈ List.replicate n Submission.sample, s.account = "A" → s.signer.Legible s.tx := by
  intro s mem _
  rw [List.eq_of_mem_replicate mem]
  exact .standard "A" _

end Crowd

end ProofRelay.Client
