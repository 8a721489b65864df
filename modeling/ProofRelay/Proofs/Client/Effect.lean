import ProofRelay.Proofs.Client.Submission

/-!
What one submission does when nobody else uses the client. The memory answers it, and the node replies as it
likes. What the node replies decides the exit by which the submission leaves, and the exit decides all the
rest: the result, the raw bytes that the node was handed, and what is remembered of the account. There is
always an exit. The other accounts keep what is remembered of them, and the lock is free again.
-/

namespace ProofRelay.Client

open Simulation (Memory)

variable {ν α β : Type}

/-- The answers when there is one task only: those of the memory, and those of a node with a state. -/
def alone (node : (q : Ask) → ν → Reply q × ν) (q : Ask) (w : Site ν) : Reply q × Site ν :=
  match q with
  | .knownChainId => (w.memory.chainId, w)
  | .rememberChainId n => ((), ⟨{ w.memory with chainId := some n }, w.node⟩)
  | .lock a => ((), ⟨(w.memory.acquire 0 a).2, w.node⟩)
  | .unlock a => ((), ⟨w.memory.release a, w.node⟩)
  | .lastNonce a => (w.memory.nonces.lookup a, w)
  | .rememberNonce a n => ((), ⟨w.memory.withNonce a n, w.node⟩)
  | .forgetNonce a => ((), ⟨w.memory.withoutNonce a, w.node⟩)
  | q => ((node q w.node).1, ⟨w.memory, (node q w.node).2⟩)

/-- The raw bytes that a question hands to the node. -/
def Ask.raw? : Ask → Option Bytes
  | .send raw => some raw
  | _ => none

def handed (es : List (Exchange dialogue)) : List Bytes := es.filterMap fun e => e.ask.raw?

section Goes

variable {node : (q : Ask) → ν → Reply q × ν}

/-- An attempt by itself takes a site to another one, with a result, and hands raw bytes to the node. -/
structure Goes (node : (q : Ask) → ν → Reply q × ν) (a : Attempt dialogue α) (w : Site ν) (raws : List Bytes)
    (r : Except Trouble α) (w' : Site ν) : Prop where
  run : a.run.runWith (alone node) w = (r, w')
  hands : handed (a.run.trace (alone node) w) = raws

theorem goes_ofExcept (r : Except Trouble α) (w : Site ν) : Goes node (Attempt.ofExcept r) w [] r w := ⟨rfl, rfl⟩

/-- What follows a question follows the answer to it. -/
theorem goes_of_ask {a : Attempt dialogue α} {q : Ask} {k : Reply q → Activity dialogue (Except Trouble α)}
    {w w' : Site ν} {raws : List Bytes} {r : Except Trouble α} (run : a.run = .ask q k)
    (rest : Goes node (Attempt.ofActivity (k (alone node q w).1)) (alone node q w).2 raws r w') :
    Goes node a w (q.raw?.toList ++ raws) r w' := by
  constructor
  · rw [run]
    exact rest.run
  · rw [run, ← rest.hands]
    cases hq : q.raw? <;> simp [Activity.trace, handed, hq, Attempt.ofActivity, ExceptT.run, ExceptT.mk]

theorem Goes.bind {a : Attempt dialogue α} {f : α → Attempt dialogue β} {w w' w'' : Site ν} {raws raws' : List Bytes}
    {x : α} {r : Except Trouble β} (first : Goes node a w raws (.ok x) w') (second : Goes node (f x) w' raws' r w'') :
    Goes node (a >>= f) w (raws ++ raws') r w'' := by
  constructor
  · rw [Attempt.run_bind, Activity.runWith_bind, first.run]
    exact second.run
  · rw [Attempt.run_bind, Activity.trace_bind, first.run, handed, List.filterMap_append]
    exact congr (congrArg _ first.hands) second.hands

theorem Goes.bind_error {a : Attempt dialogue α} {f : α → Attempt dialogue β} {w w' : Site ν} {raws : List Bytes}
    {t : Trouble} (first : Goes node a w raws (.error t) w') : Goes node (a >>= f) w raws (.error t) w' := by
  constructor
  · rw [Attempt.run_bind, Activity.runWith_bind, first.run]
    rfl
  · rw [Attempt.run_bind, Activity.trace_bind, first.run]
    exact (congrArg handed (List.append_nil _)).trans first.hands

theorem Goes.outcome_bind {a : Attempt dialogue α} {f : Except Trouble α → Attempt dialogue β} {w w' w'' : Site ν}
    {raws raws' : List Bytes} {x : Except Trouble α} {r : Except Trouble β} (first : Goes node a w raws x w')
    (second : Goes node (f x) w' raws' r w'') : Goes node (a.outcome >>= f) w (raws ++ raws') r w'' := by
  constructor
  · rw [Attempt.run_outcome_bind, Activity.runWith_bind, first.run]
    exact second.run
  · rw [Attempt.run_outcome_bind, Activity.trace_bind, first.run, handed, List.filterMap_append]
    exact congr (congrArg _ first.hands) second.hands

end Goes

section Reaches

variable (node : (q : Ask) → ν → Reply q × ν) (s : Submission) (w : Site ν)

/-- The transaction is the signer's own, and the node tells how many it counts. -/
structure Counted (pending : Int) (n : ν) : Prop where
  own : s.tx.sender = s.account
  reply : ∃ count, node (.pendingCount s.account) w.node = (.ok count, n) ∧ count.toInt = .ok pending

/-- The signer was given the nonce that follows from the count and the memory, and made raw bytes of it. -/
structure Prepared (nonce : Int) (raw : Bytes) (n : ν) : Prop where
  counted : ∃ pending, Counted node s w pending n ∧ nonce = nonceAfter pending (w.memory.nonces.lookup s.account)
  signs : s.signer.sign (s.tx.given nonce) = .ok raw

/-- The node takes the raw bytes, and returns something for them. -/
structure Accepted (nonce : Int) (raw : Bytes) (sent : Datum) (n : ν) : Prop where
  reply : ∃ n', Prepared node s w nonce raw n' ∧ node (.send raw) n' = (.ok sent, n)

/-- The node is asked for the receipt under the hash that it returned for the raw bytes, once the nonce is told. -/
structure Awaited (nonce : Int) (raw : Bytes) (txHash : String) (found : Except Fault Json) : Prop where
  reply : ∃ sent n, Accepted node s w nonce raw sent n ∧ hashText sent = .ok txHash ∧ Decimal.fits nonce = true ∧
    (node (.awaitReceipt txHash) n).1 = found

end Reaches

/-- The ways out of a submission. -/
inductive Exit where
  /-- Nothing is sent. -/
  | unsent
  /-- The node refuses the raw bytes. -/
  | refused (raw : Bytes)
  /-- The node takes the raw bytes, and there is no receipt in time. -/
  | lost (raw : Bytes)
  /-- The node takes the raw bytes, and the transaction is reverted or its receipt cannot be got. -/
  | failed (raw : Bytes) (nonce : Int)
  | confirmed (raw : Bytes) (nonce : Int) (txHash : String)
  /-- The node fails in a way that no failure stands for, or replies with something that cannot be read or told. -/
  | astray (raw : Option Bytes) (used : Option Int) (f : Fault)

namespace Exit

/-- The raw bytes that the node has been handed. -/
def handed : Exit → List Bytes
  | .unsent => []
  | .refused raw | .lost raw | .failed raw _ | .confirmed raw _ _ => [raw]
  | .astray raw _ _ => raw.toList

/-- The results that belong to an exit. -/
def Gives : Exit → Except Trouble Receipt → Prop
  | .unsent, r | .refused _, r | .failed _ _, r => ∃ f, r = .error (.failure f) ∧ f.kind = .submission
  | .lost _, r => ∃ f, r = .error (.failure f) ∧ f.kind = .receiptTimeout
  | .confirmed _ nonce txHash, r =>
    ∃ receipt : Receipt, r = .ok receipt ∧ receipt.status = 1 ∧ receipt.txHash = txHash ∧ receipt.nonce = nonce
  | .astray _ _ f, r => r = .error (.fault f)

/-- What is remembered of an account after an exit. -/
def Leaves (account : String) (before after : Memory) : Exit → Prop
  | .unsent | .astray _ none _ => after.nonces = before.nonces
  | .refused _ | .lost _ => after.nonces.lookup account = none
  | .failed _ nonce | .confirmed _ nonce _ | .astray _ (some nonce) _ => after.nonces.lookup account = some nonce

/-- The nonce that an exit tells of is read from the raw bytes that the node took. -/
def Reads : Exit → Prop
  | .failed raw nonce | .confirmed raw nonce _ | .astray (some raw) (some nonce) _ => Signer.nonceIn? raw = some nonce
  | _ => True

end Exit

/-- The node's replies lead a submission to an exit. -/
inductive Reaches (node : (q : Ask) → ν → Reply q × ν) (s : Submission) (w : Site ν) : Exit → Prop where
  | stranger (other : s.tx.sender ≠ s.account) : Reaches node s w .unsent
  | uncounted {f : Fault} (own : s.tx.sender = s.account)
      (reply : (node (.pendingCount s.account) w.node).1.bind Json.toInt = .error f) (caught : f.kind.isNode = true) :
      Reaches node s w .unsent
  | unsigned {pending : Int} {n : ν} {f : Fault} (counted : Counted node s w pending n)
      (refusal : s.signer.sign (s.tx.given (nonceAfter pending (w.memory.nonces.lookup s.account))) = .error f) :
      Reaches node s w .unsent
  | refused {nonce : Int} {raw : Bytes} {n : ν} {f : Fault} (prepared : Prepared node s w nonce raw n)
      (reply : (node (.send raw) n).1 = .error f) (caught : f.kind.isNode = true) : Reaches node s w (.refused raw)
  | late {nonce : Int} {raw : Bytes} {txHash : String} {f : Fault}
      (awaited : Awaited node s w nonce raw txHash (.error f)) (late : f.kind = .timeExhausted) :
      Reaches node s w (.lost raw)
  | unfound {nonce : Int} {raw : Bytes} {txHash : String} {f : Fault}
      (awaited : Awaited node s w nonce raw txHash (.error f)) (caught : f.kind.isNode = true)
      (early : f.kind ≠ .timeExhausted) : Reaches node s w (.failed raw nonce)
  | reverted {nonce : Int} {raw : Bytes} {txHash : String} {v : Json} {receipt : Receipt}
      (awaited : Awaited node s w nonce raw txHash (.ok v)) (read : receiptOf txHash nonce v = .ok receipt)
      (status : receipt.status ≠ 1) : Reaches node s w (.failed raw nonce)
  | confirmed {nonce : Int} {raw : Bytes} {txHash : String} {v : Json} {receipt : Receipt}
      (awaited : Awaited node s w nonce raw txHash (.ok v)) (read : receiptOf txHash nonce v = .ok receipt)
      (status : receipt.status = 1) (fits : Decimal.fits receipt.blockNumber = true) :
      Reaches node s w (.confirmed raw nonce txHash)
  | miscounted {f : Fault} (own : s.tx.sender = s.account)
      (reply : (node (.pendingCount s.account) w.node).1.bind Json.toInt = .error f)
      (uncaught : f.kind.isNode = false) : Reaches node s w (.astray none none f)
  | missent {nonce : Int} {raw : Bytes} {n : ν} {f : Fault} (prepared : Prepared node s w nonce raw n)
      (reply : (node (.send raw) n).1 = .error f) (uncaught : f.kind.isNode = false) :
      Reaches node s w (.astray (some raw) none f)
  | unhashed {nonce : Int} {raw : Bytes} {sent : Datum} {n : ν} {f : Fault}
      (accepted : Accepted node s w nonce raw sent n) (unread : hashText sent = .error f) :
      Reaches node s w (.astray (some raw) (some nonce) f)
  | untold {nonce : Int} {raw : Bytes} {sent : Datum} {n : ν} {txHash : String}
      (accepted : Accepted node s w nonce raw sent n) (hash : hashText sent = .ok txHash)
      (long : Decimal.fits nonce = false) : Reaches node s w (.astray (some raw) (some nonce) Decimal.unwritable)
  | misfound {nonce : Int} {raw : Bytes} {txHash : String} {f : Fault}
      (awaited : Awaited node s w nonce raw txHash (.error f)) (uncaught : f.kind.isNode = false) :
      Reaches node s w (.astray (some raw) (some nonce) f)
  | unread {nonce : Int} {raw : Bytes} {txHash : String} {v : Json} {f : Fault}
      (awaited : Awaited node s w nonce raw txHash (.ok v)) (unread : receiptOf txHash nonce v = .error f) :
      Reaches node s w (.astray (some raw) (some nonce) f)
  | blockless {nonce : Int} {raw : Bytes} {txHash : String} {v : Json} {receipt : Receipt}
      (awaited : Awaited node s w nonce raw txHash (.ok v)) (read : receiptOf txHash nonce v = .ok receipt)
      (status : receipt.status = 1) (long : Decimal.fits receipt.blockNumber = false) :
      Reaches node s w (.astray (some raw) (some nonce) Decimal.unwritable)

section Broadcast

variable {node : (q : Ask) → ν → Reply q × ν} {s : Submission} {w : Site ν}

theorem goes_locked {work : Attempt dialogue α} {account : String} {raws : List Bytes} {r : Except Trouble α}
    {w' : Site ν} (inside : Goes node work ⟨(w.memory.acquire 0 account).2, w.node⟩ raws r w') :
    Goes node (locked account work) w raws r ⟨w'.memory.release account, w'.node⟩ := by
  have leave : Goes node (do ask (.unlock account); Attempt.ofExcept r) w' [] r ⟨w'.memory.release account, w'.node⟩ :=
    goes_of_ask (run_ask_bind _ _) (goes_ofExcept r _)
  refine goes_of_ask (run_ask_bind (.lock account) _) ?_
  have both := inside.outcome_bind (f := fun r => do ask (.unlock account); Attempt.ofExcept r) leave
  rw [List.append_nil] at both
  exact both

theorem goes_uncounted {f : Fault} (reply : (node (.pendingCount s.account) w.node).1.bind Json.toInt = .error f) :
    Goes node (nextNonce s.account) w [] (.error (Point.countTrouble f))
      ⟨w.memory, (node (.pendingCount s.account) w.node).2⟩ := by
  refine goes_of_ask (run_nextNonce _) ?_
  have answer : (alone node (.pendingCount s.account) w).1.bind Json.toInt = .error f := reply
  rw [answer]
  exact goes_ofExcept _ _

theorem goes_counted {pending : Int} {n : ν} (counted : Counted node s w pending n) :
    Goes node (nextNonce s.account) w [] (.ok (nonceAfter pending (w.memory.nonces.lookup s.account)))
      ⟨w.memory, n⟩ := by
  obtain ⟨count, reply, number⟩ := counted.reply
  have answer : alone node (.pendingCount s.account) w = (.ok count, ⟨w.memory, n⟩) := by
    simp only [alone, reply]
  have pending : Except.bind (.ok count) Json.toInt = .ok pending := number
  refine goes_of_ask (run_nextNonce _) ?_
  rw [answer, pending]
  exact goes_of_ask (q := .lastNonce s.account) rfl (goes_ofExcept _ _)

theorem goes_unsigned {pending : Int} {n : ν} {f : Fault} (counted : Counted node s w pending n)
    (refusal : s.signer.sign (s.tx.given (nonceAfter pending (w.memory.nonces.lookup s.account))) = .error f) :
    Goes node (broadcast s.tx s.signer) w [] (.error (.failure (signingFailure f))) ⟨w.memory, n⟩ := by
  rw [← signed_eq] at refusal
  rw [broadcast]
  refine (goes_counted counted).bind ?_
  rw [refusal]
  exact goes_ofExcept _ _

/-- A broadcast goes on with what the signer made. -/
theorem goes_signed {pending : Int} {n : ν} {raw : Bytes} {raws : List Bytes} {r : Except Trouble (Int × Datum)}
    {w' : Site ν} (counted : Counted node s w pending n)
    (signs : s.signer.sign (s.tx.given (nonceAfter pending (w.memory.nonces.lookup s.account))) = .ok raw)
    (rest : Goes node (sendRaw s.account (nonceAfter pending (w.memory.nonces.lookup s.account)) raw) ⟨w.memory, n⟩
      raws r w') :
    Goes node (broadcast s.tx s.signer) w raws r w' := by
  rw [← signed_eq] at signs
  rw [broadcast]
  refine (goes_counted counted).bind ?_
  rw [signs]
  exact rest

section Send

variable {account : String} {nonce : Int} {raw : Bytes} {f : Fault}

theorem goes_sent {sent : Datum} {n : ν} (reply : node (.send raw) w.node = (.ok sent, n)) :
    Goes node (sendRaw account nonce raw) w [raw] (.ok (nonce, sent)) ⟨w.memory.withNonce account nonce, n⟩ := by
  have answer : alone node (.send raw) w = (.ok sent, ⟨w.memory, n⟩) := by
    simp only [alone, reply]
  refine goes_of_ask (q := .send raw) (run_sendRaw _ _ _) ?_
  rw [answer]
  exact goes_of_ask (q := .rememberNonce account nonce) rfl (goes_ofExcept _ _)

theorem goes_refused (reply : (node (.send raw) w.node).1 = .error f) (caught : f.kind.isNode = true) :
    Goes node (sendRaw account nonce raw) w [raw] (.error (.failure (sendingFailure f)))
      ⟨w.memory.withoutNonce account, (node (.send raw) w.node).2⟩ := by
  have answer : (alone node (.send raw) w).1 = .error f := reply
  refine goes_of_ask (q := .send raw) (run_sendRaw _ _ _) ?_
  simp only [answer, caught, if_true]
  exact goes_of_ask (q := .forgetNonce account) rfl (goes_ofExcept _ _)

theorem goes_missent (reply : (node (.send raw) w.node).1 = .error f) (uncaught : f.kind.isNode = false) :
    Goes node (sendRaw account nonce raw) w [raw] (.error (.fault f)) ⟨w.memory, (node (.send raw) w.node).2⟩ := by
  have answer : (alone node (.send raw) w).1 = .error f := reply
  refine goes_of_ask (q := .send raw) (run_sendRaw _ _ _) ?_
  simp only [answer, uncaught, Bool.false_eq_true, if_false]
  exact goes_ofExcept _ _

end Send

end Broadcast

section Receipt

variable {node : (q : Ask) → ν → Reply q × ν} {s : Submission} {w w' : Site ν} {cfg : Config} {nonce : Int}
  {txHash : String} {sent : Datum}

section Lookup

variable (cfg txHash) {f : Fault}

theorem lookupTrouble_late (late : f.kind = .timeExhausted) :
    ∃ g, lookupTrouble cfg txHash f = .failure g ∧ g.kind = .receiptTimeout :=
  ⟨_, by rw [lookupTrouble, if_pos (beq_iff_eq.2 late)], rfl⟩

theorem lookupTrouble_caught (caught : f.kind.isNode = true) (early : f.kind ≠ .timeExhausted) :
    ∃ g, lookupTrouble cfg txHash f = .failure g ∧ g.kind = .submission :=
  ⟨_, by rw [lookupTrouble, if_neg (by simpa using early), if_pos caught], rfl⟩

theorem lookupTrouble_uncaught (uncaught : f.kind.isNode = false) : lookupTrouble cfg txHash f = .fault f := by
  have early : f.kind ≠ .timeExhausted := by
    intro late
    rw [late] at uncaught
    cases uncaught
  rw [lookupTrouble, if_neg (by simpa using early), if_neg (by simp [uncaught])]

end Lookup

variable (node) in
/-- A wait comes to what is made of the node's reply. -/
theorem goes_awaitReceipt (cfg : Config) (txHash : String) (nonce : Int) (m : Memory) (n : ν) :
    Goes node (awaitReceipt cfg txHash nonce) ⟨m, n⟩ []
      (receiptFrom cfg txHash nonce (node (.awaitReceipt txHash) n).1) ⟨m, (node (.awaitReceipt txHash) n).2⟩ :=
  goes_of_ask (run_awaitReceipt cfg txHash nonce) (goes_ofExcept _ _)

theorem goes_unhashed {f : Fault} (unread : sentHash nonce sent = .error f) :
    Goes node (afterSending cfg s (nonce, sent)) w [] (.error (.fault f)) w := by
  have first : Goes node (demand (sentHash nonce sent)) w [] (.error (.fault f)) w := by
    rw [unread]
    exact goes_ofExcept _ _
  exact first.bind_error

/-- What the wait comes to is what the submission comes to, unless the receipt is missing. -/
theorem goes_kept {r : Except Trouble Receipt} (hash : sentHash nonce sent = .ok txHash)
    (waits : Goes node (awaitReceipt cfg txHash nonce) w [] r w')
    (kept : ∀ t, r = .error t → isMissingReceipt t = false) :
    Goes node (afterSending cfg s (nonce, sent)) w [] r w' := by
  have first : Goes node (demand (sentHash nonce sent)) w [] (.ok txHash) w := by
    rw [hash]
    exact goes_ofExcept _ _
  refine first.bind (waits.outcome_bind ?_)
  cases r with
  | ok receipt => exact goes_ofExcept _ _
  | error t =>
    simp only [kept t rfl, Bool.false_eq_true, if_false]
    exact goes_ofExcept _ _

theorem goes_lost {t : Trouble} (hash : sentHash nonce sent = .ok txHash)
    (waits : Goes node (awaitReceipt cfg txHash nonce) w [] (.error t) w') (missing : isMissingReceipt t = true) :
    Goes node (afterSending cfg s (nonce, sent)) w [] (.error t) ⟨w'.memory.withoutNonce s.account, w'.node⟩ := by
  have first : Goes node (demand (sentHash nonce sent)) w [] (.ok txHash) w := by
    rw [hash]
    exact goes_ofExcept _ _
  refine first.bind (waits.outcome_bind ?_)
  simp only [missing, if_true]
  exact goes_of_ask (q := .forgetNonce s.account) rfl (goes_ofExcept _ _)

end Receipt

/-- A submission leaves the memory as it is but for the nonce of its account, and the account's lock free. -/
structure Kept (account : String) (before after : Memory) : Prop where
  others : ∀ b, b ≠ account → after.nonces.lookup b = before.nonces.lookup b
  free : after.locks.lookup account = none
  locks : ∀ b, b ≠ account → after.locks.lookup b = before.locks.lookup b
  chainId : after.chainId = before.chainId

namespace Kept

variable {account : String} {before after : Memory}

theorem refl (free : before.locks.lookup account = none) : Kept account before before :=
  ⟨fun _ _ => rfl, free, fun _ _ => rfl, rfl⟩

/-- The lock is given back after work that touched the nonce of the account only. -/
theorem release (others : ∀ b, b ≠ account → after.nonces.lookup b = before.nonces.lookup b)
    (locks : after.locks = (before.putLock account ⟨0, []⟩).locks) (chainId : after.chainId = before.chainId) :
    Kept account before (after.release account) := by
  have held : after.locks.lookup account = some ⟨0, []⟩ := by
    rw [locks]
    exact locks_putLock_self before account _
  have released : after.release account = { after with locks := after.locks.filter fun p => p.1 != account } := by
    rw [Memory.release, held]
  rw [released]
  refine ⟨others, ?_, fun b hb => ?_, chainId⟩
  · exact (lookup_without _ _ _).trans (if_pos rfl)
  · refine (lookup_without _ _ _).trans ((if_neg hb).trans ?_)
    rw [locks]
    exact locks_putLock_other before hb _

theorem withoutNonce (kept : Kept account before after) : Kept account before (after.withoutNonce account) :=
  ⟨fun b hb => (nonces_withoutNonce_other after hb).trans (kept.others b hb), kept.free, kept.locks, kept.chainId⟩

end Kept

section Submit

variable {node : (q : Ask) → ν → Reply q × ν} {s : Submission} {w w' : Site ν} {cfg : Config} {raws : List Bytes}

/-- The site as the holder of the account's lock finds it. -/
def Site.entered (w : Site ν) (account : String) : Site ν := ⟨w.memory.putLock account ⟨0, []⟩, w.node⟩

theorem acquire_eq (free : w.memory.locks.lookup s.account = none) :
    Site.mk (w.memory.acquire 0 s.account).2 w.node = w.entered s.account := by
  rw [Site.entered, Memory.acquire, free]

theorem goes_inside_error {t : Trouble} (free : w.memory.locks.lookup s.account = none)
    (own : s.tx.sender = s.account)
    (inside : Goes node (broadcast s.tx s.signer) (w.entered s.account) raws (.error t) w') :
    Goes node (submit cfg s.tx s.signer) w raws (.error t) ⟨w'.memory.release s.account, w'.node⟩ := by
  rw [← acquire_eq free] at inside
  rw [submit_eq, if_pos own]
  exact (goes_locked inside).bind_error

theorem goes_inside_ok {sent : Int × Datum} {r : Except Trouble Receipt} {w'' : Site ν}
    (free : w.memory.locks.lookup s.account = none) (own : s.tx.sender = s.account)
    (inside : Goes node (broadcast s.tx s.signer) (w.entered s.account) raws (.ok sent) w')
    (outside : Goes node (afterSending cfg s sent) ⟨w'.memory.release s.account, w'.node⟩ [] r w'') :
    Goes node (submit cfg s.tx s.signer) w raws r w'' := by
  rw [← acquire_eq free] at inside
  rw [submit_eq, if_pos own]
  have both := (goes_locked inside).bind outside
  rw [List.append_nil] at both
  exact both

theorem Prepared.own {nonce : Int} {raw : Bytes} {n : ν} (prepared : Prepared node s w nonce raw n) :
    s.tx.sender = s.account := by
  obtain ⟨pending, counted, -⟩ := prepared.counted
  exact counted.own

theorem Prepared.goes {nonce : Int} {raw : Bytes} {n : ν} {r : Except Trouble (Int × Datum)}
    (prepared : Prepared node s w nonce raw n)
    (rest : Goes node (sendRaw s.account nonce raw) ⟨(w.entered s.account).memory, n⟩ raws r w') :
    Goes node (broadcast s.tx s.signer) (w.entered s.account) raws r w' := by
  obtain ⟨pending, counted, rfl⟩ := prepared.counted
  have entered : Counted node s (w.entered s.account) pending n := ⟨counted.own, counted.reply⟩
  exact goes_signed entered prepared.signs rest

/-- After a broadcast that the node took, the nonce is remembered and the lock is free. -/
theorem Accepted.goes {nonce : Int} {raw : Bytes} {sent : Datum} {n : ν} (accepted : Accepted node s w nonce raw sent n)
    (free : w.memory.locks.lookup s.account = none) :
    ∃ m, Kept s.account w.memory m ∧ m.nonces.lookup s.account = some nonce ∧
      ∀ r w', Goes node (afterSending cfg s (nonce, sent)) ⟨m, n⟩ [] r w' →
        Goes node (submit cfg s.tx s.signer) w [raw] r w' := by
  obtain ⟨n', prepared, reply⟩ := accepted.reply
  have inside := prepared.goes (goes_sent reply)
  refine ⟨((w.entered s.account).memory.withNonce s.account nonce).release s.account, ?_, ?_, ?_⟩
  · exact .release (fun b hb => nonces_withNonce_other _ hb nonce) rfl rfl
  · rw [nonces_release]
    exact nonces_withNonce_self _ _ _
  · intro r w' outside
    exact goes_inside_ok free prepared.own inside outside

/-- A submission by itself comes to its end with the effect of an exit. -/
def Takes (node : (q : Ask) → ν → Reply q × ν) (cfg : Config) (s : Submission) (w : Site ν) (exit : Exit) : Prop :=
  ∃ r w', Goes node (submit cfg s.tx s.signer) w exit.handed r w' ∧ exit.Gives r ∧
    exit.Leaves s.account w.memory w'.memory ∧ Kept s.account w.memory w'.memory

variable (free : w.memory.locks.lookup s.account = none)

include free

theorem takes_stranger (other : s.tx.sender ≠ s.account) : Takes node cfg s w .unsent := by
  refine ⟨_, w, ?_, ⟨strangerFailure s.tx s.account, rfl, rfl⟩, rfl, .refl free⟩
  rw [submit_eq, if_neg other]
  exact goes_ofExcept _ _

/-- Inside the lock nothing is touched before the node has replied to the raw bytes. -/
theorem takes_untouched {exit : Exit} {t : Trouble} {n : ν} (own : s.tx.sender = s.account)
    (inside : Goes node (broadcast s.tx s.signer) (w.entered s.account) exit.handed (.error t)
      ⟨(w.entered s.account).memory, n⟩)
    (gives : exit.Gives (.error t))
    (leaves : ∀ after : Memory, after.nonces = w.memory.nonces → exit.Leaves s.account w.memory after) :
    Takes node cfg s w exit := by
  refine ⟨_, _, goes_inside_error free own inside, gives, leaves _ ?_, .release (fun _ _ => rfl) rfl rfl⟩
  exact nonces_release _ _

theorem takes_uncounted {f : Fault} (own : s.tx.sender = s.account)
    (reply : (node (.pendingCount s.account) w.node).1.bind Json.toInt = .error f) :
    (f.kind.isNode = true → Takes node cfg s w .unsent) ∧
      (f.kind.isNode = false → Takes node cfg s w (.astray none none f)) := by
  have first := goes_uncounted (w := w.entered s.account) reply
  have inside : Goes node (broadcast s.tx s.signer) (w.entered s.account) [] (.error (Point.countTrouble f)) _ :=
    first.bind_error
  constructor
  · intro caught
    exact takes_untouched free own inside ⟨_, by rw [Point.countTrouble, if_pos caught], rfl⟩ fun _ same => same
  · intro uncaught
    refine takes_untouched free own inside ?_ fun _ same => same
    rw [Point.countTrouble, if_neg (by simp [uncaught])]
    rfl

theorem takes_unsigned {pending : Int} {n : ν} {f : Fault} (counted : Counted node s w pending n)
    (refusal : s.signer.sign (s.tx.given (nonceAfter pending (w.memory.nonces.lookup s.account))) = .error f) :
    Takes node cfg s w .unsent := by
  have entered : Counted node s (w.entered s.account) pending n := ⟨counted.own, counted.reply⟩
  have inside := goes_unsigned entered refusal
  exact takes_untouched free counted.own inside ⟨_, rfl, rfl⟩ fun _ same => same

theorem takes_refused {nonce : Int} {raw : Bytes} {n : ν} {f : Fault} (prepared : Prepared node s w nonce raw n)
    (reply : (node (.send raw) n).1 = .error f) (caught : f.kind.isNode = true) :
    Takes node cfg s w (.refused raw) := by
  have inside := prepared.goes (goes_refused reply caught)
  refine ⟨_, _, goes_inside_error free prepared.own inside, ⟨_, rfl, rfl⟩, ?_, ?_⟩
  · refine (congrArg _ (nonces_release _ _)).trans ?_
    exact nonces_withoutNonce_self _ _
  · exact .release (fun b hb => nonces_withoutNonce_other _ hb) rfl rfl

theorem takes_missent {nonce : Int} {raw : Bytes} {n : ν} {f : Fault} (prepared : Prepared node s w nonce raw n)
    (reply : (node (.send raw) n).1 = .error f) (uncaught : f.kind.isNode = false) :
    Takes node cfg s w (.astray (some raw) none f) :=
  takes_untouched free prepared.own (prepared.goes (goes_missent reply uncaught)) rfl fun _ same => same

theorem takes_unhashed {nonce : Int} {raw : Bytes} {sent : Datum} {n : ν} {f : Fault}
    (accepted : Accepted node s w nonce raw sent n) (unread : sentHash nonce sent = .error f) :
    Takes node cfg s w (.astray (some raw) (some nonce) f) := by
  obtain ⟨m, kept, used, whole⟩ := accepted.goes free
  exact ⟨_, _, whole _ _ (goes_unhashed unread), rfl, used, kept⟩

/-- After a wait whose outcome leaves the nonce remembered. -/
theorem takes_awaited {exit : Exit} {nonce : Int} {raw : Bytes} {txHash : String} {found : Except Fault Json}
    {r : Except Trouble Receipt} (awaited : Awaited node s w nonce raw txHash found)
    (result : receiptFrom cfg txHash nonce found = r) (present : ∀ t, r = .error t → isMissingReceipt t = false)
    (raws : exit.handed = [raw]) (gives : exit.Gives r)
    (leaves : ∀ after : Memory, after.nonces.lookup s.account = some nonce → exit.Leaves s.account w.memory after) :
    Takes node cfg s w exit := by
  obtain ⟨sent, n, accepted, hash, fits, rfl⟩ := awaited.reply
  obtain ⟨m, kept, used, whole⟩ := accepted.goes free
  have waits := goes_awaitReceipt node cfg txHash nonce m n
  rw [result] at waits
  exact ⟨r, _, raws ▸ whole _ _ (goes_kept (sentHash_eq_ok_iff.2 ⟨hash, fits⟩) waits present), gives, leaves _ used,
    kept⟩

theorem takes_late {nonce : Int} {raw : Bytes} {txHash : String} {f : Fault}
    (awaited : Awaited node s w nonce raw txHash (.error f)) (late : f.kind = .timeExhausted) :
    Takes node cfg s w (.lost raw) := by
  obtain ⟨sent, n, accepted, hash, fits, reply⟩ := awaited.reply
  obtain ⟨m, kept, used, whole⟩ := accepted.goes free
  have waits := goes_awaitReceipt node cfg txHash nonce m n
  rw [reply] at waits
  have missing : isMissingReceipt (lookupTrouble cfg txHash f) = true := by
    rw [isMissingReceipt_lookupTrouble, late]
    rfl
  obtain ⟨g, trouble, kind⟩ := lookupTrouble_late cfg txHash late
  exact ⟨_, _, whole _ _ (goes_lost (sentHash_eq_ok_iff.2 ⟨hash, fits⟩) waits missing),
    ⟨g, congrArg _ trouble, kind⟩, nonces_withoutNonce_self _ _, kept.withoutNonce⟩

/-- After a lookup that fails otherwise. -/
theorem takes_unfound {exit : Exit} {nonce : Int} {raw : Bytes} {txHash : String} {f : Fault}
    (awaited : Awaited node s w nonce raw txHash (.error f)) (early : f.kind ≠ .timeExhausted)
    (raws : exit.handed = [raw]) (gives : exit.Gives (.error (lookupTrouble cfg txHash f)))
    (leaves : ∀ after : Memory, after.nonces.lookup s.account = some nonce → exit.Leaves s.account w.memory after) :
    Takes node cfg s w exit := by
  refine takes_awaited free awaited rfl ?_ raws gives leaves
  rintro t ⟨⟩
  rw [isMissingReceipt_lookupTrouble]
  simpa using early

/-- After a document that holds no good news. -/
theorem takes_astray {nonce : Int} {raw : Bytes} {txHash : String} {v : Json} {f : Fault}
    (awaited : Awaited node s w nonce raw txHash (.ok v))
    (result : receiptFrom cfg txHash nonce (.ok v) = .error (.fault f)) :
    Takes node cfg s w (.astray (some raw) (some nonce) f) := by
  refine takes_awaited free awaited result ?_ rfl rfl fun _ used => used
  rintro t ⟨⟩
  rfl

variable (cfg) in
/-- A submission has the effect of every exit to which the node's replies lead it. -/
theorem takes_of_reaches {exit : Exit} (reaches : Reaches node s w exit) : Takes node cfg s w exit := by
  cases reaches with
  | stranger other => exact takes_stranger free other
  | uncounted own reply caught => exact (takes_uncounted free own reply).1 caught
  | unsigned counted refusal => exact takes_unsigned free counted refusal
  | refused prepared reply caught => exact takes_refused free prepared reply caught
  | late awaited late => exact takes_late free awaited late
  | unfound awaited caught early =>
    obtain ⟨g, trouble, kind⟩ := lookupTrouble_caught cfg _ caught early
    exact takes_unfound free awaited early rfl ⟨g, congrArg _ trouble, kind⟩ fun _ used => used
  | reverted awaited read status =>
    refine takes_awaited free awaited (receiptFrom_reverted read status) ?_ rfl ⟨_, rfl, rfl⟩ fun _ used => used
    rintro t ⟨⟩
    rfl
  | confirmed awaited read status fits =>
    obtain ⟨-, -, hash, nonce⟩ := receiptOf_eq_ok read
    refine takes_awaited free awaited (receiptFrom_mined read status fits) ?_ rfl ⟨_, rfl, status, hash, nonce⟩
      fun _ used => used
    rintro t ⟨⟩
  | miscounted own reply uncaught => exact (takes_uncounted free own reply).2 uncaught
  | missent prepared reply uncaught => exact takes_missent free prepared reply uncaught
  | unhashed accepted unread => exact takes_unhashed free accepted (by rw [sentHash, unread]; rfl)
  | untold accepted hash long => exact takes_unhashed free accepted (sentHash_of_long hash long)
  | misfound awaited uncaught =>
    have early : ∀ {f : Fault}, f.kind.isNode = false → f.kind ≠ .timeExhausted := by
      intro f uncaught late
      rw [late] at uncaught
      cases uncaught
    exact takes_unfound free awaited (early uncaught) rfl (congrArg _ (lookupTrouble_uncaught cfg _ uncaught))
      fun _ used => used
  | unread awaited unread => exact takes_astray free awaited (receiptFrom_unread unread)
  | blockless awaited read status long => exact takes_astray free awaited (receiptFrom_untold read status long)

omit free

theorem Awaited.exists_reaches {nonce : Int} {raw : Bytes} {txHash : String} {found : Except Fault Json}
    (awaited : Awaited node s w nonce raw txHash found) : ∃ exit, Reaches node s w exit := by
  cases found with
  | error f =>
    by_cases late : f.kind = .timeExhausted
    · exact ⟨_, .late awaited late⟩
    · cases caught : f.kind.isNode with
      | true => exact ⟨_, .unfound awaited caught late⟩
      | false => exact ⟨_, .misfound awaited caught⟩
  | ok v =>
    cases read : receiptOf txHash nonce v with
    | error f => exact ⟨_, .unread awaited read⟩
    | ok receipt =>
      by_cases status : receipt.status = 1
      · cases fits : Decimal.fits receipt.blockNumber with
        | true => exact ⟨_, .confirmed awaited read status fits⟩
        | false => exact ⟨_, .blockless awaited read status fits⟩
      · exact ⟨_, .reverted awaited read status⟩

theorem Prepared.exists_reaches {nonce : Int} {raw : Bytes} {n : ν} (prepared : Prepared node s w nonce raw n) :
    ∃ exit, Reaches node s w exit := by
  cases reply : (node (.send raw) n).1 with
  | error f =>
    cases caught : f.kind.isNode with
    | true => exact ⟨_, .refused prepared reply caught⟩
    | false => exact ⟨_, .missent prepared reply caught⟩
  | ok sent =>
    have accepted : Accepted node s w nonce raw sent (node (.send raw) n).2 := ⟨n, prepared, Prod.ext reply rfl⟩
    cases hash : hashText sent with
    | error f => exact ⟨_, .unhashed accepted hash⟩
    | ok txHash =>
      cases fits : Decimal.fits nonce with
      | false => exact ⟨_, .untold accepted hash fits⟩
      | true =>
        have awaited : Awaited node s w nonce raw txHash (node (.awaitReceipt txHash) (node (.send raw) n).2).1 :=
          ⟨sent, _, accepted, hash, fits, rfl⟩
        exact awaited.exists_reaches

/-- The node's replies lead to some exit, whatever they are. -/
theorem exists_reaches (node : (q : Ask) → ν → Reply q × ν) (s : Submission) (w : Site ν) :
    ∃ exit, Reaches node s w exit := by
  by_cases own : s.tx.sender = s.account
  · cases reply : (node (.pendingCount s.account) w.node).1.bind Json.toInt with
    | error f =>
      cases caught : f.kind.isNode with
      | true => exact ⟨_, .uncounted own reply caught⟩
      | false => exact ⟨_, .miscounted own reply caught⟩
    | ok pending =>
      obtain ⟨count, told, number⟩ := except_bind_eq_ok.1 reply
      have counted : Counted node s w pending (node (.pendingCount s.account) w.node).2 :=
        ⟨own, count, Prod.ext told rfl, number⟩
      cases signs : s.signer.sign (s.tx.given (nonceAfter pending (w.memory.nonces.lookup s.account))) with
      | error f => exact ⟨_, .unsigned counted signs⟩
      | ok raw =>
        have prepared : Prepared node s w _ raw _ := ⟨⟨pending, counted, rfl⟩, signs⟩
        exact prepared.exists_reaches
  · exact ⟨_, .stranger own⟩

theorem Accepted.signs {nonce : Int} {raw : Bytes} {sent : Datum} {n : ν}
    (accepted : Accepted node s w nonce raw sent n) :
    s.signer.sign (s.tx.given nonce) = .ok raw := by
  obtain ⟨n', prepared, -⟩ := accepted.reply
  exact prepared.signs

theorem Awaited.signs {nonce : Int} {raw : Bytes} {txHash : String} {found : Except Fault Json}
    (awaited : Awaited node s w nonce raw txHash found) : s.signer.sign (s.tx.given nonce) = .ok raw := by
  obtain ⟨sent, n, accepted, -⟩ := awaited.reply
  exact accepted.signs

/-- Whatever the exit, its nonce is in the bytes if they can be read. -/
theorem Reaches.reads {exit : Exit} (reaches : Reaches node s w exit) (legible : s.signer.Legible s.tx) :
    exit.Reads := by
  cases reaches with
  | stranger | uncounted | unsigned | refused | late | miscounted | missent => trivial
  | unfound awaited | reverted awaited | confirmed awaited | misfound awaited | unread awaited | blockless awaited =>
    exact legible.nonceIn? awaited.signs
  | unhashed accepted | untold accepted => exact legible.nonceIn? accepted.signs

/-- The complete effect of one submission by itself, whatever the memory holds, the signer does and the node
replies. There is an exit to which the replies lead. For every such exit, the result is one that belongs to it, the node
has been handed just the raw bytes of the exit, the account's nonce is remembered as the exit says, and
nothing else in the memory has changed; the lock is free again. Where the bytes of the signer can be read, as those of a
private key, the nonce of the exit is read from them. -/
theorem submission_effect (node : (q : Ask) → ν → Reply q × ν) (cfg : Config) (s : Submission) (w : Site ν)
    (free : w.memory.locks.lookup s.account = none) :
    (∃ exit, Reaches node s w exit) ∧
    ∀ exit, Reaches node s w exit →
      exit.Gives ((s.activity cfg).runWith (alone node) w).1 ∧
      handed ((s.activity cfg).trace (alone node) w) = exit.handed ∧
      exit.Leaves s.account w.memory ((s.activity cfg).runWith (alone node) w).2.memory ∧
      Kept s.account w.memory ((s.activity cfg).runWith (alone node) w).2.memory ∧
      (s.signer.Legible s.tx → exit.Reads) := by
  refine ⟨exists_reaches node s w, ?_⟩
  intro exit reaches
  obtain ⟨r, w', goes, gives, leaves, kept⟩ := takes_of_reaches cfg free reaches
  rw [Submission.activity, goes.run]
  exact ⟨gives, goes.hands, leaves, kept, reaches.reads⟩

end Submit

/-- A node that counts 7, takes what it is handed, and has this to say of the receipt. -/
def countingNode (found : Except Fault Json) (q : Ask) (n : Unit) : Reply q × Unit :=
  match q with
  | .pendingCount _ => (.ok (.int 7), n)
  | .send _ => (.ok (.bytes [0xAB]), n)
  | .awaitReceipt _ => (found, n)
  | .isConnected | .chainId | .gasPrice | .estimate _ _ | .call _ _ => (.error ⟨.timeout, ""⟩, n)
  | .prepare _ => (.ok (), n)
  | .build _ _ => (.error ⟨.timeout, ""⟩, n)
  | .knownChainId | .lastNonce _ => (none, n)
  | .rememberChainId _ | .lock _ | .unlock _ | .rememberNonce _ _ | .forgetNonce _ => ((), n)

def lateReceipt : Except Fault Json := .error ⟨.timeExhausted, "no receipt yet"⟩

def goodReceipt : Except Fault Json := .ok (.record [("blockNumber", .int 4), ("status", .int 1)])

/-- Nonce 9 is the last one of account A here. -/
def usedSite : Site Unit := ⟨{ nonces := [("A", 9), ("B", 3)] }, ()⟩

/-- If the receipt for nonce 10 does not come in time, nonce 9 is forgotten with it. If it comes, it is for the nonce
that is read from the bytes, and that one is remembered. -/
theorem submission_effect_ten :
    usedSite.memory.locks.lookup Submission.sample.account = none ∧
    ((∃ f, ((Submission.sample.activity {}).runWith (alone (countingNode lateReceipt)) usedSite).1 =
        .error (.failure f) ∧ f.kind = .receiptTimeout) ∧
      ((Submission.sample.activity {}).runWith (alone (countingNode lateReceipt)) usedSite).2.memory.nonces.lookup
        "A" = none) ∧
    ∃ raw receipt, ((Submission.sample.activity {}).runWith (alone (countingNode goodReceipt)) usedSite).1 =
        .ok receipt ∧
      handed ((Submission.sample.activity {}).trace (alone (countingNode goodReceipt)) usedSite) = [raw] ∧
      receipt.nonce = 10 ∧ Signer.nonceIn? raw = some 10 ∧
      ((Submission.sample.activity {}).runWith (alone (countingNode goodReceipt)) usedSite).2.memory.nonces.lookup
        "A" = some 10 := by
  have free : usedSite.memory.locks.lookup Submission.sample.account = none := rfl
  have accepted : (Submission.sample.signer.sign (Submission.sample.tx.given 10)).toOption.isSome = true := by
    decide +kernel
  cases signs : Submission.sample.signer.sign (Submission.sample.tx.given 10) with
  | error f =>
    rw [signs] at accepted
    cases accepted
  | ok raw =>
    have awaited (found : Except Fault Json) :
        Awaited (countingNode found) .sample usedSite 10 raw (Bytes.toHex0x [0xAB]) found :=
      ⟨.bytes [0xAB], (), ⟨(), ⟨⟨7, ⟨rfl, .int 7, rfl, rfl⟩, rfl⟩, signs⟩, rfl⟩, rfl, rfl, rfl⟩
    have effect (found : Except Fault Json) := (submission_effect (countingNode found) {} .sample usedSite free).2
    obtain ⟨late, -, forgotten, -⟩ := effect lateReceipt _ (.late (awaited lateReceipt) rfl)
    obtain ⟨⟨receipt, confirmed, -, -, nonce⟩, hands, used, -, reads⟩ :=
      effect goodReceipt _ (.confirmed (awaited goodReceipt) rfl rfl rfl)
    exact ⟨free, ⟨late, forgotten⟩, raw, receipt, confirmed, hands, nonce,
      reads (legible_samples 1 _ (List.mem_singleton_self _) rfl), used⟩

/-- A node that fails on every question, in a way that is not a node's. -/
def brokenNode (q : Ask) (n : Unit) : Reply q × Unit :=
  match q with
  | .isConnected | .chainId | .gasPrice | .estimate _ _ | .pendingCount _ | .awaitReceipt _ | .call _ _ | .prepare _
  | .build _ _ | .send _ => (.error ⟨.runtime, "boom"⟩, n)
  | .knownChainId | .lastNonce _ => (none, n)
  | .rememberChainId _ | .lock _ | .unlock _ | .rememberNonce _ _ | .forgetNonce _ => ((), n)

/-- A nonce that cannot be fetched is no failed submission if the node fails in a way that is not a node's. -/
theorem submission_astray :
    ((Submission.sample.activity {}).runWith (alone brokenNode) usedSite).1 = .error (.fault ⟨.runtime, "boom"⟩) ∧
    ¬ ∃ f, ((Submission.sample.activity {}).runWith (alone brokenNode) usedSite).1 = .error (.failure f) ∧
      f.kind = .submission := by
  have reaches : Reaches brokenNode .sample usedSite (.astray none none ⟨.runtime, "boom"⟩) := .miscounted rfl rfl rfl
  obtain ⟨r, w, goes, rfl, -⟩ := takes_of_reaches {} rfl reaches
  have result := congrArg Prod.fst goes.run
  refine ⟨result, ?_⟩
  rintro ⟨f, failed, -⟩
  cases result.symm.trans failed

end ProofRelay.Client
