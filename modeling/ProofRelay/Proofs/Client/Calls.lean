import ProofRelay.Client.Submit
import ProofRelay.Proofs.Activity.Questions

/-!
What the client's operations ask of the node, and how they may fail. Reading and pricing send nothing and
a submission sends at most once. The kind of a failure tells the operation it came from, except that
refusals by the client, by the signer and by the node are of one kind, with different messages.
-/

namespace ProofRelay.Client

open Attempt (AtMost Fails)

/-- The question that hands raw bytes to the node. -/
def Ask.isSend : Ask → Bool
  | .send _ => true
  | _ => false

variable {α : Type} {P : Failure → Prop} {n : Nat}

section Sends

theorem never_demand (r : Except Fault α) : AtMost Ask.isSend 0 (demand r) := Attempt.atMost_ofExcept _ _

theorem never_ask {q : Ask} (hq : q.isSend = false) : AtMost Ask.isSend 0 (ask q) := Attempt.atMost_query_zero hq

theorem AtMost.onNode {a : Attempt dialogue α} (atMost : AtMost Ask.isSend n a) (failure : Fault → Failure) :
    AtMost Ask.isSend n (onNode failure a) := by
  refine atMost.outcome.bind_zero fun x => ?_
  match x with
  | .error (.fault f) | .error (.failure f) | .error (.invalid f) | .ok x => exact Attempt.atMost_ofExcept _ _

theorem never_prepare (h : Handle) (c : Call) : AtMost Ask.isSend 0 (prepare h c) := by
  rw [prepare]
  cases h.checkMethod c.method with
  | error f => exact Attempt.atMost_ofExcept _ _
  | ok _ => exact never_ask rfl

theorem never_call (h : Handle) (c : Call) (block : Json) : AtMost Ask.isSend 0 (call h c block) := by
  refine (never_prepare h c).zero_bind fun encoded => ?_
  cases encoded with
  | error f => exact Attempt.atMost_ofExcept _ _
  | ok _ =>
    refine (never_ask rfl).zero_bind fun r => ?_
    cases r <;> exact Attempt.atMost_ofExcept _ _

theorem never_readCounter (h : Handle) (block : Json) : AtMost Ask.isSend 0 (readCounter h block) :=
  (never_call h _ block).zero_bind fun _ => never_demand _

theorem never_chainId : AtMost Ask.isSend 0 chainId := by
  refine (never_ask rfl).zero_bind fun known => ?_
  cases known with
  | some n => exact Attempt.atMost_ofExcept _ _
  | none =>
    refine (never_ask rfl).zero_bind fun r => (never_demand _).zero_bind fun n => ?_
    exact (never_ask rfl).zero_bind fun _ => Attempt.atMost_ofExcept _ _

theorem never_price (cfg : Config) (c : Call) (sender : String) : AtMost Ask.isSend 0 (price cfg c sender) := by
  refine (never_ask rfl).zero_bind fun _ => (never_ask rfl).zero_bind fun _ => ?_
  refine (never_demand _).zero_bind fun _ => (never_demand _).zero_bind fun _ => ?_
  refine never_chainId.zero_bind fun _ => (never_demand _).zero_bind fun _ => ?_
  exact (never_ask rfl).zero_bind fun _ => (never_demand _).zero_bind fun _ => Attempt.atMost_ofExcept _ _

theorem never_transaction (p : Priced) (h : Handle) (sender : String) :
    AtMost Ask.isSend 0 (p.transaction h sender) := by
  refine (never_demand _).zero_bind fun data => (Attempt.atMost_ofExcept 0 _).zero_bind fun _ => ?_
  exact (never_demand _).zero_bind fun value => Attempt.atMost_ofExcept _ _

theorem never_buildTransaction (cfg : Config) (h : Handle) (c : Call) (sender : String) :
    AtMost Ask.isSend 0 (buildTransaction cfg h c sender) := by
  refine (never_prepare h c).zero_bind fun encoded => ?_
  cases encoded with
  | error f => exact Attempt.atMost_ofExcept _ _
  | ok _ =>
    exact (AtMost.onNode (never_price cfg c sender) _).zero_bind fun p => never_transaction p h sender

theorem never_nextNonce (address : String) : AtMost Ask.isSend 0 (nextNonce address) := by
  refine (AtMost.onNode ?_ _).zero_bind fun _ => (never_ask rfl).zero_bind fun _ => Attempt.atMost_ofExcept _ _
  exact (never_ask rfl).zero_bind fun _ => never_demand _

theorem atMost_sendRaw (address : String) (nonce : Int) (raw : Bytes) :
    AtMost Ask.isSend 1 (sendRaw address nonce raw) := by
  refine Attempt.AtMost.bind_zero (a := ask (.send raw)) (Attempt.atMost_query_one _) fun r => ?_
  cases r with
  | ok sent => exact (never_ask rfl).zero_bind fun _ => Attempt.atMost_ofExcept _ _
  | error f =>
    dsimp only
    split
    · exact (never_ask rfl).zero_bind fun _ => Attempt.atMost_ofExcept _ _
    · exact never_demand _

theorem atMost_broadcast (tx : Transaction) (signer : Signer) : AtMost Ask.isSend 1 (broadcast tx signer) := by
  refine (never_nextNonce _).zero_bind fun nonce => ?_
  cases signed tx signer nonce with
  | error f => exact Attempt.atMost_ofExcept _ _
  | ok raw => exact atMost_sendRaw _ nonce raw

theorem AtMost.locked {work : Attempt dialogue α} (atMost : AtMost Ask.isSend n work) (address : String) :
    AtMost Ask.isSend n (locked address work) := by
  refine (never_ask rfl).zero_bind fun _ => atMost.outcome.bind_zero fun _ => ?_
  exact (never_ask rfl).zero_bind fun _ => Attempt.atMost_ofExcept _ _

theorem never_awaitReceipt (cfg : Config) (txHash : String) (nonce : Int) :
    AtMost Ask.isSend 0 (awaitReceipt cfg txHash nonce) :=
  (never_ask rfl).zero_bind fun _ => Attempt.atMost_ofExcept _ _

theorem atMost_submit (cfg : Config) (tx : Transaction) (signer : Signer) :
    AtMost Ask.isSend 1 (submit cfg tx signer) := by
  rw [submit]
  split
  · refine (AtMost.locked (atMost_broadcast tx signer) _).bind_zero fun sent => ?_
    refine (never_demand _).zero_bind fun txHash => ?_
    refine (never_awaitReceipt cfg txHash _).outcome.zero_bind fun r => ?_
    cases r with
    | ok r => exact Attempt.atMost_ofExcept _ _
    | error t =>
      dsimp only
      split
      · exact (never_ask rfl).zero_bind fun _ => Attempt.atMost_ofExcept _ _
      · exact Attempt.atMost_ofExcept _ _
  · exact Attempt.atMost_ofExcept _ _

end Sends

section Calls

open Attempt (Yields)

variable {h : Handle} {es : List (Exchange dialogue)}

theorem yields_ask_ok {q : Ask} {r : Reply q} (yields : Yields (ask q) es (.ok r)) : es = [⟨q, r⟩] := by
  obtain ⟨x, rfl, h⟩ := Attempt.yields_query_iff.1 yields
  obtain rfl := Except.ok.inj h
  rfl

theorem yields_demand_ok {r : Except Fault α} {x : α} (yields : Yields (demand r) es (.ok x)) :
    es = [] ∧ r = .ok x :=
  Attempt.yields_mapError_ok yields

theorem yields_onNode_ok {failure : Fault → Failure} {a : Attempt dialogue α} {x : α}
    (yields : Yields (onNode failure a) es (.ok x)) : Yields a es (.ok x) := by
  obtain ⟨r, fs, gs, rfl, first, second⟩ := Attempt.yields_outcome_bind_iff.1 yields
  match r, first, second with
  | .ok y, first, second =>
    obtain ⟨rfl, h⟩ := Attempt.yields_ofExcept_iff.1 second
    rw [List.append_nil, h]
    exact first
  | .error (.fault f), _, second | .error (.failure f), _, second | .error (.invalid f), _, second =>
    cases (Attempt.yields_ofExcept_iff.1 second).2

theorem yields_prepare_ok {c : Call} (yields : Yields (prepare h c) es (.ok (.ok ()))) :
    es = [⟨.prepare c, .ok ()⟩] := by
  rw [prepare] at yields
  cases hmethod : Handle.checkMethod _ c.method with
  | error f =>
    rw [hmethod] at yields
    cases (Attempt.yields_pure_iff.1 yields).2
  | ok _ =>
    rw [hmethod] at yields
    exact yields_ask_ok yields

/-- A call that succeeds asks two questions. -/
theorem yields_call_ok {c : Call} {block v : Json} (yields : Yields (call h c block) es (.ok v)) :
    es = [⟨.prepare c, .ok ()⟩, ⟨.call c block, .ok v⟩] := by
  obtain ⟨encoded, fs, gs, rfl, prepared, called⟩ := Attempt.yields_bind_ok_iff.1 yields
  rcases encoded with f | _
  · cases (Attempt.yields_ofExcept_iff.1 called).2
  obtain rfl := yields_prepare_ok prepared
  obtain ⟨r, gs, rest, rfl, asked, returned⟩ := Attempt.yields_bind_ok_iff.1 called
  obtain rfl := yields_ask_ok asked
  rcases r with f | w
  · cases (Attempt.yields_ofExcept_iff.1 returned).2
  obtain ⟨rfl, h⟩ := Attempt.yields_pure_iff.1 returned
  obtain rfl := Except.ok.inj h
  rfl

/-- A call asks the node at most once, and for nothing else. -/
theorem yields_call_cases {c : Call} {block : Json} {r : Except Trouble Json} (yields : Yields (call h c block) es r) :
    es = [] ∨ (∃ p, es = [⟨.prepare c, p⟩]) ∨ ∃ p reply, es = [⟨.prepare c, p⟩, ⟨.call c block, reply⟩] := by
  rw [call, prepare] at yields
  cases hmethod : Handle.checkMethod _ c.method with
  | error f =>
    rw [hmethod] at yields
    exact .inl (Activity.path_done_iff.1 yields).1
  | ok _ =>
    rw [hmethod] at yields
    obtain ⟨p, es, rfl, prepared⟩ := Activity.path_ask_done_iff.1 yields
    rcases p with f | _
    · obtain ⟨rfl, -⟩ := Activity.path_done_iff.1 prepared
      exact .inr (.inl ⟨_, rfl⟩)
    · obtain ⟨reply, es, rfl, called⟩ := Activity.path_ask_done_iff.1 prepared
      rcases reply with f | v <;> obtain ⟨rfl, -⟩ := Activity.path_done_iff.1 called <;>
        exact .inr (.inr ⟨_, _, rfl⟩)

/-- A read asks for the encoding of its call, and then for the call. -/
theorem asks_call {c : Call} {block : Json} {r : Except Trouble Json} (yields : Yields (call h c block) es r) :
    ∀ e ∈ es, e.ask = .prepare c ∨ e.ask = .call c block := by
  rcases yields_call_cases yields with rfl | ⟨p, rfl⟩ | ⟨p, reply, rfl⟩
  · exact List.forall_mem_nil _
  · exact List.forall_mem_singleton.2 (.inl rfl)
  · exact List.forall_mem_cons.2 ⟨.inl rfl, List.forall_mem_singleton.2 (.inr rfl)⟩

theorem asks_readCounter {block : Json} {r : Except Trouble Int} (yields : Yields (readCounter h block) es r) :
    ∀ e ∈ es, e.ask = .prepare ⟨"counter", []⟩ ∨ e.ask = .call ⟨"counter", []⟩ block := by
  rcases Attempt.yields_bind_iff.1 yields with ⟨t, called, -⟩ | ⟨v, fs, gs, rfl, called, converted⟩
  · exact asks_call called
  · obtain ⟨rfl, -⟩ := Attempt.yields_ofExcept_iff.1 converted
    rw [List.append_nil]
    exact asks_call called

/-- What the node returns for a call is what the call comes to. -/
theorem yields_call_answered {c c' : Call} {block block' v : Json} {r : Except Trouble Json}
    (yields : Yields (call h c block) es r) (answered : ⟨.call c' block', .ok v⟩ ∈ es) :
    c' = c ∧ block' = block ∧ r = .ok v := by
  rw [call, prepare] at yields
  cases hmethod : Handle.checkMethod _ c.method with
  | error f =>
    rw [hmethod] at yields
    rw [(Activity.path_done_iff.1 yields).1] at answered
    cases answered
  | ok _ =>
    rw [hmethod] at yields
    obtain ⟨p, es, rfl, prepared⟩ := Activity.path_ask_done_iff.1 yields
    rcases p with f | _
    · obtain ⟨rfl, -⟩ := Activity.path_done_iff.1 prepared
      cases List.mem_singleton.1 answered
    · obtain ⟨reply, es, rfl, called⟩ := Activity.path_ask_done_iff.1 prepared
      rcases reply with f | w
      · obtain ⟨rfl, -⟩ := Activity.path_done_iff.1 called
        simp at answered
      · obtain ⟨rfl, h⟩ := Activity.path_done_iff.1 called
        rcases List.mem_cons.1 answered with same | answered
        · cases same
        · cases List.mem_singleton.1 answered
          exact ⟨rfl, rfl, Activity.done.inj h⟩

/-- A number that the node returns for the counter is what is read. -/
theorem yields_readCounter_answered {c : Call} {block block' v : Json} {n : Int} {r : Except Trouble Int}
    (yields : Yields (readCounter h block) es r) (answered : ⟨.call c block', .ok v⟩ ∈ es)
    (number : Json.toInt v = .ok n) : block' = block ∧ r = .ok n := by
  rcases Attempt.yields_bind_iff.1 yields with ⟨t, called, rfl⟩ | ⟨w, fs, gs, rfl, called, converted⟩
  · cases (yields_call_answered called answered).2.2
  · obtain ⟨rfl, rfl⟩ := Attempt.yields_ofExcept_iff.1 converted
    rw [List.append_nil] at answered
    obtain ⟨-, rfl, h⟩ := yields_call_answered called answered
    cases h
    exact ⟨rfl, by rw [number]; rfl⟩

/-- A counter that is read is what the node replied. -/
theorem yields_readCounter_ok {block : Json} {n : Int} (yields : Yields (readCounter h block) es (.ok n)) :
    ∃ v, es = [⟨.prepare ⟨"counter", []⟩, .ok ()⟩, ⟨.call ⟨"counter", []⟩ block, .ok v⟩] ∧
      Json.toInt v = .ok n := by
  obtain ⟨v, fs, gs, rfl, called, converted⟩ := Attempt.yields_bind_ok_iff.1 yields
  obtain ⟨rfl, hn⟩ := yields_demand_ok converted
  exact ⟨v, by rw [yields_call_ok called, List.append_nil], hn⟩

/-- The chain id is remembered, or it is asked for. -/
theorem yields_chainId_ok {n : Int} (yields : Yields chainId es (.ok n)) :
    es = [⟨.knownChainId, some n⟩] ∨
      ∃ v, es = [⟨.knownChainId, none⟩, ⟨.chainId, .ok v⟩, ⟨.rememberChainId n, ()⟩] := by
  obtain ⟨known, fs, gs, rfl, asked, rest₁⟩ := Attempt.yields_bind_ok_iff.1 yields
  obtain rfl := yields_ask_ok asked
  cases known with
  | some m =>
    obtain ⟨rfl, h⟩ := Attempt.yields_pure_iff.1 rest₁
    obtain rfl := Except.ok.inj h
    exact .inl rfl
  | none =>
    obtain ⟨r, fs, gs, rfl, asked, rest₂⟩ := Attempt.yields_bind_ok_iff.1 rest₁
    obtain rfl := yields_ask_ok asked
    obtain ⟨m, fs, gs, rfl, converted, rest₃⟩ := Attempt.yields_bind_ok_iff.1 rest₂
    obtain ⟨rfl, hm⟩ := yields_demand_ok converted
    obtain ⟨_, fs, gs, rfl, asked, rest₄⟩ := Attempt.yields_bind_ok_iff.1 rest₃
    obtain rfl := yields_ask_ok asked
    obtain ⟨rfl, h⟩ := Attempt.yields_pure_iff.1 rest₄
    obtain rfl := Except.ok.inj h
    rcases r with f | v
    · cases hm
    · exact .inr ⟨v, rfl⟩

/-- What a call was priced with is what the node replied: the gas price, the estimate, and the limit for it. -/
theorem yields_price_ok {cfg : Config} {c : Call} {sender : String} {p : Priced}
    (yields : Yields (price cfg c sender) es (.ok p)) :
    ∃ gasPrice amount ids, es = ⟨.gasPrice, .ok gasPrice⟩ :: ⟨.estimate c sender, .ok amount⟩ ::
        (ids ++ [⟨.build c p.terms, .ok p.built⟩]) ∧ Yields chainId ids (.ok p.terms.chainId) ∧
      Json.toInt gasPrice = .ok p.terms.gasPrice ∧ Json.toInt amount = .ok p.estimate ∧
      cfg.gasFactor.limit p.estimate = .ok p.terms.gas ∧ p.terms.sender = sender := by
  obtain ⟨gasPrice, fs, gs, rfl, asked, rest₁⟩ := Attempt.yields_bind_ok_iff.1 yields
  obtain rfl := yields_ask_ok asked
  obtain ⟨amount, fs, gs, rfl, asked, rest₂⟩ := Attempt.yields_bind_ok_iff.1 rest₁
  obtain rfl := yields_ask_ok asked
  obtain ⟨priced, fs, gs, rfl, converted, rest₃⟩ := Attempt.yields_bind_ok_iff.1 rest₂
  obtain ⟨rfl, hpriced⟩ := yields_demand_ok converted
  obtain ⟨n, fs, gs, rfl, converted, rest₄⟩ := Attempt.yields_bind_ok_iff.1 rest₃
  obtain ⟨rfl, hn⟩ := yields_demand_ok converted
  obtain ⟨chain, ids, gs, rfl, known, rest₅⟩ := Attempt.yields_bind_ok_iff.1 rest₄
  obtain ⟨gas, fs, gs, rfl, converted, rest₆⟩ := Attempt.yields_bind_ok_iff.1 rest₅
  obtain ⟨rfl, hgas⟩ := yields_demand_ok converted
  obtain ⟨b, fs, gs, rfl, asked, rest₇⟩ := Attempt.yields_bind_ok_iff.1 rest₆
  obtain rfl := yields_ask_ok asked
  obtain ⟨d, fs, gs, rfl, converted, rest₈⟩ := Attempt.yields_bind_ok_iff.1 rest₇
  obtain ⟨rfl, rfl⟩ := yields_demand_ok converted
  obtain ⟨rfl, h⟩ := Attempt.yields_pure_iff.1 rest₈
  obtain rfl := Except.ok.inj h
  rcases gasPrice with f | gasPrice
  · cases hpriced
  rcases amount with f | amount
  · cases hn
  exact ⟨gasPrice, amount, ids, rfl, known, hpriced, hn, hgas, rfl⟩

/-- The data of what the node built, in which bytes are written in hexadecimal. -/
inductive Built.HasData : Built → Json → Prop where
  | bytes {fs : List (String × Datum)} {bs : Bytes} (found : fs.lookup "data" = some (.bytes bs)) :
      HasData (.fields fs) (.text ("0x" ++ bs.toHex))
  | value {fs : List (String × Datum)} {v : Json} (found : fs.lookup "data" = some (.value v)) : HasData (.fields fs) v
  | member {v w : Json} (found : v.member "data" = .ok w) : HasData (.other v) w

/-- A field of what the node built, or another value where there is none. -/
inductive Built.Gives (name : String) (default : Json) : Built → Json → Prop where
  | named {fs : List (String × Datum)} {d : Datum} (found : fs.lookup name = some d) :
      Gives name default (.fields fs) d.toJson
  | nameless {fs : List (String × Datum)} (missing : fs.lookup name = none) : Gives name default (.fields fs) default
  | other (v : Json) : Gives name default (.other v) default

/-- A transaction is what the node built on some terms: it goes where that goes, or else to the contract, and
carries its data. -/
structure Built.Makes (b : Built) (terms : Terms) (contract : String) (tx : Transaction) : Prop where
  recipient : b.Gives "to" (.text contract) tx.recipient
  data : b.HasData tx.data
  value : ∃ v, b.Gives "value" (.int 0) v ∧ v.toInt = .ok tx.value
  terms : terms = ⟨tx.sender, tx.gas, tx.gasPrice, tx.chainId⟩

theorem Built.hasData {b : Built} {v : Json} (h : b.data = .ok v) : b.HasData v := by
  cases b with
  | other w => exact .member h
  | fields fs =>
    rw [Built.data] at h
    cases found : fs.lookup "data" with
    | none =>
      rw [found] at h
      cases h
    | some d =>
      rw [found] at h
      cases d with
      | bytes bs =>
        obtain rfl := Except.ok.inj h
        exact .bytes found
      | value w =>
        obtain rfl := Except.ok.inj h
        exact .value found

theorem Built.gives (b : Built) (name : String) (default : Json) : b.Gives name default (b.field name default) := by
  cases b with
  | other w => exact .other w
  | fields fs =>
    rw [Built.field]
    cases found : fs.lookup name with
    | none => exact .nameless found
    | some d => exact .named found

/-- A transaction that is made of a priced call asks nothing more. -/
theorem yields_transaction_ok {p : Priced} {sender : String} {tx : Transaction} (own : p.terms.sender = sender)
    (yields : Yields (p.transaction h sender) es (.ok tx)) : es = [] ∧ p.built.Makes p.terms h.address tx := by
  obtain ⟨data, fs, gs, rfl, converted, rest₁⟩ := Attempt.yields_bind_ok_iff.1 yields
  obtain ⟨rfl, hdata⟩ := yields_demand_ok converted
  obtain ⟨_, fs, gs, rfl, told, rest₂⟩ := Attempt.yields_bind_ok_iff.1 rest₁
  obtain ⟨rfl, -⟩ := Attempt.yields_mapError_ok told
  obtain ⟨value, fs, gs, rfl, converted, rest₃⟩ := Attempt.yields_bind_ok_iff.1 rest₂
  obtain ⟨rfl, hvalue⟩ := yields_demand_ok converted
  obtain ⟨rfl, made⟩ := Attempt.yields_pure_iff.1 rest₃
  obtain rfl := Except.ok.inj made
  obtain rfl := own
  exact ⟨rfl, p.built.gives _ _, Built.hasData hdata, ⟨_, p.built.gives _ _, hvalue⟩, rfl⟩

/-- A transaction is what the node built for its call. -/
theorem yields_buildTransaction_ok {cfg : Config} {c : Call} {sender : String} {tx : Transaction}
    (yields : Yields (buildTransaction cfg h c sender) es (.ok tx)) :
    ∃ gasPrice amount ids terms built, es = ⟨.prepare c, .ok ()⟩ :: ⟨.gasPrice, .ok gasPrice⟩ ::
        ⟨.estimate c sender, .ok amount⟩ :: (ids ++ [⟨.build c terms, .ok built⟩]) ∧
      Yields chainId ids (.ok terms.chainId) ∧ built.Makes terms h.address tx ∧ tx.sender = sender := by
  obtain ⟨encoded, fs, gs, rfl, prepared, rest₁⟩ := Attempt.yields_bind_ok_iff.1 yields
  rcases encoded with f | _
  · cases (Attempt.yields_ofExcept_iff.1 rest₁).2
  obtain rfl := yields_prepare_ok prepared
  obtain ⟨p, fs, gs, rfl, priced, rest₂⟩ := Attempt.yields_bind_ok_iff.1 rest₁
  obtain ⟨gasPrice, amount, ids, rfl, known, -, -, -, own⟩ := yields_price_ok (yields_onNode_ok priced)
  obtain ⟨rfl, makes⟩ := yields_transaction_ok own rest₂
  refine ⟨gasPrice, amount, ids, p.terms, p.built, by simp, known, makes, ?_⟩
  rw [← own, makes.terms]

end Calls

section Failures

theorem fails_ask (q : Ask) : Fails P (ask q) := Attempt.fails_query (D := dialogue) q

/-- A demand ends with a fault, if at all, and never with a failure. -/
theorem fails_demand (r : Except Fault α) : Fails P (demand r) := by
  refine Attempt.fails_ofExcept fun f h => ?_
  cases r <;> cases h

theorem Fails.onNode {a : Attempt dialogue α} (fails : Fails P a) {failure : Fault → Failure}
    (own : ∀ f, P (failure f)) : Fails P (onNode failure a) := by
  refine Attempt.Fails.outcome_bind fails fun x caught => ?_
  match x with
  | .error (.fault f) => exact Attempt.fails_ite f (own f)
  | .error (.failure f) | .error (.invalid f) | .ok x => exact Attempt.fails_ofExcept caught

theorem fails_prepare (h : Handle) (c : Call) : Fails P (prepare h c) := by
  rw [prepare]
  cases h.checkMethod c.method with
  | error f => exact Attempt.fails_pure _
  | ok _ => exact fails_ask _

/-- A failure of a call. -/
def IsCallFailure (f : Failure) : Prop := f.kind = .call ∧ f.IsRegular

/-- A failure of a transaction that was to be built. -/
def IsBuildFailure (f : Failure) : Prop := f.kind = .estimation ∧ f.IsRegular

theorem isCallFailure_callTrouble {method : String} {f : Fault} {g : Failure} (h : callTrouble method f = .failure g) :
    IsCallFailure g := by
  rw [callTrouble] at h
  split at h
  · obtain rfl := Trouble.failure.inj h
    exact ⟨rfl, rfl⟩
  · split at h
    · obtain rfl := Trouble.failure.inj h
      exact ⟨rfl, rfl⟩
    · cases h

theorem fails_call (h : Handle) (c : Call) (block : Json) : Fails IsCallFailure (call h c block) := by
  have trouble : ∀ f, Fails IsCallFailure
      (Attempt.ofExcept (.error (callTrouble c.method f)) : Attempt dialogue Json) := fun f =>
    Attempt.fails_ofExcept fun g hg => isCallFailure_callTrouble (Except.error.inj hg)
  refine (fails_prepare h c).bind fun encoded => ?_
  cases encoded with
  | error f => exact trouble f
  | ok _ =>
    refine (fails_ask _).bind fun r => ?_
    cases r with
    | error f => exact trouble f
    | ok v => exact Attempt.fails_pure v

theorem fails_readCounter (h : Handle) (block : Json) : Fails IsCallFailure (readCounter h block) :=
  (fails_call h _ block).bind fun _ => fails_demand _

theorem fails_chainId : Fails P chainId := by
  refine (fails_ask _).bind fun known => ?_
  cases known with
  | some n => exact Attempt.fails_pure n
  | none =>
    exact (fails_ask _).bind fun _ => (fails_demand _).bind fun n => (fails_ask _).bind fun _ => Attempt.fails_pure n

theorem fails_price (cfg : Config) (c : Call) (sender : String) : Fails P (price cfg c sender) := by
  refine (fails_ask _).bind fun _ => (fails_ask _).bind fun _ => ?_
  refine (fails_demand _).bind fun _ => (fails_demand _).bind fun _ => ?_
  refine fails_chainId.bind fun _ => (fails_demand _).bind fun _ => ?_
  exact (fails_ask _).bind fun _ => (fails_demand _).bind fun _ => Attempt.fails_pure _

theorem fails_transaction (p : Priced) (h : Handle) (sender : String) : Fails P (p.transaction h sender) := by
  refine (fails_demand _).bind fun data => Attempt.Fails.bind (fails_demand _) fun _ => ?_
  exact (fails_demand _).bind fun value => Attempt.fails_pure _

theorem fails_buildTransaction (cfg : Config) (h : Handle) (c : Call) (sender : String) :
    Fails IsBuildFailure (buildTransaction cfg h c sender) := by
  refine (fails_prepare h c).bind fun encoded => ?_
  cases encoded with
  | error f => exact Attempt.fails_ite f ⟨rfl, rfl⟩
  | ok _ =>
    exact Attempt.Fails.bind (Fails.onNode (fails_price cfg c sender) fun _ => ⟨rfl, rfl⟩)
      fun p => fails_transaction p h sender

/-- How the messages of a submission's failures begin. -/
def submitMessages : List String :=
  ["Transaction ", "Could not fetch nonce", "Signer rejected ", "Node rejected ", "No receipt for ",
   "Receipt lookup failed for "]

/-- A failure's message begins in one of the ways of a submission. -/
def IsSubmitFailure (f : Failure) : Prop := ∃ m ∈ submitMessages, ∃ s, f.message = m ++ s

/-- A failure of a submission: a refusal, or no receipt in time. -/
def IsSubmissionFailure (f : Failure) : Prop :=
  IsSubmitFailure f ∧ (f.kind = .submission ∨ f.kind = .receiptTimeout) ∧ f.IsRegular

theorem isSubmissionFailure_lookup {cfg : Config} {txHash : String} {f : Fault} {g : Failure}
    (h : lookupTrouble cfg txHash f = .failure g) : IsSubmissionFailure g := by
  rw [lookupTrouble] at h
  split at h
  · obtain rfl := Trouble.failure.inj h
    exact ⟨⟨"No receipt for ", by simp [submitMessages], _, rfl⟩, .inr rfl, rfl⟩
  · split at h
    · obtain rfl := Trouble.failure.inj h
      exact ⟨⟨"Receipt lookup failed for ", by simp [submitMessages], _, rfl⟩, .inl rfl, rfl⟩
    · cases h

section Receipt

variable {cfg : Config} {txHash : String} {nonce : Int} {v : Json} {r : Receipt}

theorem receiptFrom_unread {f : Fault} (unread : receiptOf txHash nonce v = .error f) :
    receiptFrom cfg txHash nonce (.ok v) = .error (.fault f) := by
  rw [receiptFrom, unread]

theorem receiptFrom_reverted (read : receiptOf txHash nonce v = .ok r) (status : r.status ≠ 1) :
    receiptFrom cfg txHash nonce (.ok v) = .error (.failure (revertedFailure txHash)) := by
  rw [receiptFrom, read]
  exact if_neg status

theorem receiptFrom_untold (read : receiptOf txHash nonce v = .ok r) (status : r.status = 1)
    (long : Decimal.fits r.blockNumber = false) :
    receiptFrom cfg txHash nonce (.ok v) = .error (.fault Decimal.unwritable) := by
  rw [receiptFrom, read]
  dsimp only
  rw [if_pos status, Decimal.showAll_of_not_fits (List.mem_singleton_self _) long]

theorem receiptFrom_mined (read : receiptOf txHash nonce v = .ok r) (status : r.status = 1)
    (fits : Decimal.fits r.blockNumber = true) : receiptFrom cfg txHash nonce (.ok v) = .ok r := by
  rw [receiptFrom, read]
  dsimp only
  rw [if_pos status, Decimal.showAll_eq_ok_iff.2 (List.forall_mem_singleton.2 fits)]

/-- What the wait for a receipt comes to: the trouble of the node's fault, or of a document that is none of a receipt,
a transaction that was reverted, a block without a text, or a receipt. -/
theorem receiptFrom_cases (cfg : Config) (txHash : String) (nonce : Int) (reply : Except Fault Json) :
    (∃ f, reply = .error f ∧ receiptFrom cfg txHash nonce reply = .error (lookupTrouble cfg txHash f)) ∨
      (∃ v f, reply = .ok v ∧ receiptOf txHash nonce v = .error f ∧
        receiptFrom cfg txHash nonce reply = .error (.fault f)) ∨
      ∃ v r, reply = .ok v ∧ receiptOf txHash nonce v = .ok r ∧
        ((r.status ≠ 1 ∧ receiptFrom cfg txHash nonce reply = .error (.failure (revertedFailure txHash))) ∨
          (r.status = 1 ∧ Decimal.fits r.blockNumber = false ∧
            receiptFrom cfg txHash nonce reply = .error (.fault Decimal.unwritable)) ∨
          (r.status = 1 ∧ Decimal.fits r.blockNumber = true ∧ receiptFrom cfg txHash nonce reply = .ok r)) := by
  rcases reply with f | v
  · exact .inl ⟨f, rfl, rfl⟩
  refine .inr ?_
  cases read : receiptOf txHash nonce v with
  | error f => exact .inl ⟨v, f, rfl, read, receiptFrom_unread read⟩
  | ok r =>
    refine .inr ⟨v, r, rfl, read, ?_⟩
    by_cases status : r.status = 1
    · cases fits : Decimal.fits r.blockNumber with
      | false => exact .inr (.inl ⟨status, rfl, receiptFrom_untold read status fits⟩)
      | true => exact .inr (.inr ⟨status, rfl, receiptFrom_mined read status fits⟩)
    · exact .inl ⟨status, receiptFrom_reverted read status⟩

end Receipt

theorem isSubmissionFailure_receiptFrom {cfg : Config} {txHash : String} {nonce : Int} {reply : Except Fault Json}
    {g : Failure} (h : receiptFrom cfg txHash nonce reply = .error (.failure g)) : IsSubmissionFailure g := by
  rcases receiptFrom_cases cfg txHash nonce reply with ⟨f, -, hf⟩ | ⟨v, f, -, -, hf⟩ | ⟨v, r, -, -, hr⟩
  · exact isSubmissionFailure_lookup (Except.error.inj (hf.symm.trans h))
  · cases hf.symm.trans h
  · rcases hr with ⟨-, hr⟩ | ⟨-, -, hr⟩ | ⟨-, -, hr⟩
    · obtain rfl := Trouble.failure.inj (Except.error.inj (hr.symm.trans h))
      exact ⟨⟨"Transaction ", by simp [submitMessages], "reverted on-chain", rfl⟩, .inl rfl, rfl⟩
    · cases hr.symm.trans h
    · cases hr.symm.trans h

theorem fails_awaitReceipt (cfg : Config) (txHash : String) (nonce : Int) :
    Fails IsSubmissionFailure (awaitReceipt cfg txHash nonce) :=
  (fails_ask _).bind fun _ => Attempt.fails_ofExcept fun _ h => isSubmissionFailure_receiptFrom h

theorem fails_sendRaw (address : String) (nonce : Int) (raw : Bytes) :
    Fails IsSubmissionFailure (sendRaw address nonce raw) := by
  refine (fails_ask _).bind fun r => ?_
  cases r with
  | ok sent => exact (fails_ask _).bind fun _ => Attempt.fails_pure _
  | error f =>
    dsimp only
    split
    · refine (fails_ask _).bind fun _ => Attempt.fails_fail ?_
      exact ⟨⟨"Node rejected ", by simp [submitMessages], "the transaction", rfl⟩, .inl rfl, rfl⟩
    · exact fails_demand _

theorem fails_broadcast (tx : Transaction) (signer : Signer) : Fails IsSubmissionFailure (broadcast tx signer) := by
  refine Attempt.Fails.bind (Attempt.Fails.bind (Fails.onNode ?_ fun f => ?_) fun pending => ?_) fun nonce => ?_
  · exact (fails_ask _).bind fun _ => fails_demand _
  · exact ⟨⟨"Could not fetch nonce", by simp [submitMessages], "", rfl⟩, .inl rfl, rfl⟩
  · exact (fails_ask _).bind fun _ => Attempt.fails_pure _
  · cases signed tx signer nonce with
    | error f =>
      exact Attempt.fails_fail ⟨⟨"Signer rejected ", by simp [submitMessages], "the transaction", rfl⟩, .inl rfl, rfl⟩
    | ok raw => exact fails_sendRaw _ nonce raw

theorem fails_submit (cfg : Config) (tx : Transaction) (signer : Signer) :
    Fails IsSubmissionFailure (submit cfg tx signer) := by
  rw [submit]
  split
  · refine Attempt.Fails.bind ((fails_ask _).bind fun _ => (fails_broadcast tx signer).outcome_bind ?_) fun sent => ?_
    · exact fun result caught => (fails_ask _).bind fun _ => Attempt.fails_ofExcept caught
    · refine (fails_demand _).bind fun txHash => (fails_awaitReceipt cfg txHash _).outcome_bind fun r caught => ?_
      cases r with
      | ok r => exact Attempt.fails_pure r
      | error t =>
        dsimp only
        split
        · exact (fails_ask _).bind fun _ => Attempt.fails_ofExcept caught
        · exact Attempt.fails_ofExcept caught
  · refine Attempt.fails_fail ⟨?_, .inl rfl, rfl⟩
    exact ⟨"Transaction ", by simp [submitMessages], "sender does not match signer", rfl⟩

end Failures

end ProofRelay.Client
