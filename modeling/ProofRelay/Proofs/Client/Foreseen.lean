import ProofRelay.Contract.Calldata
import ProofRelay.Proofs.Activity.Slips
import ProofRelay.Proofs.Client.Guards
import ProofRelay.Proofs.Client.Submission

/-!
Foreseen replies. A node may fail on any question with one of its own faults, and as often as it likes. What
it does return has the shape that is asked for: numbers are numbers and not negative, a transaction that it
builds has its data, a transaction that it takes has a hash, and arguments of the declared types can be
encoded. Of the signer and of the memory nothing is assumed. Then every operation of the client ends with
its result or with a failure, unless it comes to a number that has no text: a read never does, a build with an estimate,
a limit or a price, and a submission with a nonce or with the block of its receipt.
-/

namespace ProofRelay.Client

open Attempt (Ends Yields Unslipped Settles ends_pure ends_refused)

variable {α β : Type}

/-- A value that stands for a number that is not negative. -/
def IsNumber (v : Json) : Prop := ∃ n : Nat, v.toInt = .ok (n : Int)

/-- The arguments of a call have the types that the registry declares. -/
def Call.Declared (c : Call) : Prop :=
  ∃ types, Calldata.parameterTypes? Handle.registry c.method = some types ∧ (Calldata.words? types c.args).isSome

/-- Replies that the client foresees. A call is encoded if its arguments have the declared types, and refused
with one of the node's faults if they have not, as a position that is too large for its type. -/
def Foreseen (cfg : Config) : Exchange dialogue → Prop
  | ⟨.prepare c, r⟩ => Sound (fun _ => True) r ∧ (c.Declared → r = .ok ())
  | ⟨.isConnected, r⟩ => Sound (fun _ => True) r
  | ⟨.chainId, r⟩ | ⟨.gasPrice, r⟩ | ⟨.pendingCount _, r⟩ => Sound IsNumber r
  | ⟨.estimate _ _, r⟩ =>
    Sound (fun v => ∃ n gas : Nat, v.toInt = .ok (n : Int) ∧ cfg.gasFactor.limit n = .ok (gas : Int)) r
  | ⟨.build _ _, r⟩ => Sound (fun b => (∃ d, b.data = .ok d) ∧ IsNumber (b.field "value" (.int 0))) r
  | ⟨.send _, r⟩ => Sound (fun d => ∃ txHash, hashText d = .ok txHash) r
  | ⟨.awaitReceipt _, r⟩ =>
    Sound (fun v => (∃ x, v.member "blockNumber" = .ok x ∧ IsNumber x) ∧ (∃ x, v.member "status" = .ok x ∧ IsNumber x) ∧
      IsNumber ((v.get? "gasUsed").getD (.int 0))) r
  | ⟨.call c _, r⟩ => Sound (fun v => c.method = "counter" → IsNumber v) r
  | _ => True

theorem Sound.mono {P Q : α → Prop} {r : Except Fault α} (sound : Sound P r) (imp : ∀ x, P x → Q x) : Sound Q r := by
  cases r with
  | ok x => exact imp x sound
  | error f => exact sound

theorem IsNumber.converts {v : Json} (number : IsNumber v) : Converts v := by
  obtain ⟨n, number⟩ := number
  exact ⟨n, number⟩

/-- A foreseen node is a usual one. -/
theorem usual_of_foreseen {cfg : Config} {e : Exchange dialogue} (foreseen : Foreseen cfg e) : Usual e := by
  obtain ⟨q, r⟩ := e
  cases q with
  | chainId | gasPrice => exact Sound.mono foreseen fun _ => IsNumber.converts
  | estimate =>
    refine Sound.mono foreseen ?_
    rintro v ⟨n, gas, number, -⟩
    exact ⟨n, number⟩
  | build => exact Sound.mono foreseen fun _ whole => whole.2.converts
  | call => exact Sound.mono foreseen fun _ _ => trivial
  | _ => trivial

section Reads

variable (cfg : Config) {h : Handle}

/-- A method that the contract has is encoded, if its arguments have the declared types. -/
theorem ends_prepare {c : Call} (has : h.checkMethod c.method = .ok ()) :
    Ends (Foreseen cfg) (fun r => ∃ e, r = .ok e ∧ Sound (fun _ => True) e ∧ (c.Declared → e = .ok ()))
      (prepare h c) := by
  rw [prepare, has]
  refine Attempt.meets_query trivial fun r _ answer => ?_
  exact ⟨r, rfl, answer⟩

theorem ends_call {c : Call} (has : h.checkMethod c.method = .ok ()) (block : Json) :
    Ends (Foreseen cfg) (EndsWell fun v => c.method = "counter" → IsNumber v) (call h c block) := by
  refine (ends_prepare cfg has).bind (fun encoded prepared => ?_) fun t prepared => ?_
  · obtain ⟨e, same, sound, -⟩ := prepared
    cases same
    cases encoded with
    | error f => exact ends_refused (callTrouble_sound _ sound)
    | ok _ =>
      refine Attempt.ends_query_bind fun r answer => ?_
      cases r with
      | error f => exact ends_refused (callTrouble_sound _ answer)
      | ok v => exact ends_pure answer
  · obtain ⟨e, same, -⟩ := prepared
    cases same

theorem ends_readCounter (has : h.checkMethod "counter" = .ok ()) (block : Json) :
    Ends (Foreseen cfg) (EndsWell fun _ => True) (readCounter h block) := by
  refine (ends_call cfg (c := ⟨"counter", []⟩) has block).bind (fun v number => ?_) fun t well => well.error
  obtain ⟨n, number⟩ := number rfl
  rw [number]
  exact trivial

end Reads

section Build

variable {cfg : Config} {h : Handle} {c : Call} {sender : String} {es : List (Exchange dialogue)}

/-- The node has built a call, and one of the numbers that are told then is the estimate, the limit or the price. -/
inductive Prices (c : Call) (sender : String) (es : List (Exchange dialogue)) : Int → Prop where
  | intro {amount : Json} {n k : Int} {terms : Terms} {made : Built} (estimated : ⟨.estimate c sender, .ok amount⟩ ∈ es)
      (number : amount.toInt = .ok n) (built : ⟨.build c terms, .ok made⟩ ∈ es)
      (told : k ∈ [n, terms.gas, terms.gasPrice]) : Prices c sender es k

/-- Of what slips past the guards of a build, foreseen replies leave the numbers without a text. -/
theorem slips_iff_of_foreseen (has : h.checkMethod c.method = .ok ()) (declared : c.Declared)
    (all : ∀ e ∈ es, Foreseen cfg e) (g : Fault) :
    Slips cfg h c sender es g ↔ g = Decimal.unwritable ∧ ∃ k, Prices c sender es k ∧ Decimal.fits k = false := by
  constructor
  · intro slips
    cases slips with
    | refused prepares unguarded =>
      obtain ⟨fs, gs, rfl, prepared⟩ := prepares
      have foreseen : ∀ e ∈ fs, Foreseen cfg e := fun e mem => all e (List.mem_append_left _ mem)
      obtain ⟨p, same, -, encodes⟩ := (ends_prepare cfg has).yields prepared foreseen
      cases same
      cases encodes declared
    | unlimited priced estimated number known limit uncaught =>
      obtain ⟨n, gas, number', limit'⟩ := all _ estimated
      cases number.symm.trans number'
      cases limit.symm.trans limit'
    | dataless built missing =>
      obtain ⟨⟨d, data⟩, -⟩ := all _ built
      cases missing.symm.trans data
    | untold estimated number built data told long => exact ⟨rfl, _, ⟨estimated, number, built, told⟩, long⟩
  · rintro ⟨rfl, k, ⟨estimated, number, built, told⟩, long⟩
    obtain ⟨⟨d, data⟩, -⟩ := all _ built
    exact .untold estimated number built data told long

/-- A build ends with a transaction or a failure, unless a number has no text. -/
theorem buildTransaction_fault_iff {r : Except Trouble Transaction}
    (yields : Yields (buildTransaction cfg h c sender) es r)
    (has : h.checkMethod c.method = .ok ()) (declared : c.Declared) (all : ∀ e ∈ es, Foreseen cfg e) (g : Fault) :
    r = .error (.fault g) ↔ g = Decimal.unwritable ∧ ∃ k, Prices c sender es k ∧ Decimal.fits k = false :=
  (buildTransaction_escapes_iff yields (fun e mem => usual_of_foreseen (all e mem)) g).trans
    (slips_iff_of_foreseen has declared all g)

end Build

/-- The number that an exchange of a submission makes it tell: the nonce that it remembers, and the block of a receipt
that says that the transaction succeeded. -/
def told? : Exchange dialogue → Option Int
  | ⟨.rememberNonce _ nonce, _⟩ => some nonce
  | ⟨.awaitReceipt _, .ok doc⟩ =>
    match (doc.member "status").bind Json.toInt with
    | .ok status => if status = 1 then ((doc.member "blockNumber").bind Json.toInt).toOption else none
    | .error _ => none
  | _ => none

/-- What is told is a nonce that is remembered, or the block of a transaction that succeeded. -/
theorem told?_eq_some {e : Exchange dialogue} {n : Int} (told : told? e = some n) :
    (∃ address, e = ⟨.rememberNonce address n, ()⟩) ∨
      ∃ txHash doc, e = ⟨.awaitReceipt txHash, .ok doc⟩ ∧ (doc.member "status").bind Json.toInt = .ok 1 ∧
        (doc.member "blockNumber").bind Json.toInt = .ok n := by
  obtain ⟨q, reply⟩ := e
  cases q with
  | rememberNonce address nonce =>
    obtain rfl := Option.some.inj told
    exact .inl ⟨address, rfl⟩
  | awaitReceipt txHash =>
    cases reply with
    | error f => cases told
    | ok doc =>
      refine .inr ⟨txHash, doc, rfl, ?_⟩
      cases status : (doc.member "status").bind Json.toInt with
      | error f => simp [told?, status] at told
      | ok s =>
        cases block : (doc.member "blockNumber").bind Json.toInt with
        | error f => simp [told?, status, block, Except.toOption] at told
        | ok m =>
          obtain ⟨rfl, rfl⟩ : s = 1 ∧ m = n := by simpa [told?, status, block, Except.toOption] using told
          exact ⟨rfl, rfl⟩
  | _ => cases told

/-- A number without a text is a fault. -/
def slip? (e : Exchange dialogue) : Option Fault :=
  (told? e).bind fun n => if Decimal.fits n then none else some Decimal.unwritable

theorem slip?_eq_some_iff {e : Exchange dialogue} {f : Fault} :
    slip? e = some f ↔ f = Decimal.unwritable ∧ ∃ n, told? e = some n ∧ Decimal.fits n = false := by
  rw [slip?, Option.bind_eq_some_iff]
  constructor
  · rintro ⟨n, told, slip⟩
    split at slip
    · cases slip
    · rename_i long
      exact ⟨(Option.some.inj slip).symm, n, told, Bool.eq_false_iff.2 long⟩
  · rintro ⟨rfl, n, told, long⟩
    refine ⟨n, told, ?_⟩
    rw [long]
    rfl

section Submit

variable {cfg : Config} {es : List (Exchange dialogue)}

theorem slip?_of_fits {e : Exchange dialogue} {n : Int} (told : told? e = some n) (fits : Decimal.fits n = true) :
    slip? e = none := by
  rw [slip?, told, Option.bind_some, if_pos fits]

theorem slip?_of_untold {e : Exchange dialogue} (untold : told? e = none) : slip? e = none := by
  rw [slip?, untold]
  rfl

theorem meets_ask_bind {Q : Except Trouble β → List (Exchange dialogue) → Prop} {q : Ask}
    {f : Reply q → Attempt dialogue β}
    (next : ∀ r, Foreseen cfg ⟨q, r⟩ → (f r).Meets (.kept (Foreseen cfg)) (es ++ [⟨q, r⟩]) Q) :
    (ask q >>= f).Meets (.kept (Foreseen cfg)) es Q :=
  Attempt.meets_kept_bind next

theorem meets_nextNonce (quiet : Unslipped slip? es) (address : String) :
    (nextNonce address).Meets (.kept (Foreseen cfg)) es fun r es' =>
      EndsWell (fun _ => True) r ∧ Unslipped slip? es' := by
  refine Attempt.Meets.bind (Attempt.Meets.outcome_bind (meets_ask_bind fun r sound => ?_))
  have quiet : Unslipped slip? (es ++ [⟨.pendingCount address, r⟩]) := quiet.snoc rfl
  cases r with
  | error f => exact And.intro (endsWell_of_failure ⟨_, if_pos sound⟩) quiet
  | ok v =>
    obtain ⟨n, number⟩ : IsNumber v := sound
    have counted : Except.bind (.ok v) Json.toInt = .ok (n : Int) := number
    rw [counted]
    exact meets_ask_bind fun last _ => ⟨trivial, quiet.snoc rfl⟩

/-- What a broadcast comes to: a failure, or a nonce that is remembered at last and something that has a hash. -/
def Broadcasts (r : Except Trouble (Int × Datum)) (es : List (Exchange dialogue)) : Prop :=
  match r with
  | .ok (nonce, sent) => (∃ txHash, hashText sent = .ok txHash) ∧
      ∃ fs address, es = fs ++ [⟨.rememberNonce address nonce, ()⟩] ∧ Unslipped slip? fs
  | .error t => (∃ f, t = .failure f) ∧ Unslipped slip? es

theorem meets_sendRaw (quiet : Unslipped slip? es) (address : String) (nonce : Int) (raw : Bytes) :
    (sendRaw address nonce raw).Meets (.kept (Foreseen cfg)) es Broadcasts := by
  refine meets_ask_bind fun r sound => ?_
  cases r with
  | ok sent => exact meets_ask_bind fun _ _ => ⟨sound, _, address, rfl, quiet.snoc rfl⟩
  | error f =>
    have node : f.kind.isNode = true := sound
    simp only [node, if_true]
    exact meets_ask_bind fun _ _ => ⟨⟨_, rfl⟩, (quiet.snoc rfl).snoc rfl⟩

theorem meets_broadcast (quiet : Unslipped slip? es) (tx : Transaction) (signer : Signer) :
    (broadcast tx signer).Meets (.kept (Foreseen cfg)) es Broadcasts := by
  refine Attempt.Meets.bind ((meets_nextNonce quiet _).mono ?_)
  rintro (t | nonce) es' ⟨well, quiet⟩
  · exact ⟨well.failure, quiet⟩
  · dsimp only
    cases signed tx signer nonce with
    | error f => exact And.intro ⟨_, rfl⟩ quiet
    | ok raw => exact meets_sendRaw quiet _ nonce raw

theorem receiptOf_sound (txHash : String) (nonce : Int) {v : Json}
    (whole : (∃ x, v.member "blockNumber" = .ok x ∧ IsNumber x) ∧ (∃ x, v.member "status" = .ok x ∧ IsNumber x) ∧
      IsNumber ((v.get? "gasUsed").getD (.int 0))) : ∃ receipt, receiptOf txHash nonce v = .ok receipt ∧
        (v.member "status").bind Json.toInt = .ok receipt.status ∧
        (v.member "blockNumber").bind Json.toInt = .ok receipt.blockNumber := by
  obtain ⟨⟨block, hblock, number, hnumber⟩, ⟨mark, hmark, status, hstatus⟩, gasUsed, hgas⟩ := whole
  refine ⟨⟨txHash, number, status, nonce, gasUsed⟩, ?_, ?_, ?_⟩
  · rw [receiptOf, hblock, hmark]
    simp only [bind, Except.bind, hnumber, hstatus, hgas]
    rfl
  · rw [hmark]
    exact hstatus
  · rw [hblock]
    exact hnumber

theorem lookupTrouble_sound {txHash : String} {f : Fault} (node : f.kind.isNode = true) :
    ∃ g, lookupTrouble cfg txHash f = .failure g := by
  rw [lookupTrouble, if_pos node]
  split <;> exact ⟨_, rfl⟩

/-- The receipt of a transaction settles by what it says of the block. -/
theorem settles_receipt (quiet : Unslipped slip? es) {txHash : String} {nonce : Int} {reply : Except Fault Json}
    (foreseen : Foreseen cfg ⟨.awaitReceipt txHash, reply⟩) :
    Settles slip? (receiptFrom cfg txHash nonce reply) (es ++ [⟨.awaitReceipt txHash, reply⟩]) := by
  cases reply with
  | error f => exact (quiet.snoc rfl).failure (lookupTrouble_sound foreseen)
  | ok doc =>
    obtain ⟨receipt, read, status, block⟩ := receiptOf_sound txHash nonce foreseen
    have told : told? ⟨.awaitReceipt txHash, .ok doc⟩ =
        if receipt.status = 1 then some receipt.blockNumber else none := by
      simp only [told?, status, block, Except.toOption]
    by_cases success : receipt.status = 1
    · rw [if_pos success] at told
      rcases Bool.eq_false_or_eq_true (Decimal.fits receipt.blockNumber) with fits | long
      · rw [receiptFrom_mined read success fits]
        exact (quiet.snoc (slip?_of_fits told fits)).ok receipt
      · rw [receiptFrom_untold read success long]
        exact quiet.slip (slip?_eq_some_iff.2 ⟨rfl, _, told, long⟩)
    · rw [if_neg success] at told
      rw [receiptFrom_reverted read success]
      exact (quiet.snoc (slip?_of_untold told)).failure ⟨_, rfl⟩

/-- What is left of a submission settles by the nonce that was remembered, and then by the receipt. -/
theorem settles_afterSending (s : Submission) {address : String} {nonce : Int} {sent : Datum}
    (quiet : Unslipped slip? es)
    (hash : ∃ txHash, hashText sent = .ok txHash) :
    (afterSending cfg s (nonce, sent)).Meets (.kept (Foreseen cfg))
      (es ++ [⟨.rememberNonce address nonce, ()⟩] ++ [⟨.unlock s.account, ()⟩]) (Settles slip?) := by
  obtain ⟨txHash, hash⟩ := hash
  have told : told? ⟨.rememberNonce address nonce, ()⟩ = some nonce := rfl
  rcases Bool.eq_false_or_eq_true (Decimal.fits nonce) with fits | long
  · rw [afterSending, sentHash_eq_ok_iff.2 ⟨hash, fits⟩]
    have quiet : Unslipped slip? (es ++ [⟨.rememberNonce address nonce, ()⟩] ++ [⟨.unlock s.account, ()⟩]) :=
      (quiet.snoc (slip?_of_fits told fits)).snoc rfl
    refine Attempt.Meets.outcome_bind (meets_ask_bind fun reply foreseen => ?_)
    have settles : Settles slip? (receiptFrom cfg txHash nonce reply) _ := settles_receipt quiet foreseen
    refine Attempt.meets_ofExcept ?_
    generalize receiptFrom cfg txHash nonce reply = x at settles
    cases x with
    | ok receipt => exact settles
    | error t =>
      dsimp only
      split
      · exact meets_ask_bind fun _ _ => settles.snoc rfl
      · exact settles
  · rw [afterSending, sentHash_of_long hash long]
    have settles : Settles slip? (.error (.fault Decimal.unwritable) : Except Trouble Receipt)
        (es ++ [⟨.rememberNonce address nonce, ()⟩] ++ [⟨.unlock s.account, ()⟩]) :=
      (quiet.slip (slip?_eq_some_iff.2 ⟨rfl, nonce, told, long⟩)).snoc rfl
    exact settles

/-- A submission ends with a fault exactly if it has to tell a number without a text. -/
theorem settles_submit {tx : Transaction} {signer : Signer} {r : Except Trouble Receipt}
    (yields : Yields (submit cfg tx signer) es r) (all : ∀ e ∈ es, Foreseen cfg e) : Settles slip? r es := by
  have meets : (submit cfg tx signer).Meets (.kept (Foreseen cfg)) [] (Settles slip?) := by
    rw [submit_eq cfg ⟨tx, signer⟩]
    split
    · refine Attempt.Meets.bind (meets_ask_bind fun _ _ => Attempt.Meets.outcome_bind ?_)
      have start : Unslipped slip? ([] ++ [⟨.lock signer.address, ()⟩]) := Attempt.unslipped_nil.snoc rfl
      refine (meets_broadcast start tx signer).mono ?_
      rintro (t | ⟨nonce, sent⟩) es' sends
      · exact meets_ask_bind fun _ _ => (sends.2.snoc rfl).failure sends.1
      · obtain ⟨hash, fs, address, rfl, quiet⟩ := sends
        exact meets_ask_bind fun _ _ => settles_afterSending ⟨tx, signer⟩ quiet hash
    · exact Attempt.unslipped_nil.failure ⟨_, rfl⟩
  exact Activity.Meets.path meets yields (Terms.leads_kept all [])

end Submit

end ProofRelay.Client
