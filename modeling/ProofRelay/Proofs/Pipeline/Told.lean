import ProofRelay.Proofs.Client.Foreseen
import ProofRelay.Proofs.Pipeline.Parts
import ProofRelay.Proofs.Pipeline.Position
import ProofRelay.Proofs.Prover.Foreseen

/-!
What gets past a submission. Under foreseen replies every part of it ends with its result or with a failure, and two
things are left. A commitment may be written and confirmed, and the counter advance, but stay below the offset, so
that the record would have a negative position. And the numbers that are told on the way must have a text: estimate,
limit and price of the transaction, its nonce, its block, and a counter that has not advanced.
-/

namespace ProofRelay.Relay

open Attempt (Yields Unslipped)

variable {τ : Type}

/-- Replies that a run foresees. -/
def Foreseen (c : Config τ) : Exchange (dialogue τ) → Prop
  | ⟨.chain q, r⟩ => Client.Foreseen c.client ⟨q, r⟩
  | ⟨.prover q, r⟩ => Prover.Foreseen ⟨q, r⟩
  | ⟨.now, _⟩ | ⟨.pause _, _⟩ => True

/-- The node took a transaction and confirmed that it succeeded, the counter has advanced as of the receipt's
block, and it is below the offset. -/
inductive Overshot (c : Config τ) (es : List (Exchange (dialogue τ))) : Prop where
  | intro {raw : Bytes} {sent : Datum} {txHash : String} {doc first second : Json} {block before after : Int}
      (accepted : ⟨.chain (.send raw), .ok sent⟩ ∈ es) (hash : Client.hashText sent = .ok txHash)
      (confirmed : ⟨.chain (.awaitReceipt txHash), .ok doc⟩ ∈ es)
      (status : (doc.member "status").bind Json.toInt = .ok 1)
      (mined : (doc.member "blockNumber").bind Json.toInt = .ok block)
      (counted : ⟨counterCall Client.latest, .ok first⟩ ∈ es) (number : first.toInt = .ok before)
      (recounted : ⟨counterCall (.int block), .ok second⟩ ∈ es) (number' : second.toInt = .ok after)
      (advanced : before < after) (below : after < c.indexOffset) : Overshot c es

/-- A number that a run puts into its log or into the text of a failure. -/
inductive Told (es : List (Exchange (dialogue τ))) : Int → Prop where
  /-- The node has built a transaction: its estimate, its limit, its price. -/
  | price {call : Client.Call} {sender : String} {amount : Json} {n k : Int}
      {terms : Client.Terms} {made : Client.Built}
      (estimated : ⟨.chain (.estimate call sender), .ok amount⟩ ∈ es) (number : amount.toInt = .ok n)
      (built : ⟨.chain (.build call terms), .ok made⟩ ∈ es) (told : k ∈ [n, terms.gas, terms.gasPrice]) : Told es k
  /-- The node has taken a transaction: the nonce that is remembered for it. -/
  | nonce {account : String} {n : Int} (remembered : ⟨.chain (.rememberNonce account n), ()⟩ ∈ es) : Told es n
  /-- The node confirms that a transaction succeeded: its block. -/
  | block {txHash : String} {doc : Json} {n : Int} (confirmed : ⟨.chain (.awaitReceipt txHash), .ok doc⟩ ∈ es)
      (status : (doc.member "status").bind Json.toInt = .ok 1)
      (mined : (doc.member "blockNumber").bind Json.toInt = .ok n) : Told es n
  /-- The counter has not advanced: its two values. -/
  | counter {first second : Json} {block before after k : Int} (counted : ⟨counterCall Client.latest, .ok first⟩ ∈ es)
      (number : first.toInt = .ok before) (recounted : ⟨counterCall (.int block), .ok second⟩ ∈ es)
      (number' : second.toInt = .ok after) (stuck : after ≤ before) (told : k ∈ [before, after]) : Told es k
  /-- The contract answers for a record: its position. -/
  | position {n : Int} {digest : Bytes} {answer : Json} (answered : ⟨verifyCall n digest, .ok answer⟩ ∈ es) : Told es n

/-- The error of a record whose position would be negative. -/
def negativePosition : Trouble := .invalid [{ field := "index", rule := .negative }]

/-- A result is trouble that is no failure. -/
def Astray {α : Type} (x : Except Trouble α) (t : Trouble) : Prop := x = .error t ∧ ∀ f, t ≠ .failure f

section Astray

variable {α : Type} {t t' : Trouble}

theorem not_astray_ok (v : α) : ¬ Astray (.ok v) t := fun h => by cases h.1

theorem not_astray_failure (f : Failure) : ¬ Astray (.error (.failure f) : Except Trouble α) t :=
  fun h => h.2 f (Except.error.inj h.1).symm

theorem astray_error_iff (other : ∀ f, t' ≠ .failure f) : Astray (.error t' : Except Trouble α) t ↔ t' = t := by
  constructor
  · rintro ⟨same, -⟩
    exact Except.error.inj same
  · rintro rfl
    exact ⟨rfl, other⟩

end Astray

section Parts

variable {c : Config τ} {commitment : String} {es : List (Exchange (dialogue τ))}

theorem foreseen_chain {fs : List (Exchange Client.dialogue)}
    (all : ∀ e ∈ fs.map (chainExchange (τ := τ)), Foreseen c e) : ∀ e ∈ fs, Client.Foreseen c.client e := by
  intro e he
  exact all _ (List.mem_map_of_mem he)

theorem mem_map_chain {e : Exchange Client.dialogue} {fs : List (Exchange Client.dialogue)} :
    chainExchange (τ := τ) e ∈ fs.map chainExchange ↔ e ∈ fs := by
  constructor
  · intro mem
    obtain ⟨e', he, same⟩ := List.mem_map.1 mem
    exact chainExchange_injective same ▸ he
  · exact List.mem_map_of_mem

/-- A digest has the type that the contract declares for a commitment. -/
theorem declared_create {digest : Bytes} (length : digest.length = 32) :
    Client.Call.Declared ⟨"create_proof", [.bytes digest]⟩ := by
  have types : Calldata.parameterTypes? Handle.registry "create_proof" = some ["bytes32"] := by decide +kernel
  refine ⟨["bytes32"], types, ?_⟩
  simp [Calldata.words?, Calldata.word?, Calldata.wordSize, length]

section Calls

variable {fs : List (Exchange Client.dialogue)}

/-- The counter as of a block is not among what was asked before. -/
theorem not_recounted_of_first {r : Except Trouble Int} {block n : Int} {v : Json}
    (first : Yields (Client.readCounter c.contract Client.latest) fs r) (number : v.toInt = .ok n) :
    ⟨.call ⟨"counter", []⟩ (.int block), .ok v⟩ ∉ fs := by
  intro recounted
  cases (Client.yields_readCounter_answered first recounted number).1

theorem not_call_of_build {call call' : Client.Call} {block : Json} {reply : Except Fault Json}
    {r : Except Trouble Transaction}
    (part : Yields (Client.buildTransaction c.client c.contract call c.signer.address) fs r) :
    ⟨.call call' block, reply⟩ ∉ fs := by
  intro called
  rcases Client.asks_buildTransaction part _ called with same | prices
  · cases same
  · exact prices

theorem not_call_of_sending {call : Client.Call} {block : Json} {reply : Except Fault Json} {tx : Transaction}
    {r : Except Trouble Receipt} (part : Yields (Client.submit c.client tx c.signer) fs r) :
    ⟨.call call block, reply⟩ ∉ fs := by
  intro called
  cases Client.asks_submit part _ called

/-- In some exchanges no transaction is estimated or built. -/
structure Unpriced (fs : List (Exchange Client.dialogue)) : Prop where
  estimate : ∀ call sender reply, ⟨.estimate call sender, reply⟩ ∉ fs
  build : ∀ call terms reply, ⟨.build call terms, reply⟩ ∉ fs

theorem unpriced_of_counter {block : Json} {r : Except Trouble Int}
    (part : Yields (Client.readCounter c.contract block) fs r) : Unpriced fs := by
  constructor
  · intro call sender reply mem
    rcases Client.asks_readCounter part _ mem with same | same <;> cases same
  · intro call terms reply mem
    rcases Client.asks_readCounter part _ mem with same | same <;> cases same

theorem unpriced_nil : Unpriced [] := ⟨fun _ _ _ => List.not_mem_nil, fun _ _ _ => List.not_mem_nil⟩

theorem Unpriced.append {gs : List (Exchange Client.dialogue)} (first : Unpriced fs) (second : Unpriced gs) :
    Unpriced (fs ++ gs) :=
  ⟨fun _ _ _ mem => (List.mem_append.1 mem).elim (first.estimate _ _ _) (second.estimate _ _ _),
    fun _ _ _ mem => (List.mem_append.1 mem).elim (first.build _ _ _) (second.build _ _ _)⟩

theorem unpriced_of_sending {tx : Transaction} {r : Except Trouble Receipt}
    (part : Yields (Client.submit c.client tx c.signer) fs r) : Unpriced fs := by
  constructor
  · intro call sender reply mem
    cases Client.asks_submit part _ mem
  · intro call terms reply mem
    cases Client.asks_submit part _ mem

theorem quiet_of_counter {block : Json} {r : Except Trouble Int}
    (part : Yields (Client.readCounter c.contract block) fs r) : Unslipped Client.slip? fs := by
  rintro ⟨q, x⟩ mem
  rcases Client.asks_readCounter part _ mem with same | same
  · obtain rfl : q = _ := same
    rfl
  · obtain rfl : q = _ := same
    rfl

theorem quiet_of_build {call : Client.Call} {r : Except Trouble Transaction}
    (part : Yields (Client.buildTransaction c.client c.contract call c.signer.address) fs r) :
    Unslipped Client.slip? fs := by
  rintro ⟨q, x⟩ mem
  rcases Client.asks_buildTransaction part _ mem with same | prices
  · obtain rfl : q = _ := same
    rfl
  · cases q with
    | rememberNonce | awaitReceipt => exact prices.elim
    | _ => rfl

end Calls

/-- A submission that halts has not counted again. -/
theorem Halted.not_recounted {t : Trouble} (halted : Halted c commitment es t) {block n : Int} {v : Json}
    (number : v.toInt = .ok n) : ⟨counterCall (.int block), .ok v⟩ ∉ es := by
  change chainExchange ⟨.call ⟨"counter", []⟩ (.int block), .ok v⟩ ∉ es
  cases halted with
  | first part => exact mem_map_chain.not.2 (not_recounted_of_first part number)
  | encode first part => exact mem_map_chain.not.2 (not_recounted_of_first first number)
  | build first encoded part =>
    rw [mem_map_chain, List.mem_append, not_or]
    exact ⟨not_recounted_of_first first number, not_call_of_build part⟩
  | submit first encoded built part =>
    rw [mem_map_chain, List.mem_append, List.mem_append, not_or, not_or]
    exact ⟨not_recounted_of_first first number, not_call_of_build built, not_call_of_sending part⟩
  | second first encoded built submitted part =>
    rw [mem_map_chain, List.mem_append, List.mem_append, List.mem_append, not_or, not_or, not_or]
    refine ⟨not_recounted_of_first first number, not_call_of_build built, not_call_of_sending submitted, ?_⟩
    intro recounted
    cases (Client.yields_readCounter_answered part recounted number).2

/-- Of a commitment that is written, the counters are those that the node returned. -/
theorem Written.counters {before after n : Int} {receipt : Receipt} {v : Json} {bytes : Bytes}
    (written : Written c commitment es before receipt after) (encoded : Commitment.toBytes commitment = .ok bytes)
    (number : v.toInt = .ok n) :
    (⟨counterCall Client.latest, .ok v⟩ ∈ es → n = before) ∧
      ∀ block : Int, ⟨counterCall (.int block), .ok v⟩ ∈ es → n = after := by
  obtain ⟨-, v₁, v₂, hcounters, hbefore, hafter⟩ := written.transacted encoded
  have called : ∀ block, ⟨counterCall block, .ok v⟩ ∈ es →
      ⟨counterCall block, .ok v⟩ ∈ asked Ask.isCall es := fun block mem => List.mem_filter.2 ⟨mem, rfl⟩
  rw [hcounters] at called
  constructor
  · intro mem
    rcases List.mem_cons.1 (called _ mem) with same | mem
    · cases same
      exact Except.ok.inj (number.symm.trans hbefore)
    · cases List.mem_singleton.1 mem
  · intro block mem
    rcases List.mem_cons.1 (called _ mem) with same | mem
    · cases same
    · cases List.mem_singleton.1 mem
      exact Except.ok.inj (number.symm.trans hafter)

/-- Of a commitment that is written, the record has a negative position only if the counter is below the
offset. -/
theorem Written.overshot {before after : Int} {receipt : Receipt}
    (written : Written c commitment es before receipt after) (advanced : before < after)
    (below : after < c.indexOffset) : Overshot c es := by
  obtain ⟨v, raw, sent, doc, v', four, hbefore, hash, mined, status, hafter⟩ := written.exchanges
  have mem := four.subset
  simp only [List.cons_subset, List.nil_subset, and_true] at mem
  obtain ⟨counted, accepted, confirmed, recounted⟩ := mem
  exact ⟨accepted, hash, confirmed, status, mined, counted, hbefore, recounted, hafter, advanced, below⟩

/-- Of a commitment that is written, both counters are told if the counter has not advanced. -/
theorem Written.told {before after k : Int} {receipt : Receipt}
    (written : Written c commitment es before receipt after) (stuck : after ≤ before) (told : k ∈ [before, after]) :
    Told es k := by
  obtain ⟨v, raw, sent, doc, v', four, hbefore, hash, mined, status, hafter⟩ := written.exchanges
  have mem := four.subset
  simp only [List.cons_subset, List.nil_subset, and_true] at mem
  obtain ⟨counted, accepted, confirmed, recounted⟩ := mem
  exact .counter counted hbefore recounted hafter stuck told

theorem checked_eq_error {record : Record} {t : Trouble} (h : record.checked.mapError .invalid = .error t) :
    record.index < 0 ∧ t = negativePosition := by
  rw [Record.checked] at h
  split at h
  · rename_i negative
    exact ⟨negative, (Except.error.inj h).symm⟩
  · cases h

theorem checked_of_negative {record : Record} (negative : record.index < 0) :
    record.checked.mapError .invalid = .error negativePosition := by
  rw [Record.checked, if_pos negative]
  rfl

/-- The trouble of a counter that has not advanced is a failure if both its values have a text. -/
theorem stuckTrouble_cases (before after : Int) (txHash : String) :
    ((∀ k ∈ [before, after], Decimal.fits k = true) ∧ ∃ f, stuckTrouble before after txHash = .failure f) ∨
      ((∃ k ∈ [before, after], Decimal.fits k = false) ∧
        stuckTrouble before after txHash = .fault Decimal.unwritable) := by
  rcases Bool.eq_false_or_eq_true (Decimal.fits before) with first | first
  · rcases Bool.eq_false_or_eq_true (Decimal.fits after) with second | second
    · refine .inl ⟨by simp [first, second], ?_⟩
      rw [stuckTrouble, Decimal.shown_of_fits first, Decimal.shown_of_fits second]
      exact ⟨_, rfl⟩
    · refine .inr ⟨⟨after, by simp, second⟩, ?_⟩
      rw [stuckTrouble, Decimal.shown_of_fits first, Decimal.shown_of_not_fits second]
  · refine .inr ⟨⟨before, by simp, first⟩, ?_⟩
    rw [stuckTrouble, Decimal.shown_of_not_fits first]

/-- A submission whose counter is below the offset ends with that error. -/
theorem submit_of_overshot {data : Bytes} {x : Except Trouble Record}
    (submission : Yields (submit c (Commitment.ofBytes data)) es x) (overshot : Overshot c es) :
    x = .error negativePosition := by
  obtain ⟨-, -, -, -, -, counted, number, recounted, number', advanced, below⟩ := overshot
  have encoded := Commitment.toBytes_ofBytes data
  rcases submit_parts submission with ⟨t, -, halted⟩ | ⟨before, receipt, after, written, decided⟩
  · exact (halted.not_recounted number' recounted).elim
  have first := (written.counters encoded number).1 counted
  have second := (written.counters encoded number').2 _ recounted
  rcases decided with ⟨stuck, -⟩ | ⟨-, h⟩
  · omega
  · rw [h]
    apply checked_of_negative
    change after - c.indexOffset < 0
    omega

/-- A submission whose counter has not advanced ends with a fault, if one of its values has no text. -/
theorem submit_of_counter {data : Bytes} {x : Except Trouble Record} {v v' : Json} {block n m k : Int}
    (submission : Yields (submit c (Commitment.ofBytes data)) es x)
    (counted : ⟨counterCall Client.latest, .ok v⟩ ∈ es) (number : v.toInt = .ok n)
    (recounted : ⟨counterCall (.int block), .ok v'⟩ ∈ es) (number' : v'.toInt = .ok m) (stuck : m ≤ n)
    (told : k ∈ [n, m]) (long : Decimal.fits k = false) : x = .error (.fault Decimal.unwritable) := by
  have encoded := Commitment.toBytes_ofBytes data
  rcases submit_parts submission with ⟨t, -, halted⟩ | ⟨before, receipt, after, written, decided⟩
  · exact (halted.not_recounted number' recounted).elim
  obtain rfl := (written.counters encoded number).1 counted
  obtain rfl := (written.counters encoded number').2 _ recounted
  rcases decided with ⟨-, h⟩ | ⟨advanced, -⟩
  · rcases stuckTrouble_cases n m receipt.txHash with ⟨short, -⟩ | ⟨-, fault⟩
    · cases (short k told).symm.trans long
    · rw [h, fault]
  · omega

theorem told_of_prices {call : Client.Call} {sender : String} {fs : List (Exchange Client.dialogue)} {k : Int}
    (prices : Client.Prices call sender fs k) (sub : ∀ e ∈ fs, chainExchange e ∈ es) : Told es k := by
  obtain ⟨estimated, number, built, told⟩ := prices
  exact .price (sub _ estimated) number (sub _ built) told

theorem told_of_told? {e : Exchange Client.dialogue} {n : Int} (told : Client.told? e = some n)
    (mem : chainExchange e ∈ es) : Told es n := by
  rcases Client.told?_eq_some told with ⟨address, rfl⟩ | ⟨txHash, doc, rfl, status, mined⟩
  · exact .nonce mem
  · exact .block mem status mined

/-- A part of a submission that halts does so with a failure, unless a number has no text. -/
theorem Halted.told {data : Bytes} {t : Trouble} (halted : Halted c (Commitment.ofBytes data) es t)
    (methods : ∀ m ∈ Interface.required, c.contract.checkMethod m = .ok ()) (all : ∀ e ∈ es, Foreseen c e)
    (other : ∀ f, t ≠ .failure f) :
    t = .fault Decimal.unwritable ∧ ∃ n, Told es n ∧ Decimal.fits n = false := by
  have counts := fun block => Client.ends_readCounter c.client (methods "counter" (by simp [Interface.required])) block
  cases halted with
  | first part =>
    obtain ⟨f, rfl⟩ := ((counts _).yields part (foreseen_chain all)).failure
    exact (other f rfl).elim
  | encode _ part => cases part.symm.trans (Commitment.toBytes_ofBytes data)
  | build _ encoded part =>
    obtain rfl := Except.ok.inj (encoded.symm.trans (Commitment.toBytes_ofBytes data))
    rw [List.map_append, List.forall_mem_append] at all
    rcases Client.buildTransaction_error part with ⟨f, rfl⟩ | ⟨f, rfl⟩
    · have has : c.contract.checkMethod "create_proof" = .ok () := methods _ (by simp [Interface.required])
      have decides := Client.buildTransaction_fault_iff part has (declared_create (Sha256.length_digest data))
        (foreseen_chain all.2) f
      obtain ⟨rfl, k, prices, long⟩ := decides.1 rfl
      exact ⟨rfl, k, told_of_prices prices fun e mem => mem_map_chain.2 (List.mem_append_right _ mem), long⟩
    · exact (other f rfl).elim
  | submit _ _ _ part =>
    simp only [List.map_append, List.forall_mem_append] at all
    have settles := Client.settles_submit part (foreseen_chain all.2.2)
    rcases t with f | f | problems
    · exact (other f rfl).elim
    · obtain ⟨e, mem, slip⟩ := (settles.slips f).1 rfl
      obtain ⟨rfl, n, told, long⟩ := Client.slip?_eq_some_iff.1 slip
      refine ⟨rfl, n, told_of_told? told (mem_map_chain.2 ?_), long⟩
      exact List.mem_append_right _ (List.mem_append_right _ mem)
    · exact (settles.valid problems rfl).elim
  | second _ _ _ _ part =>
    simp only [List.map_append, List.forall_mem_append] at all
    obtain ⟨f, rfl⟩ := ((counts _).yields part (foreseen_chain all.2.2.2)).failure
    exact (other f rfl).elim

section Building

variable {digest : Bytes} {front fs rest : List (Exchange Client.dialogue)}

/-- Where a number is told that the transaction was built with, the build decides. -/
theorem fault_of_price {x : Except Trouble Transaction} {call : Client.Call} {sender : String} {amount : Json}
    {n k : Int}
    {terms : Client.Terms} {made : Client.Built}
    (part : Yields (Client.buildTransaction c.client c.contract ⟨"create_proof", [.bytes digest]⟩ c.signer.address)
      fs x)
    (has : c.contract.checkMethod "create_proof" = .ok ()) (length : digest.length = 32)
    (all : ∀ e ∈ fs, Client.Foreseen c.client e) (before : Unpriced front) (after : Unpriced rest)
    (estimated : ⟨.estimate call sender, .ok amount⟩ ∈ front ++ (fs ++ rest)) (number : amount.toInt = .ok n)
    (built : ⟨.build call terms, .ok made⟩ ∈ front ++ (fs ++ rest)) (told : k ∈ [n, terms.gas, terms.gasPrice])
    (long : Decimal.fits k = false) : x = .error (.fault Decimal.unwritable) := by
  have estimated : ⟨.estimate call sender, .ok amount⟩ ∈ fs := by
    simpa [before.estimate, after.estimate] using estimated
  have built : ⟨.build call terms, .ok made⟩ ∈ fs := by
    simpa [before.build, after.build] using built
  rcases Client.asks_buildTransaction part _ estimated with same | ⟨rfl, rfl⟩
  · cases same
  have decides := Client.buildTransaction_fault_iff part has (declared_create length) all Decimal.unwritable
  exact decides.2 ⟨rfl, k, ⟨estimated, number, built, told⟩, long⟩

/-- Where the nonce or the block is told, the sending decides. -/
theorem fault_of_slip {tx : Transaction} {x : Except Trouble Receipt} {e : Exchange Client.dialogue} {f : Fault}
    (part : Yields (Client.submit c.client tx c.signer) fs x) (all : ∀ e ∈ fs, Client.Foreseen c.client e)
    (before : Unslipped Client.slip? front) (after : Unslipped Client.slip? rest) (mem : e ∈ front ++ (fs ++ rest))
    (slip : Client.slip? e = some f) : x = .error (.fault f) := by
  refine ((Client.settles_submit part all).slips f).2 ⟨e, ?_, slip⟩
  rcases List.mem_append.1 mem with mem | mem
  · cases (before e mem).symm.trans slip
  rcases List.mem_append.1 mem with mem | mem
  · exact mem
  · cases (after e mem).symm.trans slip

/-- A submission holds a build whose trouble is its own, and no other price; or it holds no price. -/
theorem exists_build {x : Except Trouble Record} (submission : Yields (submit c commitment) es x) :
    (∃ fs, es = fs.map chainExchange ∧ Unpriced fs) ∨
      ∃ front fs rest bytes y, es = (front ++ (fs ++ rest)).map chainExchange ∧
        Commitment.toBytes commitment = .ok bytes ∧ Unpriced front ∧ Unpriced rest ∧
        Yields (Client.buildTransaction c.client c.contract ⟨"create_proof", [.bytes bytes]⟩ c.signer.address) fs y ∧
        ∀ t, y = .error t → x = .error t := by
  rcases submit_parts submission with ⟨t, rfl, halted⟩ | ⟨before, receipt, after, written, -⟩
  · cases halted with
    | first part => exact .inl ⟨_, rfl, unpriced_of_counter part⟩
    | encode first => exact .inl ⟨_, rfl, unpriced_of_counter first⟩
    | @build es fs _ _ _ first encoded part =>
      refine .inr ⟨es, fs, [], _, _, by simp, encoded, unpriced_of_counter first, unpriced_nil, part, ?_⟩
      rintro t same
      exact congrArg Except.error (Except.error.inj same)
    | submit first encoded built part =>
      refine .inr ⟨_, _, _, _, _, rfl, encoded, unpriced_of_counter first, unpriced_of_sending part, built, ?_⟩
      rintro t same
      cases same
    | second first encoded built submitted part =>
      refine .inr ⟨_, _, _, _, _, rfl, encoded, unpriced_of_counter first,
        (unpriced_of_sending submitted).append (unpriced_of_counter part), built, ?_⟩
      rintro t same
      cases same
  · cases written with
    | intro first encoded built submitted second =>
      refine .inr ⟨_, _, _, _, _, rfl, encoded, unpriced_of_counter first,
        (unpriced_of_sending submitted).append (unpriced_of_counter second), built, ?_⟩
      rintro t same
      cases same

/-- A submission holds a sending whose trouble is its own, and no other nonce or block; or it holds none. -/
theorem exists_sending {x : Except Trouble Record} (submission : Yields (submit c commitment) es x) :
    (∃ fs, es = fs.map chainExchange ∧ Unslipped Client.slip? fs) ∨
      ∃ front fs rest tx y, es = (front ++ (fs ++ rest)).map chainExchange ∧ Unslipped Client.slip? front ∧
        Unslipped Client.slip? rest ∧ Yields (Client.submit c.client tx c.signer) fs y ∧
        ∀ t, y = .error t → x = .error t := by
  rcases submit_parts submission with ⟨t, rfl, halted⟩ | ⟨before, receipt, after, written, -⟩
  · cases halted with
    | first part => exact .inl ⟨_, rfl, quiet_of_counter part⟩
    | encode first => exact .inl ⟨_, rfl, quiet_of_counter first⟩
    | build first encoded part =>
      exact .inl ⟨_, rfl, List.forall_mem_append.2 ⟨quiet_of_counter first, quiet_of_build part⟩⟩
    | @submit es fs gs _ _ _ _ first encoded built part =>
      refine .inr ⟨es ++ fs, gs, [], _, _, by simp,
        List.forall_mem_append.2 ⟨quiet_of_counter first, quiet_of_build built⟩,
        Attempt.unslipped_nil, part, ?_⟩
      rintro t same
      exact congrArg Except.error (Except.error.inj same)
    | @second es fs gs hs _ _ _ _ _ first encoded built submitted part =>
      refine .inr ⟨es ++ fs, gs, hs, _, _, by simp,
        List.forall_mem_append.2 ⟨quiet_of_counter first, quiet_of_build built⟩,
        quiet_of_counter part, submitted, ?_⟩
      rintro t same
      cases same
  · cases written with
    | @intro es fs gs hs _ _ _ _ _ first encoded built submitted second =>
      refine .inr ⟨es ++ fs, gs, hs, _, _, by simp,
        List.forall_mem_append.2 ⟨quiet_of_counter first, quiet_of_build built⟩,
        quiet_of_counter second, submitted, ?_⟩
      rintro t same
      cases same

end Building

section Submission

variable {data : Bytes} {x : Except Trouble Record} (submission : Yields (submit c (Commitment.ofBytes data)) es x)
  (all : ∀ e ∈ es, Foreseen c e)

include submission all

theorem submit_of_price {call : Client.Call} {sender : String} {amount : Json} {n k : Int} {terms : Client.Terms}
    {made : Client.Built} (has : c.contract.checkMethod "create_proof" = .ok ())
    (estimated : ⟨.chain (.estimate call sender), .ok amount⟩ ∈ es) (number : amount.toInt = .ok n)
    (built : ⟨.chain (.build call terms), .ok made⟩ ∈ es) (told : k ∈ [n, terms.gas, terms.gasPrice])
    (long : Decimal.fits k = false) : x = .error (.fault Decimal.unwritable) := by
  change chainExchange ⟨.estimate call sender, .ok amount⟩ ∈ es at estimated
  change chainExchange ⟨.build call terms, .ok made⟩ ∈ es at built
  rcases exists_build submission with ⟨fs, rfl, unpriced⟩ |
    ⟨front, fs, rest, bytes, y, rfl, encoded, before, after, part, own⟩
  · exact (unpriced.estimate _ _ _ (mem_map_chain.1 estimated)).elim
  · obtain rfl := Except.ok.inj (encoded.symm.trans (Commitment.toBytes_ofBytes data))
    have foreseen : ∀ e ∈ fs, Client.Foreseen c.client e := fun e mem =>
      foreseen_chain all e (List.mem_append_right _ (List.mem_append_left _ mem))
    exact own _ (fault_of_price part has (Sha256.length_digest data) foreseen before after (mem_map_chain.1 estimated)
      number (mem_map_chain.1 built) told long)

theorem submit_of_slip {e : Exchange Client.dialogue} {f : Fault} (mem : chainExchange e ∈ es)
    (slip : Client.slip? e = some f) : x = .error (.fault f) := by
  rcases exists_sending submission with ⟨fs, rfl, quiet⟩ | ⟨front, fs, rest, tx, y, rfl, before, after, part, own⟩
  · cases (quiet e (mem_map_chain.1 mem)).symm.trans slip
  · have foreseen : ∀ e ∈ fs, Client.Foreseen c.client e := fun e mem =>
      foreseen_chain all e (List.mem_append_right _ (List.mem_append_left _ mem))
    exact own _ (fault_of_slip part foreseen before after (mem_map_chain.1 mem) slip)

variable (methods : ∀ m ∈ Interface.required, c.contract.checkMethod m = .ok ())

include methods

theorem submit_of_told {n : Int} (told : Told es n) (long : Decimal.fits n = false) :
    x = .error (.fault Decimal.unwritable) := by
  cases told with
  | price estimated number built told =>
    exact submit_of_price submission all (methods _ (by simp [Interface.required])) estimated number built told long
  | @nonce account _ remembered =>
    have slip : Client.slip? ⟨.rememberNonce account n, ()⟩ = some Decimal.unwritable :=
      Client.slip?_eq_some_iff.2 ⟨rfl, n, rfl, long⟩
    exact submit_of_slip submission all (e := ⟨.rememberNonce account n, ()⟩) remembered slip
  | @block txHash doc _ confirmed status mined =>
    have told : Client.told? ⟨.awaitReceipt txHash, .ok doc⟩ = some n := by
      simp only [Client.told?, status, mined, if_true, Except.toOption]
    exact submit_of_slip submission all (e := ⟨.awaitReceipt txHash, .ok doc⟩) confirmed
      (Client.slip?_eq_some_iff.2 ⟨rfl, n, told, long⟩)
  | counter counted number recounted number' stuck told =>
    exact submit_of_counter submission counted number recounted number' stuck told long
  | position answered => cases stage_of_submit submission _ answered

/-- What gets past a submission is a position that would be negative, or a number without a text. -/
theorem told_of_submit {t : Trouble} (astray : Astray x t) :
    (t = negativePosition ∧ Overshot c es) ∨
      (t = .fault Decimal.unwritable ∧ ∃ n, Told es n ∧ Decimal.fits n = false) := by
  obtain ⟨rfl, other⟩ := astray
  rcases submit_parts submission with ⟨t, same, halted⟩ | ⟨before, receipt, after, written, ⟨stuck, h⟩ | ⟨advanced, h⟩⟩
  · cases same
    exact .inr (halted.told methods all other)
  · rcases stuckTrouble_cases before after receipt.txHash with ⟨-, f, failure⟩ | ⟨⟨k, told, long⟩, fault⟩
    · exact (other f ((Except.error.inj h).trans failure)).elim
    · exact .inr ⟨(Except.error.inj h).trans fault, k, written.told stuck told, long⟩
  · obtain ⟨negative, rfl⟩ := checked_eq_error h.symm
    have negative : after - c.indexOffset < 0 := negative
    exact .inl ⟨rfl, written.overshot advanced (by omega)⟩

end Submission

end Parts

end ProofRelay.Relay
