import ProofRelay.Proofs.Activity.Terms
import ProofRelay.Proofs.Client.Guards
import ProofRelay.Proofs.Client.Site

/-!
All that users of a chain client do, other than submitting. However many of them go on side by side and
whatever the node replies, nothing is sent, and no nonce and no lock is touched. The one thing that they
change is the chain id, which is remembered when the node has told it to someone who was told that it is
not known.
-/

namespace ProofRelay.Client

open Attempt (Gives gives_pure gives_error)

/-- What a client does for its users, other than submitting. -/
inductive Inquiry where
  | build (cfg : Config) (h : Handle) (c : Call) (sender : String)
  | call (h : Handle) (c : Call) (block : Json)
  | readCounter (h : Handle) (block : Json)
  | awaitReceipt (cfg : Config) (txHash : String) (nonce : Int)
  | health
  | chainId
  | isConnected

inductive Finding where
  | transaction (tx : Transaction)
  | value (v : Json)
  | count (n : Int)
  | receipt (r : Receipt)
  | health (x : Health)
  | chainId (n : Int)
  | connected (b : Bool)

/-- The chain id that is part of a finding. -/
def Finding.chainId? : Finding → Option Int
  | .transaction tx => some tx.chainId
  | .health x => x.chainId
  | .chainId n => some n
  | _ => none

def Inquiry.attempt : Inquiry → Attempt dialogue Finding
  | .build cfg h c sender => .transaction <$> buildTransaction cfg h c sender
  | .call h c block => .value <$> Client.call h c block
  | .readCounter h block => .count <$> Client.readCounter h block
  | .awaitReceipt cfg txHash nonce => .receipt <$> Client.awaitReceipt cfg txHash nonce
  | .health => .health <$> Client.health
  | .chainId => .chainId <$> Client.chainId
  | .isConnected => .connected <$> Client.isConnected

section Asking

/-- The node was asked for its chain id, with this result. -/
def Lookup (es : List (Exchange dialogue)) (r : Except Fault Int) : Prop :=
  ∃ v, ⟨.chainId, v⟩ ∈ es ∧ v.bind Json.toInt = r

/-- The node has not been asked for its chain id. -/
def Unasked (es : List (Exchange dialogue)) : Prop := ∀ r, ¬ Lookup es r

def Ask.isLookup : Ask → Bool
  | .chainId => true
  | _ => false

/-- A chain id that the memory or the node has told. -/
def Learned (es : List (Exchange dialogue)) (n : Int) : Prop :=
  ⟨.knownChainId, some n⟩ ∈ es ∨ Lookup es (.ok n)

/-- What an inquiry may ask after some exchanges. The node is asked for its chain id once, when the memory
does not know it, and only what it has told is remembered. -/
def MayAsk (es : List (Exchange dialogue)) : Ask → Prop
  | .chainId => ⟨.knownChainId, none⟩ ∈ es ∧ Unasked es
  | .rememberChainId n => (∃ r, Lookup es r) ∧ ∀ r, Lookup es r → r = .ok n
  | .pendingCount _ | .send _ | .lock _ | .unlock _ | .lastNonce _ | .rememberNonce _ _ | .forgetNonce _ => False
  | _ => True

abbrev inquiring : ProofRelay.Terms dialogue (List (Exchange dialogue)) := .recorded MayAsk

variable {es fs : List (Exchange dialogue)} {n : Int}

theorem lookup_append {r : Except Fault Int} : Lookup (es ++ fs) r ↔ Lookup es r ∨ Lookup fs r := by
  constructor
  · rintro ⟨v, mem, read⟩
    rcases List.mem_append.1 mem with mem | mem
    · exact .inl ⟨v, mem, read⟩
    · exact .inr ⟨v, mem, read⟩
  · rintro (⟨v, mem, read⟩ | ⟨v, mem, read⟩)
    · exact ⟨v, List.mem_append_left _ mem, read⟩
    · exact ⟨v, List.mem_append_right _ mem, read⟩

theorem lookup_self {v : Except Fault Json} {r : Except Fault Int} :
    Lookup [⟨.chainId, v⟩] r ↔ v.bind Json.toInt = r := by
  constructor
  · rintro ⟨v', mem, read⟩
    cases List.mem_singleton.1 mem
    exact read
  · exact fun read => ⟨v, List.mem_singleton_self _, read⟩

theorem Unasked.append {e : Exchange dialogue} (unasked : Unasked es) (other : e.ask.isLookup = false) :
    Unasked (es ++ [e]) := by
  intro r lookup
  rcases lookup_append.1 lookup with lookup | ⟨v, mem, -⟩
  · exact unasked r lookup
  · cases List.mem_singleton.1 mem
    cases other

theorem Learned.append (learned : Learned es n) : Learned (es ++ fs) n :=
  learned.imp (List.mem_append_left _) fun lookup => lookup_append.2 (.inl lookup)

theorem gives_ask_bind {β : Type} {P : β → List (Exchange dialogue) → Prop} {q : Ask} {f : Reply q → Attempt dialogue β}
    (may : MayAsk es q) (next : ∀ r, Gives inquiring (es ++ [⟨q, r⟩]) P (f r)) :
    Gives inquiring es P (ask q >>= f) :=
  Attempt.meets_recorded_bind may next

theorem gives_demand {α : Type} {P : α → List (Exchange dialogue) → Prop} {r : Except Fault α}
    (h : ∀ x, r = .ok x → P x es) : Gives inquiring es P (demand r) := by
  cases r with
  | error f => exact gives_error _
  | ok x => exact gives_pure (h x rfl)

theorem gives_demand_bind {α β : Type} {P : β → List (Exchange dialogue) → Prop} {r : Except Fault α}
    {f : α → Attempt dialogue β} (next : ∀ x, r = .ok x → Gives inquiring es P (f x)) :
    Gives inquiring es P (demand r >>= f) := by
  refine (gives_demand (P := fun x es' => es' = es ∧ r = .ok x) fun x read => ⟨rfl, read⟩).bind ?_
  rintro x _ ⟨rfl, read⟩
  exact next x read

theorem gives_onNode {α : Type} {P : α → List (Exchange dialogue) → Prop} {a : Attempt dialogue α}
    (failure : Fault → Failure) (gives : Gives inquiring es P a) : Gives inquiring es P (onNode failure a) := by
  refine Attempt.Meets.outcome_bind (Attempt.Meets.mono gives ?_)
  rintro ((f | f | e) | x) es' h
  · exact gives_error _
  · exact gives_error _
  · exact gives_error _
  · exact gives_pure (h x rfl)

theorem gives_chainId (unasked : Unasked es) : Gives inquiring es (fun n es' => Learned es' n) chainId := by
  refine gives_ask_bind trivial fun known => ?_
  cases known with
  | some n => exact gives_pure (.inl (List.mem_append_right _ (List.mem_singleton_self _)))
  | none =>
    have unasked := unasked.append (e := ⟨.knownChainId, none⟩) rfl
    refine gives_ask_bind ⟨List.mem_append_right _ (List.mem_singleton_self _), unasked⟩ fun v => ?_
    refine gives_demand_bind fun n read => ?_
    have told : Lookup (es ++ [⟨.knownChainId, none⟩] ++ [⟨.chainId, v⟩]) (.ok n) :=
      lookup_append.2 (.inr (lookup_self.2 read))
    refine gives_ask_bind ⟨⟨_, told⟩, fun r lookup => ?_⟩ fun _ => ?_
    · rcases lookup_append.1 lookup with lookup | lookup
      · exact (unasked r lookup).elim
      · exact (lookup_self.1 lookup).symm.trans read
    · exact gives_pure (.inr (lookup_append.2 (.inl told)))

theorem gives_prepare (h : Handle) (c : Call) (unasked : Unasked es) :
    Gives inquiring es (fun _ es' => Unasked es') (prepare h c) := by
  unfold prepare
  cases h.checkMethod c.method with
  | error f => exact gives_pure unasked
  | ok _ => exact Attempt.meets_query trivial fun r es' told x _ => told ▸ unasked.append rfl

theorem gives_price (cfg : Config) (c : Call) (sender : String) (unasked : Unasked es) :
    Gives inquiring es (fun p es' => Learned es' p.terms.chainId) (price cfg c sender) := by
  refine gives_ask_bind trivial fun gasPrice => gives_ask_bind trivial fun estimate => ?_
  refine gives_demand_bind fun _ _ => gives_demand_bind fun _ _ => ?_
  refine Gives.bind (gives_chainId ?_) fun n es' learned => ?_
  · exact (unasked.append rfl).append rfl
  · refine gives_demand_bind fun gas _ => gives_ask_bind trivial fun built => ?_
    exact gives_demand_bind fun _ _ => gives_pure learned.append

theorem gives_buildTransaction (cfg : Config) (h : Handle) (c : Call) (sender : String) (unasked : Unasked es) :
    Gives inquiring es (fun tx es' => tx.nonce = none ∧ tx.sender = sender ∧ Learned es' tx.chainId)
      (buildTransaction cfg h c sender) := by
  refine (gives_prepare h c unasked).bind fun encoded es' unasked => ?_
  cases encoded with
  | error f => exact gives_error _
  | ok _ =>
    refine (gives_onNode _ (gives_price cfg c sender unasked)).bind fun p es' learned => ?_
    refine gives_demand_bind fun data _ => ?_
    -- What is told in the log is of no account here.
    refine Gives.bind (P := fun _ es'' => es'' = es') (gives_demand fun _ _ => rfl) ?_
    rintro _ _ rfl
    exact gives_demand_bind fun value _ => gives_pure ⟨rfl, rfl, learned⟩

theorem gives_call (h : Handle) (c : Call) (block : Json) (unasked : Unasked es) :
    Gives inquiring es (fun _ _ => True) (call h c block) := by
  refine (gives_prepare h c unasked).bind fun encoded es' _ => ?_
  cases encoded with
  | error f => exact gives_error _
  | ok _ =>
    refine gives_ask_bind trivial fun r => ?_
    cases r with
    | error f => exact gives_error _
    | ok v => exact gives_pure trivial

theorem gives_readCounter (h : Handle) (block : Json) (unasked : Unasked es) :
    Gives inquiring es (fun _ _ => True) (readCounter h block) :=
  (gives_call h _ block unasked).bind fun _ _ _ => gives_demand fun _ _ => trivial

theorem gives_awaitReceipt (cfg : Config) (txHash : String) (nonce : Int) :
    Gives inquiring es (fun _ _ => True) (awaitReceipt cfg txHash nonce) := by
  refine gives_ask_bind trivial fun r => ?_
  cases receiptFrom cfg txHash nonce r with
  | error t => exact gives_error t
  | ok receipt => exact gives_pure trivial

theorem gives_isConnected (unasked : Unasked es) : Gives inquiring es (fun _ es' => Unasked es') isConnected := by
  refine gives_ask_bind trivial fun r => ?_
  have unasked := unasked.append (e := ⟨.isConnected, r⟩) rfl
  cases r with
  | ok v => exact gives_pure unasked
  | error f =>
    dsimp only
    split
    · exact gives_pure unasked
    · exact gives_error _

/-- A snapshot tells a chain id that was told to it; if it tells none, the memory did not know one. -/
theorem gives_health (unasked : Unasked es) :
    Gives inquiring es (fun x es' => (∀ n, x.chainId = some n → Learned es' n) ∧
      (x.chainId = none → ⟨.knownChainId, none⟩ ∈ es')) health := by
  refine (gives_isConnected unasked).bind fun connected es unasked => ?_
  refine gives_ask_bind trivial fun known => ?_
  have unasked := unasked.append (e := ⟨.knownChainId, known⟩) rfl
  have told : (⟨.knownChainId, known⟩ : Exchange dialogue) ∈ es ++ [⟨.knownChainId, known⟩] :=
    List.mem_append_right _ (List.mem_singleton_self _)
  -- a snapshot with what the memory knew, now or after a lookup that has failed
  have known_told : ∀ es', (es ++ [⟨.knownChainId, known⟩]) <+: es' →
      (∀ n, known = some n → Learned es' n) ∧ (known = none → ⟨.knownChainId, none⟩ ∈ es') := by
    intro es' grown
    refine ⟨fun n hn => .inl ?_, fun hn => ?_⟩
    · exact hn ▸ grown.subset told
    · exact hn ▸ grown.subset told
  split
  · refine Attempt.Meets.outcome_bind (Activity.Meets.mono (Activity.Meets.grows (gives_chainId unasked)) ?_)
    rintro ((f | f | e) | n) es' ⟨learned, grown⟩
    · exact gives_error _
    · dsimp only
      split
      · exact gives_pure (known_told es' grown)
      · exact gives_error _
    · exact gives_error _
    · refine gives_pure ⟨?_, nofun⟩
      rintro _ ⟨⟩
      exact learned n rfl
  · exact gives_pure (known_told _ List.prefix_rfl)

/-- What a finding tells is in line with its inquiry and with what was told to it. -/
structure Finding.Fits (q : Inquiry) (es : List (Exchange dialogue)) (x : Finding) : Prop where
  learned : ∀ n, x.chainId? = some n → Learned es n
  unknown : ∀ y, x = .health y → y.chainId = none → ⟨.knownChainId, none⟩ ∈ es
  built : ∀ tx, x = .transaction tx → tx.nonce = none ∧ ∃ cfg h c, q = .build cfg h c tx.sender

theorem gives_attempt (q : Inquiry) : Gives inquiring [] (fun x es => x.Fits q es) q.attempt := by
  have unasked : Unasked [] := by
    rintro r ⟨v, mem, -⟩
    cases mem
  cases q with
  | build cfg h c sender =>
    refine ((gives_buildTransaction cfg h c sender unasked).mono ?_).map
    rintro tx es ⟨nonce, rfl, learned⟩
    refine ⟨?_, nofun, ?_⟩
    · rintro _ ⟨⟩
      exact learned
    · rintro _ ⟨⟩
      exact ⟨nonce, cfg, h, c, rfl⟩
  | call h c block => exact ((gives_call h c block unasked).mono fun _ _ _ => ⟨nofun, nofun, nofun⟩).map
  | readCounter h block => exact ((gives_readCounter h block unasked).mono fun _ _ _ => ⟨nofun, nofun, nofun⟩).map
  | awaitReceipt cfg txHash nonce =>
    exact ((gives_awaitReceipt cfg txHash nonce).mono fun _ _ _ => ⟨nofun, nofun, nofun⟩).map
  | health =>
    refine ((gives_health unasked).mono ?_).map
    rintro x es ⟨learned, unknown⟩
    refine ⟨learned, ?_, nofun⟩
    rintro _ ⟨⟩
    exact unknown
  | chainId =>
    refine ((gives_chainId unasked).mono ?_).map
    intro n es learned
    refine ⟨?_, nofun, nofun⟩
    rintro _ ⟨⟩
    exact learned
  | isConnected => exact ((gives_isConnected unasked).mono fun _ _ _ => ⟨nofun, nofun, nofun⟩).map

end Asking

section Sharing

variable {ν κ : Type}

/-- The surroundings of the users of a client, with any questions as those that take no waiting. If there are
none of them, the users may be interleaved at every question. -/
def Conduct.withPrompt (N : Conduct ν) (prompt : Ask → Bool) : Setting dialogue (Site ν) :=
  { N.setting with prompt := prompt }

/-- A node with a ledger that only sending changes. -/
structure Conduct.Keeps (N : Conduct ν) (ledger : ν → κ) : Prop where
  reply : ∀ {n n' : ν} {i : Nat} {e : Exchange dialogue}, e.ask.isSend = false → N.Replies n i e n' →
    ledger n' = ledger n
  drift : ∀ {n n' : ν}, N.Drifts n n' → ledger n' = ledger n

/-- The questions after which nonces, locks and ledgers are as before. -/
def Ask.isQuiet : Ask → Bool
  | .send _ | .lock _ | .unlock _ | .rememberNonce _ _ | .forgetNonce _ => false
  | _ => true

theorem isQuiet_of_mayAsk {es : List (Exchange dialogue)} {q : Ask} (may : MayAsk es q) : q.isQuiet = true := by
  cases q <;> first | rfl | exact may.elim

variable {N : Conduct ν} {ledger : ν → κ} {w w' s s' : Site ν} {i : Nat} {e : Exchange dialogue} {h : History dialogue}

/-- What a quiet question is answered, and that it changes nothing but the chain id. -/
structure Quiet (ledger : ν → κ) (w : Site ν) (e : Exchange dialogue) (w' : Site ν) : Prop where
  nonces : w'.memory.nonces = w.memory.nonces
  locks : w'.memory.locks = w.memory.locks
  ledger : ledger w'.node = ledger w.node
  known : ∀ known, e = ⟨.knownChainId, known⟩ → known = w.memory.chainId
  chainId : (w'.memory.chainId = w.memory.chainId ∧ ∀ n, e ≠ ⟨.rememberChainId n, ()⟩) ∨
    ∃ n, e = ⟨.rememberChainId n, ()⟩ ∧ w'.memory.chainId = some n

theorem Site.Answers.quiet (answer : Site.Answers N w i e w') (keeps : N.Keeps ledger) (quiet : e.ask.isQuiet = true) :
    Quiet ledger w e w' := by
  cases answer with
  | memory recalls =>
    cases recalls with
    | knownChainId => exact ⟨rfl, rfl, rfl, fun _ same => (eq_of_heq (Exchange.mk.inj same).2).symm, .inl ⟨rfl, nofun⟩⟩
    | rememberChainId n => exact ⟨rfl, rfl, rfl, nofun, .inr ⟨n, rfl, rfl⟩⟩
    | lastNonce a => exact ⟨rfl, rfl, rfl, nofun, .inl ⟨rfl, nofun⟩⟩
    | lock | unlock | rememberNonce | forgetNonce => cases quiet
  | node asked reply =>
    refine ⟨rfl, rfl, keeps.reply ?_ reply, ?_, .inl ⟨rfl, ?_⟩⟩
    · obtain ⟨q, r⟩ := e
      cases q <;> first | rfl | cases quiet
    · rintro _ rfl
      cases asked
    · rintro _ rfl
      cases asked

/-- A state of the chain id in the memory: as at the start, or as someone has remembered it. -/
def Noted (start : Option Int) (h : History dialogue) (known : Option Int) : Prop :=
  known = start ∨ ∃ i n, (i, ⟨.rememberChainId n, ()⟩) ∈ h ∧ known = some n

theorem Noted.append {start known : Option Int} {h' : History dialogue} (noted : Noted start h known) :
    Noted start (h ++ h') known :=
  noted.imp_right fun ⟨i, n, mem, same⟩ => ⟨i, n, List.mem_append_left _ mem, same⟩

/-- What the users of a client share is as it was, up to the chain id. That is what was remembered, and so are
the answers to those who asked the memory for it; once it is known, it stays known. -/
structure Undisturbed (ledger : ν → κ) (w : Site ν) (h : History dialogue) (s : Site ν) : Prop where
  nonces : s.memory.nonces = w.memory.nonces
  locks : s.memory.locks = w.memory.locks
  ledger : ledger s.node = ledger w.node
  noted : Noted w.memory.chainId h s.memory.chainId
  told : ∀ i known, (i, ⟨.knownChainId, known⟩) ∈ h → Noted w.memory.chainId h known
  set : ∀ i n, (i, ⟨.rememberChainId n, ()⟩) ∈ h → s.memory.chainId ≠ none
  lasting : h.Pairwise fun x y => ∀ n, x.2 = ⟨.rememberChainId n, ()⟩ → y.2 ≠ ⟨.knownChainId, none⟩

theorem undisturbed_self (ledger : ν → κ) (w : Site ν) : Undisturbed ledger w [] w :=
  ⟨rfl, rfl, rfl, .inl rfl, nofun, nofun, .nil⟩

theorem Undisturbed.step (kept : Undisturbed ledger w h s) (quiet : Quiet ledger s e s') :
    Undisturbed ledger w (h ++ [(i, e)]) s' where
  nonces := quiet.nonces.trans kept.nonces
  locks := quiet.locks.trans kept.locks
  ledger := quiet.ledger.trans kept.ledger
  noted := by
    rcases quiet.chainId with ⟨same, -⟩ | ⟨n, rfl, now⟩
    · rw [same]
      exact kept.noted.append
    · exact .inr ⟨i, n, List.mem_append_right _ (List.mem_singleton_self _), now⟩
  told := by
    intro j known mem
    rcases List.mem_append.1 mem with mem | mem
    · exact (kept.told j known mem).append
    · obtain ⟨-, same⟩ := Prod.mk.inj (List.mem_singleton.1 mem)
      rw [quiet.known known same.symm]
      exact kept.noted.append
  set := by
    intro j n mem
    rcases quiet.chainId with ⟨same, other⟩ | ⟨n, rfl, now⟩
    · rcases List.mem_append.1 mem with mem | mem
      · exact same ▸ kept.set j n mem
      · obtain ⟨-, last⟩ := Prod.mk.inj (List.mem_singleton.1 mem)
        exact (other n last.symm).elim
    · rw [now]
      exact Option.some_ne_none n
  lasting := by
    refine List.pairwise_append.2 ⟨kept.lasting, List.pairwise_singleton _ _, ?_⟩
    rintro ⟨j, _⟩ mem _ last n rfl unknown
    obtain rfl := List.mem_singleton.1 last
    exact kept.set j n mem (quiet.known none unknown).symm

/-- Who is told that the chain id is not known learns that it was not known at the start. -/
theorem Undisturbed.unset_of_told (kept : Undisturbed ledger w h s) (told : (i, ⟨.knownChainId, none⟩) ∈ h) :
    w.memory.chainId = none := by
  rcases kept.told i none told with same | ⟨_, _, _, same⟩
  · exact same.symm
  · cases same

/-- Quiet questions leave all but the chain id as it was, whoever asks them and whatever happens meanwhile. -/
theorem undisturbed_of_quiet {α : Type} {prompt : Ask → Bool} {c c' : Crowd dialogue (Site ν) α}
    (keeps : N.Keeps ledger) (run : Crowd.Run (N.withPrompt prompt) c h c')
    (quiet : ∀ x ∈ h, x.2.ask.isQuiet = true) : Undisturbed ledger c.state h c'.state := by
  induction run with
  | nil => exact undisturbed_self ledger c.state
  | step run last ih =>
    have kept := ih fun x mem => quiet x (List.mem_append_left _ mem)
    cases last with
    | reply task others answer =>
      have asked := quiet _ (List.mem_append_right _ (List.mem_singleton_self _))
      exact kept.step (Site.Answers.quiet answer keeps asked)
  | drift run last ih =>
    have kept := ih quiet
    obtain ⟨memory, drifts⟩ := last
    have ledger := (keeps.drift drifts).trans kept.ledger
    refine ⟨?_, ?_, ledger, ?_, kept.told, ?_, kept.lasting⟩
    · exact memory ▸ kept.nonces
    · exact memory ▸ kept.locks
    · exact memory ▸ kept.noted
    · exact memory ▸ kept.set

end Sharing

section Simulated

open Simulation (World Node)

/-- What a simulated node has taken: transactions, and the entries of its contract. -/
def ledgerOf (n : Node) : List Simulation.Sent × List Simulation.Entry := (n.sent, n.entries)

theorem ledgerOf_disturb (n : Node) (point : String) : ledgerOf (n.disturb point).2 = ledgerOf n := by
  unfold Node.disturb
  split <;> rfl

theorem ledgerOf_replying {n : Node} (point : String) {normal : Node → Except Fault Json × Node}
    (same : ∀ n, ledgerOf (normal n).2 = ledgerOf n) : ledgerOf (n.replying point normal).2 = ledgerOf n := by
  have disturbed := ledgerOf_disturb n point
  unfold Node.replying
  generalize n.disturb point = disturbance at disturbed ⊢
  obtain ⟨d, n'⟩ := disturbance
  cases d with
  | calm => exact (same n').trans disturbed
  | raise f => exact disturbed
  | give d => exact disturbed

theorem ledgerOf_build (n : Node) (contract : String) (c : Call) (t : Terms) :
    ledgerOf (n.build contract c t).2 = ledgerOf n := by
  have disturbed := ledgerOf_disturb n "build"
  unfold Node.build
  generalize n.disturb "build" = disturbance at disturbed ⊢
  obtain ⟨d, n'⟩ := disturbance
  cases d <;> exact disturbed

theorem ledgerOf_prepare (n : Node) : ledgerOf n.prepare.2 = ledgerOf n := by
  have disturbed := ledgerOf_disturb n "function"
  unfold Node.prepare
  generalize n.disturb "function" = disturbance at disturbed ⊢
  obtain ⟨d, n'⟩ := disturbance
  cases d <;> exact disturbed

/-- A simulated node, which does nothing by itself. -/
def simulatedNode : Conduct (World Unit) where
  Replies w _ e w' := w.finishClient e.ask = (e.reply, w')
  Drifts w w' := w' = w

theorem simulatedNode_keeps : simulatedNode.Keeps fun w => ledgerOf w.node where
  reply {w w' i e} other reply := by
    have after : w' = (w.finishClient e.ask).2 := (congrArg Prod.snd reply).symm
    rw [after]
    cases hq : e.ask with
    | isConnected | chainId | gasPrice | estimate | pendingCount | awaitReceipt | call =>
      exact ledgerOf_replying _ fun _ => rfl
    | prepare => exact ledgerOf_prepare _
    | build => exact ledgerOf_build _ _ _ _
    | send =>
      rw [hq] at other
      cases other
    | _ => rfl
  drift := by
    rintro w _ rfl
    rfl

end Simulated

section Inquiries

variable {ν κ : Type} {N : Conduct ν} {ledger : ν → κ} {prompt : Ask → Bool} {inquiries : List Inquiry} {w : Site ν}
  {h : History dialogue} {c : Crowd dialogue (Site ν) (Except Trouble Finding)} {i : Nat}

/-- Users of a client who make inquiries side by side. -/
def inquirers (inquiries : List Inquiry) (w : Site ν) : Crowd dialogue (Site ν) (Except Trouble Finding) :=
  ⟨inquiries.map fun q => q.attempt.run, w⟩

theorem task_inquirers {q : Inquiry} (inquiry : inquiries[i]? = some q) :
    (inquirers inquiries w).tasks[i]? = some q.attempt.run := by
  rw [inquirers, List.getElem?_map, inquiry]
  rfl

theorem mayAsk_of_history (run : Crowd.Run (N.withPrompt prompt) (inquirers inquiries w) h c)
    {es fs : List (Exchange dialogue)} {e : Exchange dialogue} (split : h.of i = es ++ e :: fs) : MayAsk es e.ask := by
  cases inquiry : inquiries[i]? with
  | none =>
    have absent : (inquirers inquiries w).tasks[i]? = none := by
      rw [inquirers, List.getElem?_map, inquiry]
      rfl
    rw [run.history_of_eq_nil absent] at split
    cases List.append_ne_nil_of_right_ne_nil _ (List.cons_ne_nil _ _) split.symm
  | some q =>
    obtain ⟨b, -, path⟩ := run.path (task_inquirers inquiry)
    rw [split] at path
    exact Activity.Meets.may (gives_attempt q) path (ProofRelay.Terms.leads_recorded [] es)

theorem mayAsk_of_mem (run : Crowd.Run (N.withPrompt prompt) (inquirers inquiries w) h c) {e : Exchange dialogue}
    (mem : (i, e) ∈ h) : ∃ es fs, h.of i = es ++ e :: fs ∧ MayAsk es e.ask := by
  obtain ⟨es, fs, split⟩ := List.append_of_mem (Crowd.mem_history_of.2 mem)
  exact ⟨es, fs, split, mayAsk_of_history run split⟩

theorem undisturbed_of_inquiries (keeps : N.Keeps ledger)
    (run : Crowd.Run (N.withPrompt prompt) (inquirers inquiries w) h c) : Undisturbed ledger w h c.state := by
  refine undisturbed_of_quiet keeps run ?_
  rintro ⟨i, e⟩ mem
  obtain ⟨es, fs, -, may⟩ := mayAsk_of_mem run mem
  exact isQuiet_of_mayAsk may

/-- What an inquiry remembers is the result of its one lookup. -/
theorem lookup_iff_of_remembered (run : Crowd.Run (N.withPrompt prompt) (inquirers inquiries w) h c) {n : Int}
    (mem : (i, ⟨.rememberChainId n, ()⟩) ∈ h) (r : Except Fault Int) : Lookup (h.of i) r ↔ r = .ok n := by
  obtain ⟨es, fs, split, ⟨r₀, lookup₀⟩, only⟩ := mayAsk_of_mem run mem
  rw [split]
  constructor
  · rintro ⟨v, asked, read⟩
    rcases List.mem_append.1 asked with asked | asked
    · exact only r ⟨v, asked, read⟩
    · rcases List.mem_cons.1 asked with same | asked
      · cases same
      · -- a lookup after that would be the second one
        obtain ⟨fs₁, fs₂, rfl⟩ := List.append_of_mem asked
        have again := split
        rw [← List.cons_append, ← List.append_assoc] at again
        obtain ⟨-, unasked⟩ := mayAsk_of_history run again
        exact (unasked r₀ (lookup_append.2 (.inl lookup₀))).elim
  · rintro rfl
    exact lookup_append.2 (.inl (only r₀ lookup₀ ▸ lookup₀))

/-- The node is asked for its chain id only if that was not known from the start. -/
theorem unset_of_lookup (kept : Undisturbed ledger w h c.state)
    (run : Crowd.Run (N.withPrompt prompt) (inquirers inquiries w) h c) {r : Except Fault Int}
    (lookup : Lookup (h.of i) r) : w.memory.chainId = none := by
  obtain ⟨v, mem, -⟩ := lookup
  obtain ⟨es, fs, split, told, -⟩ := mayAsk_of_mem run (Crowd.mem_history_of.1 mem)
  have told : (⟨.knownChainId, none⟩ : Exchange dialogue) ∈ h.of i := split ▸ List.mem_append_left _ told
  exact kept.unset_of_told (Crowd.mem_history_of.1 told)

/-- The node has told this chain id to someone. -/
def Named (h : History dialogue) (n : Int) : Prop := ∃ i, Lookup (h.of i) (.ok n)

theorem noted_cases (kept : Undisturbed ledger w h c.state)
    (run : Crowd.Run (N.withPrompt prompt) (inquirers inquiries w) h c) {known : Option Int}
    (noted : Noted w.memory.chainId h known) :
    known = w.memory.chainId ∨ (w.memory.chainId = none ∧ ∃ n, Named h n ∧ known = some n) := by
  refine noted.imp_right ?_
  rintro ⟨i, n, mem, same⟩
  have lookup := (lookup_iff_of_remembered run mem _).2 rfl
  exact ⟨unset_of_lookup kept run lookup, n, ⟨i, lookup⟩, same⟩

/-- What comes of inquiries: their findings, and a chain id that has become known. -/
structure OnlyLearned (ledger : ν → κ) (inquiries : List Inquiry) (w : Site ν) (h : History dialogue)
    (c : Crowd dialogue (Site ν) (Except Trouble Finding)) : Prop where
  nonces : c.state.memory.nonces = w.memory.nonces
  locks : c.state.memory.locks = w.memory.locks
  unsent : ∀ i raw r, (i, ⟨.send raw, r⟩) ∉ h
  ledger : ledger c.state.node = ledger w.node
  built : ∀ i tx, c.result? i = some (.ok (.transaction tx)) →
    tx.nonce = none ∧ ∃ cfg handle call, inquiries[i]? = some (.build cfg handle call tx.sender)
  chainId : c.state.memory.chainId = w.memory.chainId ∨
    (w.memory.chainId = none ∧ ∃ n, Named h n ∧ c.state.memory.chainId = some n)
  configured : w.memory.chainId ≠ none → ∀ i v, (i, ⟨.chainId, v⟩) ∉ h
  /-- A lookup that failed is not remembered. -/
  failed : ∀ i f, Lookup (h.of i) (.error f) → ∀ n, (i, ⟨.rememberChainId n, ()⟩) ∉ h
  /-- If the node has one chain id, all findings agree on the one in use. -/
  agreed : ∀ id, (∀ n, Named h n → n = id) → ∀ i x n, c.result? i = some (.ok x) → x.chainId? = some n →
    n = w.memory.chainId.getD id
  /-- A snapshot without a chain id was taken before anyone knew it. -/
  snapshot : ∀ i x, c.result? i = some (.ok (.health x)) → x.chainId = none → w.memory.chainId = none ∧
    ∃ before after, h = before ++ (i, ⟨.knownChainId, none⟩) :: after ∧
      ∀ j n, (j, ⟨.rememberChainId n, ()⟩) ∉ before

theorem fits_of_result (run : Crowd.Run (N.withPrompt prompt) (inquirers inquiries w) h c) {x : Finding}
    (result : c.result? i = some (.ok x)) : ∃ q, inquiries[i]? = some q ∧ x.Fits q (h.of i) := by
  have finished := Crowd.eq_done_of_result? result
  have bound : i < inquiries.length := by
    have bound := (List.getElem?_eq_some_iff.1 finished).1
    rwa [run.length_tasks, inquirers, List.length_map] at bound
  have inquiry := List.getElem?_eq_getElem bound
  obtain ⟨b, rest, path⟩ := run.path (task_inquirers inquiry)
  obtain rfl := Option.some.inj (finished.symm.trans rest)
  exact ⟨_, inquiry, Activity.Meets.path (gives_attempt _) path (ProofRelay.Terms.leads_recorded [] _) x rfl⟩

/-- Any inquiries, side by side in any order, with any replies of a node of which only sending changes the
ledger: they change nothing but the chain id in the client's memory. -/
theorem inquiries_only_learn_chainId (keeps : N.Keeps ledger)
    (run : Crowd.Run (N.withPrompt prompt) (inquirers inquiries w) h c) : OnlyLearned ledger inquiries w h c := by
  have kept := undisturbed_of_inquiries keeps run
  exact {
    nonces := kept.nonces
    locks := kept.locks
    unsent := by
      intro i raw r mem
      obtain ⟨es, fs, -, may⟩ := mayAsk_of_mem run mem
      exact may
    ledger := kept.ledger
    chainId := noted_cases kept run kept.noted
    built := by
      intro i tx result
      obtain ⟨q, inquiry, fits⟩ := fits_of_result run result
      obtain ⟨nonce, cfg, handle, call, rfl⟩ := fits.built tx rfl
      exact ⟨nonce, cfg, handle, call, inquiry⟩
    configured := by
      intro known i v mem
      exact known (unset_of_lookup kept run ⟨v, Crowd.mem_history_of.2 mem, rfl⟩)
    failed := by
      intro i f lookup n mem
      cases (lookup_iff_of_remembered run mem _).1 lookup
    agreed := by
      intro id constant i x n result told
      obtain ⟨q, -, fits⟩ := fits_of_result run result
      rcases fits.learned n told with known | lookup
      · rcases noted_cases kept run (kept.told i _ (Crowd.mem_history_of.1 known)) with same | ⟨unset, m, named, same⟩
        · rw [← same, Option.getD_some]
        · obtain rfl := Option.some.inj same
          rw [unset, Option.getD_none, constant n named]
      · rw [unset_of_lookup kept run lookup, Option.getD_none, constant n ⟨i, lookup⟩]
    snapshot := by
      intro i x result unknown
      obtain ⟨q, -, fits⟩ := fits_of_result run result
      have told := Crowd.mem_history_of.1 (fits.unknown x rfl unknown)
      obtain ⟨before, after, split⟩ := List.append_of_mem told
      refine ⟨kept.unset_of_told told, before, after, split, fun j n mem => ?_⟩
      have lasting := (List.pairwise_append.1 (split ▸ kept.lasting)).2.2
      exact lasting _ mem _ List.mem_cons_self n rfl rfl }

def simulatedReplier : Replier simulatedNode where
  reply _ q w := some (w.finishClient q)
  drift := id
  replies reply := Option.some.inj reply
  drifts _ := rfl

theorem Replier.drifts_withPrompt (R : Replier N) (w : Site ν) :
    (N.withPrompt fun _ => false).Drifts w (R.oracle.drift w) :=
  R.oracle.drifts w

/-- Plays with the memory and a node, in which any user may go on at any time. -/
def Replier.freely (R : Replier N) : Oracle (N.withPrompt fun _ => false) where
  answer := R.answer
  drift := R.oracle.drift
  answers := R.answers_of_answer
  drifts := R.drifts_withPrompt

/-- A site where a nonce is known and the ledger is not empty. The first lookup of the chain id will fail. -/
def uncertainSite : Site (Simulation.World Unit) where
  memory := { nonces := [("A", 0)] }
  node := { node := {
    sent := [⟨"A", 0⟩], entries := [⟨1, .bytes []⟩]
    disturbances := [("chain_id", [.raise ⟨.nodeClient, "no route to host"⟩])] } }

def racingInquiries : List Inquiry := [.health, .build {} registryHandle bareCall "A", .chainId]

/-- Three users are told that the chain id is not known, and then all look it up. -/
def racingPlay : History dialogue × Crowd dialogue (Site (Simulation.World Unit)) (Except Trouble Finding) :=
  Crowd.play simulatedReplier.freely
    ([0, 0, 0, 1, 1, 1, 1, 2, 0, 1, 2, 1, 2, 1].map some) (inquirers racingInquiries uncertainSite)

/-- One lookup fails and two race; the nonce and the ledger stay, and the transaction has the chain id. -/
theorem inquiries_only_learn_chainId_race : ∃ h c,
    Crowd.Run (simulatedNode.withPrompt fun _ => false) (inquirers racingInquiries uncertainSite) h c ∧
    OnlyLearned (fun w => ledgerOf w.node) racingInquiries uncertainSite h c ∧
    (h.filter fun x => x.2.ask.isLookup).map Prod.fst = [0, 1, 2] ∧
    ([0, 1, 2].map fun i => (c.result? i).bind fun r => r.toOption.map Finding.chainId?) =
      [some none, some (some 1337), some (some 1337)] ∧
    c.state.memory.chainId = some 1337 := by
  have run : Crowd.Run (simulatedNode.withPrompt fun _ => false) _ racingPlay.1 racingPlay.2 := Crowd.run_play _ _ _
  refine ⟨_, _, run, inquiries_only_learn_chainId simulatedNode_keeps run, ?_⟩
  decide +kernel

end Inquiries

end ProofRelay.Client
