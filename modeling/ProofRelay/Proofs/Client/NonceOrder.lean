import ProofRelay.Proofs.Client.Exclusion
import Mathlib.Data.List.Forall2

/-!
Nonces in order, whatever the node counts. Along a stretch of a run in which the node refuses nothing of
an account and no receipt of it fails to come, what the client remembers of the account only grows, so the
nonces of its broadcasts increase, and each is at least what the node counted for it. Nothing is assumed of
the node, and nothing of what the client remembered at first.
-/

namespace ProofRelay.Client

open Simulation (Memory)

/-- The raw bytes of an exchange in which the node took some. -/
def sent? : Exchange dialogue → Option Bytes
  | ⟨.send raw, .ok _⟩ => some raw
  | _ => none

/-- The broadcasts of an account in a history, in their order. -/
def sentIn (subs : List Submission) (a : String) (h : History dialogue) : List Broadcast :=
  h.filterMap fun e => if accountOf subs e.1 = some a then (sent? e.2).map (Broadcast.mk e.1) else none

/-- The node refuses raw bytes, or a receipt does not come in time. -/
def setsBack : Exchange dialogue → Bool
  | ⟨.send _, .error f⟩ => f.kind.isNode
  | ⟨.awaitReceipt _, .error f⟩ => f.kind == .timeExhausted
  | _ => false

/-- Nothing of an account is set back in a history. -/
def Smooth (subs : List Submission) (a : String) (h : History dialogue) : Prop :=
  ∀ i e, (i, e) ∈ h → accountOf subs i = some a → setsBack e = false

/-- The signer of a broadcast was given a nonce, which is not below the count that was fetched for it. -/
def Chosen (subs : List Submission) (h : History dialogue) (b : Broadcast) (nonce : Int) : Prop :=
  ∃ s count pending last reply rest, subs[b.caller]? = some s ∧ s.signer.sign (s.tx.given nonce) = .ok b.raw ∧
    h.of b.caller = ⟨.lock s.account, ()⟩ :: ⟨.pendingCount s.account, .ok count⟩ ::
      ⟨.lastNonce s.account, last⟩ :: ⟨.send b.raw, .ok reply⟩ :: rest ∧
    Json.toInt count = .ok pending ∧ pending ≤ nonce

/-- The questions between the fetch of a nonce and the end of its broadcast. -/
def Ask.isBroadcasting : Ask → Bool
  | .pendingCount _ | .lastNonce _ | .send _ | .rememberNonce _ _ => true
  | _ => false

/-- What a submission has asked before it sends. -/
def Trail (s : Submission) (es : List (Exchange dialogue)) : Point → Prop
  | .arriving => es = []
  | .counting => es = [⟨.lock s.account, ()⟩]
  | .recalling pending => ∃ count, es = [⟨.lock s.account, ()⟩, ⟨.pendingCount s.account, .ok count⟩] ∧
      Json.toInt count = .ok pending
  | .sending pending nonce raw => ∃ count last,
      es = [⟨.lock s.account, ()⟩, ⟨.pendingCount s.account, .ok count⟩, ⟨.lastNonce s.account, last⟩] ∧
      Json.toInt count = .ok pending ∧ nonce = nonceAfter pending last ∧ s.Signs nonce raw
  | _ => True

/-- How a submission stands to the nonces that were broadcast so far. One that was set back comes before
the first of them. -/
def Point.Follows (nonces : List Int) : Point → Prop
  | .sending _ nonce _ => ∀ n ∈ nonces, n < nonce
  | .recording nonce _ => ∀ n ∈ nonces, n ≤ nonce
  | .refused _ | .lost _ => nonces = []
  | _ => True

def Point.isRecording : Point → Bool
  | .recording _ _ => true
  | _ => false

/-- The nonces of an account so far increase, and unless one is just being recorded, the client
remembers one that is not below them. -/
structure InOrder (subs : List Submission) (a : String) (points : Nat → Point) (m : Memory)
    (nonces : List Int) : Prop where
  increasing : nonces.Pairwise (· < ·)
  follows : ∀ i s, subs[i]? = some s → s.account = a → (points i).Follows nonces
  remembered : (∀ i s, subs[i]? = some s → s.account = a → (points i).isRecording = false) →
    ∀ n ∈ nonces, ∃ l, m.nonces.lookup a = some l ∧ n ≤ l

section Trail

variable {cfg : Config} {s : Submission} {es : List (Exchange dialogue)}

/-- A move adds its exchange to the trail. -/
theorem Trail.move {p p' : Point} {e : Exchange dialogue} (trail : Trail s es p) (move : Moves cfg s p e p') :
    Trail s (es ++ [e]) p' := by
  cases move with
  | lock =>
    change es = [] at trail
    rw [trail]
    rfl
  | count r =>
    change es = _ at trail
    rcases Point.counted_cases r with ⟨count, pending, rfl, hpending, h⟩ | ⟨t, h⟩
    · rw [h]
      exact ⟨count, by rw [trail]; rfl, hpending⟩
    · rw [h]
      trivial
  | retrieve pending last =>
    obtain ⟨count, rfl, hpending⟩ := trail
    rw [Point.chosen]
    cases hraw : signed s.tx s.signer (nonceAfter pending last) with
    | error f => trivial
    | ok raw => exact ⟨count, last, rfl, hpending, rfl, hraw⟩
  | send pending nonce raw r =>
    rcases Point.answered_cases nonce r with ⟨sent, -, h⟩ | ⟨f, -, -, h⟩ | ⟨f, -, h⟩ <;> rw [h] <;> trivial
  | unlock result =>
    rcases Point.left_cases result with ⟨t, h⟩ | ⟨nonce, sent, txHash, -, h⟩ <;> rw [h] <;> trivial
  | receive nonce txHash r =>
    rcases Point.received_cases cfg nonce txHash r with ⟨f, -, -, h⟩ | ⟨t, h⟩ | ⟨receipt, -, h⟩ <;>
      rw [h] <;> trivial
  | record | forget | lose => trivial

end Trail

theorem le_nonceAfter (pending : Int) (last : Option Int) : pending ≤ nonceAfter pending last := by
  cases last with
  | none => exact Int.le_refl _
  | some l => exact Int.le_max_left _ _

theorem lt_nonceAfter (pending last : Int) : last < nonceAfter pending (some last) := by
  simp only [nonceAfter]
  omega

section Order

variable {ν : Type} {N : Conduct ν} {cfg : Config} {subs : List Submission} {a : String} {points : Nat → Point}
  {m m' : Memory} {nonces : List Int} {i : Nat} {s : Submission} {p : Point}

theorem Point.follows_nil (p : Point) : p.Follows [] := by
  cases p <;> simp [Point.Follows]

theorem Point.follows_of_outside (outside : p.isInside = false) (rests : p.isAtRest = true) :
    p.Follows nonces := by
  cases p <;> trivial

theorem Point.not_isRecording (outside : p.isInside = false) : p.isRecording = false := by
  cases p <;> first | rfl | cases outside

/-- Nothing changes for an account whose submissions stay and of which the same is remembered. -/
theorem InOrder.frame {points' : Nat → Point} (inorder : InOrder subs a points m nonces)
    (same : m'.nonces.lookup a = m.nonces.lookup a)
    (keep : ∀ j s, subs[j]? = some s → s.account = a → points' j = points j) :
    InOrder subs a points' m' nonces := by
  refine ⟨inorder.increasing, ?_, ?_⟩
  · intro j s hs own
    rw [keep j s hs own]
    exact inorder.follows j s hs own
  · intro quiet
    rw [same]
    refine inorder.remembered fun j s hs own => ?_
    rw [← keep j s hs own]
    exact quiet j s hs own

/-- A submission goes on from a point other than that of recording its nonce. -/
theorem InOrder.move (inorder : InOrder subs a points m nonces) (hs : subs[i]? = some s)
    (same : m'.nonces.lookup a = m.nonces.lookup a) (quiet : (points i).isRecording = false)
    (follows : p.Follows nonces) : InOrder subs a (Function.update points i p) m' nonces := by
  refine ⟨inorder.increasing, ?_, ?_⟩
  · exact forall_update (P := fun _ s q => s.account = a → q.Follows nonces) hs (fun _ => follows)
      fun j s' _ => inorder.follows j s'
  · intro quiet'
    rw [same]
    refine inorder.remembered fun j s' hs' own => ?_
    by_cases hj : j = i
    · subst hj
      exact quiet
    · have := quiet' j s' hs' own
      rwa [Function.update_of_ne hj] at this

theorem inOrder_nil : InOrder subs a points m [] :=
  ⟨.nil, fun i _ _ _ => (points i).follows_nil, fun _ => nofun⟩

/-- The nonce that follows what is remembered is above all so far. -/
theorem InOrder.choose (inorder : InOrder subs a points m nonces) (guarded : Guarded subs points m)
    (hs : subs[i]? = some s) (own : s.account = a) {pending : Int} (at_ : points i = .recalling pending) :
    ∀ n ∈ nonces, n < nonceAfter pending (m.nonces.lookup a) := by
  intro n hn
  have inside : (points i).isInside = true := by rw [at_]; rfl
  obtain ⟨l, hl, hle⟩ : ∃ l, m.nonces.lookup a = some l ∧ n ≤ l := by
    refine inorder.remembered (fun j s' hs' own' => ?_) n hn
    by_cases hj : j = i
    · rw [hj, at_]
      rfl
    · exact Point.not_isRecording (guarded.outside hs inside hj hs' (own'.trans own.symm))
  rw [hl]
  exact Int.lt_of_le_of_lt hle (lt_nonceAfter pending l)

/-- The node takes raw bytes: their nonce is the greatest so far, and it is recorded before anybody else
goes on. -/
theorem InOrder.take (inorder : InOrder subs a points m nonces) (guarded : Guarded subs points m)
    (hs : subs[i]? = some s) (own : s.account = a) {pending nonce : Int} {raw : Bytes}
    (at_ : points i = .sending pending nonce raw)
    (others : ∀ j s', j ≠ i → subs[j]? = some s' → (points j).isAtRest = true) (sent : Datum) :
    InOrder subs a (Function.update points i (.recording nonce sent)) m (nonces ++ [nonce]) := by
  have inside : (points i).isInside = true := by rw [at_]; rfl
  have below : ∀ n ∈ nonces, n < nonce := by
    have := inorder.follows i s hs own
    rwa [at_] at this
  refine ⟨?_, ?_, ?_⟩
  · refine List.pairwise_append.2 ⟨inorder.increasing, List.pairwise_singleton _ _, ?_⟩
    intro n hn k hk
    rw [List.mem_singleton.1 hk]
    exact below n hn
  · refine forall_update (P := fun _ s q => s.account = a → q.Follows (nonces ++ [nonce])) hs ?_ ?_
    · intro _ n hn
      rcases List.mem_append.1 hn with hn | hn
      · exact Int.le_of_lt (below n hn)
      · exact Int.le_of_eq (List.mem_singleton.1 hn)
    · intro j s' hj hs' own'
      exact Point.follows_of_outside (guarded.outside hs inside hj hs' (own'.trans own.symm))
        (others j s' hj hs')
  · intro quiet
    have := quiet i s hs own
    rw [Function.update_self] at this
    cases this

/-- What was broadcast last is remembered. -/
theorem InOrder.record (inorder : InOrder subs a points m nonces) (hs : subs[i]? = some s)
    (own : s.account = a) {nonce : Int} {sent : Datum} (at_ : points i = .recording nonce sent) :
    InOrder subs a (Function.update points i (.leaving (.ok (nonce, sent)))) (m.withNonce a nonce) nonces := by
  refine ⟨inorder.increasing, ?_, ?_⟩
  · exact forall_update (P := fun _ s q => s.account = a → q.Follows nonces) hs (fun _ => trivial)
      fun j s' _ => inorder.follows j s'
  · intro _ n hn
    have le := inorder.follows i s hs own
    rw [at_] at le
    exact ⟨nonce, nonces_withNonce_self m a nonce, le n hn⟩

/-- Unless it is set back, a submission of the account keeps the order; if the node takes its raw bytes,
their nonce is added. -/
theorem InOrder.act_own {w w' : Site ν} {e : Exchange dialogue} (inorder : InOrder subs a points w.memory nonces)
    (guarded : Guarded subs points w.memory) (hs : subs[i]? = some s) (own : s.account = a)
    (acts : Acts N cfg s i (points i) w e p w')
    (others : ∀ j s', j ≠ i → subs[j]? = some s' → (points j).isAtRest = true) (smooth : setsBack e = false) :
    (sent? e = none ∧ InOrder subs a (Function.update points i p) w'.memory nonces) ∨
      ∃ pending nonce raw reply, points i = .sending pending nonce raw ∧ e = ⟨.send raw, .ok reply⟩ ∧
        InOrder subs a (Function.update points i p) w'.memory (nonces ++ [nonce]) := by
  have follows := inorder.follows i s hs own
  generalize hp : points i = p₀ at acts
  rw [hp] at follows
  cases acts with
  | lock free => exact .inl ⟨rfl, inorder.move hs rfl (by rw [hp]; rfl) trivial⟩
  | @count m n n' r reply =>
    refine .inl ⟨rfl, inorder.move hs rfl (by rw [hp]; rfl) ?_⟩
    rw [Point.counted]
    split <;> trivial
  | @retrieve m n pending =>
    refine .inl ⟨rfl, inorder.move hs rfl (by rw [hp]; rfl) ?_⟩
    have above := inorder.choose guarded hs own hp
    rw [Point.chosen, own]
    split
    · exact above
    · trivial
  | @send m n n' pending nonce raw r reply =>
    rcases Point.answered_cases nonce r with ⟨sent, rfl, h⟩ | ⟨f, rfl, refused, -⟩ | ⟨f, rfl, h⟩
    · rw [h]
      exact .inr ⟨pending, nonce, raw, sent, rfl, rfl, inorder.take guarded hs own hp others sent⟩
    · cases smooth.symm.trans refused
    · rw [h]
      exact .inl ⟨rfl, inorder.move hs rfl (by rw [hp]; rfl) trivial⟩
  | record nonce sent =>
    rw [own]
    exact .inl ⟨rfl, inorder.record hs own hp⟩
  | forget f => exact .inl ⟨rfl, follows ▸ inOrder_nil⟩
  | unlock result =>
    refine .inl ⟨rfl, inorder.move hs (by rw [nonces_release]) (by rw [hp]; rfl) ?_⟩
    rcases Point.left_cases result with ⟨t, h⟩ | ⟨nonce, sent, txHash, -, h⟩ <;> rw [h] <;> trivial
  | @receive m n n' nonce txHash r reply =>
    rcases Point.received_cases cfg nonce txHash r with ⟨f, rfl, late, -⟩ | ⟨t, h⟩ | ⟨receipt, -, h⟩
    · have late' : setsBack ⟨.awaitReceipt txHash, .error f⟩ = true := beq_iff_eq.2 late
      cases smooth.symm.trans late'
    · rw [h]
      exact .inl ⟨rfl, inorder.move hs rfl (by rw [hp]; rfl) trivial⟩
    · rw [h]
      exact .inl ⟨rfl, inorder.move hs rfl (by rw [hp]; rfl) trivial⟩
  | lose t => exact .inl ⟨rfl, follows ▸ inOrder_nil⟩

/-- A submission of another account keeps the order. -/
theorem InOrder.act_other {w w' : Site ν} {e : Exchange dialogue}
    (inorder : InOrder subs a points w.memory nonces) (hs : subs[i]? = some s) (other : s.account ≠ a)
    (acts : Acts N cfg s i (points i) w e p w') :
    InOrder subs a (Function.update points i p) w'.memory nonces := by
  refine inorder.frame (acts.nonces_other (Ne.symm other)) fun j s' hs' own => ?_
  refine Function.update_of_ne ?_ _ _
  rintro rfl
  rw [hs, Option.some.injEq] at hs'
  exact other (hs' ▸ own)

end Order

section Stretch

variable {ν : Type} {N : Conduct ν} {cfg : Config} {subs : List Submission} {a : String} {points : Nat → Point}
  {m : Memory} {g h : History dialogue} {i : Nat} {s : Submission} {p : Point} {e : Exchange dialogue}

/-- The trails of all submissions. -/
def Trails (subs : List Submission) (h : History dialogue) (points : Nat → Point) : Prop :=
  ∀ i s, subs[i]? = some s → Trail s (h.of i) (points i)

theorem trails_start : Trails subs [] (startPoints subs) := by
  intro i s hs
  simp only [startPoints, hs, Point.start]
  split
  · rfl
  · trivial

theorem Trails.act {w w' : Site ν} (trails : Trails subs h points) (hs : subs[i]? = some s)
    (acts : Acts N cfg s i (points i) w e p w') :
    Trails subs (h ++ [(i, e)]) (Function.update points i p) := by
  refine forall_update (P := fun j s q => Trail s (History.of (h ++ [(i, e)]) j) q) hs ?_ ?_
  · rw [Crowd.history_of_append, Crowd.history_of_self]
    exact (trails i s hs).move acts.moves.1
  · intro j s' hj hs'
    rw [Crowd.history_of_append, Crowd.history_of_other (Ne.symm hj), List.append_nil]
    exact trails j s' hs'

theorem Chosen.append {b : Broadcast} {nonce : Int} (chosen : Chosen subs g b nonce) (h : History dialogue) :
    Chosen subs (g ++ h) b nonce := by
  obtain ⟨s, count, pending, last, reply, rest, hs, signs, asked, hpending, le⟩ := chosen
  refine ⟨s, count, pending, last, reply, rest ++ h.of b.caller, hs, signs, ?_, hpending, le⟩
  rw [Crowd.history_of_append, asked]
  rfl

/-- Raw bytes that the node takes are chosen as their trail says. -/
theorem Trails.chosen (trails : Trails subs h points) (hs : subs[i]? = some s) {pending nonce : Int}
    {raw : Bytes} (at_ : points i = .sending pending nonce raw) (reply : Datum) :
    Chosen subs (h ++ [(i, ⟨.send raw, .ok reply⟩)]) ⟨i, raw⟩ nonce := by
  have trail := trails i s hs
  rw [at_] at trail
  obtain ⟨count, last, asked, hpending, rfl, signs⟩ := trail
  refine ⟨s, count, pending, last, reply, [], hs, signs, ?_, hpending, le_nonceAfter pending last⟩
  rw [Crowd.history_of_append, asked, Crowd.history_of_self]
  rfl

theorem sentIn_append_none (none : accountOf subs i = some a → sent? e = none) :
    sentIn subs a (h ++ [(i, e)]) = sentIn subs a h := by
  by_cases own : accountOf subs i = some a <;> simp [sentIn, own, none]

theorem sentIn_append_own (own : accountOf subs i = some a) (raw : Bytes) (reply : Datum) :
    sentIn subs a (h ++ [(i, ⟨.send raw, .ok reply⟩)]) = sentIn subs a h ++ [⟨i, raw⟩] := by
  simp [sentIn, own, sent?]

/-- What holds along a stretch that follows a history. -/
structure Stretch (subs : List Submission) (a : String) (g h : History dialogue) (points : Nat → Point)
    (m : Memory) : Prop where
  guarded : Guarded subs points m
  trails : Trails subs (g ++ h) points
  inOrder : Smooth subs a h → ∃ nonces, List.Forall₂ (Chosen subs (g ++ h)) (sentIn subs a h) nonces ∧
    InOrder subs a points m nonces

theorem Stretch.act {w w' : Site ν} (stretch : Stretch subs a g h points w.memory) (hs : subs[i]? = some s)
    (acts : Acts N cfg s i (points i) w e p w')
    (others : ∀ j s', j ≠ i → subs[j]? = some s' → (points j).isAtRest = true) :
    Stretch subs a g (h ++ [(i, e)]) (Function.update points i p) w'.memory := by
  refine ⟨stretch.guarded.act hs acts, ?_, ?_⟩
  · rw [← List.append_assoc]
    exact stretch.trails.act hs acts
  · intro smooth
    obtain ⟨nonces, chosen, inorder⟩ := stretch.inOrder fun j e' he' =>
      smooth j e' (List.mem_append_left _ he')
    have chosen' := chosen.imp fun _ _ hb => hb.append [(i, e)]
    rw [List.append_assoc] at chosen'
    by_cases own : s.account = a
    · have account : accountOf subs i = some a := own ▸ accountOf_eq hs
      have smooth' : setsBack e = false := smooth i e (by simp) account
      rcases inorder.act_own stretch.guarded hs own acts others smooth' with
        ⟨unsent, inorder'⟩ | ⟨pending, nonce, raw, reply, at_, rfl, inorder'⟩
      · refine ⟨nonces, ?_, inorder'⟩
        rwa [sentIn_append_none fun _ => unsent]
      · refine ⟨nonces ++ [nonce], ?_, inorder'⟩
        rw [sentIn_append_own account]
        refine List.rel_append chosen' (.cons ?_ .nil)
        rw [← List.append_assoc]
        exact stretch.trails.chosen hs at_ reply
    · have foreign : accountOf subs i ≠ some a := by
        rw [accountOf_eq hs]
        exact fun same => own (Option.some.inj same)
      refine ⟨nonces, ?_, inorder.act_other hs own acts⟩
      rwa [sentIn_append_none fun same => absurd same foreign]

theorem Stretch.start (guarded : Guarded subs points m) (trails : Trails subs g points) :
    Stretch subs a g [] points m :=
  ⟨guarded, by rwa [List.append_nil],
    fun _ => ⟨[], .nil, inOrder_nil⟩⟩

/-- Every stretch of every run, whatever it follows. -/
theorem stretch_of_run {w : Site ν} {c c' : Crowd dialogue (Site ν) (Except Trouble Receipt)}
    (before : Crowd.Run N.setting ⟨subs.map (Submission.activity cfg), w⟩ g c)
    (run : Crowd.Run N.setting c h c') (a : String) :
    ∃ points, Placed cfg subs points c'.tasks ∧ Stretch subs a g h points c'.state.memory := by
  obtain ⟨points, placed, guarded, trails⟩ := (placed_start subs).invariant before
    (I := fun h points w => Guarded subs points w.memory ∧ Trails subs h points)
    ⟨guarded_start _, trails_start⟩
    (fun _ _ _ _ _ _ _ _ hs acts _ inv => ⟨inv.1.act hs acts, inv.2.act hs acts⟩)
    fun _ _ _ _ _ _ inv => inv
  refine placed.invariant run (I := fun h points w => Stretch subs a g h points w.memory) ?_ ?_ ?_
  · exact .start guarded trails
  · exact fun _ _ _ _ _ _ _ _ hs acts others stretch => stretch.act hs acts others
  · exact fun _ _ _ _ _ _ stretch => stretch

end Stretch

/-- Whoever has a question of its broadcast open is inside. -/
theorem At.isInside {cfg : Config} {s : Submission} {p : Point} {q : Ask}
    {k : Reply q → Activity dialogue (Except Trouble Receipt)} (place : At cfg s p (.ask q k))
    (broadcasting : q.isBroadcasting = true) : p.isInside = true := by
  obtain ⟨r⟩ := nonempty_reply q
  obtain ⟨p', move, -⟩ := place.next r
  cases move <;> first | rfl | cases broadcasting

/-- Where the bytes of an account can be read, the nonces that were chosen for its broadcasts are read from them. -/
theorem nonceIn?_of_chosen {subs : List Submission} {a : String} {g h : History dialogue} {nonces : List Int}
    (legible : ∀ s ∈ subs, s.account = a → s.signer.Legible s.tx)
    (chosen : List.Forall₂ (Chosen subs g) (sentIn subs a h) nonces) :
    (sentIn subs a h).map (fun b => Signer.nonceIn? b.raw) = nonces.map some := by
  have own : ∀ b ∈ sentIn subs a h, accountOf subs b.caller = some a := by
    intro b hb
    obtain ⟨⟨i, e⟩, -, he⟩ := List.mem_filterMap.1 hb
    by_cases same : accountOf subs i = some a
    · rw [if_pos same] at he
      obtain ⟨raw, -, rfl⟩ := Option.map_eq_some_iff.1 he
      exact same
    · rw [if_neg same] at he
      cases he
  generalize sentIn subs a h = bs at chosen own
  induction chosen with
  | nil => rfl
  | @cons b nonce bs nonces hb _ ih =>
    obtain ⟨s, _, _, _, _, _, hs, signs, _⟩ := hb
    have account : s.account = a := by
      have hb := own b List.mem_cons_self
      rw [accountOf_eq hs] at hb
      exact Option.some.inj hb
    rw [List.map_cons, List.map_cons, (legible s (List.mem_of_getElem? hs) account).nonceIn? signs,
      ih fun b' hb' => own b' (List.mem_cons_of_mem b hb')]

/-- Along a stretch in which nothing of an account is set back, the nonces that its signers were given for the
broadcasts increase, and none is below the count that was fetched for it; where the bytes can be read, as those of a
private key, these nonces are read from them. At any time at most one submission of the account is
between the fetch of its nonce and the end of its broadcast, and a submission of another account leaves
what is remembered of this one. -/
theorem broadcast_nonces_increasing {ν : Type} {N : Conduct ν} {cfg : Config} {subs : List Submission}
    {w : Site ν} {g h : History dialogue} {c c' : Crowd dialogue (Site ν) (Except Trouble Receipt)}
    (before : Crowd.Run N.setting ⟨subs.map (Submission.activity cfg), w⟩ g c)
    (stretch : Crowd.Run N.setting c h c') (a : String) :
    (Smooth subs a h → ∃ nonces : List Int, nonces.Pairwise (· < ·) ∧
      List.Forall₂ (Chosen subs (g ++ h)) (sentIn subs a h) nonces ∧
      ((∀ s ∈ subs, s.account = a → s.signer.Legible s.tx) →
        (sentIn subs a h).map (fun b => Signer.nonceIn? b.raw) = nonces.map some)) ∧
    (∀ i j q q' k k', accountOf subs i = some a → accountOf subs j = some a →
      c'.tasks[i]? = some (.ask q k) → c'.tasks[j]? = some (.ask q' k') →
      Ask.isBroadcasting q = true → Ask.isBroadcasting q' = true → i = j) ∧
    ∀ i e c'', Crowd.Step N.setting c' i e c'' → accountOf subs i ≠ some a →
      c''.state.memory.nonces.lookup a = c'.state.memory.nonces.lookup a := by
  obtain ⟨points, placed, inv⟩ := stretch_of_run before stretch a
  refine ⟨?_, ?_, ?_⟩
  · intro smooth
    obtain ⟨nonces, chosen, inorder⟩ := inv.inOrder smooth
    exact ⟨nonces, inorder.increasing, chosen, fun legible => nonceIn?_of_chosen legible chosen⟩
  · intro i j q q' k k' hi hj ti tj bi bj
    obtain ⟨s, hs, own⟩ := Option.map_eq_some_iff.1 hi
    obtain ⟨s', hs', own'⟩ := Option.map_eq_some_iff.1 hj
    exact inv.guarded.unique hs hs' (own.trans own'.symm) ((placed.place i s _ hs ti).isInside bi)
      ((placed.place j s' _ hs' tj).isInside bj)
  · intro i e c'' step foreign
    obtain ⟨s, p, hs, acts, -⟩ := placed.step step
    refine acts.nonces_other ?_
    rintro rfl
    exact foreign (accountOf_eq hs)

theorem smooth_of_all {subs : List Submission} {a : String} {h : History dialogue}
    (all : (h.all fun e => !setsBack e.2) = true) : Smooth subs a h := by
  intro i e he _
  simpa using List.all_eq_true.1 all (i, e) he

/-- A node that may reply anything. -/
def anyNode : Conduct Unit := ⟨fun _ _ _ _ => True, fun _ _ => True⟩

/-- A node that takes everything, and counts less for the later tasks. -/
def staleReplier : Replier anyNode where
  reply i q _ :=
    match q with
    | .pendingCount _ => some (.ok (.int (5 - 2 * i)), ())
    | .send _ => some (.ok (.bytes []), ())
    | _ => none
  drift := id
  replies _ := trivial
  drifts _ := trivial

/-- A second submission is told a count that is too small, and goes past the first one all the same: both nonces are
read from the bytes. -/
theorem broadcast_nonces_increasing_stale : ∃ h c,
    Crowd.Run anyNode.setting ⟨[Submission.sample, .sample].map (Submission.activity {}), {}, ()⟩ h c ∧
    Smooth [.sample, .sample] "A" h ∧
    (∀ s ∈ [Submission.sample, .sample], s.account = "A" → s.signer.Legible s.tx) ∧
    (sentIn [.sample, .sample] "A" h).map (fun b => Signer.nonceIn? b.raw) = [some 5, some 6] ∧
    ∃ nonces : List Int, nonces.Pairwise (· < ·) ∧
      List.Forall₂ (Chosen [.sample, .sample] h) (sentIn [.sample, .sample] "A" h) nonces ∧
      (sentIn [.sample, .sample] "A" h).map (fun b => Signer.nonceIn? b.raw) = nonces.map some := by
  have run := Crowd.run_play staleReplier.oracle (List.replicate 6 (some 0) ++ List.replicate 4 (some 1))
    ⟨[Submission.sample, .sample].map (Submission.activity {}), {}, ()⟩
  obtain ⟨nonces, increasing, chosen, read⟩ :=
    (broadcast_nonces_increasing .nil run "A").1 (smooth_of_all (by decide +kernel))
  refine ⟨_, _, run, smooth_of_all ?_, legible_samples 2, ?_, nonces, increasing, chosen, read (legible_samples 2)⟩
  all_goals decide +kernel

end ProofRelay.Client
