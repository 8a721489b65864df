import ProofRelay.Proofs.Client.Exclusion

/-!
Nonces without gaps. The node here forgets nothing that it accepted and counts it, and the client is the
only sender of its accounts; apart from that the node may refuse, fail, or report a failure for what it
accepted. Then the nonces that it accepts from an account continue its count, one after the other. The
invariant: what is remembered of an account is below the node's count, and whoever is inside and has
chosen a nonce has chosen the count itself.
-/

namespace ProofRelay.Client

open Simulation (Memory)

/-- The broadcasts of one account, in the order of their acceptance. -/
def broadcastsOf (subs : List Submission) (a : String) (bs : List Broadcast) : List Broadcast :=
  bs.filter fun b => accountOf subs b.caller == some a

/-- The number of transactions of an account that a node has accepted, `before a` of them in former times. -/
def countOf (subs : List Submission) (before : String → Nat) (a : String) (bs : List Broadcast) : Int :=
  before a + (broadcastsOf subs a bs).length

/-- How a node replies that keeps what it accepts and counts it. It may accept raw bytes whatever its
reply is, but it says that it accepted only what it did accept. -/
inductive Keeps (subs : List Submission) (before : String → Nat) (bs : List Broadcast) (i : Nat) :
    Exchange dialogue → List Broadcast → Prop where
  | count (a : String) :
      Keeps subs before bs i ⟨.pendingCount a, .ok (.int (countOf subs before a bs))⟩ bs
  | noCount (a : String) (f : Fault) : Keeps subs before bs i ⟨.pendingCount a, .error f⟩ bs
  | accept (raw : Bytes) (r : Except Fault Datum) : Keeps subs before bs i ⟨.send raw, r⟩ (bs ++ [⟨i, raw⟩])
  | refuse (raw : Bytes) (f : Fault) : Keeps subs before bs i ⟨.send raw, .error f⟩ bs
  | receipt (txHash : String) (r : Except Fault Json) : Keeps subs before bs i ⟨.awaitReceipt txHash, r⟩ bs

/-- A node that nobody else uses for the accounts of this client. -/
def keeping (subs : List Submission) (before : String → Nat) : Conduct (List Broadcast) where
  Replies := Keeps subs before
  Drifts bs bs' := bs' = bs

/-- The nonce of a submission whose raw bytes the node has taken. -/
def Point.nonce? : Point → Option Int
  | .recording nonce _ => some nonce
  | .leaving (.ok (nonce, _)) => some nonce
  | .awaiting nonce _ => some nonce
  | .ended (.ok r) => some r.nonce
  | _ => none

/-- What a submission knows agrees with the node's count. -/
structure Fits (count : Int) (s : Submission) (p : Point) : Prop where
  pending : ∀ pending, p = .recalling pending → pending = count
  sending : ∀ pending nonce raw, p = .sending pending nonce raw → nonce = count ∧ s.Signs nonce raw
  below : ∀ n, p.nonce? = some n → n < count

/-- Where an account stands: in the memory, in the node, and in its submissions. -/
structure InSequence (subs : List Submission) (before : String → Nat) (a : String) (points : Nat → Point)
    (m : Memory) (bs : List Broadcast) : Prop where
  guarded : Guarded subs points m
  signs : ∀ (k : Nat) (b : Broadcast), (broadcastsOf subs a bs)[k]? = some b →
    ∃ s, subs[b.caller]? = some s ∧ s.Signs (before a + k) b.raw
  remembered : ∀ l, m.nonces.lookup a = some l → l < countOf subs before a bs
  fits : ∀ i s, subs[i]? = some s → s.account = a → Fits (countOf subs before a bs) s (points i)
  distinct : ∀ i j s s' n, i ≠ j → subs[i]? = some s → subs[j]? = some s' → s.account = a →
    s'.account = a → (points i).nonce? = some n → (points j).nonce? ≠ some n

section Broadcasts

variable {subs : List Submission} {before : String → Nat} {a : String} {bs : List Broadcast} {i : Nat}
  {s : Submission}

theorem broadcastsOf_append_own (hs : subs[i]? = some s) (own : s.account = a) (raw : Bytes) :
    broadcastsOf subs a (bs ++ [⟨i, raw⟩]) = broadcastsOf subs a bs ++ [⟨i, raw⟩] := by
  simp [broadcastsOf, accountOf_eq hs, own]

theorem broadcastsOf_append_other (hs : subs[i]? = some s) (other : s.account ≠ a) (raw : Bytes) :
    broadcastsOf subs a (bs ++ [⟨i, raw⟩]) = broadcastsOf subs a bs := by
  simp [broadcastsOf, accountOf_eq hs, other]

theorem countOf_append_own (hs : subs[i]? = some s) (own : s.account = a) (raw : Bytes) :
    countOf subs before a (bs ++ [⟨i, raw⟩]) = countOf subs before a bs + 1 := by
  rw [countOf, countOf, broadcastsOf_append_own hs own, List.length_append, List.length_singleton]
  omega

end Broadcasts

namespace Point

theorem nonce?_left {r : Except Trouble (Int × Datum)} {n : Int} (h : (left r).nonce? = some n) :
    (leaving r).nonce? = some n := by
  rcases left_cases r with ⟨t, hleft⟩ | ⟨nonce, sent, txHash, rfl, hleft⟩
  · rw [hleft] at h
    cases h
  · rwa [hleft] at h

theorem nonce?_received {cfg : Config} {nonce : Int} {txHash : String} {r : Except Fault Json} {n : Int}
    (h : (received cfg nonce txHash r).nonce? = some n) : n = nonce := by
  rcases received_cases cfg nonce txHash r with ⟨f, -, -, hr⟩ | ⟨t, hr⟩ | ⟨receipt, hnonce, hr⟩
  · rw [hr] at h
    cases h
  · rw [hr] at h
    cases h
  · rw [hr] at h
    exact (Option.some.inj h).symm.trans hnonce

theorem nonce?_answered {nonce : Int} {r : Except Fault Datum} {n : Int}
    (h : (answered nonce r).nonce? = some n) : n = nonce ∧ ∃ sent, r = .ok sent := by
  rcases answered_cases nonce r with ⟨sent, hr, ha⟩ | ⟨f, -, -, ha⟩ | ⟨f, -, ha⟩
  · rw [ha] at h
    exact ⟨(Option.some.inj h).symm, sent, hr⟩
  · rw [ha] at h
    cases h
  · rw [ha] at h
    cases h

end Point

variable {subs : List Submission} {before : String → Nat} {a : String} {points : Nat → Point}
  {m m' : Memory} {bs bs' : List Broadcast} {i : Nat} {s : Submission} {cfg : Config}

theorem fits_of_outside {count : Int} {p : Point} (outside : p.isInside = false)
    (below : ∀ n, p.nonce? = some n → n < count) : Fits count s p := by
  refine ⟨?_, ?_, below⟩
  · rintro pending rfl
    cases outside
  · rintro pending nonce raw rfl
    cases outside

/-- After the node's reply nothing is left to be chosen. -/
theorem fits_answered {count nonce : Int} {r : Except Fault Datum}
    (below : ∀ n, (Point.answered nonce r).nonce? = some n → n < count) :
    Fits count s (.answered nonce r) := by
  rcases Point.answered_cases nonce r with ⟨sent, -, ha⟩ | ⟨f, -, -, ha⟩ | ⟨f, -, ha⟩ <;>
    rw [ha] at below ⊢ <;> exact ⟨nofun, nofun, below⟩

/-- An account stands as before if nothing of it has changed. -/
theorem InSequence.frame {points' : Nat → Point} (inseq : InSequence subs before a points m bs)
    (guarded : Guarded subs points' m') (same : broadcastsOf subs a bs' = broadcastsOf subs a bs)
    (nonces : m'.nonces.lookup a = m.nonces.lookup a)
    (keep : ∀ j s, subs[j]? = some s → s.account = a → points' j = points j) :
    InSequence subs before a points' m' bs' := by
  have count : countOf subs before a bs' = countOf subs before a bs := by rw [countOf, countOf, same]
  refine ⟨guarded, ?_, ?_, ?_, ?_⟩
  · rw [same]
    exact inseq.signs
  · rw [nonces, count]
    exact inseq.remembered
  · intro j s hs own
    rw [count, keep j s hs own]
    exact inseq.fits j s hs own
  · intro j k s s' n hne hs hs' own own' hj
    rw [keep j s hs own] at hj
    rw [keep k s' hs' own']
    exact inseq.distinct j k s s' n hne hs hs' own own' hj

/-- A submission goes on while the node's count stays. -/
theorem InSequence.advance (inseq : InSequence subs before a points m bs) (hs : subs[i]? = some s)
    {p : Point} (guarded : Guarded subs (Function.update points i p) m')
    (remembered : ∀ l, m'.nonces.lookup a = some l → l < countOf subs before a bs)
    (fits : Fits (countOf subs before a bs) s p)
    (nonce : ∀ n, p.nonce? = some n → (points i).nonce? = some n) :
    InSequence subs before a (Function.update points i p) m' bs := by
  have old : ∀ j n, (Function.update points i p j).nonce? = some n → (points j).nonce? = some n := by
    intro j n h
    by_cases hj : j = i
    · subst hj
      rw [Function.update_self] at h
      exact nonce n h
    · rwa [Function.update_of_ne hj] at h
  refine ⟨guarded, inseq.signs, remembered, ?_, ?_⟩
  · exact forall_update (P := fun _ s q => s.account = a → Fits (countOf subs before a bs) s q) hs
      (fun _ => fits) fun j s' _ hs' => inseq.fits j s' hs'
  · intro j k s' s'' n hne hs' hs'' own own' hj hk
    exact inseq.distinct j k s' s'' n hne hs' hs'' own own' (old j n hj) (old k n hk)

/-- What the node accepts next of an account is signed with its count. -/
theorem InSequence.signs_accept (inseq : InSequence subs before a points m bs) (hs : subs[i]? = some s)
    (own : s.account = a) {raw : Bytes} (signs : s.Signs (countOf subs before a bs) raw) (k : Nat) (b : Broadcast)
    (hb : (broadcastsOf subs a (bs ++ [⟨i, raw⟩]))[k]? = some b) :
    ∃ s, subs[b.caller]? = some s ∧ s.Signs (before a + k) b.raw := by
  rw [broadcastsOf_append_own hs own, List.getElem?_append] at hb
  split at hb
  · exact inseq.signs k b hb
  · rename_i hk
    have hlast : k = (broadcastsOf subs a bs).length := by
      have := (List.getElem?_eq_some_iff.1 hb).1
      simp only [List.length_singleton] at this
      omega
    subst hlast
    rw [Nat.sub_self, List.getElem?_cons_zero, Option.some.injEq] at hb
    subst hb
    exact ⟨s, hs, signs⟩

/-- The count is above all nonces in use, so who gets it shares it with nobody. -/
theorem InSequence.distinct_accept (inseq : InSequence subs before a points m bs) {p : Point}
    (new : ∀ n, p.nonce? = some n → n = countOf subs before a bs) {j k : Nat} {s s' : Submission} {n : Int}
    (hne : j ≠ k) (hs : subs[j]? = some s) (hs' : subs[k]? = some s') (own : s.account = a) (own' : s'.account = a)
    (hj : (Function.update points i p j).nonce? = some n) : (Function.update points i p k).nonce? ≠ some n := by
  intro hk
  by_cases hji : j = i
  · subst hji
    rw [Function.update_self] at hj
    rw [Function.update_of_ne (Ne.symm hne)] at hk
    have := (inseq.fits k s' hs' own').below n hk
    have := new n hj
    omega
  · rw [Function.update_of_ne hji] at hj
    by_cases hki : k = i
    · subst hki
      rw [Function.update_self] at hk
      have := (inseq.fits j s hs own).below n hj
      have := new n hk
      omega
    · rw [Function.update_of_ne hki] at hk
      exact inseq.distinct j k s s' n hne hs hs' own own' hj hk

/-- The node accepts the nonce that continues its count. No other submission of the account is inside
meanwhile, and those outside have smaller nonces. -/
theorem InSequence.accept (inseq : InSequence subs before a points m bs) (hs : subs[i]? = some s)
    (own : s.account = a) {pending nonce : Int} {raw : Bytes} (at_ : points i = .sending pending nonce raw)
    (r : Except Fault Datum) :
    InSequence subs before a (Function.update points i (.answered nonce r)) m (bs ++ [⟨i, raw⟩]) := by
  have inside : (points i).isInside = true := by rw [at_]; rfl
  obtain ⟨rfl, signs⟩ := (inseq.fits i s hs own).sending _ _ _ at_
  have count : countOf subs before a (bs ++ [⟨i, raw⟩]) = countOf subs before a bs + 1 :=
    countOf_append_own hs own raw
  have new : ∀ n, (Point.answered (countOf subs before a bs) r).nonce? = some n → n = countOf subs before a bs :=
    fun n h => (Point.nonce?_answered h).1
  refine ⟨?_, ?_, ?_, ?_, ?_⟩
  · exact inseq.guarded.keep hs rfl fun _ => inside
  · exact inseq.signs_accept hs own signs
  · intro l hl
    have := inseq.remembered l hl
    omega
  · rw [count]
    refine forall_update (P := fun _ s q => s.account = a → Fits (countOf subs before a bs + 1) s q) hs ?_ ?_
    · refine fun _ => fits_answered fun n h => ?_
      have := new n h
      omega
    · intro j s' hj hs' own'
      have outside := inseq.guarded.outside hs inside hj hs' (own'.trans own.symm)
      refine fits_of_outside outside fun n h => ?_
      have := (inseq.fits j s' hs' own').below n h
      omega
  · intro j k s' s'' n hne hs' hs'' own' own'' hj
    exact inseq.distinct_accept new hne hs' hs'' own' own'' hj

theorem nonceAfter_eq {pending : Int} {last : Option Int} (below : ∀ l, last = some l → l < pending) :
    nonceAfter pending last = pending := by
  cases last with
  | none => rfl
  | some l =>
    have := below l rfl
    simp only [nonceAfter]
    omega

section Own

variable (inseq : InSequence subs before a points m bs) (hs : subs[i]? = some s) (own : s.account = a)

include inseq hs own

/-- What a submission is told is the count. -/
theorem InSequence.count {r : Except Fault Json} (guarded : Guarded subs (Function.update points i (.counted r)) m)
    (reply : Keeps subs before bs i ⟨.pendingCount s.account, r⟩ bs') :
    InSequence subs before a (Function.update points i (.counted r)) m bs' := by
  cases reply with
  | count =>
    refine inseq.advance hs guarded inseq.remembered ⟨?_, nofun, nofun⟩ nofun
    intro pending h
    rw [← Point.recalling.inj h, own]
  | noCount _ f => exact inseq.advance hs guarded inseq.remembered ⟨nofun, nofun, nofun⟩ nofun

/-- The nonce that it chooses is the count, since what is remembered is below it. -/
theorem InSequence.choose {pending : Int} (at_ : points i = .recalling pending)
    (guarded : Guarded subs (Function.update points i (.chosen s pending (m.nonces.lookup s.account))) m) :
    InSequence subs before a (Function.update points i (.chosen s pending (m.nonces.lookup s.account))) m bs := by
  have hpending : pending = countOf subs before a bs := (inseq.fits i s hs own).pending pending at_
  have hnonce : nonceAfter pending (m.nonces.lookup s.account) = pending :=
    nonceAfter_eq fun l hl => hpending ▸ inseq.remembered l (own ▸ hl)
  rw [Point.chosen, hnonce] at guarded ⊢
  cases hraw : signed s.tx s.signer pending with
  | error f =>
    rw [hraw] at guarded
    exact inseq.advance hs guarded inseq.remembered ⟨nofun, nofun, nofun⟩ nofun
  | ok raw =>
    rw [hraw] at guarded
    rw [signed_eq] at hraw
    refine inseq.advance hs guarded inseq.remembered ⟨nofun, ?_, nofun⟩ nofun
    intro _ nonce raw' h
    obtain ⟨-, rfl, rfl⟩ := Point.sending.inj h
    exact ⟨hpending, hraw⟩

/-- The node accepts what it sends, or it does not, whatever it replies. -/
theorem InSequence.send {pending nonce : Int} {raw : Bytes} {r : Except Fault Datum}
    (at_ : points i = .sending pending nonce raw)
    (guarded : Guarded subs (Function.update points i (.answered nonce r)) m)
    (reply : Keeps subs before bs i ⟨.send raw, r⟩ bs') :
    InSequence subs before a (Function.update points i (.answered nonce r)) m bs' := by
  cases reply with
  | accept => exact inseq.accept hs own at_ r
  | refuse _ f =>
    have none : ∀ k, (Point.answered nonce (.error f)).nonce? ≠ some k :=
      fun k hk => nomatch (Point.nonce?_answered hk).2
    exact inseq.advance hs guarded inseq.remembered (fits_answered fun k hk => absurd hk (none k))
      fun k hk => absurd hk (none k)

/-- What it remembers then is below the count. -/
theorem InSequence.record {nonce : Int} {sent : Datum} (at_ : points i = .recording nonce sent)
    (guarded : Guarded subs (Function.update points i (.leaving (.ok (nonce, sent)))) (m.withNonce s.account nonce)) :
    InSequence subs before a (Function.update points i (.leaving (.ok (nonce, sent)))) (m.withNonce s.account nonce)
      bs := by
  have fits := inseq.fits i s hs own
  rw [at_] at fits
  refine inseq.advance hs guarded ?_ ⟨nofun, nofun, fun k hk => fits.below k hk⟩ fun k hk => at_ ▸ hk
  intro l hl
  rw [own, nonces_withNonce_self] at hl
  exact fits.below l hl

/-- Nothing is remembered after it has forgotten. -/
theorem InSequence.forget {p : Point} (guarded : Guarded subs (Function.update points i p) (m.withoutNonce s.account))
    (blank : Fits (countOf subs before a bs) s p) (none : ∀ n, p.nonce? ≠ some n) :
    InSequence subs before a (Function.update points i p) (m.withoutNonce s.account) bs := by
  refine inseq.advance hs guarded ?_ blank fun n hn => absurd hn (none n)
  intro l hl
  rw [own, nonces_withoutNonce_self] at hl
  cases hl

/-- It keeps its nonce, if it has one, when it goes out. -/
theorem InSequence.leave {result : Except Trouble (Int × Datum)} (at_ : points i = .leaving result)
    (guarded : Guarded subs (Function.update points i (.left result)) (m.release s.account)) :
    InSequence subs before a (Function.update points i (.left result)) (m.release s.account) bs := by
  have fits := inseq.fits i s hs own
  rw [at_] at fits
  refine inseq.advance hs guarded ?_ ?_ fun k hk => at_ ▸ Point.nonce?_left hk
  · rw [nonces_release]
    exact inseq.remembered
  · exact fits_of_outside (Point.isInside_left result) fun k hk => fits.below k (Point.nonce?_left hk)

theorem InSequence.receive {nonce : Int} {txHash : String} {r : Except Fault Json}
    (at_ : points i = .awaiting nonce txHash)
    (guarded : Guarded subs (Function.update points i (.received cfg nonce txHash r)) m) :
    InSequence subs before a (Function.update points i (.received cfg nonce txHash r)) m bs := by
  have fits := inseq.fits i s hs own
  rw [at_] at fits
  refine inseq.advance hs guarded inseq.remembered ?_ fun k hk => ?_
  · refine fits_of_outside (Point.isInside_received _ _ _ _) fun k hk => fits.below k ?_
    rw [Point.nonce?_received hk]
    rfl
  · rw [at_, Point.nonce?_received hk]
    rfl

end Own

/-- Every act of a submission of the account keeps the account in sequence. -/
theorem InSequence.act_own {w w' : Site (List Broadcast)} {e : Exchange dialogue} {p : Point}
    (inseq : InSequence subs before a points w.memory w.node) (hs : subs[i]? = some s) (own : s.account = a)
    (acts : Acts (keeping subs before) cfg s i (points i) w e p w') :
    InSequence subs before a (Function.update points i p) w'.memory w'.node := by
  have guarded := inseq.guarded.act hs acts
  generalize hp : points i = p₀ at acts
  cases acts with
  | lock free => exact inseq.advance hs guarded inseq.remembered ⟨nofun, nofun, nofun⟩ nofun
  | count reply => exact inseq.count hs own guarded reply
  | retrieve pending => exact inseq.choose hs own hp guarded
  | send pending nonce reply => exact inseq.send hs own hp guarded reply
  | record nonce sent => exact inseq.record hs own hp guarded
  | forget f => exact inseq.forget hs own guarded ⟨nofun, nofun, nofun⟩ nofun
  | unlock result => exact inseq.leave hs own hp guarded
  | receive nonce reply =>
    cases reply
    exact inseq.receive hs own hp guarded
  | lose t => exact inseq.forget hs own guarded ⟨nofun, nofun, nofun⟩ nofun

/-- A submission of another account leaves the account as it stands. -/
theorem InSequence.act_other {w w' : Site (List Broadcast)} {e : Exchange dialogue} {p : Point}
    (inseq : InSequence subs before a points w.memory w.node) (hs : subs[i]? = some s)
    (other : s.account ≠ a) (acts : Acts (keeping subs before) cfg s i (points i) w e p w') :
    InSequence subs before a (Function.update points i p) w'.memory w'.node := by
  refine inseq.frame (inseq.guarded.act hs acts) ?_ (acts.nonces_other (Ne.symm other)) ?_
  · generalize points i = p₀ at acts
    cases acts with
    | count reply => cases reply <;> rfl
    | receive nonce reply => cases reply; rfl
    | send pending nonce reply =>
      cases reply with
      | accept => exact broadcastsOf_append_other hs other _
      | refuse => rfl
    | lock | retrieve | record | forget | unlock | lose => rfl
  · intro j s' hs' own
    refine Function.update_of_ne ?_ _ _
    rintro rfl
    rw [hs, Option.some.injEq] at hs'
    exact other (hs' ▸ own)

theorem inSequence_start (chainId : Option Int) :
    InSequence subs before a (startPoints subs) { chainId := chainId } [] := by
  have none : ∀ i n, (startPoints subs i).nonce? ≠ some n := by
    intro i n
    rw [startPoints]
    split
    · rw [Point.start]
      split <;> simp [Point.nonce?]
    · simp [Point.nonce?]
  refine ⟨guarded_start _, ?_, ?_, ?_, ?_⟩
  · intro k b hb
    cases hb
  · intro l hl
    cases hl
  · intro i s hs _
    refine fits_of_outside ?_ fun n h => absurd h (none i n)
    simp only [startPoints, hs, Point.start]
    split <;> rfl
  · intro i j s s' n _ _ _ _ _ h
    exact absurd h (none i n)

/-- From a new client's first step on, the account stays in sequence, whatever the order of the steps. -/
theorem inSequence_run {chainId : Option Int} {h : History dialogue}
    {c : Crowd dialogue (Site (List Broadcast)) (Except Trouble Receipt)}
    (run : Crowd.Run (keeping subs before).setting
      ⟨subs.map (Submission.activity cfg), { chainId := chainId }, []⟩ h c) (a : String) :
    ∃ points, Placed cfg subs points c.tasks ∧
      InSequence subs before a points c.state.memory c.state.node := by
  refine (placed_start subs).invariant run
    (I := fun _ points w => InSequence subs before a points w.memory w.node) (inSequence_start chainId) ?_ ?_
  · intro h points i s e p w w' hs acts _ inseq
    by_cases own : s.account = a
    · exact inseq.act_own hs own acts
    · exact inseq.act_other hs own acts
  · rintro h points m bs bs' rfl inseq
    exact inseq

/-- The nonces that the node accepts from an account are `before a`, `before a + 1` and so on, in the order of
acceptance: these are what the signers were given, and where the bytes can be read, as those of a private key, they are
what is read from them. No two submissions of the account get receipts for the same nonce. -/
theorem accepted_nonces_consecutive {cfg : Config} {subs : List Submission} {before : String → Nat}
    {chainId : Option Int} {h : History dialogue}
    {c : Crowd dialogue (Site (List Broadcast)) (Except Trouble Receipt)}
    (run : Crowd.Run (keeping subs before).setting
      ⟨subs.map (Submission.activity cfg), { chainId := chainId }, []⟩ h c) (a : String) :
    (∀ (k : Nat) (b : Broadcast), (broadcastsOf subs a c.state.node)[k]? = some b →
      ∃ s, subs[b.caller]? = some s ∧ s.account = a ∧ s.signer.sign (s.tx.given (before a + k)) = .ok b.raw) ∧
    ((∀ s ∈ subs, s.account = a → s.signer.Legible s.tx) →
      (broadcastsOf subs a c.state.node).map (fun b => Signer.nonceIn? b.raw) =
        (List.range (broadcastsOf subs a c.state.node).length).map fun k : Nat => some (before a + k : Int)) ∧
    ∀ (i j : Nat) (s s' : Submission) (r r' : Receipt), i ≠ j → subs[i]? = some s → subs[j]? = some s' →
      s.account = a → s'.account = a → c.tasks[i]? = some (.done (.ok r)) →
      c.tasks[j]? = some (.done (.ok r')) → r.nonce ≠ r'.nonce := by
  obtain ⟨points, placed, inseq⟩ := inSequence_run run a
  have ended : ∀ i s r, subs[i]? = some s → c.tasks[i]? = some (.done (.ok r)) →
      (points i).nonce? = some r.nonce := by
    intro i s r hs hi
    have place := placed.place i s _ hs hi
    generalize points i = p at place
    cases place
    rfl
  have signed : ∀ (k : Nat) (b : Broadcast), (broadcastsOf subs a c.state.node)[k]? = some b →
      ∃ s, subs[b.caller]? = some s ∧ s.account = a ∧ s.Signs (before a + k) b.raw := by
    intro k b hb
    obtain ⟨s, hs, signs⟩ := inseq.signs k b hb
    have hmem := (List.mem_filter.1 (List.mem_of_getElem? hb)).2
    rw [accountOf_eq hs] at hmem
    exact ⟨s, hs, by simpa using hmem, signs⟩
  refine ⟨signed, ?_, ?_⟩
  · intro legible
    refine List.ext_getElem (by simp) fun k hk hk' => ?_
    rw [List.length_map] at hk
    obtain ⟨s, hs, own, signs⟩ := signed k _ (List.getElem?_eq_getElem hk)
    simpa using (legible s (List.mem_of_getElem? hs) own).nonceIn? signs
  · intro i j s s' r r' hne hs hs' own own' hi hj same
    exact inseq.distinct i j s s' r.nonce hne hs hs' own own' (ended i s r hs hi)
      (same ▸ ended j s' r' hs' hj)

/-- A node that accepts everything, and reports that it timed out to all tasks but the first. -/
def keepingReplier (subs : List Submission) (before : String → Nat) : Replier (keeping subs before) where
  reply i q bs :=
    match q with
    | .pendingCount a => some (.ok (.int (countOf subs before a bs)), bs)
    | .send raw => some (if i = 0 then .ok (.bytes []) else .error ⟨.timeout, "no reply"⟩, bs ++ [⟨i, raw⟩])
    | .awaitReceipt _ => some (.ok (.record [("blockNumber", .int 1), ("status", .int 1)]), bs)
    | _ => none
  drift := id
  replies {i q bs bs' r} h := by
    cases q with
    | pendingCount a =>
      cases h
      exact .count a
    | send raw =>
      cases h
      exact .accept raw _
    | awaitReceipt txHash =>
      cases h
      exact .receipt txHash _
    | _ => cases h
  drifts _ := rfl

/-- Two submissions after three former transactions of the account. The second one comes while the first
waits for its receipt, and is accepted although the node reports that it timed out. From the bytes of both their nonces
are read. -/
theorem accepted_nonces_consecutive_two : ∃ h c,
    Crowd.Run (keeping [.sample, .sample] fun _ => 3).setting
      ⟨[Submission.sample, .sample].map (Submission.activity {}), {}, []⟩ h c ∧
    (c.state.node.map Broadcast.caller = [0, 1]) ∧
    (∀ s ∈ [Submission.sample, .sample], s.account = "A" → s.signer.Legible s.tx) ∧
    (broadcastsOf [.sample, .sample] "A" c.state.node).map (fun b => Signer.nonceIn? b.raw) = [some 3, some 4] := by
  have run := Crowd.run_play (keepingReplier [.sample, .sample] fun _ => 3).oracle
    (List.replicate 6 (some 0) ++ List.replicate 6 (some 1) ++ [some 0])
    ⟨[Submission.sample, .sample].map (Submission.activity {}), {}, []⟩
  refine ⟨_, _, run, by decide +kernel, legible_samples 2,
    ((accepted_nonces_consecutive run "A").2.1 (legible_samples 2)).trans ?_⟩
  decide +kernel

end ProofRelay.Client
