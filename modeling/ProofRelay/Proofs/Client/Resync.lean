import ProofRelay.Proofs.Client.NonceOrder

/-!
Nonces after a receipt that did not come. The submission that waited for it forgets what the client
remembers of the account, without the account's lock. The next one that fetches a count signs with that
count, unless another one was just sending: if the node takes what that one sends, its nonce is remembered
after all, and the next nonce goes past it.
-/

namespace ProofRelay.Client

open Simulation (Memory)

/-- What is remembered of an account after an exchange, if it was `last` before. -/
def recollect (a : String) (last : Option Int) : Exchange dialogue → Option Int
  | ⟨.rememberNonce b n, _⟩ => if b = a then some n else last
  | ⟨.forgetNonce b, _⟩ => if b = a then none else last
  | _ => last

/-- What is remembered of an account after a history, if it was nothing before. -/
def recollection (a : String) (h : History dialogue) : Option Int :=
  h.foldl (fun last e => recollect a last e.2) none

/-- The count of an account that an exchange fetches. -/
def fetched? (a : String) : Exchange dialogue → Option Int
  | ⟨.pendingCount b, .ok v⟩ => if b = a then (Json.toInt v).toOption else none
  | _ => none

/-- What is left of a submission once it has chosen a nonce: it sends the raw bytes that it has signed with
the nonce, or it gives the lock back because the signer refused. -/
def SignsWith (s : Submission) (nonce : Int) : Activity dialogue (Except Trouble Receipt) → Prop
  | .ask (.send raw) _ => s.Signs nonce raw
  | .ask (.unlock a) _ => a = s.account ∧ ∃ f, s.signer.sign (s.tx.given nonce) = .error f
  | _ => False

section Recollection

variable {ν α : Type} {N : Conduct ν} (a : String)

theorem lookup_answer {w w' : Site ν} {i : Nat} {e : Exchange dialogue} (answer : Site.Answers N w i e w') :
    w'.memory.nonces.lookup a = recollect a (w.memory.nonces.lookup a) e := by
  cases answer with
  | node asked _ =>
    obtain ⟨q, r⟩ := e
    cases q <;> first | rfl | cases asked
  | @memory m m' n i e recalls =>
    cases recalls with
    | knownChainId | rememberChainId | lastNonce => rfl
    | lock b free =>
      obtain ⟨-, rfl⟩ := (acquire_eq_true_iff _ _ _).1 free
      rfl
    | unlock b => simp only [nonces_release, recollect]
    | rememberNonce b n =>
      by_cases same : b = a
      · subst same
        simp only [nonces_withNonce_self, recollect, if_true]
      · simp only [nonces_withNonce_other m (Ne.symm same), recollect, same, if_false]
    | forgetNonce b =>
      by_cases same : b = a
      · subst same
        simp only [nonces_withoutNonce_self, recollect, if_true]
      · simp only [nonces_withoutNonce_other m (Ne.symm same), recollect, same, if_false]

theorem lookup_run {c c' : Crowd dialogue (Site ν) α} {h : History dialogue} (run : Crowd.Run N.setting c h c') :
    c'.state.memory.nonces.lookup a =
      h.foldl (fun last e => recollect a last e.2) (c.state.memory.nonces.lookup a) := by
  induction run with
  | nil => rfl
  | drift _ last ih => rw [last.1, ih]
  | step _ last ih =>
    cases last with
    | reply task others answer =>
      rw [List.foldl_append, ← ih]
      exact lookup_answer a answer

end Recollection

section Ends

variable {ν : Type} {N : Conduct ν} {cfg : Config} {subs : List Submission} {points : Nat → Point}
  {w w' : Site ν} {i : Nat} {s : Submission} {e : Exchange dialogue} {p : Point}

/-- A submission that leaves its account's lock does not miss a receipt. -/
def Point.Waitless : Point → Prop
  | .leaving (.error t) => isMissingReceipt t = false
  | _ => True

theorem waitless_start : ∀ j s', subs[j]? = some s' → (startPoints subs j).Waitless := by
  intro j s' hs'
  simp only [startPoints, hs', Point.start]
  split <;> trivial

theorem waitless_act (inv : ∀ j s', subs[j]? = some s' → (points j).Waitless) (hs : subs[i]? = some s)
    (acts : Acts N cfg s i (points i) w e p w') :
    ∀ j s', subs[j]? = some s' → (Function.update points i p j).Waitless := by
  refine forall_update (P := fun _ _ q => q.Waitless) hs ?_ fun j s' _ => inv j s'
  generalize points i = p₀ at acts
  cases acts with
  | @count m n n' r reply =>
    rw [Point.counted]
    split
    · trivial
    · rw [Point.Waitless, Point.countTrouble]
      split <;> rfl
  | @retrieve m n pending =>
    rw [Point.chosen]
    split
    · trivial
    · rfl
  | @send m n n' pending nonce raw r reply =>
    rcases Point.answered_cases nonce r with ⟨sent, -, h⟩ | ⟨f, -, -, h⟩ | ⟨f, -, h⟩ <;> rw [h] <;> trivial
  | forget f => rfl
  | unlock result =>
    rcases Point.left_cases result with ⟨t, h⟩ | ⟨nonce, sent, txHash, -, h⟩ <;> rw [h] <;> trivial
  | @receive m n n' nonce txHash r reply =>
    rcases Point.received_cases cfg nonce txHash r with ⟨f, -, -, h⟩ | ⟨t, h⟩ | ⟨receipt, -, h⟩ <;> rw [h] <;> trivial
  | lock | record | lose => trivial

/-- The act with which a submission ends for want of a receipt forgets what is remembered of its account. -/
theorem Acts.eq_forget {t : Trouble} (acts : Acts N cfg s i (points i) w e (.ended (.error t)) w')
    (waitless : (points i).Waitless) (missing : isMissingReceipt t = true) :
    e = ⟨.forgetNonce s.account, ()⟩ := by
  generalize points i = p₀ at acts waitless
  generalize hp : Point.ended (.error t) = p at acts
  cases acts with
  | lose t => rfl
  | lock | record | forget => cases hp
  | @count m n n' r reply =>
    rcases Point.counted_cases r with ⟨_, _, -, -, h⟩ | ⟨_, h⟩ <;> rw [h] at hp <;> cases hp
  | @retrieve m n pending =>
    rw [Point.chosen] at hp
    split at hp <;> cases hp
  | @send m n n' pending nonce raw r reply =>
    rcases Point.answered_cases nonce r with ⟨sent, -, h⟩ | ⟨f, -, -, h⟩ | ⟨f, -, h⟩ <;> rw [h] at hp <;> cases hp
  | unlock result =>
    rcases result with t' | ⟨nonce, sent⟩
    · obtain rfl := Except.error.inj (Point.ended.inj hp)
      cases missing.symm.trans waitless
    · rw [Point.left] at hp
      split at hp
      · cases hp
      · obtain rfl := Except.error.inj (Point.ended.inj hp)
        cases missing
  | @receive m n n' nonce txHash r reply =>
    rw [Point.received] at hp
    generalize receiptFrom cfg txHash nonce r = found at hp
    rcases found with t' | receipt
    · by_cases late : isMissingReceipt t' = true
      · simp only [if_pos late] at hp
        cases hp
      · simp only [if_neg late] at hp
        obtain rfl := Except.error.inj (Point.ended.inj hp)
        exact absurd missing late
    · cases hp

end Ends

section Stretch

variable {ν : Type} {N : Conduct ν} {cfg : Config} {subs : List Submission} {a : String}
  {start points : Nat → Point} {g h : History dialogue} {m : Memory} {w w' : Site ν} {i : Nat} {s : Submission}
  {e : Exchange dialogue} {p : Point} {n : Int}

/-- A submission of the account was sending with this nonce when a stretch began, and in the stretch the node
took what it sent. -/
def Overtakes (subs : List Submission) (a : String) (start : Nat → Point) (h : History dialogue) (n : Int) : Prop :=
  ∃ k s pending raw reply, subs[k]? = some s ∧ s.account = a ∧ start k = .sending pending n raw ∧
    (k, ⟨.send raw, .ok reply⟩) ∈ h

theorem Overtakes.append (passed : Overtakes subs a start g n) (h : History dialogue) :
    Overtakes subs a start (g ++ h) n := by
  obtain ⟨k, s, pending, raw, reply, hs, own, at_, took⟩ := passed
  exact ⟨k, s, pending, raw, reply, hs, own, at_, List.mem_append_left _ took⟩

/-- Where a submission may be if it has fetched no count in a stretch. -/
def Point.Unfetched (p : Point) (Passed : Int → Prop) (start : Point) : Prop :=
  match p with
  | .recalling _ => False
  | .sending pending nonce raw => start = .sending pending nonce raw
  | .recording nonce _ => Passed nonce
  | _ => True

theorem Point.Unfetched.mono {Passed Passed' : Int → Prop} {first : Point} (unfetched : p.Unfetched Passed first)
    (le : ∀ n, Passed n → Passed' n) : p.Unfetched Passed' first := by
  cases p with
  | recording nonce sent => exact le nonce unfetched
  | recalling | sending => exact unfetched
  | _ => trivial

/-- What holds along a stretch in which no count of the account is fetched, and which began with nothing
remembered of it. -/
structure Unfetched (subs : List Submission) (a : String) (start : Nat → Point) (h : History dialogue)
    (points : Nat → Point) (m : Memory) : Prop where
  place : ∀ k s, subs[k]? = some s → s.account = a → (points k).Unfetched (Overtakes subs a start h) (start k)
  remembered : ∀ n, m.nonces.lookup a = some n → Overtakes subs a start h n

theorem Unfetched.act_place (inv : Unfetched subs a start h points w.memory) (hs : subs[i]? = some s)
    (acts : Acts N cfg s i (points i) w e p w') (quiet : fetched? a e = none) (own : s.account = a) :
    p.Unfetched (Overtakes subs a start (h ++ [(i, e)])) (start i) := by
  have place := inv.place i s hs own
  generalize points i = p₀ at acts place
  cases acts with
  | @count m n n' r reply =>
    rcases Point.counted_cases r with ⟨v, pending, rfl, hpending, -⟩ | ⟨t, h⟩
    · rw [fetched?, if_pos own, hpending] at quiet
      cases quiet
    · rw [h]
      trivial
  | retrieve pending => exact False.elim place
  | @send m n n' pending nonce raw r reply =>
    rcases Point.answered_cases nonce r with ⟨sent, rfl, h⟩ | ⟨f, -, -, h⟩ | ⟨f, -, h⟩
    · rw [h]
      exact ⟨i, s, pending, raw, sent, hs, own, place, by simp⟩
    · rw [h]
      trivial
    · rw [h]
      trivial
  | unlock result =>
    rcases Point.left_cases result with ⟨t, h⟩ | ⟨nonce, sent, txHash, -, h⟩ <;> rw [h] <;> trivial
  | @receive m n n' nonce txHash r reply =>
    rcases Point.received_cases cfg nonce txHash r with ⟨f, -, -, h⟩ | ⟨t, h⟩ | ⟨receipt, -, h⟩ <;> rw [h] <;> trivial
  | lock | record | forget | lose => trivial

theorem Unfetched.act_remembered (inv : Unfetched subs a start h points w.memory) (hs : subs[i]? = some s)
    (acts : Acts N cfg s i (points i) w e p w') (own : s.account = a) (hn : w'.memory.nonces.lookup a = some n) :
    Overtakes subs a start h n := by
  have place := inv.place i s hs own
  have remembered := inv.remembered
  generalize points i = p₀ at acts place
  cases acts with
  | record nonce sent =>
    rw [own, nonces_withNonce_self, Option.some.injEq] at hn
    exact hn ▸ place
  | forget f =>
    rw [own, nonces_withoutNonce_self] at hn
    cases hn
  | lose t =>
    rw [own, nonces_withoutNonce_self] at hn
    cases hn
  | unlock result =>
    rw [nonces_release] at hn
    exact remembered n hn
  | lock | count | retrieve | send | receive => exact remembered n hn

theorem Unfetched.act (inv : Unfetched subs a start h points w.memory) (hs : subs[i]? = some s)
    (acts : Acts N cfg s i (points i) w e p w') (quiet : fetched? a e = none) :
    Unfetched subs a start (h ++ [(i, e)]) (Function.update points i p) w'.memory := by
  have grow : ∀ n, Overtakes subs a start h n → Overtakes subs a start (h ++ [(i, e)]) n :=
    fun n passed => passed.append _
  refine ⟨?_, ?_⟩
  · refine forall_update
      (P := fun k s q => s.account = a → q.Unfetched (Overtakes subs a start (h ++ [(i, e)])) (start k))
      hs (inv.act_place hs acts quiet) ?_
    intro j s' _ hs' own
    exact (inv.place j s' hs' own).mono grow
  · intro n hn
    by_cases own : s.account = a
    · exact grow n (inv.act_remembered hs acts own hn)
    · rw [acts.nonces_other (Ne.symm own)] at hn
      exact grow n (inv.remembered n hn)

/-- A submission that rests has nothing to recall and nothing to record. -/
theorem Point.unfetched_of_isAtRest {Passed : Int → Prop} (rests : p.isAtRest = true) : p.Unfetched Passed p := by
  cases p <;> trivial

/-- When a submission ends for want of a receipt, all others rest, and nothing is remembered of its account. -/
theorem placed_of_late {c c₁ : Crowd dialogue (Site ν) (Except Trouble Receipt)} {t : Trouble}
    (before : Crowd.Run N.setting ⟨subs.map (Submission.activity cfg), w⟩ g c) (own : accountOf subs i = some a)
    (last : Crowd.Step N.setting c i e c₁) (ended : c₁.tasks[i]? = some (.done (.error t)))
    (late : isMissingReceipt t = true) :
    ∃ start, Placed cfg subs start c₁.tasks ∧ Trails subs (g ++ [(i, e)]) start ∧
      (∀ j s, subs[j]? = some s → (start j).isAtRest = true) ∧ c₁.state.memory.nonces.lookup a = none := by
  obtain ⟨points, placed, waitless, trails⟩ := (placed_start subs).invariant before
    (I := fun h points _ => (∀ j s, subs[j]? = some s → (points j).Waitless) ∧ Trails subs h points)
    ⟨waitless_start, trails_start⟩
    (fun _ _ _ _ _ _ _ _ hs acts _ inv => ⟨waitless_act inv.1 hs acts, inv.2.act hs acts⟩)
    fun _ _ _ _ _ _ inv => inv
  obtain ⟨s, p, hs, acts, placed₁, others⟩ := placed.step last
  obtain rfl : s.account = a := Option.some.inj ((accountOf_eq hs).symm.trans own)
  obtain rfl : p = .ended (.error t) := by
    have place := placed₁.place i s _ hs ended
    rw [Function.update_self] at place
    cases place
    rfl
  refine ⟨_, placed₁, trails.act hs acts, ?_, ?_⟩
  · exact forall_update (P := fun _ _ q => q.isAtRest = true) hs rfl others
  · rw [lookup_answer s.account acts.moves.2, acts.eq_forget (waitless i s hs) late]
    exact if_pos rfl

theorem unfetched_of_run {c₁ c₂ : Crowd dialogue (Site ν) (Except Trouble Receipt)}
    (placed : Placed cfg subs start c₁.tasks) (rest : ∀ j s, subs[j]? = some s → (start j).isAtRest = true)
    (forgotten : c₁.state.memory.nonces.lookup a = none) (after : Crowd.Run N.setting c₁ h c₂)
    (quiet : ∀ x ∈ h, fetched? a x.2 = none) :
    ∃ points, Placed cfg subs points c₂.tasks ∧ Unfetched subs a start h points c₂.state.memory := by
  obtain ⟨points, placed', unfetched⟩ := placed.invariant after
    (I := fun h' points w => (∀ x ∈ h', fetched? a x.2 = none) → Unfetched subs a start h' points w.memory)
    (fun _ => ⟨fun k s hs _ => Point.unfetched_of_isAtRest (rest k s hs), by simp [forgotten]⟩)
    (fun h' points i s e p w w' hs acts _ inv quiet' => by
      refine (inv fun x hx => quiet' x (List.mem_append_left _ hx)).act hs acts ?_
      exact quiet' (i, e) (by simp))
    fun _ _ _ _ _ _ inv => inv
  exact ⟨points, placed', unfetched quiet⟩

end Stretch

section Open

variable {cfg : Config} {s : Submission} {b : Activity dialogue (Except Trouble Receipt)}

/-- Whoever is at the point of sending has that question open. -/
theorem At.eq_send {pending nonce : Int} {raw : Bytes} (place : At cfg s (.sending pending nonce raw) b) :
    ∃ k, b = .ask (.send raw) k := by
  cases place with
  | @ask _ q k next moves rest =>
    obtain ⟨r⟩ := nonempty_reply q
    have move := moves r
    generalize next r = p at move
    cases move
    exact ⟨k, rfl⟩

theorem At.eq_unlock {result : Except Trouble (Int × Datum)} (place : At cfg s (.leaving result) b) :
    ∃ k, b = .ask (.unlock s.account) k := by
  cases place with
  | @ask _ q k next moves rest =>
    obtain ⟨r⟩ := nonempty_reply q
    have move := moves r
    generalize next r = p at move
    cases move
    exact ⟨k, rfl⟩

/-- Once a nonce is chosen, the transaction is signed with it. -/
theorem At.signsWith {pending : Int} {last : Option Int} (place : At cfg s (.chosen s pending last) b) :
    SignsWith s (nonceAfter pending last) b := by
  rw [Point.chosen] at place
  cases hraw : signed s.tx s.signer (nonceAfter pending last) with
  | ok raw =>
    rw [hraw] at place
    obtain ⟨k, rfl⟩ := place.eq_send
    exact hraw
  | error f =>
    rw [hraw] at place
    obtain ⟨k, rfl⟩ := place.eq_unlock
    exact ⟨rfl, f, hraw⟩

end Open

theorem nonceAfter_eq_iff (pending : Int) (last : Option Int) :
    nonceAfter pending last = pending ↔ ∀ n, last = some n → n < pending := by
  cases last with
  | none => simp [nonceAfter]
  | some n =>
    simp only [nonceAfter, Option.some.injEq, forall_eq']
    omega

/-- A submission that fetches a count of its account is to recall the last nonce next. -/
theorem Acts.fetches {ν : Type} {N : Conduct ν} {cfg : Config} {s : Submission} {a : String} {j : Nat}
    {p p' : Point} {w w' : Site ν} {e : Exchange dialogue} {pending : Int} (acts : Acts N cfg s j p w e p' w')
    (count : fetched? a e = some pending) :
    s.account = a ∧ p' = .recalling pending ∧ w'.memory = w.memory := by
  cases acts with
  | @count m n n' r reply =>
    rcases r with f | v
    · cases count
    · rw [fetched?] at count
      split at count
      · rename_i own
        rcases Point.counted_cases (.ok v) with ⟨v', pending', hv, hpending, h⟩ | ⟨t, h⟩
        · obtain rfl := Except.ok.inj hv
          rw [hpending] at count
          obtain rfl := Option.some.inj count
          exact ⟨own, h, rfl⟩
        · cases hv : Json.toInt v with
          | error f =>
            rw [hv] at count
            cases count
          | ok n =>
            have hr : (Except.ok v).bind Json.toInt = .ok n := hv
            rw [Point.counted, hr] at h
            cases h
      · cases count
  | _ => cases count

theorem Acts.eq_chosen {ν : Type} {N : Conduct ν} {cfg : Config} {s : Submission} {j : Nat} {pending : Int}
    {p : Point} {w w' : Site ν} {e : Exchange dialogue} (acts : Acts N cfg s j (.recalling pending) w e p w') :
    p = .chosen s pending (w.memory.nonces.lookup s.account) := by
  cases acts
  rfl

/-- After the fetch of a count nobody else goes on before the submission has signed. -/
theorem signsWith_of_fetch {ν : Type} {N : Conduct ν} {cfg : Config} {subs : List Submission}
    {points : Nat → Point} {a : String} {j k : Nat} {e e' : Exchange dialogue} {pending : Int}
    {c c₁ c₂ : Crowd dialogue (Site ν) (Except Trouble Receipt)} (placed : Placed cfg subs points c.tasks)
    (fetch : Crowd.Step N.setting c j e c₁) (count : fetched? a e = some pending)
    (next : Crowd.Run N.setting c₁ [(k, e')] c₂) :
    ∃ s task, subs[j]? = some s ∧ s.account = a ∧ c₂.tasks[j]? = some task ∧
      SignsWith s (nonceAfter pending (c.state.memory.nonces.lookup a)) task := by
  obtain ⟨s, p, hs, acts, placed₁, -⟩ := placed.step fetch
  obtain ⟨rfl, rfl, same⟩ := acts.fetches count
  obtain ⟨d, d', wait, step, rest⟩ := Crowd.Run.event (h := []) next
  rw [← wait.tasks_eq] at placed₁
  obtain ⟨s', p', hs', acts', placed₂, others⟩ := placed₁.step step
  -- Whoever has fetched does not rest, so it is the one to go on.
  obtain rfl : k = j := by
    by_contra hne
    have rests := others j s (Ne.symm hne) hs
    rw [Function.update_self] at rests
    cases rests
  obtain rfl : s = s' := Option.some.inj (hs.symm.trans hs')
  have recalled : d.state.memory.nonces.lookup s.account = c.state.memory.nonces.lookup s.account := by
    rw [← same]
    exact lookup_run s.account wait
  rw [Function.update_self] at acts'
  obtain rfl := acts'.eq_chosen
  have hlt : k < d'.tasks.length := placed₂.length_eq ▸ (List.getElem?_eq_some_iff.1 hs).1
  have task := List.getElem?_eq_getElem hlt
  have place := placed₂.place k s _ hs task
  rw [Function.update_self, recalled] at place
  exact ⟨s, _, hs, rfl, by rw [rest.tasks_eq, task], place.signsWith⟩

/-- A submission of an account ends for want of a receipt, which leaves the crowd `late`. In the history `h`
after that nobody fetches a count of the account, then task `j` fetches one, and one more exchange leads to
the crowd `signing`. -/
inductive Resync {ν : Type} (N : Conduct ν) (cfg : Config) (subs : List Submission) (a : String)
    (late : Crowd dialogue (Site ν) (Except Trouble Receipt)) (h : History dialogue) (j : Nat) (pending : Int)
    (signing : Crowd dialogue (Site ν) (Except Trouble Receipt)) : Prop where
  | intro {w : Site ν} {g : History dialogue} {i k : Nat} {t : Trouble} {e e₁ e₂ : Exchange dialogue}
      {waiting ready fetched : Crowd dialogue (Site ν) (Except Trouble Receipt)}
      (before : Crowd.Run N.setting ⟨subs.map (Submission.activity cfg), w⟩ g waiting)
      (own : accountOf subs i = some a) (last : Crowd.Step N.setting waiting i e late)
      (ended : late.tasks[i]? = some (.done (.error t))) (missing : isMissingReceipt t = true)
      (after : Crowd.Run N.setting late h ready) (quiet : ∀ x ∈ h, fetched? a x.2 = none)
      (fetch : Crowd.Step N.setting ready j e₁ fetched) (count : fetched? a e₁ = some pending)
      (next : Crowd.Run N.setting fetched [(k, e₂)] signing) : Resync N cfg subs a late h j pending signing

section Resync

variable {ν : Type} {N : Conduct ν} {cfg : Config} {subs : List Submission} {a : String}
  {late signing : Crowd dialogue (Site ν) (Except Trouble Receipt)} {h : History dialogue} {j : Nat} {pending : Int}

theorem Resync.signsWith (resync : Resync N cfg subs a late h j pending signing) :
    ∃ s task, subs[j]? = some s ∧ s.account = a ∧ signing.tasks[j]? = some task ∧
      SignsWith s (nonceAfter pending (recollection a h)) task := by
  obtain ⟨before, own, last, ended, missing, after, quiet, fetch, count, next⟩ := resync
  obtain ⟨start, placed, -, rest, forgotten⟩ := placed_of_late before own last ended missing
  obtain ⟨points, placed', -⟩ := unfetched_of_run placed rest forgotten after quiet
  have recalled := lookup_run a after
  rw [forgotten, ← recollection] at recalled
  exact recalled ▸ signsWith_of_fetch placed' fetch count next

/-- Whatever is remembered by then was being sent when the receipt failed to come. -/
theorem Resync.overtaken (resync : Resync N cfg subs a late h j pending signing) {n : Int}
    (hn : recollection a h = some n) : ∃ l s raw rest reply, subs[l]? = some s ∧ s.account = a ∧
      late.tasks[l]? = some (.ask (.send raw) rest) ∧ s.Signs n raw ∧ (l, ⟨.send raw, .ok reply⟩) ∈ h := by
  obtain ⟨before, own, last, ended, missing, after, quiet, -, -, -⟩ := resync
  obtain ⟨start, placed, trails, rest, forgotten⟩ := placed_of_late before own last ended missing
  obtain ⟨points, -, unfetched⟩ := unfetched_of_run placed rest forgotten after quiet
  have recalled := lookup_run a after
  rw [forgotten, ← recollection] at recalled
  obtain ⟨l, s, pending', raw, reply, hs, hown, at_, took⟩ := unfetched.remembered n (recalled.trans hn)
  have trail := trails l s hs
  rw [at_] at trail
  obtain ⟨_, _, -, -, -, signs⟩ := trail
  have hlt : l < late.tasks.length := placed.length_eq ▸ (List.getElem?_eq_some_iff.1 hs).1
  have task := List.getElem?_eq_getElem hlt
  have place := placed.place l s _ hs task
  rw [at_] at place
  obtain ⟨rest, hrest⟩ := place.eq_send
  exact ⟨l, s, raw, rest, reply, hs, hown, hrest ▸ task, signs, took⟩

end Resync

/-- After a missing receipt, whoever is the first to fetch a count signs with what follows the count and the
nonce that is remembered by then. That is the count itself just if such a nonce is below it. Only a
submission that was sending when the other one ended can have left one, and only if the node took what it
sent. -/
theorem resync_unless_overtaken {ν : Type} {N : Conduct ν} {cfg : Config} {subs : List Submission} {a : String}
    {late signing : Crowd dialogue (Site ν) (Except Trouble Receipt)} {h : History dialogue} {j : Nat}
    {pending : Int} (resync : Resync N cfg subs a late h j pending signing) :
    (∃ s task, subs[j]? = some s ∧ s.account = a ∧ signing.tasks[j]? = some task ∧
      SignsWith s (nonceAfter pending (recollection a h)) task) ∧
    (nonceAfter pending (recollection a h) = pending ↔ ∀ n, recollection a h = some n → n < pending) ∧
    ∀ n, recollection a h = some n → ∃ l s raw rest reply, subs[l]? = some s ∧ s.account = a ∧
      late.tasks[l]? = some (.ask (.send raw) rest) ∧ s.Signs n raw ∧ (l, ⟨.send raw, .ok reply⟩) ∈ h :=
  ⟨resync.signsWith, nonceAfter_eq_iff pending _, fun _ hn => resync.overtaken hn⟩

/-- A node that counts for each task as it is told, takes everything, and never has a receipt. -/
def lateReplier (counts : Nat → Int) : Replier anyNode where
  reply i q _ :=
    match q with
    | .pendingCount _ => some (.ok (.int (counts i)), ())
    | .send _ => some (.ok (.bytes []), ())
    | .awaitReceipt _ => some (.error ⟨.timeExhausted, ""⟩, ())
    | _ => none
  drift := id
  replies _ := trivial
  drifts _ := trivial

section Plays

variable (counts : Nat → Int) (n : Nat) (early between : List Turn) (j : Nat)

/-- Some submissions of one account, after some turns. -/
def waitingCrowd : Crowd dialogue (Site Unit) (Except Trouble Receipt) :=
  (Crowd.play (lateReplier counts).oracle early
    ⟨(List.replicate n Submission.sample).map (Submission.activity {}), {}, ()⟩).2

/-- After one more turn of the first of them. -/
def lateTurn : History dialogue × Crowd dialogue (Site Unit) (Except Trouble Receipt) :=
  Crowd.turn (lateReplier counts).oracle (waitingCrowd counts n early) (some 0)

def readyPlay : History dialogue × Crowd dialogue (Site Unit) (Except Trouble Receipt) :=
  Crowd.play (lateReplier counts).oracle between (lateTurn counts n early).2

def fetchTurn : History dialogue × Crowd dialogue (Site Unit) (Except Trouble Receipt) :=
  Crowd.turn (lateReplier counts).oracle (readyPlay counts n early between).2 (some j)

def signingTurn : History dialogue × Crowd dialogue (Site Unit) (Except Trouble Receipt) :=
  Crowd.turn (lateReplier counts).oracle (fetchTurn counts n early between j).2 (some j)

def isLate : Except Trouble Receipt → Bool
  | .error t => isMissingReceipt t
  | .ok _ => false

theorem resync_of_play {pending : Int} (own : accountOf (List.replicate n .sample) 0 = some "A")
    (last : ((lateTurn counts n early).1.map fun _ => true) = [true])
    (missing : ((lateTurn counts n early).2.result? 0).any isLate = true)
    (quiet : ((readyPlay counts n early between).1.all fun x => (fetched? "A" x.2).isNone) = true)
    (fetch : ((fetchTurn counts n early between j).1.map fun x => fetched? "A" x.2 == some pending) = [true])
    (next : ((signingTurn counts n early between j).1.map fun _ => true) = [true]) :
    Resync anyNode {} (List.replicate n .sample) "A" (lateTurn counts n early).2
      (readyPlay counts n early between).1 j pending (signingTurn counts n early between j).2 := by
  obtain ⟨e, -, -, last⟩ := Crowd.step_turn (P := fun _ => true) last
  obtain ⟨e₁, count, -, fetch⟩ := Crowd.step_turn (P := fun e => fetched? "A" e == some pending) fetch
  obtain ⟨e₂, -, -, next⟩ := Crowd.step_turn (P := fun _ => true) next
  obtain ⟨result, found, late⟩ := (Option.any_eq_true _ _).1 missing
  cases result with
  | ok receipt => cases late
  | error t =>
    refine .intro (Crowd.run_play _ early _) own last (Crowd.eq_done_of_result? found) late
      (Crowd.run_play _ between _) (fun x hx => ?_) fetch (beq_iff_eq.1 count) (Crowd.Run.nil.step next)
    exact Option.isNone_iff_eq_none.1 (List.all_eq_true.1 quiet x hx)

end Plays

/-- With nobody sending when the receipt fails to come, the next submission signs with the count. -/
theorem resync_unless_overtaken_alone : ∃ late h signing,
    Resync anyNode {} [.sample, .sample] "A" late h 1 0 signing ∧
    ∃ task, signing.tasks[1]? = some task ∧ SignsWith .sample 0 task := by
  have resync : Resync anyNode {} [.sample, .sample] "A" _ _ 1 0 _ := resync_of_play (fun _ => 0) 2
    (List.replicate 7 (some 0)) [some 1] 1 rfl (by decide +kernel) (by decide +kernel) (by decide +kernel)
    (by decide +kernel) (by decide +kernel)
  have forgotten : recollection "A" (readyPlay (fun _ => 0) 2 (List.replicate 7 (some 0)) [some 1]).1 = none := by
    decide +kernel
  obtain ⟨s, task, hs, -, found, signs⟩ := (resync_unless_overtaken resync).1
  obtain rfl := Option.some.inj hs
  rw [forgotten] at signs
  exact ⟨_, _, _, resync, task, found, signs⟩

/-- Nobody signs with two what is signed with zero. -/
theorem signsWith_two_ne_zero {task : Activity dialogue (Except Trouble Receipt)}
    (signs : SignsWith .sample 2 task) : ¬ SignsWith .sample 0 task := by
  intro signs'
  unfold SignsWith at signs signs'
  split at signs
  · have legible := legible_samples 1 .sample (List.mem_singleton_self _) rfl
    -- The nonce that is read from the bytes is one of the two.
    cases (legible.nonceIn? signs).symm.trans (legible.nonceIn? signs')
  · obtain ⟨-, f, refused⟩ := signs
    have accepted : (Submission.sample.signer.sign (Submission.sample.tx.given 2)).toOption.isSome = true := by
      decide +kernel
    rw [refused] at accepted
    cases accepted
  · exact signs

/-- A second submission is sending when the receipt of the first fails to come. The node takes what it sends,
and then drops both. The third is told to begin at zero, and signs with two. -/
theorem resync_overtaken : ∃ late h signing,
    Resync anyNode {} [.sample, .sample, .sample] "A" late h 2 0 signing ∧
    ∃ task, signing.tasks[2]? = some task ∧ SignsWith .sample 2 task ∧ ¬ SignsWith .sample 0 task := by
  have resync : Resync anyNode {} [.sample, .sample, .sample] "A" _ _ 2 0 _ := resync_of_play
    (fun i => if i = 1 then 1 else 0) 3 (List.replicate 6 (some 0) ++ List.replicate 3 (some 1) ++ [some 0])
    (List.replicate 3 (some 1) ++ [some 2]) 2 rfl (by decide +kernel) (by decide +kernel) (by decide +kernel)
    (by decide +kernel) (by decide +kernel)
  have remembered : recollection "A" (readyPlay (fun i => if i = 1 then 1 else 0) 3
      (List.replicate 6 (some 0) ++ List.replicate 3 (some 1) ++ [some 0])
      (List.replicate 3 (some 1) ++ [some 2])).1 = some 1 := by
    decide +kernel
  obtain ⟨s, task, hs, -, found, signs⟩ := resync.signsWith
  obtain rfl := Option.some.inj hs
  rw [remembered] at signs
  exact ⟨_, _, _, resync, task, found, signs, signsWith_two_ne_zero signs⟩

end ProofRelay.Client
