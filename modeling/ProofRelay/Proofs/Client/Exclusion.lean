import ProofRelay.Proofs.Client.Submission

/-!
Mutual exclusion of the submissions of one account, in every interleaving and with every node: a
submission is inside only while it holds the lock of its account. What a submission does to the memory
concerns its own account only.
-/

namespace ProofRelay.Client

open Simulation (Memory)

namespace Point

@[simp] theorem isInside_left (r : Except Trouble (Int × Datum)) : (left r).isInside = false := by
  rcases left_cases r with ⟨t, h⟩ | ⟨nonce, sent, txHash, -, h⟩ <;> rw [h] <;> rfl

@[simp] theorem isInside_received (cfg : Config) (nonce : Int) (txHash : String) (r : Except Fault Json) :
    (received cfg nonce txHash r).isInside = false := by
  rcases received_cases cfg nonce txHash r with ⟨f, -, -, h⟩ | ⟨t, h⟩ | ⟨receipt, -, h⟩ <;> rw [h] <;> rfl

end Point

/-- Every submission that is inside holds the lock of its account, and the lock keeps no queue. -/
def Guarded (subs : List Submission) (points : Nat → Point) (m : Memory) : Prop :=
  ∀ i s, subs[i]? = some s → (points i).isInside = true → m.locks.lookup s.account = some ⟨i, []⟩

variable {ν : Type} {N : Conduct ν} {cfg : Config} {subs : List Submission} {points : Nat → Point}

/-- At most one submission of an account is inside. -/
theorem Guarded.unique {m : Memory} (guarded : Guarded subs points m) {i j : Nat} {s s' : Submission}
    (hs : subs[i]? = some s) (hs' : subs[j]? = some s') (same : s.account = s'.account)
    (hi : (points i).isInside = true) (hj : (points j).isInside = true) : i = j := by
  have h := guarded i s hs hi
  rw [same, guarded j s' hs' hj] at h
  simp only [Option.some.injEq, Simulation.Lock.mk.injEq, and_true] at h
  exact h.symm

/-- While a submission is inside, the others of its account are not. -/
theorem Guarded.outside {m : Memory} (guarded : Guarded subs points m) {i j : Nat} {s s' : Submission}
    (hs : subs[i]? = some s) (inside : (points i).isInside = true) (hj : j ≠ i) (hs' : subs[j]? = some s')
    (same : s'.account = s.account) : (points j).isInside = false := by
  by_contra h
  exact hj (guarded.unique hs' hs same (by simpa using h) inside)

/-- With the locks as they were, nobody else comes inside. -/
theorem Guarded.keep {m m' : Memory} (guarded : Guarded subs points m) {i : Nat} {s : Submission} {p : Point}
    (hs : subs[i]? = some s) (locks : m'.locks = m.locks)
    (inside : p.isInside = true → (points i).isInside = true) :
    Guarded subs (Function.update points i p) m' := by
  rw [Guarded, locks]
  exact forall_update (P := fun j s q => q.isInside = true → m.locks.lookup s.account = some ⟨j, []⟩) hs
    (fun hp => guarded i s hs (inside hp)) fun j s' _ hs' => guarded j s' hs'

theorem Guarded.act {w w' : Site ν} (guarded : Guarded subs points w.memory) {i : Nat} {s : Submission}
    {e : Exchange dialogue} {p : Point} (hs : subs[i]? = some s)
    (acts : Acts N cfg s i (points i) w e p w') :
    Guarded subs (Function.update points i p) w'.memory := by
  generalize hp : points i = p₀ at acts
  cases acts with
  | @lock m n free =>
    refine forall_update (P := fun j s' q => q.isInside = true →
      (m.putLock s.account ⟨i, []⟩).locks.lookup s'.account = some ⟨j, []⟩) hs ?_ ?_
    · exact fun _ => locks_putLock_self _ _ _
    · intro j s' _ hs' hj
      have held : m.locks.lookup s'.account = some ⟨j, []⟩ := guarded j s' hs' hj
      have other : s'.account ≠ s.account := by
        intro same
        rw [same, free] at held
        cases held
      exact (locks_putLock_other _ other _).trans held
  | @unlock m n result =>
    have inside : (points i).isInside = true := by rw [hp]; rfl
    refine forall_update (P := fun j s' q => q.isInside = true →
      (m.release s.account).locks.lookup s'.account = some ⟨j, []⟩) hs ?_ ?_
    · simp
    · intro j s' hji hs' hj
      have other : s'.account ≠ s.account := fun same =>
        hji (guarded.unique hs' hs same hj inside)
      exact (locks_release_other _ other).trans (guarded j s' hs' hj)
  | count | retrieve | send | record | forget =>
    exact guarded.keep hs rfl fun _ => by rw [hp]; rfl
  | receive => exact guarded.keep hs rfl (by simp)
  | lose => exact guarded.keep hs rfl (by simp [Point.isInside])

/-- A submission leaves what is remembered of other accounts as it is. -/
theorem Acts.nonces_other {w w' : Site ν} {i : Nat} {s : Submission} {e : Exchange dialogue} {p p' : Point}
    (acts : Acts N cfg s i p w e p' w') {a : String} (other : a ≠ s.account) :
    w'.memory.nonces.lookup a = w.memory.nonces.lookup a := by
  cases acts with
  | record nonce sent => exact nonces_withNonce_other _ other nonce
  | forget f => exact nonces_withoutNonce_other _ other
  | lose t => exact nonces_withoutNonce_other _ other
  | unlock result => simp only [nonces_release]
  | lock | count | retrieve | send | receive => rfl

theorem guarded_start (m : Memory) : Guarded subs (startPoints subs) m := by
  intro i s hs hi
  simp only [startPoints, hs, Point.start] at hi
  split at hi <;> cases hi

end ProofRelay.Client
