import ProofRelay.Proofs.Activity.Play
import ProofRelay.Simulation.World

/-!
The users of one chain client share its memory and a node. The memory answers as it does in every run. Of
the node nothing is assumed here: what it may reply, and how it may change, is a parameter. A lock may go
to any of those who wait for it once it is free, so no order of waiting is assumed either.
-/

namespace ProofRelay.Client

open Simulation (Memory)

/-- The questions that the client's memory answers; all others are for the node. -/
def Ask.isForMemory : Ask → Bool
  | .knownChainId | .rememberChainId _ | .lock _ | .unlock _ | .lastNonce _ | .rememberNonce _ _
  | .forgetNonce _ => true
  | _ => false

/-- The questions that take no waiting: a call is encoded here, and the memory is at hand. -/
def Ask.isPrompt : Ask → Bool
  | .prepare _ | .knownChainId | .rememberChainId _ | .unlock _ | .lastNonce _ | .rememberNonce _ _
  | .forgetNonce _ => true
  | _ => false

/-- How the memory answers a question of task `i`, and what it is after that. A lock that is not free
gives no answer yet. -/
inductive Recalls (m : Memory) (i : Nat) : Exchange dialogue → Memory → Prop where
  | knownChainId : Recalls m i ⟨.knownChainId, m.chainId⟩ m
  | rememberChainId (n : Int) : Recalls m i ⟨.rememberChainId n, ()⟩ { m with chainId := some n }
  | lock (a : String) {m' : Memory} (free : m.acquire i a = (true, m')) : Recalls m i ⟨.lock a, ()⟩ m'
  | unlock (a : String) : Recalls m i ⟨.unlock a, ()⟩ (m.release a)
  | lastNonce (a : String) : Recalls m i ⟨.lastNonce a, m.nonces.lookup a⟩ m
  | rememberNonce (a : String) (n : Int) : Recalls m i ⟨.rememberNonce a n, ()⟩ (m.withNonce a n)
  | forgetNonce (a : String) : Recalls m i ⟨.forgetNonce a, ()⟩ (m.withoutNonce a)

/-- The answer of the memory, unless a lock is not free. -/
def remembered? (i : Nat) (q : Ask) (m : Memory) : Option (Reply q × Memory) :=
  match q with
  | .knownChainId => some (m.chainId, m)
  | .rememberChainId n => some ((), { m with chainId := some n })
  | .lock a =>
    match m.acquire i a with
    | (true, m) => some ((), m)
    | (false, _) => none
  | .unlock a => some ((), m.release a)
  | .lastNonce a => some (m.nonces.lookup a, m)
  | .rememberNonce a n => some ((), m.withNonce a n)
  | .forgetNonce a => some ((), m.withoutNonce a)
  | _ => none

theorem recalls_of_remembered? {i : Nat} {q : Ask} {r : Reply q} {m m' : Memory}
    (h : remembered? i q m = some (r, m')) :
    Recalls m i ⟨q, r⟩ m' := by
  cases q with
  | lock a =>
    simp only [remembered?] at h
    split at h
    · rename_i m'' free
      cases h
      exact .lock a free
    · cases h
  | knownChainId | rememberChainId | unlock | lastNonce | rememberNonce | forgetNonce =>
    cases h
    constructor
  | _ => cases h

/-- What a node may reply to task `i`, and how it may change by itself. -/
structure Conduct (ν : Type) where
  Replies : ν → (i : Nat) → Exchange dialogue → ν → Prop
  Drifts : ν → ν → Prop

structure Site (ν : Type) where
  memory : Memory
  node : ν

variable {ν : Type}

/-- An answer comes from the memory or from the node, and leaves the other one as it is. -/
inductive Site.Answers (N : Conduct ν) : Site ν → Nat → Exchange dialogue → Site ν → Prop where
  | memory {m m' : Memory} {n : ν} {i : Nat} {e : Exchange dialogue} (recalls : Recalls m i e m') :
      Answers N ⟨m, n⟩ i e ⟨m', n⟩
  | node {m : Memory} {n n' : ν} {i : Nat} {e : Exchange dialogue} (asked : e.ask.isForMemory = false)
      (reply : N.Replies n i e n') : Answers N ⟨m, n⟩ i e ⟨m, n'⟩

def Conduct.setting (N : Conduct ν) : Setting dialogue (Site ν) where
  prompt := Ask.isPrompt
  Answers := Site.Answers N
  Drifts s s' := s'.memory = s.memory ∧ N.Drifts s.node s'.node

/-- A node that gives one of the replies it may give, if it gives one. -/
structure Replier (N : Conduct ν) where
  reply : (i : Nat) → (q : Ask) → ν → Option (Reply q × ν)
  drift : ν → ν
  replies : ∀ {i : Nat} {q : Ask} {n n' : ν} {r : Reply q}, reply i q n = some (r, n') → N.Replies n i ⟨q, r⟩ n'
  drifts : ∀ n, N.Drifts n (drift n)

namespace Replier

variable {N : Conduct ν} (R : Replier N)

def answer (i : Nat) (q : Ask) (w : Site ν) : Option (Reply q × Site ν) :=
  if q.isForMemory then (remembered? i q w.memory).map fun (r, m) => (r, ⟨m, w.node⟩)
  else (R.reply i q w.node).map fun (r, n) => (r, ⟨w.memory, n⟩)

theorem answers_of_answer {i : Nat} {q : Ask} {w w' : Site ν} {r : Reply q}
    (h : R.answer i q w = some (r, w')) : Site.Answers N w i ⟨q, r⟩ w' := by
  rw [answer] at h
  split at h
  · obtain ⟨⟨r', m⟩, hm, h⟩ := Option.map_eq_some_iff.1 h
    cases h
    exact .memory (recalls_of_remembered? hm)
  · rename_i asked
    obtain ⟨⟨r', n⟩, hn, h⟩ := Option.map_eq_some_iff.1 h
    cases h
    exact .node (by simpa using asked) (R.replies hn)

/-- Plays with the memory and a node. -/
def oracle : Oracle N.setting where
  answer := R.answer
  drift w := ⟨w.memory, R.drift w.node⟩
  answers := R.answers_of_answer
  drifts w := ⟨rfl, R.drifts w.node⟩

end Replier

/-- What is filed under a key is gone when the key is removed; the rest stays. -/
theorem lookup_without {β : Type} (l : List (String × β)) (a b : String) :
    (l.filter fun p => p.1 != a).lookup b = if b = a then none else l.lookup b := by
  induction l with
  | nil => simp
  | cons p l ih =>
    obtain ⟨k, v⟩ := p
    by_cases hk : k = a
    · subst hk
      simp only [List.filter_cons, bne_self_eq_false, Bool.false_eq_true, if_false, ih]
      by_cases hb : b = k
      · simp only [hb, if_true]
      · simp only [hb, if_false, List.lookup_cons, beq_eq_false_iff_ne.2 hb]
    · simp only [List.filter_cons, bne_iff_ne, ne_eq, hk, not_false_eq_true, if_true, List.lookup_cons, ih]
      by_cases hb : b = k
      · subst hb
        simp only [BEq.rfl, hk, if_false]
      · simp only [beq_eq_false_iff_ne.2 hb]

section Memory

variable (m : Memory) (i : Nat) (a b : String)

@[simp] theorem nonces_withNonce_self (n : Int) : (m.withNonce a n).nonces.lookup a = some n := by
  simp [Memory.withNonce]

@[simp] theorem nonces_withoutNonce_self : (m.withoutNonce a).nonces.lookup a = none :=
  (lookup_without _ _ _).trans (if_pos rfl)

variable {a b} in
theorem nonces_withoutNonce_other (hne : b ≠ a) :
    (m.withoutNonce a).nonces.lookup b = m.nonces.lookup b :=
  (lookup_without _ _ _).trans (if_neg hne)

variable {a b} in
theorem nonces_withNonce_other (hne : b ≠ a) (n : Int) :
    (m.withNonce a n).nonces.lookup b = m.nonces.lookup b := by
  have hba : (b == a) = false := by simpa using hne
  simp only [Memory.withNonce, List.lookup_cons, hba]
  exact nonces_withoutNonce_other m hne

/-- A lock that is taken was free, and has its taker as holder with nobody waiting. -/
theorem acquire_eq_true_iff {m' : Memory} :
    m.acquire i a = (true, m') ↔ m.locks.lookup a = none ∧ m' = m.putLock a ⟨i, []⟩ := by
  unfold Memory.acquire
  cases hl : m.locks.lookup a with
  | none => simp [eq_comm]
  | some l => simp

@[simp] theorem locks_putLock_self (l : Simulation.Lock) : (m.putLock a l).locks.lookup a = some l := by
  simp [Memory.putLock]

variable {a b} in
theorem locks_putLock_other (hne : b ≠ a) (l : Simulation.Lock) :
    (m.putLock a l).locks.lookup b = m.locks.lookup b := by
  have hba : (b == a) = false := by simpa using hne
  simp only [Memory.putLock, List.lookup_cons, hba]
  exact (lookup_without _ _ _).trans (if_neg hne)

@[simp] theorem nonces_release : (m.release a).nonces = m.nonces := by
  unfold Memory.release
  split <;> rfl

variable {a b} in
theorem locks_release_other (hne : b ≠ a) : (m.release a).locks.lookup b = m.locks.lookup b := by
  unfold Memory.release
  split
  · rfl
  · exact (lookup_without _ _ _).trans (if_neg hne)
  · exact locks_putLock_other m hne _

end Memory

end ProofRelay.Client
