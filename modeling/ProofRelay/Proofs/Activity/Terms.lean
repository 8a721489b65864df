import ProofRelay.Proofs.Activity.Interleaving
import ProofRelay.Proofs.Activity.Questions

/-!
Activities under terms. Terms say what an activity may ask in the state it sees, and what it may then be
answered. An activity meets them if on every path it asks nothing else, and they tell what it comes to.
Activities side by side each see a part of what they share; if no answer to one of them changes what
another one sees, each goes its way as the terms alone tell it.
-/

namespace ProofRelay

/-- What may be asked and answered in states of some kind. -/
structure Terms (D : Dialogue) (ω : Type) where
  May : ω → D.Ask → Prop
  Answers : ω → Exchange D → ω → Prop

/-- Exchanges that lead from one state to another. -/
inductive Terms.Leads {D : Dialogue} {ω : Type} (T : Terms D ω) : ω → List (Exchange D) → ω → Prop where
  | nil (s : ω) : Leads T s [] s
  | cons {s s' s'' : ω} {e : Exchange D} {es : List (Exchange D)} (first : T.Answers s e s')
      (rest : Leads T s' es s'') : Leads T s (e :: es) s''

namespace Terms.Leads

variable {D : Dialogue} {ω : Type} {T : Terms D ω} {s s' s'' : ω} {es fs : List (Exchange D)}

theorem snoc {e : Exchange D} (leads : T.Leads s es s') (last : T.Answers s' e s'') : T.Leads s (es ++ [e]) s'' := by
  induction leads with
  | nil => exact .cons last (.nil _)
  | cons first _ ih => exact .cons first (ih last)

theorem split (leads : T.Leads s (es ++ fs) s'') : ∃ s', T.Leads s es s' ∧ T.Leads s' fs s'' := by
  induction es generalizing s with
  | nil => exact ⟨s, .nil s, leads⟩
  | cons e es ih =>
    cases leads with
    | cons first rest =>
      obtain ⟨s', front, back⟩ := ih rest
      exact ⟨s', .cons first front, back⟩

end Terms.Leads

namespace Activity

variable {D E : Dialogue} {ω α β : Type} {T : Terms D ω} {s s' : ω}

/-- On every path an activity asks only what it may, and at its end a property holds. -/
def Meets (T : Terms D ω) : Activity D α → ω → (α → ω → Prop) → Prop
  | .done x, s, Q => Q x s
  | .ask q k, s, Q => T.May s q ∧ ∀ r s', T.Answers s ⟨q, r⟩ s' → (k r).Meets T s' Q

theorem Meets.mono {a : Activity D α} {Q Q' : α → ω → Prop} (meets : a.Meets T s Q)
    (imp : ∀ x s, Q x s → Q' x s) : a.Meets T s Q' := by
  induction a generalizing s with
  | done x => exact imp x s meets
  | ask q k ih => exact ⟨meets.1, fun r s' answer => ih r (meets.2 r s' answer)⟩

theorem Meets.bind {a : Activity D α} {f : α → Activity D β} {Q : β → ω → Prop}
    (meets : a.Meets T s fun x s' => (f x).Meets T s' Q) : (a >>= f).Meets T s Q := by
  induction a generalizing s with
  | done x => exact meets
  | ask q k ih => exact ⟨meets.1, fun r s' answer => ih r (meets.2 r s' answer)⟩

/-- What is left of an activity after some exchanges meets the terms as it did. -/
theorem Meets.path {a b : Activity D α} {Q : α → ω → Prop} {es : List (Exchange D)} (meets : a.Meets T s Q)
    (path : Path a es b) (leads : T.Leads s es s') : b.Meets T s' Q := by
  induction path generalizing s with
  | nil =>
    cases leads
    exact meets
  | cons _ ih =>
    cases leads with
    | cons first rest => exact ih (meets.2 _ _ first) rest

/-- Where all that may be asked is answered, an activity that meets the terms can come to its end. -/
theorem Meets.exists_path {a : Activity D α} {Q : α → ω → Prop} (meets : a.Meets T s Q)
    (answered : ∀ s q, T.May s q → ∃ r s', T.Answers s ⟨q, r⟩ s') :
    ∃ es x s', Path a es (.done x) ∧ T.Leads s es s' := by
  induction a generalizing s with
  | done x => exact ⟨[], x, s, .nil _, .nil s⟩
  | ask q k ih =>
    obtain ⟨r, s', answer⟩ := answered s q meets.1
    obtain ⟨es, x, s'', path, leads⟩ := ih r (meets.2 r s' answer)
    exact ⟨⟨q, r⟩ :: es, x, s'', .cons path, .cons answer leads⟩

/-- Terms in other surroundings that allow as much and answer no more. -/
structure Carries (e : D.Embedding E) (T : Terms D ω) (U : Terms E ω) : Prop where
  may : ∀ s q, T.May s q → U.May s (e.ask q)
  answers : ∀ s q r s', U.Answers s ⟨e.ask q, r⟩ s' → T.Answers s ⟨q, e.reply q r⟩ s'

theorem Meets.via {e : D.Embedding E} {U : Terms E ω} (carries : Carries e T U) {a : Activity D α}
    {Q : α → ω → Prop} (meets : a.Meets T s Q) : (a.via e).Meets U s Q := by
  induction a generalizing s with
  | done x => exact meets
  | ask q k ih =>
    exact ⟨carries.may s q meets.1, fun r s' answer => ih _ (meets.2 _ s' (carries.answers s q r s' answer))⟩

/-- An activity that asks nothing of a kind meets terms that allow all else. -/
theorem meets_of_never {P : D.Ask → Bool} (free : ∀ s q, P q = false → T.May s q) {a : Activity D α}
    (never : AtMost P 0 a) (s : ω) : a.Meets T s fun _ _ => True := by
  generalize hn : 0 = n at never
  induction never generalizing s with
  | done => trivial
  | other hq _ ih => exact ⟨free s _ hq, fun r s' _ => ih r s' hn⟩
  | one => cases hn

end Activity

namespace Attempt

variable {D E : Dialogue} {ω α β : Type} {T : Terms D ω} {s s' : ω}

/-- On every path an attempt asks only what it may, and its result has a property. -/
def Meets (T : Terms D ω) (a : Attempt D α) (s : ω) (Q : Except Trouble α → ω → Prop) : Prop := a.run.Meets T s Q

theorem Meets.mono {a : Attempt D α} {Q Q' : Except Trouble α → ω → Prop} (meets : a.Meets T s Q)
    (imp : ∀ x s, Q x s → Q' x s) : a.Meets T s Q' :=
  Activity.Meets.mono meets imp

theorem meets_ofExcept {x : Except Trouble α} {Q : Except Trouble α → ω → Prop} (h : Q x s) :
    (ofExcept x : Attempt D α).Meets T s Q := h

theorem meets_query {q : D.Ask} {Q : Except Trouble (D.Reply q) → ω → Prop} (may : T.May s q)
    (h : ∀ r s', T.Answers s ⟨q, r⟩ s' → Q (.ok r) s') : (query q).Meets T s Q :=
  ⟨may, h⟩

theorem Meets.bind {a : Attempt D α} {f : α → Attempt D β} {Q : Except Trouble β → ω → Prop}
    (meets : a.Meets T s fun r s' => match r with
      | .ok x => (f x).Meets T s' Q
      | .error t => Q (.error t) s') : (a >>= f).Meets T s Q := by
  rw [Meets, run_bind]
  refine Activity.Meets.bind (Activity.Meets.mono meets ?_)
  rintro (t | x) s' h
  · exact h
  · exact h

theorem Meets.map {a : Attempt D α} {f : α → β} {Q : Except Trouble β → ω → Prop}
    (meets : a.Meets T s fun r s' => Q (r.map f) s') : (f <$> a).Meets T s Q := by
  refine Activity.Meets.bind (Activity.Meets.mono meets ?_)
  rintro (t | x) s' h
  · exact h
  · exact h

theorem meets_query_bind {q : D.Ask} {f : D.Reply q → Attempt D β} {Q : Except Trouble β → ω → Prop}
    (may : T.May s q) (h : ∀ r s', T.Answers s ⟨q, r⟩ s' → (f r).Meets T s' Q) : (query q >>= f).Meets T s Q :=
  Meets.bind (meets_query may h)

theorem Meets.outcome_bind {a : Attempt D α} {f : Except Trouble α → Attempt D β} {Q : Except Trouble β → ω → Prop}
    (meets : a.Meets T s fun r s' => (f r).Meets T s' Q) : (a.outcome >>= f).Meets T s Q := by
  rw [Meets, run_outcome_bind]
  exact Activity.Meets.bind meets

theorem Meets.via {e : D.Embedding E} {U : Terms E ω} (carries : Activity.Carries e T U) {a : Attempt D α}
    {Q : Except Trouble α → ω → Prop} (meets : a.Meets T s Q) : (a.via e).Meets U s Q :=
  Activity.Meets.via carries meets

/-- On every path an attempt asks only what it may, and a good result has a property. -/
def Gives (T : Terms D ω) (s : ω) (P : α → ω → Prop) (a : Attempt D α) : Prop :=
  a.Meets T s fun r s' => ∀ x, r = .ok x → P x s'

section Gives

variable {P : α → ω → Prop} {P' : β → ω → Prop} {a : Attempt D α}

theorem gives_pure {x : α} (h : P x s) : Gives T s P (pure x : Attempt D α) := by
  rintro _ ⟨⟩
  exact h

theorem gives_error (t : Trouble) : Gives T s P (ofExcept (.error t) : Attempt D α) := nofun

theorem Gives.bind {f : α → Attempt D β} (gives : Gives T s P a) (next : ∀ x s', P x s' → Gives T s' P' (f x)) :
    Gives T s P' (a >>= f) := by
  refine Meets.bind (Meets.mono gives ?_)
  rintro (t | x) s' h
  · exact nofun
  · exact next x s' (h x rfl)

theorem Gives.mono {P' : α → ω → Prop} (gives : Gives T s P a) (imp : ∀ x s, P x s → P' x s) : Gives T s P' a :=
  Meets.mono gives fun _ _ h x hx => imp x _ (h x hx)

theorem Gives.map {f : α → β} (gives : Gives T s (fun x s' => P' (f x) s') a) : Gives T s P' (f <$> a) := by
  refine Meets.map (Meets.mono gives ?_)
  rintro (t | x) s' h _ ⟨⟩
  exact h x rfl

end Gives

/-- Attempts that fail, at most `n` of them, and then the last one. -/
inductive Again (R : ω → Except Trouble α → ω → Prop) : Nat → ω → Except Trouble α → ω → Prop where
  | last {n : Nat} {s s' : ω} {r : Except Trouble α} (attempt : R s r s')
      (ends : n = 0 ∨ ∀ f, r ≠ .error (.failure f)) : Again R n s r s'
  | again {n : Nat} {s s' s'' : ω} {f : Failure} {r : Except Trouble α} (attempt : R s (.error (.failure f)) s')
      (rest : Again R n s' r s'') : Again R (n + 1) s r s''

theorem Meets.again {a : Attempt D α} {P : ω → Prop} {R : ω → Except Trouble α → ω → Prop}
    (each : ∀ s, P s → a.Meets T s fun r s' => P s' ∧ R s r s') (n : Nat) (start : P s) :
    (again a n).Meets T s fun r s' => P s' ∧ Again R n s r s' := by
  induction n generalizing s with
  | zero => exact (each s start).mono fun r s' ⟨kept, attempt⟩ => ⟨kept, .last attempt (.inl rfl)⟩
  | succ n ih =>
    refine Meets.outcome_bind ((each s start).mono ?_)
    rintro ((f | f | e) | x) s' ⟨kept, attempt⟩
    · exact (ih kept).mono fun r s'' ⟨kept, rest⟩ => ⟨kept, .again attempt rest⟩
    · exact ⟨kept, .last attempt (.inr nofun)⟩
    · exact ⟨kept, .last attempt (.inr nofun)⟩
    · exact ⟨kept, .last attempt (.inr nofun)⟩

/-- Attempts with a limit on the failures before the last one: they go on up to the limit, or, if that has no text,
there is one alone, whose failure cannot be told. -/
def Tries (R : ω → Except Trouble α → ω → Prop) (n : Nat) (s : ω) (r : Except Trouble α) (s' : ω) : Prop :=
  if Decimal.fits (1 + n : Nat) then Again R n s r s' else ∃ x, R s x s' ∧ r = curtailed x

theorem Meets.retry {a : Attempt D α} {P : ω → Prop} {R : ω → Except Trouble α → ω → Prop}
    (each : ∀ s, P s → a.Meets T s fun r s' => P s' ∧ R s r s') (n : Nat) (start : P s) :
    (retry (1 + n) a).Meets T s fun r s' => P s' ∧ Tries R n s r s' := by
  rw [retry_eq]
  unfold Tries
  split
  · exact Meets.again each n start
  · exact Meets.outcome_bind ((each s start).mono fun x s' ⟨kept, attempt⟩ => ⟨kept, x, attempt, rfl⟩)

end Attempt

/-- A good result, or a failure, and no other trouble. -/
def EndsWell {α : Type} (P : α → Prop) : Except Trouble α → Prop
  | .ok x => P x
  | .error (.failure _) => True
  | .error _ => False

theorem EndsWell.failure {α : Type} {P : α → Prop} {t : Trouble} (well : EndsWell P (.error t)) :
    ∃ f, t = .failure f := by
  rcases t with f | f | e
  · exact ⟨f, rfl⟩
  · exact well.elim
  · exact well.elim

theorem endsWell_of_failure {α : Type} {P : α → Prop} {t : Trouble} (failure : ∃ f, t = .failure f) :
    EndsWell P (.error t) := by
  obtain ⟨f, rfl⟩ := failure
  trivial

theorem EndsWell.error {α β : Type} {P : α → Prop} {P' : β → Prop} {t : Trouble} (well : EndsWell P (.error t)) :
    EndsWell P' (.error t) :=
  endsWell_of_failure well.failure

/-- Terms under which anything may be asked, and the answers have a property. -/
def Terms.steady {D : Dialogue} (H : Exchange D → Prop) : Terms D Unit where
  May _ _ := True
  Answers _ e _ := H e

section Steady

variable {D E : Dialogue} {α β : Type} {H : Exchange D → Prop}

theorem Terms.leads_steady {es : List (Exchange D)} (all : ∀ e ∈ es, H e) : (Terms.steady H).Leads () es () := by
  induction es with
  | nil => exact .nil _
  | cons e es ih =>
    obtain ⟨first, rest⟩ := List.forall_mem_cons.1 all
    exact .cons first (ih rest)

namespace Attempt

/-- However it is answered, as long as the answers have a property, an attempt comes to a result of a kind. -/
def Ends (H : Exchange D → Prop) (Q : Except Trouble α → Prop) (a : Attempt D α) : Prop :=
  a.Meets (Terms.steady H) () fun r _ => Q r

variable {Q : Except Trouble α → Prop} {P : Except Trouble β → Prop} {a : Attempt D α}

theorem Ends.yields (ends : Ends H Q a) {es : List (Exchange D)} {r : Except Trouble α} (yields : Yields a es r)
    (all : ∀ e ∈ es, H e) : Q r :=
  Activity.Meets.path ends yields (Terms.leads_steady all)

theorem ends_pure {x : α} (h : Q (.ok x)) : Ends H Q (pure x) := h

theorem ends_refused {t : Trouble} {P : α → Prop} (failure : ∃ f, t = .failure f) :
    Ends H (EndsWell P) (ofExcept (.error t) : Attempt D α) :=
  endsWell_of_failure failure

theorem ends_query_bind {q : D.Ask} {f : D.Reply q → Attempt D β} (h : ∀ r, H ⟨q, r⟩ → Ends H P (f r)) :
    Ends H P (query q >>= f) :=
  meets_query_bind trivial fun r _ answer => h r answer

/-- A sequence comes to what its second part comes to, unless the first one ends it. -/
theorem Ends.bind {f : α → Attempt D β} (ends : Ends H Q a) (next : ∀ x, Q (.ok x) → Ends H P (f x))
    (stop : ∀ t, Q (.error t) → P (.error t)) : Ends H P (a >>= f) := by
  refine Meets.bind (Meets.mono ends ?_)
  rintro (t | x) _ h
  · exact stop t h
  · exact next x h

end Attempt

end Steady

/-- Terms that remember all exchanges: what may be asked depends on those before. -/
def Terms.recorded {D : Dialogue} (May : List (Exchange D) → D.Ask → Prop) : Terms D (List (Exchange D)) where
  May := May
  Answers before e after := after = before ++ [e]

theorem Terms.leads_recorded {D : Dialogue} {May : List (Exchange D) → D.Ask → Prop} (before es : List (Exchange D)) :
    (Terms.recorded May).Leads before es (before ++ es) := by
  induction es generalizing before with
  | nil =>
    rw [List.append_nil]
    exact .nil _
  | cons e es ih =>
    rw [List.append_cons]
    exact .cons rfl (ih _)

theorem Attempt.meets_recorded_bind {D : Dialogue} {β : Type} {May : List (Exchange D) → D.Ask → Prop} {q : D.Ask}
    {f : D.Reply q → Attempt D β} {Q : Except Trouble β → List (Exchange D) → Prop} {es : List (Exchange D)}
    (may : May es q) (next : ∀ r, (f r).Meets (.recorded May) (es ++ [⟨q, r⟩]) Q) :
    (query q >>= f).Meets (.recorded May) es Q := by
  refine meets_query_bind may fun r es' answered => ?_
  have answered : es' = es ++ [⟨q, r⟩] := answered
  exact answered ▸ next r

/-- Terms under which anything may be asked, the answers have a property, and all exchanges are remembered. -/
def Terms.kept {D : Dialogue} (H : Exchange D → Prop) : Terms D (List (Exchange D)) where
  May _ _ := True
  Answers before e after := H e ∧ after = before ++ [e]

theorem Terms.leads_kept {D : Dialogue} {H : Exchange D → Prop} {es : List (Exchange D)} (all : ∀ e ∈ es, H e)
    (before : List (Exchange D)) : (Terms.kept H).Leads before es (before ++ es) := by
  induction es generalizing before with
  | nil =>
    rw [List.append_nil]
    exact .nil _
  | cons e es ih =>
    obtain ⟨first, rest⟩ := List.forall_mem_cons.1 all
    rw [List.append_cons]
    exact .cons ⟨first, rfl⟩ (ih rest _)

theorem Attempt.meets_kept_bind {D : Dialogue} {β : Type} {H : Exchange D → Prop} {q : D.Ask}
    {f : D.Reply q → Attempt D β} {Q : Except Trouble β → List (Exchange D) → Prop} {es : List (Exchange D)}
    (next : ∀ r, H ⟨q, r⟩ → (f r).Meets (.kept H) (es ++ [⟨q, r⟩]) Q) : (query q >>= f).Meets (.kept H) es Q := by
  refine meets_query_bind trivial ?_
  rintro r _ ⟨holds, rfl⟩
  exact next r holds

/-- On a path, what is asked is what may be asked then. -/
theorem Activity.Meets.may {D : Dialogue} {ω α : Type} {T : Terms D ω} {a b : Activity D α} {s s' : ω}
    {Q : α → ω → Prop} {es fs : List (Exchange D)} {e : Exchange D} (meets : a.Meets T s Q)
    (path : Path a (es ++ e :: fs) b) (leads : T.Leads s es s') : T.May s' e.ask := by
  induction es generalizing a s with
  | nil =>
    cases leads
    cases path with
    | cons _ => exact meets.1
  | cons e' es ih =>
    cases leads with
    | cons first rest =>
      cases path with
      | cons path => exact ih (meets.2 _ _ first) path rest

/-- The exchanges before an activity are part of those after it. -/
theorem Activity.Meets.grows {D : Dialogue} {α : Type} {May : List (Exchange D) → D.Ask → Prop} {a : Activity D α}
    {Q : α → List (Exchange D) → Prop} {before : List (Exchange D)} (meets : a.Meets (.recorded May) before Q) :
    a.Meets (.recorded May) before fun x after => Q x after ∧ before <+: after := by
  induction a generalizing before with
  | done x => exact ⟨meets, List.prefix_rfl⟩
  | ask q k ih =>
    refine ⟨meets.1, ?_⟩
    rintro r _ rfl
    refine Meets.mono (ih r (meets.2 r _ rfl)) ?_
    rintro x after ⟨holds, more⟩
    exact ⟨holds, (List.prefix_append before _).trans more⟩

namespace Crowd

variable {D : Dialogue} {σ ω α : Type} {S : Setting D σ} {T : Nat → Terms D ω} {view : σ → Nat → ω} {Inv : σ → Prop}

/-- Surroundings in which each task sees a part of its own. An answer to what a task may ask is one that its
terms know, and it changes nothing that the others see. -/
structure Parted (S : Setting D σ) (T : Nat → Terms D ω) (view : σ → Nat → ω) (Inv : σ → Prop) : Prop where
  answer : ∀ {s s' : σ} {i : Nat} {e : Exchange D}, Inv s → (T i).May (view s i) e.ask → S.Answers s i e s' →
    Inv s' ∧ (T i).Answers (view s i) e (view s' i) ∧ ∀ j, j ≠ i → view s' j = view s j
  drift : ∀ {s s' : σ}, Inv s → S.Drifts s s' → Inv s' ∧ ∀ j, view s' j = view s j

/-- All tasks meet their terms. -/
def Meets (T : Nat → Terms D ω) (view : σ → Nat → ω) (Q : Nat → α → ω → Prop) (c : Crowd D σ α) : Prop :=
  ∀ (i : Nat) (a : Activity D α), c.tasks[i]? = some a → a.Meets (T i) (view c.state i) (Q i)

theorem Parted.step (parted : Parted S T view Inv) {Q : Nat → α → ω → Prop} {c c' : Crowd D σ α} {i : Nat}
    {e : Exchange D} (step : Step S c i e c') (inv : Inv c.state) (meets : Meets T view Q c) :
    Inv c'.state ∧ Meets T view Q c' ∧ (T i).Answers (view c.state i) e (view c'.state i) ∧
      ∀ j, j ≠ i → view c'.state j = view c.state j := by
  cases step with
  | @reply q k r s task others answer =>
    obtain ⟨may, next⟩ := meets i _ task
    obtain ⟨inv, own, other⟩ := parted.answer inv may answer
    refine ⟨inv, fun j a ha => ?_, own, other⟩
    by_cases hj : j = i
    · subst hj
      have hlt := (List.getElem?_eq_some_iff.1 task).1
      rw [List.getElem?_set_self hlt, Option.some.injEq] at ha
      exact ha ▸ next r _ own
    · rw [List.getElem?_set_ne (Ne.symm hj)] at ha
      change a.Meets (T j) (view s j) (Q j)
      rw [other j hj]
      exact meets j a ha

/-- Each task of a crowd goes its way as its own terms tell it. -/
theorem Parted.run (parted : Parted S T view Inv) {Q : Nat → α → ω → Prop} {c c' : Crowd D σ α} {h : History D}
    (run : Run S c h c') (inv : Inv c.state) (meets : Meets T view Q c) :
    Inv c'.state ∧ Meets T view Q c' ∧ ∀ i, (T i).Leads (view c.state i) (h.of i) (view c'.state i) := by
  induction run with
  | nil => exact ⟨inv, meets, fun i => .nil _⟩
  | drift _ last ih =>
    obtain ⟨inv, meets, leads⟩ := ih
    obtain ⟨inv, same⟩ := parted.drift inv last
    refine ⟨inv, fun i a ha => ?_, fun i => ?_⟩
    · exact (same i).symm ▸ meets i a ha
    · exact (same i).symm ▸ leads i
  | @step h i e c' c'' _ last ih =>
    obtain ⟨inv, meets, leads⟩ := ih
    obtain ⟨inv, meets, own, other⟩ := parted.step last inv meets
    refine ⟨inv, meets, fun j => ?_⟩
    rw [history_of_append]
    by_cases hj : i = j
    · subst hj
      rw [history_of_self]
      exact (leads i).snoc own
    · rw [history_of_other hj, List.append_nil, other j (Ne.symm hj)]
      exact leads j

end Crowd

end ProofRelay
