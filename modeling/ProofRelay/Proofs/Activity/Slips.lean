import ProofRelay.Proofs.Activity.Terms

/-!
Faults that an exchange brings about. Some replies lead to a fault that nothing guards against, whatever comes before
them. An attempt settles if it ends with such a fault exactly if one of its exchanges brings it about, and with a
result or a failure otherwise.
-/

namespace ProofRelay.Attempt

variable {D : Dialogue} {α β : Type}

/-- One of the exchanges brings a fault about. -/
def Slipped (slip? : Exchange D → Option Fault) (es : List (Exchange D)) (f : Fault) : Prop :=
  ∃ e ∈ es, slip? e = some f

/-- None of the exchanges brings a fault about. -/
def Unslipped (slip? : Exchange D → Option Fault) (es : List (Exchange D)) : Prop := ∀ e ∈ es, slip? e = none

/-- A result is a fault exactly if an exchange brings it about. -/
structure Settles (slip? : Exchange D → Option Fault) (r : Except Trouble α) (es : List (Exchange D)) : Prop where
  slips : ∀ f, r = .error (.fault f) ↔ Slipped slip? es f
  valid : ∀ problems, r ≠ .error (.invalid problems)

variable {slip? : Exchange D → Option Fault} {es : List (Exchange D)} {e : Exchange D} {f : Fault}

theorem unslipped_nil : Unslipped slip? [] := List.forall_mem_nil _

theorem Unslipped.snoc (quiet : Unslipped slip? es) (none : slip? e = none) : Unslipped slip? (es ++ [e]) :=
  List.forall_mem_append.2 ⟨quiet, List.forall_mem_singleton.2 none⟩

theorem Unslipped.not_slipped (quiet : Unslipped slip? es) : ¬ Slipped slip? es f := by
  rintro ⟨e, mem, some⟩
  cases (quiet e mem).symm.trans some

theorem Unslipped.ok (quiet : Unslipped slip? es) (x : α) : Settles slip? (.ok x) es := by
  refine ⟨fun f => ⟨?_, fun slipped => (quiet.not_slipped slipped).elim⟩, ?_⟩
  · intro same
    cases same
  · intro problems same
    cases same

theorem Unslipped.failure (quiet : Unslipped slip? es) {t : Trouble} (failure : ∃ g, t = .failure g) :
    Settles slip? (.error t : Except Trouble α) es := by
  obtain ⟨g, rfl⟩ := failure
  refine ⟨fun f => ⟨?_, fun slipped => (quiet.not_slipped slipped).elim⟩, ?_⟩
  · intro same
    cases same
  · intro problems same
    cases same

/-- The first exchange that brings a fault about ends the work. -/
theorem Unslipped.slip (quiet : Unslipped slip? es) (slip : slip? e = some f) :
    Settles slip? (.error (.fault f) : Except Trouble α) (es ++ [e]) := by
  refine ⟨fun g => ⟨?_, ?_⟩, ?_⟩
  · intro same
    obtain rfl := Trouble.fault.inj (Except.error.inj same)
    exact ⟨e, List.mem_append_right _ (List.mem_singleton_self e), slip⟩
  · rintro ⟨e', mem, some⟩
    rcases List.mem_append.1 mem with mem | mem
    · cases (quiet e' mem).symm.trans some
    · obtain rfl := List.mem_singleton.1 mem
      obtain rfl := Option.some.inj (slip.symm.trans some)
      rfl
  · intro problems same
    cases same

theorem Settles.snoc {r : Except Trouble α} (settles : Settles slip? r es) (none : slip? e = none) :
    Settles slip? r (es ++ [e]) := by
  refine ⟨fun f => (settles.slips f).trans ⟨?_, ?_⟩, settles.valid⟩
  · rintro ⟨e', mem, some⟩
    exact ⟨e', List.mem_append_left _ mem, some⟩
  · rintro ⟨e', mem, some⟩
    rcases List.mem_append.1 mem with mem | mem
    · exact ⟨e', mem, some⟩
    · obtain rfl := List.mem_singleton.1 mem
      cases none.symm.trans some

/-- What is quiet before the work changes nothing. -/
theorem Unslipped.append_settles {fs : List (Exchange D)} {r : Except Trouble α} (quiet : Unslipped slip? es)
    (settles : Settles slip? r fs) : Settles slip? r (es ++ fs) := by
  refine ⟨fun f => (settles.slips f).trans ⟨?_, ?_⟩, settles.valid⟩
  · rintro ⟨e, mem, some⟩
    exact ⟨e, List.mem_append_right _ mem, some⟩
  · rintro ⟨e, mem, some⟩
    rcases List.mem_append.1 mem with mem | mem
    · cases (quiet e mem).symm.trans some
    · exact ⟨e, mem, some⟩

/-- Trouble of a part is trouble of the whole. -/
theorem Settles.error {t : Trouble} (settles : Settles slip? (.error t : Except Trouble α) es) :
    Settles slip? (.error t : Except Trouble β) es := by
  refine ⟨fun f => Iff.trans ⟨?_, ?_⟩ (settles.slips f), ?_⟩
  · intro same
    exact congrArg Except.error (Except.error.inj same)
  · intro same
    exact congrArg Except.error (Except.error.inj same)
  · intro problems same
    exact settles.valid problems (congrArg Except.error (Except.error.inj same))

/-- A part that has come to a result has brought no fault about. -/
theorem Settles.unslipped {x : α} (settles : Settles slip? (.ok x) es) : Unslipped slip? es := by
  intro e mem
  cases slip : slip? e with
  | none => rfl
  | some f => cases (settles.slips f).2 ⟨e, mem, slip⟩

/-- A part that has failed has brought no fault about either. -/
theorem Settles.unslipped_of_failure {g : Failure}
    (settles : Settles slip? (.error (.failure g) : Except Trouble α) es) :
    Unslipped slip? es := by
  intro e mem
  cases slip : slip? e with
  | none => rfl
  | some f => cases (settles.slips f).2 ⟨e, mem, slip⟩

/-- A sequence settles if its second part does, after a first part that does. -/
theorem settles_bind {H : Exchange D → Prop} {a : Attempt D α} {f : α → Attempt D β}
    (first : a.Meets (.kept H) es (Settles slip?))
    (next : ∀ x es', Unslipped slip? es' → (f x).Meets (.kept H) es' (Settles slip?)) :
    (a >>= f).Meets (.kept H) es (Settles slip?) := by
  refine Meets.bind (first.mono ?_)
  intro r es' settles
  cases r with
  | error t => exact settles.error
  | ok x => exact next x es' settles.unslipped

end ProofRelay.Attempt
