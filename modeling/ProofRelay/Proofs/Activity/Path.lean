import ProofRelay.Activity.Basic
import ProofRelay.Proofs.Number.Decimal

/-!
Paths of activities: which questions were asked, and which replies they got, on the way from an activity
to what is left of it. A path of a sequence of two activities is a path of the first, followed by one of
the second if the first is done. What an attempt yields on a path to its end is told in the same way.
-/

namespace ProofRelay

theorem except_bind_eq_ok {ε α β : Type} {x : Except ε α} {f : α → Except ε β} {b : β} :
    x >>= f = .ok b ↔ ∃ a, x = .ok a ∧ f a = .ok b := by
  cases x with
  | error e => exact ⟨nofun, fun ⟨_, h, _⟩ => nomatch h⟩
  | ok a => exact ⟨fun h => ⟨a, rfl, h⟩, fun ⟨_, h, hb⟩ => Except.ok.inj h ▸ hb⟩

theorem exists_ok_of_any {ε α : Type} {x : Except ε α} {P : α → Bool} (h : x.toOption.any P = true) :
    ∃ a, x = .ok a ∧ P a = true := by
  cases x with
  | error e => cases h
  | ok a => exact ⟨a, rfl, h⟩

/-- A failure with the status of its kind. -/
def Failure.IsRegular (f : Failure) : Prop := f.status = f.kind.status

/-- A question with the reply it got. -/
structure Exchange (D : Dialogue) where
  ask : D.Ask
  reply : D.Reply ask

namespace Activity

variable {D E : Dialogue} {α β : Type}

/-- With the replies in a list of exchanges, an activity comes to another one. -/
inductive Path : Activity D α → List (Exchange D) → Activity D α → Prop where
  | nil (a : Activity D α) : Path a [] a
  | cons {q : D.Ask} {k : D.Reply q → Activity D α} {r : D.Reply q} {es : List (Exchange D)}
      {b : Activity D α} (rest : Path (k r) es b) : Path (.ask q k) (⟨q, r⟩ :: es) b

theorem Path.snoc {a : Activity D α} {es : List (Exchange D)} {q : D.Ask} {k : D.Reply q → Activity D α}
    (path : Path a es (.ask q k)) (r : D.Reply q) : Path a (es ++ [⟨q, r⟩]) (k r) := by
  generalize hb : Activity.ask q k = b at path
  induction path with
  | nil a => subst hb; exact .cons (.nil _)
  | cons _ ih => exact .cons (ih hb)

theorem path_done_iff {x : α} {es : List (Exchange D)} {b : Activity D α} :
    Path (.done x) es b ↔ es = [] ∧ b = .done x := by
  constructor
  · intro path
    cases path
    exact ⟨rfl, rfl⟩
  · rintro ⟨rfl, rfl⟩
    exact .nil _

theorem path_ask_iff {q : D.Ask} {k : D.Reply q → Activity D α} {es : List (Exchange D)} {b : Activity D α} :
    Path (.ask q k) es b ↔
      (es = [] ∧ b = .ask q k) ∨ ∃ r fs, es = ⟨q, r⟩ :: fs ∧ Path (k r) fs b := by
  constructor
  · intro path
    cases path with
    | nil => exact .inl ⟨rfl, rfl⟩
    | cons rest => exact .inr ⟨_, _, rfl, rest⟩
  · rintro (⟨rfl, rfl⟩ | ⟨r, fs, rfl, rest⟩)
    · exact .nil _
    · exact .cons rest

theorem path_ask_done_iff {q : D.Ask} {k : D.Reply q → Activity D α} {es : List (Exchange D)} {x : α} :
    Path (.ask q k) es (.done x) ↔ ∃ r fs, es = ⟨q, r⟩ :: fs ∧ Path (k r) fs (.done x) := by
  rw [path_ask_iff]
  exact or_iff_right fun h => nomatch h.2

theorem path_bind_iff {a : Activity D α} {f : α → Activity D β} {es : List (Exchange D)} {c : Activity D β} :
    Path (a >>= f) es c ↔
      (∃ b, Path a es b ∧ c = b >>= f) ∨
        ∃ x fs gs, es = fs ++ gs ∧ Path a fs (.done x) ∧ Path (f x) gs c := by
  induction a generalizing es with
  | done x =>
    constructor
    · intro path
      exact .inr ⟨x, [], es, rfl, .nil _, path⟩
    · rintro (⟨b, path, rfl⟩ | ⟨y, fs, gs, rfl, first, second⟩)
      · obtain ⟨rfl, rfl⟩ := path_done_iff.1 path
        exact .nil _
      · obtain ⟨rfl, hy⟩ := path_done_iff.1 first
        obtain rfl := Activity.done.inj hy
        exact second
  | ask q k ih =>
    rw [ask_bind, path_ask_iff]
    constructor
    · rintro (⟨rfl, rfl⟩ | ⟨r, fs, rfl, rest⟩)
      · exact .inl ⟨.ask q k, .nil _, rfl⟩
      · rcases (ih r).1 rest with ⟨b, path, rfl⟩ | ⟨x, es₁, es₂, rfl, first, second⟩
        · exact .inl ⟨b, .cons path, rfl⟩
        · exact .inr ⟨x, _ :: es₁, es₂, rfl, .cons first, second⟩
    · rintro (⟨b, path, rfl⟩ | ⟨x, es₁, es₂, rfl, first, second⟩)
      · cases path with
        | nil => exact .inl ⟨rfl, rfl⟩
        | cons rest => exact .inr ⟨_, _, rfl, (ih _).2 (.inl ⟨_, rest, rfl⟩)⟩
      · cases first with
        | cons rest => exact .inr ⟨_, _, rfl, (ih _).2 (.inr ⟨x, _, es₂, rfl, rest, second⟩)⟩

theorem path_bind_done_iff {a : Activity D α} {f : α → Activity D β} {es : List (Exchange D)} {y : β} :
    Path (a >>= f) es (.done y) ↔
      ∃ x fs gs, es = fs ++ gs ∧ Path a fs (.done x) ∧ Path (f x) gs (.done y) := by
  rw [path_bind_iff]
  constructor
  · rintro (⟨b, path, h⟩ | h)
    · cases b with
      | ask => cases h
      | done x => exact ⟨x, es, [], (List.append_nil _).symm, path, h ▸ .nil _⟩
    · exact h
  · exact .inr

/-- After the exchanges of the first of two activities, a path is one of the second. -/
theorem Path.of_bind {a : Activity D α} {f : α → Activity D β} {fs gs : List (Exchange D)} {x : α} {c : Activity D β}
    (first : Path a fs (.done x)) (path : Path (a >>= f) (fs ++ gs) c) : Path (f x) gs c := by
  induction a generalizing fs with
  | done y =>
    obtain ⟨rfl, same⟩ := path_done_iff.1 first
    obtain rfl := Activity.done.inj same
    exact path
  | ask q k ih =>
    obtain ⟨r, es, rfl, rest⟩ := path_ask_done_iff.1 first
    cases path with
    | cons path => exact ih r rest path

/-- Exchanges in the terms of another dialogue, of which an embedding knows the questions. -/
structure Lifts (e : D.Embedding E) (lift : Exchange D → Exchange E) : Prop where
  back : ∀ q r, lift ⟨q, e.reply q r⟩ = ⟨e.ask q, r⟩
  forth : ∀ q r, ∃ r', lift ⟨q, r⟩ = ⟨e.ask q, r'⟩ ∧ e.reply q r' = r

/-- An activity put to other surroundings has the same paths, in the terms of those. -/
theorem path_via_iff {e : D.Embedding E} {lift : Exchange D → Exchange E} (lifts : Lifts e lift)
    {a : Activity D α} {es : List (Exchange E)} {c : Activity E α} :
    Path (a.via e) es c ↔ ∃ fs b, es = fs.map lift ∧ Path a fs b ∧ c = b.via e := by
  induction a generalizing es with
  | done x =>
    rw [via, path_done_iff]
    constructor
    · rintro ⟨rfl, rfl⟩
      exact ⟨[], .done x, rfl, .nil _, rfl⟩
    · rintro ⟨fs, b, rfl, path, rfl⟩
      obtain ⟨rfl, rfl⟩ := path_done_iff.1 path
      exact ⟨rfl, rfl⟩
  | ask q k ih =>
    rw [via, path_ask_iff]
    constructor
    · rintro (⟨rfl, rfl⟩ | ⟨r, gs, rfl, rest⟩)
      · exact ⟨[], .ask q k, rfl, .nil _, rfl⟩
      · obtain ⟨fs, b, rfl, path, rfl⟩ := (ih _).1 rest
        exact ⟨⟨q, e.reply q r⟩ :: fs, b, by rw [List.map_cons, lifts.back], .cons path, rfl⟩
    · rintro ⟨fs, b, rfl, path, rfl⟩
      cases path with
      | nil => exact .inl ⟨rfl, rfl⟩
      | @cons _ _ r fs _ rest =>
        obtain ⟨r', hlift, hr⟩ := lifts.forth q r
        refine .inr ⟨r', fs.map lift, by rw [List.map_cons, hlift], (ih _).2 ⟨fs, b, rfl, ?_, rfl⟩⟩
        rwa [hr]

theorem via_eq_done {e : D.Embedding E} {a : Activity D α} {x : α} (h : a.via e = .done x) : a = .done x := by
  cases a with
  | done y => exact congrArg _ (Activity.done.inj h)
  | ask => cases h

end Activity

namespace Attempt
variable {D E : Dialogue} {α β : Type}

theorem run_bind (a : Attempt D α) (f : α → Attempt D β) :
    (a >>= f).run = a.run >>= fun r => match r with
      | .ok x => (f x).run
      | .error t => .done (.error t) := by
  refine congrArg (Bind.bind a.run) (funext fun r => ?_)
  cases r <;> rfl

@[simp] theorem run_ofExcept (r : Except Trouble α) : (ofExcept r : Attempt D α).run = .done r := rfl

@[simp] theorem run_query (q : D.Ask) : (query q).run = .ask q fun r => .done (.ok r) := rfl

theorem run_outcome (a : Attempt D α) : a.outcome.run = a.run >>= fun r => .done (.ok r) := rfl

@[simp] theorem run_outcome_bind (a : Attempt D α) (f : Except Trouble α → Attempt D β) :
    (a.outcome >>= f).run = a.run >>= fun r => (f r).run := by
  rw [run_bind, run_outcome, Activity.bind_assoc]
  rfl

/-- With the replies in a list of exchanges, an attempt comes to its end with a result. -/
def Yields (a : Attempt D α) (es : List (Exchange D)) (r : Except Trouble α) : Prop :=
  Activity.Path a.run es (.done r)

variable {a : Attempt D α} {f : α → Attempt D β} {es : List (Exchange D)}

theorem yields_ofExcept_iff {x r : Except Trouble α} :
    Yields (ofExcept x : Attempt D α) es r ↔ es = [] ∧ r = x := by
  rw [Yields, run_ofExcept, Activity.path_done_iff]
  simp

theorem yields_pure_iff {x : α} {r : Except Trouble α} :
    Yields (pure x : Attempt D α) es r ↔ es = [] ∧ r = .ok x :=
  yields_ofExcept_iff

theorem yields_fail_iff {g : Failure} {r : Except Trouble α} :
    Yields (fail g : Attempt D α) es r ↔ es = [] ∧ r = .error (.failure g) :=
  yields_ofExcept_iff

theorem yields_query_iff {q : D.Ask} {r : Except Trouble (D.Reply q)} :
    Yields (query q) es r ↔ ∃ x, es = [⟨q, x⟩] ∧ r = .ok x := by
  rw [Yields, run_query, Activity.path_ask_iff]
  constructor
  · rintro (⟨-, h⟩ | ⟨x, fs, rfl, path⟩)
    · cases h
    · obtain ⟨rfl, h⟩ := Activity.path_done_iff.1 path
      exact ⟨x, rfl, Activity.done.inj h⟩
  · rintro ⟨x, rfl, rfl⟩
    exact .inr ⟨x, [], rfl, .nil _⟩

theorem yields_bind_iff {r : Except Trouble β} :
    Yields (a >>= f) es r ↔
      (∃ t, Yields a es (.error t) ∧ r = .error t) ∨
        ∃ x fs gs, es = fs ++ gs ∧ Yields a fs (.ok x) ∧ Yields (f x) gs r := by
  rw [Yields, run_bind, Activity.path_bind_done_iff]
  constructor
  · rintro ⟨x, fs, gs, rfl, first, second⟩
    cases x with
    | ok x => exact .inr ⟨x, fs, gs, rfl, first, second⟩
    | error t =>
      obtain ⟨rfl, h⟩ := Activity.path_done_iff.1 second
      exact .inl ⟨t, by rwa [List.append_nil], Activity.done.inj h⟩
  · rintro (⟨t, first, rfl⟩ | ⟨x, fs, gs, rfl, first, second⟩)
    · exact ⟨.error t, es, [], (List.append_nil _).symm, first, .nil _⟩
    · exact ⟨.ok x, fs, gs, rfl, first, second⟩

/-- A sequence succeeds if both parts do. -/
theorem yields_bind_ok_iff {y : β} :
    Yields (a >>= f) es (.ok y) ↔ ∃ x fs gs, es = fs ++ gs ∧ Yields a fs (.ok x) ∧ Yields (f x) gs (.ok y) := by
  rw [yields_bind_iff]
  exact or_iff_right fun ⟨_, _, h⟩ => nomatch h

/-- A result whose error is trouble asks nothing. -/
theorem yields_mapError {ε : Type} {x : Except ε α} {g : ε → Trouble} {r : Except Trouble α}
    (yields : Yields (ofExcept (x.mapError g) : Attempt D α) es r) :
    es = [] ∧ ((∃ e, x = .error e ∧ r = .error (g e)) ∨ ∃ a, x = .ok a ∧ r = .ok a) := by
  obtain ⟨rfl, rfl⟩ := yields_ofExcept_iff.1 yields
  cases x with
  | error e => exact ⟨rfl, .inl ⟨e, rfl, rfl⟩⟩
  | ok a => exact ⟨rfl, .inr ⟨a, rfl, rfl⟩⟩

theorem yields_mapError_ok {ε : Type} {x : Except ε α} {g : ε → Trouble} {y : α}
    (yields : Yields (ofExcept (x.mapError g) : Attempt D α) es (.ok y)) : es = [] ∧ x = .ok y := by
  obtain ⟨rfl, ⟨_, -, h⟩ | ⟨_, rfl, h⟩⟩ := yields_mapError yields
  · cases h
  · exact ⟨rfl, congrArg _ (Except.ok.inj h).symm⟩

theorem yields_outcome_bind_iff {g : Except Trouble α → Attempt D β} {r : Except Trouble β} :
    Yields (a.outcome >>= g) es r ↔
      ∃ x fs gs, es = fs ++ gs ∧ Yields a fs x ∧ Yields (g x) gs r := by
  rw [Yields, run_outcome_bind, Activity.path_bind_done_iff]
  rfl

theorem log_bind_of_fits {ns : List Int} (short : ∀ n ∈ ns, Decimal.fits n = true) (next : Attempt D α) :
    (log ns >>= fun _ => next) = next := by
  rw [log, Decimal.showAll_of_fits short]
  rfl

theorem log_bind_of_not_fits {ns : List Int} {n : Int} (mem : n ∈ ns) (long : Decimal.fits n = false)
    (next : Attempt D α) : (log ns >>= fun _ => next) = ofExcept (.error (.fault Decimal.unwritable)) := by
  rw [log, Decimal.showAll_of_not_fits mem long]
  rfl

theorem yields_via_iff {e : D.Embedding E} {lift : Exchange D → Exchange E} (lifts : Activity.Lifts e lift)
    {es : List (Exchange E)} {r : Except Trouble α} :
    Yields (a.via e) es r ↔ ∃ fs, es = fs.map lift ∧ Yields a fs r := by
  refine (Activity.path_via_iff lifts).trans ⟨?_, ?_⟩
  · rintro ⟨fs, b, rfl, path, h⟩
    rw [Activity.via_eq_done h.symm] at path
    exact ⟨fs, rfl, path⟩
  · rintro ⟨fs, rfl, path⟩
    exact ⟨fs, .done r, rfl, path, rfl⟩

/-- Every failure that an attempt may end with has a property. -/
def Fails (P : Failure → Prop) (a : Attempt D α) : Prop :=
  ∀ es f, Yields a es (.error (.failure f)) → P f

variable {P : Failure → Prop}

theorem fails_ofExcept {x : Except Trouble α} (h : ∀ f, x = .error (.failure f) → P f) :
    Fails P (ofExcept x : Attempt D α) := by
  intro es f yields
  exact h f (yields_ofExcept_iff.1 yields).2.symm

theorem fails_pure (x : α) : Fails P (pure x : Attempt D α) := fails_ofExcept nofun

theorem fails_fail {g : Failure} (h : P g) : Fails P (fail g : Attempt D α) := by
  refine fails_ofExcept fun f same => ?_
  obtain rfl := Trouble.failure.inj (Except.error.inj same)
  exact h

/-- A fault that may count as a failure. -/
theorem fails_ite {c : Prop} [Decidable c] {g : Failure} (f : Fault) (h : P g) :
    Fails P (ofExcept (.error (if c then .failure g else .fault f)) : Attempt D α) := by
  split
  · exact fails_fail h
  · exact fails_ofExcept nofun

theorem fails_query (q : D.Ask) : Fails P (query q) := by
  intro es f yields
  obtain ⟨x, -, h⟩ := yields_query_iff.1 yields
  cases h

theorem Fails.bind (first : Fails P a) (second : ∀ x, Fails P (f x)) : Fails P (a >>= f) := by
  intro es g yields
  rcases yields_bind_iff.1 yields with ⟨t, yields, h⟩ | ⟨x, fs, gs, -, -, yields⟩
  · obtain rfl := Except.error.inj h
    exact first es g yields
  · exact second x gs g yields

/-- What is caught may be thrown again. -/
theorem Fails.outcome_bind {g : Except Trouble α → Attempt D β} (first : Fails P a)
    (second : ∀ x, (∀ f, x = .error (.failure f) → P f) → Fails P (g x)) : Fails P (a.outcome >>= g) := by
  intro es h yields
  obtain ⟨x, fs, gs, -, caught, yields⟩ := yields_outcome_bind_iff.1 yields
  exact second x (fun f same => first fs f (same ▸ caught)) gs h yields

theorem Fails.via {e : D.Embedding E} {lift : Exchange D → Exchange E} (lifts : Activity.Lifts e lift)
    (fails : Fails P a) : Fails P (a.via e) := by
  intro es f yields
  obtain ⟨fs, -, yields⟩ := (yields_via_iff lifts).1 yields
  exact fails fs f yields

end Attempt

end ProofRelay
