import Mathlib.Data.List.Nodup
import ProofRelay.Proofs.Pipeline.Coherence

/-!
The moves of a run, in any order and with any number of refusals between them. Whoever makes them may go on
after a refusal, so what a refused attempt leaves behind matters. It leaves nothing: a run is always on its
way to success or has failed on it, and it has timed the stages that it has left.
-/

namespace ProofRelay

namespace Stage

/-- A stage may follow another one: as the next one on the way, or as failure of a run that is not over. -/
def MayFollow (s target : Stage) : Prop := [s, target] <:+: way ∨ (target = .failed ∧ s ≠ .done ∧ s ≠ .failed)

theorem next?_eq_some_iff {s target : Stage} : s.next? = some target ↔ [s, target] <:+: way := by
  cases s <;> cases target <;> decide

theorem isTerminal_eq_false_iff {s : Stage} : s.isTerminal = false ↔ s ≠ .done ∧ s ≠ .failed := by
  cases s <;> decide

theorem not_infix_failed (s : Stage) : ¬ [s, .failed] <:+: way := by
  cases s <;> decide

theorem not_mayFollow_of_final {s : Stage} (final : s = .done ∨ s = .failed) (target : Stage) :
    ¬ s.MayFollow target := by
  rintro (next | ⟨-, going, unfailed⟩)
  · revert next
    rcases final with rfl | rfl <;> cases target <;> decide
  · exact final.elim going unfailed

/-- What is refused, and how. -/
theorem permit_cases (s target : Stage) :
    (s.MayFollow target ∧ s.permit target = .ok ()) ∨
      (¬ s.MayFollow target ∧ ∃ f, f.kind = .runtime ∧ s.permit target = .error f) := by
  rw [permit]
  by_cases failing : target = .failed
  · subst failing
    rw [if_pos rfl]
    cases ended : s.isTerminal with
    | true =>
      refine .inr ⟨?_, _, rfl, rfl⟩
      rintro (next | ⟨-, going⟩)
      · exact not_infix_failed s next
      · rw [isTerminal_eq_false_iff.2 going] at ended
        cases ended
    | false => exact .inl ⟨.inr ⟨rfl, isTerminal_eq_false_iff.1 ended⟩, rfl⟩
  · rw [if_neg failing]
    by_cases next : s.next? = some target
    · rw [if_pos next]
      exact .inl ⟨.inl (next?_eq_some_iff.1 next), rfl⟩
    · rw [if_neg next]
      refine .inr ⟨?_, _, rfl, rfl⟩
      rintro (way | ⟨failed, -⟩)
      · exact next (next?_eq_some_iff.2 way)
      · exact failing failed

theorem prefix_way {s : Stage} (unfailed : s ≠ .failed) : s.before ++ [s] <+: Stage.way := by
  cases s with
  | failed => exact (unfailed rfl).elim
  | _ => decide

theorem prefix_dropLast_way {s : Stage} (working : s ≠ .done ∧ s ≠ .failed) :
    s.before ++ [s] <+: Stage.way.dropLast := by
  cases s with
  | done => exact (working.1 rfl).elim
  | failed => exact (working.2 rfl).elim
  | _ => decide

theorem nodup_before_append (s : Stage) : (s.before ++ [s]).Nodup := by
  cases s <;> decide

theorem name_injective : Function.Injective name := by
  intro s t same
  cases s <;> cases t <;> first | rfl | exact absurd same (by decide)

end Stage

namespace Run

variable {τ : Type} [Time τ]

/-- What an attempt comes to: a move to a stage that may follow, or a fault and the run as it was. -/
theorem attempt_cases (r : Run τ) (now : τ) (target : Stage) :
    (r.stage.MayFollow target ∧ (attempt now target).run.run r = (.ok (), r.entered now target)) ∨
      (¬ r.stage.MayFollow target ∧ ∃ f, f.kind = .runtime ∧ (attempt now target).run.run r = (.error f, r)) := by
  rcases r.stage.permit_cases target with ⟨may, permitted⟩ | ⟨may, f, runtime, refused⟩
  · exact .inl ⟨may, attempt_of_permitted permitted⟩
  · exact .inr ⟨may, f, runtime, attempt_of_refused refused⟩

/-- The run after some attempts at some times, each of which may be refused. -/
def after (r : Run τ) (targets : List (τ × Stage)) : Run τ :=
  targets.foldl (fun r target => ((attempt target.1 target.2).run.run r).2) r

/-- A run that is on its way, or has failed on it. -/
inductive Orderly (r : Run τ) : Prop where
  | going (way : r.OnWay) (unfailed : r.stage ≠ .failed)
  | failed {s : Stage} (working : s ≠ .done ∧ s ≠ .failed) (stage : r.stage = .failed)
      (history : r.history = s.before ++ [s] ++ [.failed]) (timed : r.timings.map Prod.fst = s.before ++ [s])

omit [Time τ] in
theorem orderly_new (requestId : Text) (began : τ) : Orderly { requestId := requestId, enteredAt := began } :=
  .going ⟨rfl, rfl⟩ Stage.noConfusion

theorem Orderly.attempt {r : Run τ} (orderly : r.Orderly) (now : τ) (target : Stage) :
    Orderly ((attempt now target).run.run r).2 := by
  rcases attempt_cases r now target with ⟨may, moved⟩ | ⟨-, f, -, refused⟩
  · rw [moved]
    cases orderly with
    | going way unfailed =>
      rcases may with next | ⟨rfl, working⟩
      · refine .going (way.entered (Stage.next?_eq_some_iff.2 next) now) ?_
        rintro rfl
        exact Stage.not_infix_failed _ next
      · refine .failed working rfl ?_ (way.timed_entered now .failed)
        rw [entered, way.history]
    | failed _ stage _ _ => exact (Stage.not_mayFollow_of_final (.inr stage) target may).elim
  · rw [refused]
    exact orderly

theorem Orderly.after {r : Run τ} (orderly : r.Orderly) (targets : List (τ × Stage)) : (r.after targets).Orderly := by
  induction targets generalizing r with
  | nil => exact orderly
  | cons target targets ih => exact ih (orderly.attempt target.1 target.2)

/-- What holds of a run in the hands of someone who makes attempts and goes on after refusals. -/
structure Lawful (r : Run τ) : Prop where
  history : (r.history ≠ [] ∧ r.history <+: Stage.way) ∨
    ∃ front, front ≠ [] ∧ front <+: Stage.way.dropLast ∧ r.history = front ++ [.failed]
  stage : r.history.getLast? = some r.stage
  timed : r.timings.map (fun t => t.1.name) = r.history.dropLast.map Stage.name
  once : (r.timings.map fun t => t.1.name).Nodup
  succeeds_iff : ∀ now target, ((attempt now target).run.run r).1 = .ok () ↔ r.stage.MayFollow target
  /-- A move puts the stage into the history, and the time in the stage that is left after those of the others. -/
  moves : ∀ now target, ((attempt now target).run.run r).1 = .ok () →
    ((attempt now target).run.run r).2 =
      { r with stage := target, history := r.history ++ [target], enteredAt := now,
               timings := r.timings ++ [(r.stage, Time.rounded (Time.sub now r.enteredAt))] }
  refused : ∀ now target f, ((attempt now target).run.run r).1 = .error f →
    f.kind = .runtime ∧ ((attempt now target).run.run r).2 = r
  final : r.stage = .done ∨ r.stage = .failed → ∀ more now target, ∃ f,
    (attempt now target).run.run (r.after more) = (.error f, r)

/-- A run that is over stays as it is. -/
theorem after_of_final {r : Run τ} (final : r.stage = .done ∨ r.stage = .failed) (more : List (τ × Stage)) :
    r.after more = r := by
  induction more with
  | nil => rfl
  | cons target more ih =>
    rcases attempt_cases r target.1 target.2 with ⟨may, -⟩ | ⟨-, f, -, refused⟩
    · exact (Stage.not_mayFollow_of_final final target.2 may).elim
    · rw [after, List.foldl_cons, refused]
      exact ih

omit [Time τ] in
/-- The stage of a run that may go on has no time yet. -/
theorem Orderly.not_timed {r : Run τ} (orderly : r.Orderly) {target : Stage} (may : r.stage.MayFollow target) :
    r.stage ∉ r.timings.map Prod.fst := by
  cases orderly with
  | going way _ =>
    rw [way.timed]
    exact r.stage.not_mem_before
  | failed _ stage _ _ => exact (Stage.not_mayFollow_of_final (.inr stage) target may).elim

theorem attempt_eq_ok_iff (r : Run τ) (now : τ) (target : Stage) :
    ((attempt now target).run.run r).1 = .ok () ↔ r.stage.MayFollow target := by
  rcases attempt_cases r now target with ⟨may, moved⟩ | ⟨may, f, -, refused⟩
  · rw [moved]
    exact iff_of_true rfl may
  · rw [refused]
    exact iff_of_false nofun may

/-- A refusal leaves the run as it is. -/
theorem attempt_eq_error {r : Run τ} {now : τ} {target : Stage} {f : Fault}
    (error : ((attempt now target).run.run r).1 = .error f) :
    f.kind = .runtime ∧ ((attempt now target).run.run r).2 = r := by
  rcases attempt_cases r now target with ⟨-, moved⟩ | ⟨-, g, runtime, refused⟩
  · rw [moved] at error
    cases error
  · rw [refused] at error ⊢
    cases error
    exact ⟨runtime, rfl⟩

theorem Orderly.lawful {r : Run τ} (orderly : r.Orderly) : r.Lawful where
  history := by
    cases orderly with
    | going way unfailed =>
      rw [way.history]
      exact .inl ⟨List.concat_ne_nil _ _, Stage.prefix_way unfailed⟩
    | failed working _ history _ =>
      exact .inr ⟨_, List.concat_ne_nil _ _, Stage.prefix_dropLast_way working, history⟩
  stage := by
    cases orderly with
    | going way _ => rw [way.history, List.getLast?_concat]
    | failed _ stage history _ => rw [history, List.getLast?_concat, stage]
  timed := by
    rw [← Function.comp_def, ← List.map_map]
    cases orderly with
    | going way _ => rw [way.history, way.timed, List.dropLast_concat]
    | failed _ _ history timed => rw [history, timed, List.dropLast_concat]
  once := by
    rw [← Function.comp_def, ← List.map_map]
    refine List.Nodup.map Stage.name_injective ?_
    cases orderly with
    | going way _ =>
      rw [way.timed]
      exact (List.nodup_append.1 r.stage.nodup_before_append).1
    | @failed s _ _ _ timed =>
      rw [timed]
      exact s.nodup_before_append
  succeeds_iff := r.attempt_eq_ok_iff
  moves := by
    intro now target ok
    rcases attempt_cases r now target with ⟨may, moved⟩ | ⟨-, f, -, refused⟩
    · rw [moved, entered, putTiming_of_not_mem _ (orderly.not_timed may)]
      rfl
    · rw [refused] at ok
      cases ok
  refused := by
    intro now target f error
    exact attempt_eq_error error
  final := by
    intro final more now target
    rw [after_of_final final]
    rcases attempt_cases r now target with ⟨may, -⟩ | ⟨-, f, -, refused⟩
    · exact (Stage.not_mayFollow_of_final final target may).elim
    · exact ⟨f, refused⟩

/-- Any sequence of attempts on a new run, whatever is refused on the way, leaves a lawful run. -/
theorem after_lawful (requestId : Text) (began : τ) (targets : List (τ × Stage)) :
    (after { requestId := requestId, enteredAt := began } targets).Lawful :=
  ((orderly_new requestId began).after targets).lawful

-- Two refusals lie between the moves, and one more comes after failure.
example : after { requestId := "r", enteredAt := (0 : Int) }
    [(1, .done), (2, .proving), (3, .proving), (7, .failed), (9, .hashing)] =
      { requestId := "r", stage := .failed, history := [.idle, .proving, .failed],
        timings := [(.idle, 2), (.proving, 5)], enteredAt := 7 } := by decide

end Run

end ProofRelay
