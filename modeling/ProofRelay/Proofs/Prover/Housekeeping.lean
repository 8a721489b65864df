import ProofRelay.Proofs.Files.Standing
import ProofRelay.Proofs.Prover.Discipline
import ProofRelay.Proofs.Prover.Provenance
import ProofRelay.Proofs.Prover.Yard

/-!
The directories that are left by attempts to prove a request. Whatever an attempt comes to, the first thing that it
asks for is a directory, and unless that is to be kept, the last thing is to have it removed. In between it has no
other one made or removed, so all that is done for it in the file tree is done in there.
-/

namespace ProofRelay.Prover

open Attempt (AtMost Yields)
open FileTree (Change)

variable {τ : Type}

/-- The questions that have a directory made or removed. -/
def Ask.isHousing : Ask τ → Bool
  | .openWorkspace _ _ | .discard _ => true
  | _ => false

/-- The directories that stand after an exchange. -/
def stands (dirs : List Path) : Exchange (dialogue τ) → List Path
  | ⟨.openWorkspace _ _, .ok dir⟩ => dirs ++ [dir]
  | ⟨.discard dir, _⟩ => dirs.filter (· ≠ dir)
  | _ => dirs

/-- A fold stays where it is if no member of the list moves it from there. -/
theorem foldl_eq_self {α β : Type} {f : β → α → β} {b : β} {l : List α} (same : ∀ a ∈ l, f b a = b) :
    l.foldl f b = b := by
  induction l with
  | nil => rfl
  | cons a l ih =>
    obtain ⟨first, rest⟩ := List.forall_mem_cons.1 same
    rw [List.foldl_cons, first]
    exact ih rest

theorem foldl_stands {es : List (Exchange (dialogue τ))} (none : ∀ e ∈ es, e.ask.isHousing = false)
    (dirs : List Path) : es.foldl stands dirs = dirs := by
  refine foldl_eq_self fun e he => ?_
  have other := none e he
  obtain ⟨q, r⟩ := e
  cases q with
  | openWorkspace | discard => cases other
  | _ => rfl

section Shape

theorem isHousing_of_isWork (q : Ask τ) (work : q.isWork = true) : q.isHousing = false := by
  cases q with
  | openWorkspace | discard => cases work
  | _ => rfl

theorem never_generate [Time τ] (c : Config τ) (input : Path) (model : String) (w : Workspace) :
    AtMost Ask.isHousing 0 (generate c input model w) := by
  refine (never_ask rfl).zero_bind fun now => ?_
  exact (never_steps isHousing_of_isWork _ _ _ _ _).zero_bind fun _ => never_collect ⟨rfl, rfl⟩ ⟨rfl, rfl⟩

theorem yields_close {w : Workspace} {keep : Bool} {es : List (Exchange (dialogue τ))} {r : Except Trouble Unit}
    (yields : Yields (w.close keep) es r) :
    es = (if keep then [] else [⟨.discard w.root, ()⟩]) ∧ r = .ok () := by
  rw [Workspace.close] at yields
  cases keep with
  | true => exact Attempt.yields_pure_iff.1 yields
  | false =>
    obtain ⟨⟨⟩, rfl, same⟩ := Attempt.yields_query_iff.1 yields
    exact ⟨rfl, same⟩

variable [Time τ] {c : Config τ} {requestId : Text} {model : String} {d : Json} {es : List (Exchange (dialogue τ))}
  {x : Except Trouble Artifact}

/-- An attempt gets no directory, or it gets one and has it removed at its end, unless it is to be kept. -/
theorem yields_proveDocument_cases (yields : Yields (proveDocument c requestId d model) es x) :
    (∃ f, es = [⟨.openWorkspace c.root (Workspace.stem requestId), .error f⟩]) ∨
      ∃ dir work, es = ⟨.openWorkspace c.root (Workspace.stem requestId), .ok dir⟩ ::
          (work ++ if c.keep then [] else [⟨.discard dir, ()⟩]) ∧
        ∀ e ∈ work, e.ask.isHousing = false := by
  obtain ⟨reply, gs, rfl, rest⟩ := Activity.path_ask_done_iff.1 yields
  cases reply with
  | error f =>
    obtain ⟨rfl, -⟩ := Activity.path_done_iff.1 rest
    exact .inl ⟨f, rfl⟩
  | ok dir =>
    obtain ⟨result, work, last, rfl, worked, closing⟩ := Attempt.yields_outcome_bind_iff.1 rest
    have never : AtMost Ask.isHousing 0 (Workspace.writeInput ⟨requestId, dir⟩ c.levels d >>= fun input =>
        generate c input model ⟨requestId, dir⟩) :=
      (never_writeInput fun _ => rfl).zero_bind fun input => never_generate c input model _
    refine .inr ⟨dir, work, ?_, Activity.AtMost.eq_false worked never⟩
    rcases Attempt.yields_bind_iff.1 closing with ⟨t, closed, -⟩ | ⟨_, fs, hs, rfl, closed, ended⟩
    · cases (yields_close closed).2
    · obtain ⟨rfl, -⟩ := yields_close closed
      obtain ⟨rfl, -⟩ := Attempt.yields_ofExcept_iff.1 ended
      rw [List.append_nil]

/-- What an attempt leaves: its directory, if it got one and that is to be kept. -/
theorem foldl_stands_of_yields (yields : Yields (proveDocument c requestId d model) es x) {dirs : List Path}
    (clean : c.keep = false → dirs = []) :
    es.foldl stands dirs = if c.keep then dirs ++ (workspace? es).toList else [] := by
  rcases yields_proveDocument_cases yields with ⟨f, rfl⟩ | ⟨dir, work, rfl, none⟩
  · cases keep : c.keep with
    | true => exact (List.append_nil dirs).symm
    | false => exact clean keep
  · rw [List.foldl_cons, List.foldl_append, foldl_stands none]
    cases keep : c.keep with
    | true => rfl
    | false =>
      rw [clean keep]
      simp [stands]

/-- What attempts leave one after another: if directories are to be kept, one for each attempt that got one. -/
theorem foldl_stands_attempts {attempts : List (List (Exchange (dialogue τ)))}
    (each : ∀ fs ∈ attempts, ∃ x, Yields (proveDocument c requestId d model) fs x) {dirs : List Path}
    (clean : c.keep = false → dirs = []) :
    attempts.flatten.foldl stands dirs = if c.keep then dirs ++ attempts.filterMap workspace? else [] := by
  induction attempts generalizing dirs with
  | nil =>
    cases keep : c.keep with
    | true => exact (List.append_nil dirs).symm
    | false => exact clean keep
  | cons fs attempts ih =>
    obtain ⟨⟨x, first⟩, rest⟩ := List.forall_mem_cons.1 each
    rw [List.flatten_cons, List.foldl_append, foldl_stands_of_yields first clean]
    cases keep : c.keep with
    | true =>
      have clean' : c.keep = false → dirs ++ (workspace? fs).toList = [] := by simp [keep]
      have later := ih rest clean'
      rw [keep, if_pos rfl, List.append_assoc] at later
      rw [if_pos rfl, if_pos rfl, later, List.filterMap_cons]
      cases workspace? fs <;> rfl
    | false =>
      have clean' : c.keep = false → ([] : List Path) = [] := fun _ => rfl
      have later := ih rest clean'
      rwa [keep] at later

end Shape

namespace Stall

variable {c : Config τ} {temporary : Path} {s : Script τ} {t t' : FileTree} {d d' : Stall τ}
  {e : Exchange (dialogue τ)} {dirs : Nat → List Path} {i : Nat}

/-- What an answer changes in the file tree, if what is removed is gone then. The directory of a request is one of
those that stand for it. -/
theorem Housed.change [Time τ] (housed : d.Housed t (c.home temporary)) (may : May c (d.view t) e.ask)
    (answer : Answers c.timeout temporary s t d e t' d')
    (cleared : ∀ dir, e.ask = .discard dir → t'.IsBare dir.place) (own : ∀ dir, d.dir = some dir → dir ∈ dirs i) :
    Change (c.home temporary) i t dirs t' (Function.update dirs i (stands (dirs i) e)) ∧
      ∀ dir, d'.dir = some dir → dir ∈ stands (dirs i) e := by
  have same : Function.update dirs i (dirs i) = dirs := Function.update_eq_self i dirs
  have stays : Change (c.home temporary) i t dirs t (Function.update dirs i (dirs i)) :=
    same.symm ▸ .makes (t.makes_self _)
  have filled {dir : Path} {t' : FileTree} (given : d.dir = some dir) (fills : t.Fills dir t') :
      Change (c.home temporary) i t dirs t' (Function.update dirs i (dirs i)) :=
    same.symm ▸ .fills (own dir given) fills
  cases answer with
  | now | unstarted | started | kill => exact ⟨stays, own⟩
  | unwritable | unwritten | isFile | read | late => exact ⟨stays, own⟩
  | unopened refused made =>
    obtain ⟨rfl, -⟩ := may
    exact ⟨same.symm ▸ .makes made, own⟩
  | opened willing made named absent bare valid =>
    obtain ⟨rfl, -⟩ := may
    subst named
    obtain ⟨rfl, settled⟩ := FileTree.settled_put absent bare
    refine ⟨.opens made bare settled, ?_⟩
    rintro dir ⟨⟩
    exact List.mem_append_right _ (List.mem_singleton_self _)
  | @discard t' d dir keeps less =>
    obtain ⟨given, -⟩ := may
    refine ⟨.removes (own dir given) keeps (cleared dir rfl), ?_⟩
    intro dir' given'
    have gone : d.dir.filter (· != dir) = none := by simp [show d.dir = some dir from given]
    cases gone.symm.trans given'
  | written willing done =>
    obtain ⟨-, dir, name, given, rfl, plain⟩ := may
    exact ⟨filled given ((housed.settled dir given).fills_write (housed.valid dir given) plain done), own⟩
  | exited running ends fills left => exact ⟨filled (housed.running _ _ running) fills, own⟩

end Stall

end ProofRelay.Prover
