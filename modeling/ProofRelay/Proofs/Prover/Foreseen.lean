import ProofRelay.Proofs.Activity.Slips
import ProofRelay.Proofs.Prover.Substitution

/-!
Proving under foreseen replies. What the file system refuses, and a process that cannot be started, comes
as an error of the system; processes may end or hang as they like. Then proving ends with an artifact or with a
failure, but for three faults: the document has no text, a setting has none, or the system refuses to tell
whether there is a proof. An attempt ends with such a fault exactly if an exchange brings it about.
-/

namespace ProofRelay.Prover

open Attempt (Yields Unslipped Settles settles_bind)

variable {τ α β : Type}

/-- A refusal is an error of the system. -/
def Refused (r : Except Fault α) : Prop := ∀ f, r = .error f → f.kind.isSystem = true

/-- Replies that the prover foresees. -/
def Foreseen : Exchange (dialogue τ) → Prop
  | ⟨.openWorkspace _ _, r⟩ | ⟨.write _ _, r⟩ | ⟨.isFile _, r⟩ | ⟨.read _, r⟩ | ⟨.start _ _, r⟩ => Refused r
  | _ => True

/-- The settings that stand in the command lines have texts. -/
def Config.hasTexts (c : Config τ) : Bool := Decimal.fits c.logrows && Decimal.fits c.bits

section Lines

variable {c : Config τ} (input model : String) (w : Workspace) (s : Step)

theorem commandLine_of_hasTexts (texts : c.hasTexts = true) :
    commandLine c s.template input model w = .ok (s.arguments c input model w) :=
  (commandLine_template input model w s).trans (if_pos (Bool.and_eq_true_iff.1 texts))

theorem commandLine_of_textless (textless : c.hasTexts = false) :
    commandLine c s.template input model w = .error Decimal.unwritable := by
  refine (commandLine_template input model w s).trans (if_neg fun both => ?_)
  exact Bool.false_ne_true (textless.symm.trans (Bool.and_eq_true_iff.2 both))

end Lines

/-- The fault that an exchange brings about and no failure reports: a document without a text in a new directory,
settings without a text where the input is written, and a proof that may not be looked for. -/
def slip? (c : Config τ) (d : Json) : Exchange (dialogue τ) → Option Fault
  | ⟨.openWorkspace _ _, .ok _⟩ =>
    match d.write c.levels with
    | .ok _ => none
    | .error f => some f
  | ⟨.write _ _, .ok _⟩ => if c.hasTexts then none else some Decimal.unwritable
  | ⟨.isFile file, .error f⟩ => if file.name = "proof.pf" then some f else none
  | _ => none

section Parts

variable {c : Config τ} {d : Json} {es : List (Exchange (dialogue τ))} (quiet : Unslipped (slip? c d) es)

theorem meets_ask_bind {Q : Except Trouble β → List (Exchange (dialogue τ)) → Prop} {q : Ask τ}
    {f : Reply q → Attempt (dialogue τ) β}
    (next : ∀ r, Foreseen ⟨q, r⟩ → (f r).Meets (.kept Foreseen) (es ++ [⟨q, r⟩]) Q) :
    (ask q >>= f).Meets (.kept Foreseen) es Q :=
  Attempt.meets_kept_bind next

include quiet

theorem settles_readFile (file : Path) : (readFile file).Meets (.kept Foreseen) es (Settles (slip? c d)) := by
  refine meets_ask_bind fun r foreseen => ?_
  cases r with
  | ok content => exact (quiet.snoc rfl).ok content
  | error f => exact (quiet.snoc rfl).failure ⟨_, if_pos (foreseen f rfl)⟩

theorem settles_readKey (w : Workspace) : (readKey w).Meets (.kept Foreseen) es (Settles (slip? c d)) := by
  have other : w.verifyingKey.name ≠ "proof.pf" := by simp [Workspace.verifyingKey, Path.name, Path.child]
  refine meets_ask_bind fun (hasKey : Except Fault Bool) foreseen => ?_
  rcases hasKey with f | _ | _
  · have none : slip? c d ⟨.isFile w.verifyingKey, .error f⟩ = none := if_neg other
    exact (quiet.snoc none).failure ⟨_, if_pos (foreseen f rfl)⟩
  · exact (quiet.snoc rfl).ok _
  · exact settles_bind (settles_readFile (quiet.snoc rfl) _) fun key _ quiet => quiet.ok _

theorem settles_collect (w : Workspace) : (collect w).Meets (.kept Foreseen) es (Settles (slip? c d)) := by
  have own : w.proof.name = "proof.pf" := by simp [Workspace.proof, Path.name, Path.child]
  refine meets_ask_bind fun (written : Except Fault Bool) _ => ?_
  rcases written with f | _ | _
  · exact quiet.slip (if_pos own)
  · exact (quiet.snoc rfl).failure ⟨_, rfl⟩
  · refine settles_bind (settles_readFile (quiet.snoc rfl) _) fun data _ quiet => ?_
    exact settles_bind (settles_readKey quiet w) fun key _ quiet => quiet.ok _

variable [Time τ]

theorem settles_runStep (s : Step) (args : List String) (dir : Path) (deadline : τ) :
    (runStep c s args dir deadline).Meets (.kept Foreseen) es (Settles (slip? c d)) := by
  refine meets_ask_bind fun now _ => ?_
  have quiet : Unslipped (slip? c d) (es ++ [⟨.now, now⟩]) := quiet.snoc rfl
  dsimp only
  split
  · exact quiet.failure ⟨_, rfl⟩
  refine meets_ask_bind fun started foreseen => ?_
  cases started with
  | error f => exact (quiet.snoc rfl).failure ⟨_, if_pos (foreseen f rfl)⟩
  | ok process =>
    have quiet : Unslipped (slip? c d) (es ++ [⟨.now, now⟩] ++ [⟨.start args dir, .ok process⟩]) := quiet.snoc rfl
    refine meets_ask_bind fun ended _ => ?_
    cases ended with
    | none => exact meets_ask_bind fun _ _ => ((quiet.snoc rfl).snoc rfl).failure ⟨_, rfl⟩
    | some e =>
      dsimp only
      split
      · exact (quiet.snoc rfl).ok ()
      · exact (quiet.snoc rfl).failure ⟨_, rfl⟩

theorem settles_generate (texts : c.hasTexts = true) (input : Path) (model : String) (w : Workspace) :
    (generate c input model w).Meets (.kept Foreseen) es (Settles (slip? c d)) := by
  have line (s : Step) (deadline : τ) {es : List (Exchange (dialogue τ))} (quiet : Unslipped (slip? c d) es) :
      (runTemplate c input.toString model w deadline s).Meets (.kept Foreseen) es (Settles (slip? c d)) := by
    rw [runTemplate, commandLine_of_hasTexts _ _ _ _ texts]
    exact settles_runStep quiet s _ w.root deadline
  refine meets_ask_bind fun now _ => settles_bind ?_ fun _ _ quiet => settles_collect quiet w
  refine settles_bind (line .setup _ (quiet.snoc rfl)) fun _ _ quiet => ?_
  exact settles_bind (line .prove _ quiet) fun _ _ quiet => quiet.ok ()

/-- The work after the input is written. Without texts for the settings there is no command line. -/
theorem settles_written (w : Workspace) (model : String) (content : Bytes) :
    (generate c w.input model w).Meets (.kept Foreseen) (es ++ [⟨.write w.input content, .ok ()⟩])
      (Settles (slip? c d)) := by
  cases texts : c.hasTexts with
  | true =>
    have none : slip? c d ⟨.write w.input content, .ok ()⟩ = none := if_pos texts
    exact settles_generate (quiet.snoc none) texts w.input model w
  | false =>
    refine meets_ask_bind fun now _ => ?_
    have slip : slip? c d ⟨.write w.input content, .ok ()⟩ = some Decimal.unwritable :=
      if_neg (Bool.eq_false_iff.1 texts)
    have settles : Settles (slip? c d) (.error (.fault Decimal.unwritable) : Except Trouble Artifact)
        (es ++ [⟨.write w.input content, .ok ()⟩] ++ [⟨.now, now⟩]) := (quiet.slip slip).snoc rfl
    refine Attempt.Meets.bind (Attempt.Meets.bind ?_)
    rw [runTemplate, commandLine_of_textless _ _ _ _ texts]
    exact settles

theorem settles_work (w : Workspace) (model : String) {root : Option Path} {stem : String} {dir : Path} :
    (do let input ← w.writeInput c.levels d; generate c input model w : Attempt (dialogue τ) Artifact).Meets
      (.kept Foreseen) (es ++ [⟨.openWorkspace root stem, .ok dir⟩]) (Settles (slip? c d)) := by
  cases text : d.write c.levels with
  | error f =>
    have slip : slip? c d ⟨.openWorkspace root stem, .ok dir⟩ = some f := by
      simp only [slip?, text]
    have settles : Settles (slip? c d) (.error (.fault f) : Except Trouble Artifact) _ := quiet.slip slip
    rw [Workspace.writeInput, text]
    exact settles
  | ok text' =>
    have none : slip? c d ⟨.openWorkspace root stem, .ok dir⟩ = none := by
      simp only [slip?, text]
    have quiet := quiet.snoc none
    rw [Workspace.writeInput, text]
    refine meets_ask_bind fun r foreseen => ?_
    cases r with
    | ok _ => exact settles_written quiet w model _
    | error f => exact (quiet.snoc rfl).failure ⟨_, if_pos (foreseen f rfl)⟩

end Parts

/-- An attempt ends with a fault exactly if one of its exchanges brings it about. -/
theorem settles_proveDocument [Time τ] {c : Config τ} {requestId : Text} {model : String} {d : Json}
    {es : List (Exchange (dialogue τ))} {r : Except Trouble Artifact}
    (yields : Yields (proveDocument c requestId d model) es r) (all : ∀ e ∈ es, Foreseen e) :
    Settles (slip? c d) r es := by
  have start : Unslipped (slip? c d) [] := Attempt.unslipped_nil
  have meets : (proveDocument c requestId d model).Meets (.kept Foreseen) [] (Settles (slip? c d)) := by
    refine meets_ask_bind fun opened foreseen => ?_
    cases opened with
    | error f => exact (start.snoc rfl).failure ⟨_, if_pos (foreseen f rfl)⟩
    | ok dir =>
      refine Attempt.Meets.outcome_bind ((settles_work start ⟨requestId, dir⟩ model).mono fun r es settles => ?_)
      rw [Workspace.close]
      split
      · exact settles
      · exact meets_ask_bind fun _ _ => settles.snoc rfl
  exact Activity.Meets.path meets yields (Terms.leads_kept all [])

end ProofRelay.Prover
