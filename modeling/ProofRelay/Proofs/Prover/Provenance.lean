import ProofRelay.Prover.Invocation
import ProofRelay.Proofs.Activity.Questions

/-!
Where a proof comes from. An invocation opens one workspace, and the bytes of its artifact are what it read
from the proof file in there, which it read once.
-/

namespace ProofRelay.Prover

open Attempt (AtMost Yields)

variable {τ α : Type}

/-- The questions that open a workspace or read a file. -/
def Ask.isFetch : Ask τ → Bool
  | .openWorkspace _ _ | .read _ => true
  | _ => false

/-- The workspaces that were opened and the files that were read, in their order. -/
def fetches (es : List (Exchange (dialogue τ))) : List (Exchange (dialogue τ)) :=
  es.filter fun e => e.ask.isFetch

theorem fetches_append (es fs : List (Exchange (dialogue τ))) : fetches (es ++ fs) = fetches es ++ fetches fs :=
  List.filter_append _ _

theorem fetches_eq_nil {es : List (Exchange (dialogue τ))} {a : Attempt (dialogue τ) α} {r : Except Trouble α}
    (yields : Yields a es r) (never : AtMost Ask.isFetch 0 a) : fetches es = [] := by
  refine List.filter_eq_nil_iff.2 fun e he => ?_
  rw [Activity.AtMost.eq_false yields never e he]
  exact Bool.false_ne_true

/-- The questions of the work in a workspace, up to when its files are read. -/
def Ask.isWork : Ask τ → Bool
  | .now | .write _ _ | .start _ _ | .wait _ _ | .kill _ => true
  | _ => false

section Never

variable {P : Ask τ → Bool}

theorem never_ask {q : Ask τ} (hq : P q = false) : AtMost P 0 (ask q) := Attempt.atMost_query_zero hq

theorem never_close (w : Workspace) (keep : Bool) (off : P (.discard w.root) = false) :
    AtMost P 0 (w.close (τ := τ) keep) := by
  rw [Workspace.close]
  split
  · exact Attempt.atMost_ofExcept _ _
  · exact never_ask off

theorem never_runStep [Time τ] (clock : P .now = false) (waits : ∀ n limit, P (.wait n limit) = false)
    (kills : ∀ n, P (.kill n) = false) {args : List String} {dir : Path} (starts : P (.start args dir) = false)
    (c : Config τ) (s : Step) (deadline : τ) : AtMost P 0 (runStep c s args dir deadline) := by
  refine (never_ask clock).zero_bind fun now => ?_
  dsimp only
  split
  · exact Attempt.atMost_ofExcept _ _
  · refine (never_ask starts).zero_bind fun started => ?_
    cases started with
    | error f => exact Attempt.atMost_ofExcept _ _
    | ok process =>
      refine (never_ask (waits _ _)).zero_bind fun ended => ?_
      cases ended with
      | none => exact (never_ask (kills _)).zero_bind fun _ => Attempt.atMost_ofExcept _ _
      | some e =>
        dsimp only
        split <;> exact Attempt.atMost_ofExcept _ _

theorem never_readFile {file : Path} (off : P (.read file) = false) : AtMost P 0 (readFile file) := by
  refine (never_ask off).zero_bind fun r => ?_
  cases r <;> exact Attempt.atMost_ofExcept _ _

theorem never_readKey {w : Workspace} (key : P (.isFile w.verifyingKey) = false ∧ P (.read w.verifyingKey) = false) :
    AtMost P 0 (readKey w) := by
  refine (never_ask key.1).zero_bind fun (hasKey : Except Fault Bool) => ?_
  rcases hasKey with f | _ | _
  · exact Attempt.atMost_ofExcept _ _
  · exact Attempt.atMost_ofExcept _ _
  · exact (never_readFile key.2).zero_bind fun found => Attempt.atMost_ofExcept _ _

theorem never_collect {w : Workspace} (proof : P (.isFile w.proof) = false ∧ P (.read w.proof) = false)
    (key : P (.isFile w.verifyingKey) = false ∧ P (.read w.verifyingKey) = false) : AtMost P 0 (collect w) := by
  refine (never_ask proof.1).zero_bind fun (written : Except Fault Bool) => ?_
  rcases written with f | _ | _
  · exact Attempt.atMost_ofExcept _ _
  · exact Attempt.atMost_ofExcept _ _
  · exact (never_readFile proof.2).zero_bind fun data => (never_readKey key).zero_bind fun _ =>
      Attempt.atMost_ofExcept _ _

theorem never_writeInput {w : Workspace} {levels : Nat} {d : Json}
    (off : ∀ content, P (.write w.input content) = false) :
    AtMost P 0 (w.writeInput (τ := τ) levels d) := by
  refine (Attempt.atMost_ofExcept 0 _).zero_bind fun text => (never_ask (off _)).zero_bind fun r => ?_
  cases r <;> exact Attempt.atMost_ofExcept _ _

variable (off : ∀ q, q.isWork = true → P q = false)

include off

variable [Time τ]

theorem never_runTemplate (c : Config τ) (input model : String) (w : Workspace) (deadline : τ) (s : Step) :
    AtMost P 0 (runTemplate c input model w deadline s) :=
  (Attempt.atMost_ofExcept 0 _).zero_bind fun _ =>
    never_runStep (off _ rfl) (fun _ _ => off _ rfl) (fun _ => off _ rfl) (off _ rfl) c s deadline

theorem never_steps (c : Config τ) (input model : String) (w : Workspace) (deadline : τ) :
    AtMost P 0 (Step.all.forM (runTemplate c input model w deadline)) :=
  (never_runTemplate off c input model w deadline .setup).zero_bind fun _ =>
    (never_runTemplate off c input model w deadline .prove).zero_bind fun _ => Attempt.atMost_ofExcept _ _

end Never

theorem isFetch_of_isWork (q : Ask τ) (work : q.isWork = true) : q.isFetch = false := by
  cases q with
  | openWorkspace | read => cases work
  | _ => rfl

variable {es : List (Exchange (dialogue τ))} {artifact : Artifact}

theorem yields_ask_ok {q : Ask τ} {r : Reply q} (yields : Yields (ask q) es (.ok r)) : es = [⟨q, r⟩] := by
  obtain ⟨x, rfl, h⟩ := Attempt.yields_query_iff.1 yields
  obtain rfl := Except.ok.inj h
  rfl

theorem yields_readFile_ok {file : Path} {content : Bytes} (yields : Yields (readFile file) es (.ok content)) :
    es = [⟨.read file, .ok content⟩] := by
  obtain ⟨r, fs, gs, rfl, asked, rest⟩ := Attempt.yields_bind_ok_iff.1 yields
  obtain rfl := yields_ask_ok asked
  rcases r with f | found
  · cases (Attempt.yields_ofExcept_iff.1 rest).2
  · obtain ⟨rfl, h⟩ := Attempt.yields_pure_iff.1 rest
    obtain rfl := Except.ok.inj h
    rfl

theorem yields_readKey_ok {w : Workspace} {key : Option Bytes} (yields : Yields (readKey w) es (.ok key)) :
    ∀ e ∈ fetches es, e.ask = .read w.verifyingKey := by
  obtain ⟨hasKey, fs, gs, rfl, asked, rest⟩ := Attempt.yields_bind_ok_iff.1 yields
  obtain rfl := yields_ask_ok asked
  rcases hasKey with f | _ | _
  · cases (Attempt.yields_ofExcept_iff.1 rest).2
  · obtain ⟨rfl, -⟩ := Attempt.yields_pure_iff.1 rest
    exact List.forall_mem_nil _
  · obtain ⟨found, fs, hs, rfl, read, rest₂⟩ := Attempt.yields_bind_ok_iff.1 rest
    obtain rfl := yields_readFile_ok read
    obtain ⟨rfl, -⟩ := Attempt.yields_pure_iff.1 rest₂
    exact List.forall_mem_singleton.2 rfl

/-- An artifact holds what was read from the proof file; after that at most the verifying key is read. -/
theorem yields_collect_ok {w : Workspace} (yields : Yields (collect w) es (.ok artifact)) :
    ∃ keys, fetches es = ⟨.read w.proof, .ok artifact.data⟩ :: keys ∧ ∀ e ∈ keys, e.ask = .read w.verifyingKey := by
  obtain ⟨written, fs, gs, rfl, asked, rest₁⟩ := Attempt.yields_bind_ok_iff.1 yields
  obtain rfl := yields_ask_ok asked
  rcases written with f | _ | _
  · cases (Attempt.yields_ofExcept_iff.1 rest₁).2
  · cases (Attempt.yields_fail_iff.1 rest₁).2
  · obtain ⟨data, fs, gs, rfl, read, rest₂⟩ := Attempt.yields_bind_ok_iff.1 rest₁
    obtain rfl := yields_readFile_ok read
    obtain ⟨key, fs, gs, rfl, keyed, rest₃⟩ := Attempt.yields_bind_ok_iff.1 rest₂
    obtain ⟨rfl, h⟩ := Attempt.yields_pure_iff.1 rest₃
    obtain rfl := Except.ok.inj h
    refine ⟨fetches fs, ?_, yields_readKey_ok keyed⟩
    rw [fetches_append, fetches_append, List.append_nil]
    rfl

variable [Time τ]

/-- An invocation that succeeds has opened one workspace, and its artifact holds what it read there. -/
theorem yields_proveDocument_ok {c : Config τ} {requestId : Text} {model : String} {d : Json}
    (yields : Yields (proveDocument c requestId d model) es (.ok artifact)) :
    ∃ dir keys, fetches es = ⟨.openWorkspace c.root (Workspace.stem requestId), .ok dir⟩ ::
        ⟨.read (dir.child "proof.pf"), .ok artifact.data⟩ :: keys ∧
      ∀ e ∈ keys, e.ask = .read (dir.child "vk.key") := by
  obtain ⟨w, fs, gs, rfl, made, rest₁⟩ := Attempt.yields_bind_ok_iff.1 yields
  obtain ⟨opened, fs, hs, rfl, asked, rest₂⟩ := Attempt.yields_bind_ok_iff.1 made
  obtain rfl := yields_ask_ok asked
  rcases opened with f | dir
  · cases (Attempt.yields_ofExcept_iff.1 rest₂).2
  obtain ⟨rfl, h⟩ := Attempt.yields_pure_iff.1 rest₂
  obtain rfl := Except.ok.inj h
  obtain ⟨result, work, rest, rfl, worked, rest₃⟩ := Attempt.yields_outcome_bind_iff.1 rest₁
  obtain ⟨_, closing, hs, rfl, closed, rest₄⟩ := Attempt.yields_bind_ok_iff.1 rest₃
  obtain ⟨rfl, rfl⟩ := Attempt.yields_ofExcept_iff.1 rest₄
  obtain ⟨input, writing, hs, rfl, written, rest₅⟩ := Attempt.yields_bind_ok_iff.1 worked
  obtain ⟨now, fs, hs, rfl, asked', rest₆⟩ := Attempt.yields_bind_ok_iff.1 rest₅
  obtain rfl := yields_ask_ok asked'
  obtain ⟨_, steps, collecting, rfl, stepped, collected⟩ := Attempt.yields_bind_ok_iff.1 rest₆
  obtain ⟨keys, hkeys, own⟩ := yields_collect_ok collected
  refine ⟨dir, keys, ?_, own⟩
  have hwriting := fetches_eq_nil written (never_writeInput fun _ => rfl)
  have hsteps := fetches_eq_nil stepped (never_steps isFetch_of_isWork _ _ _ _ _)
  have hclosing := fetches_eq_nil closed (never_close _ _ rfl)
  simp only [List.append_nil, fetches_append, hwriting, hsteps, hclosing, hkeys]
  rfl

end ProofRelay.Prover
