import ProofRelay.Proofs.Activity.Terms
import ProofRelay.Prover.Invocation

/-!
What one attempt to prove a request may ask, by what it was answered before. It first asks for a directory, and
for no other one later; all files and processes are those of that directory. The time that it gives to a process
is what is left of its budget, and the budget begins to run when the attempt first looks at the clock. So
nothing of an earlier attempt is used, neither its directory nor its time.
-/

namespace ProofRelay

namespace Prover

variable {τ : Type}

/-- The directory that was given. -/
def workspace? (es : List (Exchange (dialogue τ))) : Option Path :=
  es.findSome? fun
    | ⟨.openWorkspace _ _, .ok dir⟩ => some dir
    | _ => none

/-- The times that were told, in their order. -/
def readings (es : List (Exchange (dialogue τ))) : List τ :=
  es.filterMap fun
    | ⟨.now, time⟩ => some time
    | _ => none

/-- The processes that were started. -/
def processes (es : List (Exchange (dialogue τ))) : List Nat :=
  es.filterMap fun
    | ⟨.start _ _, .ok process⟩ => some process
    | _ => none

/-- What an attempt may ask after some exchanges. -/
def Allowed [Time τ] (c : Config τ) (requestId : Text) (before : List (Exchange (dialogue τ))) : Ask τ → Prop
  | .openWorkspace root stem => before = [] ∧ root = c.root ∧ stem = Workspace.stem requestId
  | .now => (workspace? before).isSome
  | .discard dir | .start _ dir => workspace? before = some dir
  | .write file _ | .isFile file | .read file => ∃ dir name, workspace? before = some dir ∧ file = dir.child name
  | .wait process limit => process ∈ processes before ∧ ∃ began latest, (readings before).head? = some began ∧
      (readings before).getLast? = some latest ∧ limit = Time.sub (Time.add began c.timeout) latest
  | .kill process => process ∈ processes before

/-- All that is asked in some exchanges may be asked when it is. -/
def Disciplined [Time τ] (c : Config τ) (requestId : Text) (es : List (Exchange (dialogue τ))) : Prop :=
  ∀ before e after, es = before ++ e :: after → Allowed c requestId before e.ask

/-- The directory of an attempt is given, and its budget has begun to run. -/
structure Underway (dir : Path) (began : τ) (es : List (Exchange (dialogue τ))) : Prop where
  workspace : workspace? es = some dir
  began : (readings es).head? = some began

theorem workspace?_append {es : List (Exchange (dialogue τ))} {dir : Path} (given : workspace? es = some dir)
    (fs : List (Exchange (dialogue τ))) : workspace? (es ++ fs) = some dir := by
  rw [workspace?] at given
  rw [workspace?, List.findSome?_append, given]
  rfl

theorem readings_append (es fs : List (Exchange (dialogue τ))) : readings (es ++ fs) = readings es ++ readings fs :=
  List.filterMap_append

theorem processes_append (es fs : List (Exchange (dialogue τ))) :
    processes (es ++ fs) = processes es ++ processes fs :=
  List.filterMap_append

theorem Underway.append {dir : Path} {began : τ} {es : List (Exchange (dialogue τ))} (underway : Underway dir began es)
    (fs : List (Exchange (dialogue τ))) : Underway dir began (es ++ fs) := by
  refine ⟨workspace?_append underway.workspace fs, ?_⟩
  rw [readings_append, List.head?_append, underway.began]
  rfl

section Attempts

variable [Time τ] {c : Config τ} {requestId : Text} {es : List (Exchange (dialogue τ))} {dir : Path} {began : τ}

theorem meets_runStep_allowed (underway : Underway dir began es) (step : Step) (args : List String) :
    (runStep c step args dir (Time.add began c.timeout)).Meets (.recorded (Allowed c requestId)) es fun _ es' =>
      Underway dir began es' := by
  refine Attempt.meets_recorded_bind (Option.isSome_of_eq_some underway.workspace) fun (time : τ) => ?_
  have underway₁ := underway.append [⟨.now, time⟩]
  dsimp only
  split
  · exact underway₁
  refine Attempt.meets_recorded_bind underway₁.workspace fun started => ?_
  have underway₂ := underway₁.append [⟨.start args dir, started⟩]
  cases started with
  | error f => exact underway₂
  | ok process =>
    have own : process ∈ processes (es ++ [⟨.now, time⟩] ++ [⟨.start args dir, .ok process⟩]) := by
      rw [processes_append]
      exact List.mem_append_right _ List.mem_cons_self
    have latest : (readings (es ++ [⟨.now, time⟩] ++ [⟨.start args dir, .ok process⟩])).getLast? = some time := by
      rw [readings_append, readings_append]
      simp [readings]
    refine Attempt.meets_recorded_bind ⟨own, began, time, underway₂.began, latest, rfl⟩ fun ended => ?_
    have underway₃ := underway₂.append [⟨.wait process (Time.sub (Time.add began c.timeout) time), ended⟩]
    cases ended with
    | none =>
      have own₃ : process ∈ processes (es ++ [⟨.now, time⟩] ++ [⟨.start args dir, .ok process⟩] ++
          [⟨.wait process (Time.sub (Time.add began c.timeout) time), none⟩]) := by
        rw [processes_append]
        exact List.mem_append_left _ own
      exact Attempt.meets_recorded_bind own₃ fun _ => underway₃.append _
    | some e =>
      dsimp only
      split
      · exact underway₃
      · exact underway₃

theorem meets_runTemplate_allowed (underway : Underway dir began es) (input model : String) (step : Step) :
    (runTemplate c input model ⟨requestId, dir⟩ (Time.add began c.timeout) step).Meets
      (.recorded (Allowed c requestId)) es fun _ es' => Underway dir began es' := by
  refine Attempt.Meets.bind (Attempt.meets_ofExcept ?_)
  cases commandLine c step.template input model ⟨requestId, dir⟩ with
  | error f => exact underway
  | ok args => exact meets_runStep_allowed underway step args

theorem meets_steps_allowed (underway : Underway dir began es) (input model : String) :
    (Step.all.forM (runTemplate c input model ⟨requestId, dir⟩ (Time.add began c.timeout))).Meets
      (.recorded (Allowed c requestId)) es fun _ es' => Underway dir began es' := by
  refine Attempt.Meets.bind ((meets_runTemplate_allowed underway input model .setup).mono ?_)
  rintro (t | _) es₁ underway₁
  · exact underway₁
  refine Attempt.Meets.bind ((meets_runTemplate_allowed underway₁ input model .prove).mono ?_)
  rintro (t | _) es₂ underway₂
  · exact underway₂
  · exact underway₂

theorem meets_readFile_allowed (underway : Underway dir began es) (name : String) :
    (readFile (dir.child name)).Meets (.recorded (Allowed c requestId)) es fun _ es' => Underway dir began es' := by
  refine Attempt.meets_recorded_bind ⟨dir, name, underway.workspace, rfl⟩ fun r => ?_
  cases r with
  | error f => exact underway.append _
  | ok content => exact underway.append _

theorem meets_readKey_allowed (underway : Underway dir began es) :
    (readKey ⟨requestId, dir⟩).Meets (.recorded (Allowed c requestId)) es fun _ es' => Underway dir began es' := by
  refine Attempt.meets_recorded_bind ⟨dir, _, underway.workspace, rfl⟩ fun (there : Except Fault Bool) => ?_
  have underway₁ := underway.append [⟨.isFile (dir.child "vk.key"), there⟩]
  rcases there with f | _ | _
  · exact underway₁
  · exact underway₁
  · refine Attempt.Meets.map ((meets_readFile_allowed underway₁ "vk.key").mono ?_)
    rintro (t | key) es₂ underway₂
    · exact underway₂
    · exact underway₂

theorem meets_collect_allowed (underway : Underway dir began es) :
    (collect ⟨requestId, dir⟩).Meets (.recorded (Allowed c requestId)) es fun _ es' => Underway dir began es' := by
  refine Attempt.meets_recorded_bind ⟨dir, _, underway.workspace, rfl⟩ fun (there : Except Fault Bool) => ?_
  have underway₁ := underway.append [⟨.isFile (dir.child "proof.pf"), there⟩]
  rcases there with f | _ | _
  · exact underway₁
  · exact underway₁
  · refine Attempt.Meets.bind ((meets_readFile_allowed underway₁ "proof.pf").mono ?_)
    rintro (t | data) es₂ underway₂
    · exact underway₂
    refine Attempt.Meets.bind ((meets_readKey_allowed underway₂).mono ?_)
    rintro (t | key) es₃ underway₃
    · exact underway₃
    · exact underway₃

/-- The budget begins to run when both processes are still to come. -/
theorem meets_generate_allowed (given : workspace? es = some dir) (unread : readings es = []) (input : Path)
    (model : String) :
    (generate c input model ⟨requestId, dir⟩).Meets (.recorded (Allowed c requestId)) es fun _ es' =>
      workspace? es' = some dir := by
  refine Attempt.meets_recorded_bind (Option.isSome_of_eq_some given) fun (began : τ) => ?_
  have underway : Underway dir began (es ++ [⟨.now, began⟩]) := by
    refine ⟨workspace?_append given _, ?_⟩
    rw [readings_append, unread]
    rfl
  refine Attempt.Meets.bind ((meets_steps_allowed underway input.toString model).mono ?_)
  rintro (t | _) es₁ underway₁
  · exact underway₁.workspace
  · exact (meets_collect_allowed underway₁).mono fun _ _ underway₂ => underway₂.workspace

/-- An attempt that has not asked for anything yet keeps to its own directory and its own time. -/
theorem meets_proveDocument_allowed (d : Json) (model : String) :
    (proveDocument c requestId d model).Meets (.recorded (Allowed c requestId)) [] fun _ _ => True := by
  refine Attempt.Meets.bind (Attempt.meets_recorded_bind ⟨rfl, rfl, rfl⟩ fun r => ?_)
  cases r with
  | error f => trivial
  | ok dir =>
    have given : workspace? ([] ++ [⟨.openWorkspace c.root (Workspace.stem requestId), .ok dir⟩] :
      List (Exchange (dialogue τ))) = some dir := rfl
    have work : (do
        let input ← Workspace.writeInput ⟨requestId, dir⟩ c.levels d
        generate c input model ⟨requestId, dir⟩ :
          Attempt (dialogue τ) Artifact).Meets (.recorded (Allowed c requestId))
        ([] ++ [⟨.openWorkspace c.root (Workspace.stem requestId), .ok dir⟩])
        fun _ es' => workspace? es' = some dir := by
      refine Attempt.Meets.bind (Attempt.Meets.bind (Attempt.meets_ofExcept ?_))
      cases d.write c.levels with
      | error f => exact given
      | ok text =>
        refine Attempt.meets_recorded_bind ⟨dir, _, given, rfl⟩ fun r => ?_
        cases r with
        | error f => exact workspace?_append given _
        | ok _ => exact meets_generate_allowed (workspace?_append given _) rfl _ model
    refine Attempt.Meets.outcome_bind (work.mono fun r es₁ given₁ => ?_)
    rw [Workspace.close]
    split
    · trivial
    · exact Attempt.meets_recorded_bind given₁ fun _ => trivial

/-- On every path of an attempt all is asked as it may be. -/
theorem disciplined_of_path {d : Json} {model : String} {b : Activity (dialogue τ) (Except Trouble Artifact)}
    (path : Activity.Path (proveDocument c requestId d model).run es b) : Disciplined c requestId es := by
  rintro before e after rfl
  exact Activity.Meets.may (meets_proveDocument_allowed d model) path (Terms.leads_recorded [] before)

end Attempts

end Prover

end ProofRelay
