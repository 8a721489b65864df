import ProofRelay.Proofs.Prover.Yard

/-!
What an attempt to prove a request comes to. It is decided by the course of the attempt alone, but for the
path of the directory in which it takes place.
-/

namespace ProofRelay

namespace Workspace

variable (look : String → Except Fault Bool) (content : String → Except Fault Bytes)

/-- The key in a workspace, if it is there, by what a look at a file and the reading of it come to. -/
def gatherKey : Except Trouble (Option Bytes) := do
  if ← (look "vk.key").mapError Prover.unreadableProof then
    return some (← (content "vk.key").mapError Prover.unreadableProof)
  else return none

/-- The proof and the key in a workspace. -/
def gather (w : Workspace) : Except Trouble Prover.Artifact := do
  if ← (look "proof.pf").mapError .fault then
    let data ← (content "proof.pf").mapError Prover.unreadableProof
    return ⟨w.requestId, data, w.proof.toString, ← gatherKey look content⟩
  else .error (.failure (Prover.missingProof w))

end Workspace

/-- The proof and the key that are read from a directory. -/
def Contents.artifact (files : Contents) (w : Workspace) : Except Trouble Prover.Artifact :=
  w.gather (files.look w.root) files.content

namespace Prover

variable {τ : Type}

section Reading

variable {ω : Type} {T : Terms (dialogue τ) ω} {s : ω} {dir : Path} {look : String → Except Fault Bool}
  {content : String → Except Fault Bytes} {name : String}

/-- A file in a directory may be looked for and read, which changes nothing, and this is what it comes to. -/
structure Tells (T : Terms (dialogue τ) ω) (s : ω) (dir : Path) (look : String → Except Fault Bool)
    (content : String → Except Fault Bytes) (name : String) : Prop where
  mayLook : T.May s (.isFile (dir.child name))
  looks : ∀ r s', T.Answers s ⟨.isFile (dir.child name), r⟩ s' → r = look name ∧ s' = s
  mayRead : T.May s (.read (dir.child name))
  reads : look name = .ok true → ∀ r s', T.Answers s ⟨.read (dir.child name), r⟩ s' → r = content name ∧ s' = s

theorem Tells.meets_readFile (tells : Tells T s dir look content name) (there : look name = .ok true) :
    (readFile (dir.child name)).Meets T s fun r s' => r = (content name).mapError unreadableProof ∧ s' = s := by
  refine Attempt.meets_query_bind tells.mayRead fun r s' answer => ?_
  obtain ⟨rfl, rfl⟩ := tells.reads there r s' answer
  cases content name with
  | error f => exact ⟨rfl, rfl⟩
  | ok data => exact ⟨rfl, rfl⟩

theorem meets_readKey {w : Workspace} (key : Tells T s w.root look content "vk.key") :
    (readKey w).Meets T s fun r s' => r = Workspace.gatherKey look content ∧ s' = s := by
  refine Attempt.meets_query_bind key.mayLook fun r s' answer => ?_
  obtain ⟨rfl, rfl⟩ := key.looks r s' answer
  rw [Workspace.gatherKey]
  rcases there : look "vk.key" with f | _ | _
  · exact ⟨rfl, rfl⟩
  · exact ⟨rfl, rfl⟩
  · refine Attempt.Meets.map ((key.meets_readFile there).mono ?_)
    rintro r s ⟨rfl, rfl⟩
    cases content "vk.key" with
    | error f => exact ⟨rfl, rfl⟩
    | ok data => exact ⟨rfl, rfl⟩

/-- What is collected is what is there. -/
theorem meets_collect {w : Workspace} (proof : Tells T s w.root look content "proof.pf")
    (key : Tells T s w.root look content "vk.key") :
    (collect w).Meets T s fun r s' => r = w.gather look content ∧ s' = s := by
  refine Attempt.meets_query_bind proof.mayLook fun r s' answer => ?_
  obtain ⟨rfl, rfl⟩ := proof.looks r s' answer
  rw [Workspace.gather]
  rcases there : look "proof.pf" with f | _ | _
  · exact ⟨rfl, rfl⟩
  · exact ⟨rfl, rfl⟩
  refine Attempt.Meets.bind ((proof.meets_readFile there).mono ?_)
  rintro r s ⟨rfl, rfl⟩
  cases content "proof.pf" with
  | error f => exact ⟨rfl, rfl⟩
  | ok data =>
    refine Attempt.Meets.bind ((meets_readKey key).mono ?_)
    rintro r s ⟨rfl, rfl⟩
    cases Workspace.gatherKey look content with
    | error f => exact ⟨rfl, rfl⟩
    | ok key => exact ⟨rfl, rfl⟩

end Reading

/-- What a process leaves if it is started in a directory, with some of the budget left. -/
def Program.outcome [Time τ] (p : Program τ) (c : Config τ) (s : Step) (dir : Path) (left : τ) (found : Contents) :
    Except Trouble Contents :=
  if Time.le left Time.zero then .error (.failure (exhausted c s))
  else
    match p.refused with
    | some r => .error (notStarted s (r.fault dir))
    | none =>
      match p.ends left found with
      | none => .error (.failure (overrun c s))
      | some e =>
        if e.code = 0 then .ok e.contents else .error (.failure (exited s ⟨e.code, e.errors.said dir⟩))

namespace Course

variable [Time τ]

/-- What one of the two processes of an attempt leaves. -/
def outcome (k : Course τ) (c : Config τ) (model : String) (w : Workspace) (n : Nat) (s : Step) (found : Contents) :
    Except Trouble Contents := do
  let _ ← (commandLine c s.template w.input.toString model w).mapError Trouble.fault
  (k.process n).outcome c s w.root (k.left n) found

/-- What both processes leave. -/
def leaves (k : Course τ) (c : Config τ) (model : String) (w : Workspace) (found : Contents) :
    Except Trouble Contents := do
  let keys ← k.outcome c model w 0 .setup found
  k.outcome c model w 1 .prove keys

/-- What an attempt comes to in a new directory. -/
def result (k : Course τ) (c : Config τ) (document : Json) (model : String) (w : Workspace) :
    Except Trouble Artifact := do
  let text ← (document.write c.levels).mapError Trouble.fault
  match k.writing with
  | some r => .error (Workspace.failure "Could not write prover input" (r.fault w.input))
  | none =>
    let files ← k.leaves c model w (Contents.empty.put "input.json" (.file (Utf8.encode text)))
    files.artifact w

end Course

/-- A request in its directory, between two processes. -/
def View.between (m : Nat) (dir : Path) (began : Option τ) (n : Nat) (files : Contents) : View τ :=
  ⟨{ attempts := m + 1, dir := some dir, last := some dir, began := began, started := n }, files⟩

/-- A request in its directory, whatever it has come to. -/
structure View.Within (v : View τ) (m : Nat) (dir : Path) : Prop where
  attempts : v.stall.attempts = m + 1
  own : v.stall.dir = some dir
  last : v.stall.last = some dir
  idle : v.stall.running = none

theorem View.within_between (m : Nat) (dir : Path) (began : Option τ) (n : Nat) (files : Contents) :
    (View.between m dir began n files).Within m dir :=
  ⟨rfl, rfl, rfl, rfl⟩

/-- One process is over: it leaves something, or the work is over with trouble. -/
def View.Went (m : Nat) (dir : Path) (began : τ) (n : Nat) (x : Except Trouble Contents) (r : Except Trouble Unit)
    (v : View τ) : Prop :=
  match x with
  | .ok files => r = .ok () ∧ v = .between m dir (some began) n files
  | .error t => r = .error t ∧ v.Within m dir

/-- Work that goes on if a process leaves something. -/
theorem meets_bind_of_went {β : Type} {T : Terms (dialogue τ) (View τ)} {v : View τ} {m n : Nat} {dir : Path}
    {began : τ} {x : Except Trouble Contents} {a : Attempt (dialogue τ) Unit}
    {f : Unit → Attempt (dialogue τ) β} {Q : Except Trouble β → View τ → Prop}
    (meets : a.Meets T v (View.Went m dir began n x))
    (good : ∀ files, x = .ok files → (f ()).Meets T (.between m dir (some began) n files) Q)
    (bad : ∀ t v, x = .error t → v.Within m dir → Q (.error t) v) : (a >>= f).Meets T v Q := by
  refine Attempt.Meets.bind (meets.mono fun r v went => ?_)
  cases x with
  | ok files =>
    obtain ⟨rfl, rfl⟩ := went
    exact good files rfl
  | error t =>
    obtain ⟨rfl, within⟩ := went
    exact bad t v rfl within

section Attempts

variable [Time τ]

variable {c : Config τ} {temporary dir : Path} {s : Script τ} {m n : Nat} {began : τ} {found : Contents}

theorem isPlain_input : FileTree.IsPlain "input.json" := ⟨by decide, by decide, by decide⟩

theorem isPlain_proof : FileTree.IsPlain "proof.pf" := ⟨by decide, by decide, by decide⟩

theorem isPlain_key : FileTree.IsPlain "vk.key" := ⟨by decide, by decide, by decide⟩

/-- The next process goes as its program says. -/
theorem meets_runStep (step : Step) (args : List String) :
    (runStep c step args dir (Time.add began c.timeout)).Meets (terms c temporary s)
      (.between m dir (some began) n found)
      (View.Went m dir began (n + 1) (((s m).process n).outcome c step dir ((s m).left n) found)) := by
  refine Attempt.meets_query_bind trivial fun time v answer => ?_
  obtain ⟨rfl, left⟩ := reply_now answer
  have left : Time.sub (Time.add began c.timeout) time = (s m).left n := left began rfl
  rw [Program.outcome, ← left]
  by_cases spent : Time.le (Time.sub (Time.add began c.timeout) time) Time.zero = true
  · simp only [if_pos spent]
    exact ⟨rfl, rfl, rfl, rfl, rfl⟩
  simp only [if_neg spent]
  refine Attempt.meets_query_bind ⟨rfl, rfl⟩ fun r v answer => ?_
  rcases reply_start answer rfl rfl with ⟨x, refused, rfl, rfl⟩ | ⟨willing, rfl, stall⟩
  · have refused : ((s m).process n).refused = some x := refused
    rw [refused]
    exact ⟨rfl, rfl, rfl, rfl, rfl⟩
  have willing : ((s m).process n).refused = none := willing
  rw [willing]
  obtain ⟨_, files⟩ := v
  obtain rfl : _ = _ := stall
  refine Attempt.meets_query_bind trivial fun r v answer => ?_
  rcases reply_wait answer rfl with ⟨e, ends, rfl, rfl⟩ | ⟨ends, rfl, rfl⟩
  · have ends : ((s m).process n).ends (Time.sub (Time.add began c.timeout) time) found = some e := ends
    simp only [ends]
    by_cases good : e.code = 0
    · simp only [if_pos good]
      exact ⟨rfl, rfl⟩
    · simp only [if_neg good]
      exact ⟨rfl, rfl, rfl, rfl, rfl⟩
  · have ends : ((s m).process n).ends (Time.sub (Time.add began c.timeout) time) found = none := ends
    simp only [ends]
    refine Attempt.meets_query_bind trivial fun _ v answer => ?_
    have stall := reply_kill answer
    exact ⟨rfl, by rw [stall]; rfl, by rw [stall]; rfl, by rw [stall]; rfl, by rw [stall]⟩

/-- A process that fails to start, or ends with trouble, ends the attempt's work. -/
theorem meets_runTemplate (model : String) (w : Workspace) (step : Step) :
    (runTemplate c w.input.toString model w (Time.add began c.timeout) step).Meets (terms c temporary s)
      (.between m w.root (some began) n found)
      (View.Went m w.root began (n + 1) ((s m).outcome c model w n step found)) := by
  refine Attempt.Meets.bind (Attempt.meets_ofExcept ?_)
  rw [Course.outcome]
  cases commandLine c step.template w.input.toString model w with
  | error f => exact ⟨rfl, View.within_between ..⟩
  | ok args => exact meets_runStep step args

theorem View.Within.tells {v : View τ} (within : v.Within m dir) {name : String} (plain : FileTree.IsPlain name) :
    Tells (terms c temporary s) v dir (v.files.look dir) v.files.content name where
  mayLook := ⟨within.idle, dir, name, within.own, rfl, plain⟩
  looks _ _ answer := reply_isFile answer within.idle within.own plain
  mayRead := ⟨within.idle, dir, name, within.own, rfl, plain⟩
  reads there _ _ answer := reply_read answer within.idle within.own plain there

/-- Both processes, one after the other. -/
theorem meets_steps (model : String) (w : Workspace) :
    (Step.all.forM (runTemplate c w.input.toString model w (Time.add began c.timeout))).Meets (terms c temporary s)
      (.between m w.root (some began) 0 found) (View.Went m w.root began 2 ((s m).leaves c model w found)) := by
  rw [Course.leaves]
  refine meets_bind_of_went (meets_runTemplate model w .setup) ?_ ?_
  · intro keys left
    rw [left]
    refine meets_bind_of_went (meets_runTemplate model w .prove) ?_ ?_
    · intro files left
      change View.Went m w.root began 2 ((s m).outcome c model w 1 .prove keys) (.ok ()) _
      rw [show (s m).outcome c model w 1 .prove keys = .ok files from left]
      exact ⟨rfl, rfl⟩
    · intro t v failed within
      change View.Went m w.root began 2 ((s m).outcome c model w 1 .prove keys) (.error t) v
      rw [show (s m).outcome c model w 1 .prove keys = .error t from failed]
      exact ⟨rfl, within⟩
  · intro t v failed within
    rw [failed]
    exact ⟨rfl, within⟩

/-- Both processes, and then the proof is read. -/
theorem meets_generate (model : String) (w : Workspace) :
    (generate c w.input model w).Meets (terms c temporary s) (.between m w.root none 0 found) fun r v =>
      r = ((s m).leaves c model w found >>= (Contents.artifact · w)) ∧ v.Within m w.root := by
  refine Attempt.meets_query_bind trivial fun (began : τ) v answer => ?_
  have begun : v = .between m w.root (some began) 0 found := (reply_now answer).1
  subst begun
  refine meets_bind_of_went (meets_steps model w) ?_ ?_
  · intro files left
    have within := View.within_between m w.root (some began) 2 files
    refine (meets_collect (within.tells isPlain_proof) (within.tells isPlain_key)).mono ?_
    rintro r v ⟨rfl, rfl⟩
    exact ⟨by rw [left]; rfl, View.within_between ..⟩
  · intro t v failed within
    exact ⟨by rw [failed]; rfl, within⟩

/-- The work in a new directory. -/
theorem meets_work (document : Json) (model : String) (w : Workspace) :
    (do let input ← w.writeInput c.levels document; generate c input model w : Attempt (dialogue τ) Artifact).Meets
      (terms c temporary s) (.between m w.root none 0 .empty) fun r v =>
        r = (s m).result c document model w ∧ v.Within m w.root := by
  refine Attempt.Meets.bind (Attempt.Meets.bind (Attempt.meets_ofExcept ?_))
  rw [Course.result]
  cases document.write c.levels with
  | error f => exact ⟨rfl, View.within_between ..⟩
  | ok text =>
    refine Attempt.meets_query_bind ⟨rfl, w.root, _, rfl, rfl, isPlain_input⟩ fun r v answer => ?_
    rcases reply_write answer rfl rfl isPlain_input rfl with ⟨x, refused, rfl, rfl⟩ | ⟨willing, rfl, rfl⟩
    · have refused : (s m).writing = some x := refused
      rw [refused]
      exact ⟨rfl, View.within_between ..⟩
    · have willing : (s m).writing = none := willing
      rw [willing]
      exact meets_generate model w

/-- How an attempt may end by its course: no directory is made for it, or it comes to the result of the course there. -/
inductive Course.Gives (k : Course τ) (c : Config τ) (requestId : Text) (document : Json) (model : String) :
    Option Path → Except Trouble Artifact → Prop where
  | unopened {last : Option Path} {f : Fault} (refused : k.opening = some f) :
      Gives k c requestId document model last (.error (Workspace.failure "Could not create prover workspace" f))
  | worked (dir : Path) (willing : k.opening = none) :
      Gives k c requestId document model (some dir) (k.result c document model ⟨requestId, dir⟩)

/-- An attempt ends as its course gives it. -/
theorem meets_proveDocument {v : View τ} (idle : v.stall.running = none) (requestId : Text) (document : Json)
    (model : String) :
    (proveDocument c requestId document model).Meets (terms c temporary s) v fun r v' =>
      v'.stall.running = none ∧ v'.stall.attempts = v.stall.attempts + 1 ∧
        (s v.stall.attempts).Gives c requestId document model v'.stall.last r := by
  refine Attempt.Meets.bind (Attempt.meets_query_bind ⟨rfl, idle⟩ fun r v' answer => ?_)
  rcases reply_openWorkspace answer idle with ⟨f, refused, rfl, stall⟩ | ⟨willing, dir, rfl, rfl⟩
  · refine ⟨?_, ?_, .unopened refused⟩
    · rw [stall]
      exact idle
    · rw [stall]
      rfl
  refine Attempt.Meets.outcome_bind ((meets_work document model ⟨requestId, dir⟩).mono ?_)
  rintro r v' ⟨rfl, within⟩
  have given : (s v.stall.attempts).Gives c requestId document model v'.stall.last
      ((s v.stall.attempts).result c document model ⟨requestId, dir⟩) := within.last ▸ .worked dir willing
  rw [Workspace.close]
  split
  · exact ⟨within.idle, within.attempts, given⟩
  · refine Attempt.meets_query_bind ⟨within.own, within.idle⟩ fun _ v'' answer => ?_
    have stall := reply_discard answer within.own
    refine ⟨?_, ?_, ?_⟩
    · rw [stall]
      exact within.idle
    · rw [stall]
      exact within.attempts
    · rw [stall]
      exact given

end Attempts

end Prover

end ProofRelay
