import ProofRelay.Proofs.Pipeline.Neighbours
import ProofRelay.Proofs.Prover.Solitude

/-!
Isolation of runs that share an invoker and a file tree. Of every run beside others there is one by itself
with the same exchanges, in a tree in which nobody else has worked. And whatever else a run by itself meets,
other directories or another clock, its proof comes to the same as long as its script is the same.
-/

namespace ProofRelay.Relay

open Attempt (Yields)
open Prover (Stall Script View Agree Solo Clears)

variable {τ : Type}

namespace Yard

/-- The directories of all runs but one. -/
def Taken (y : Yard τ) (i : Nat) (dir : Path) : Prop := ∃ j, j ≠ i ∧ (y.stalls j).dir = some dir

/-- A file tree with the stall of one run only. -/
def alone (files : FileTree) (d : Stall τ) : Yard τ := ⟨files, Function.update (fun _ => {}) 0 d⟩

theorem alone_idle (files : FileTree) : alone files {} = (idle files : Yard τ) := by
  rw [alone, Function.update_eq_self_iff.2 rfl]
  rfl

end Yard

section Mirror

variable {c : Prover.Config τ} {temporary home : Path} {scripts : Nat → Script τ} {y y' : Yard τ} {i j : Nat}
  {t₀ : FileTree} {e : Exchange (dialogue τ)}

theorem clears_of_orderly (orderly : y.Orderly home) (i : Nat) : Clears home y.files (y.stalls i) (y.Taken i) := by
  rintro dir' ⟨j, hj, own'⟩
  exact ⟨(orderly.housed j).settled dir' own', fun dir own => orderly.apart i j hj.symm dir dir' own own'⟩

/-- What is done for another run changes nothing for the run by itself. -/
theorem solo_other (orderly : y.Orderly home) (hj : j ≠ i) (housed : (y'.stalls j).Housed y'.files home)
    (touches : Stall.Touches home y.files (y.stalls j) y'.files (y'.stalls j))
    (others : ∀ k, k ≠ j → Stall.Disturbs y.files y'.files (y.stalls k) (y'.stalls k))
    (solo : Solo home y.files (y.stalls i) (y.Taken i) t₀) :
    y'.stalls i = y.stalls i ∧ Solo home y'.files (y'.stalls i) (y'.Taken i) t₀ := by
  have same := fun k hk => ((orderly_touches orderly housed touches others).2 k hk).1
  refine ⟨same i hj.symm, ?_⟩
  rw [same i hj.symm]
  refine solo.other (orderly.housed i) (orderly.housed j) (orderly.apart j i hj) touches
    (fun dir own => ⟨j, hj, own⟩) ?_
  rintro dir ⟨k, hk, given⟩
  by_cases hkj : k = j
  · exact .inr (hkj ▸ given)
  · exact .inl ⟨k, hk, same k hkj ▸ given⟩

theorem taken_eq (same : ∀ j, j ≠ i → y'.stalls j = y.stalls j) : y'.Taken i = y.Taken i := by
  funext dir
  refine propext (exists_congr fun j => and_congr_right fun hj => ?_)
  rw [same j hj]

theorem disturbs_alone (d d' : Stall τ) (t t' : FileTree) (j : Nat) (hj : j ≠ 0) :
    Stall.Disturbs t t' ((Yard.alone t d).stalls j) ((Yard.alone t' d').stalls j) :=
  .inl (by simp [Yard.alone, hj])

/-- An answer to a run may be given as well to the run by itself. -/
theorem solo_answer [Time τ] (orderly : y.Orderly (c.home temporary))
    (may : (terms c temporary (scripts i)).May (y.view i) e.ask)
    (solo : Solo (c.home temporary) y.files (y.stalls i) (y.Taken i) t₀)
    (answer : Yard.Answers c temporary scripts y i e y') :
    ∃ t₁, Yard.Answers c temporary (fun _ => scripts i) (.alone t₀ (y.stalls i)) 0 e (.alone t₁ (y'.stalls i)) ∧
      Solo (c.home temporary) y'.files (y'.stalls i) (y'.Taken i) t₁ := by
  cases answer with
  | chain e => exact ⟨t₀, .chain e, solo⟩
  | now t => exact ⟨t₀, .now t, solo⟩
  | pause d => exact ⟨t₀, .pause d, solo⟩
  | prover answer others =>
    obtain ⟨housed, touches⟩ := (orderly.housed i).answer may answer
    obtain ⟨t₁, answer₁, solo₁⟩ := solo.answer (clears_of_orderly orderly i) (orderly.housed i) may answer
    rw [taken_eq fun j hj => ((orderly_touches orderly housed touches others).2 j hj).1]
    exact ⟨t₁, .prover (by simpa [Yard.alone] using answer₁) (disturbs_alone _ _ _ _), solo₁⟩

/-- An answer to another run is none to the run by itself. -/
theorem solo_answer_other [Time τ] (orderly : y.Orderly (c.home temporary)) (hj : j ≠ i)
    (may : (terms c temporary (scripts j)).May (y.view j) e.ask)
    (solo : Solo (c.home temporary) y.files (y.stalls i) (y.Taken i) t₀)
    (answer : Yard.Answers c temporary scripts y j e y') :
    y'.stalls i = y.stalls i ∧ Solo (c.home temporary) y'.files (y'.stalls i) (y'.Taken i) t₀ := by
  cases answer with
  | chain | now | pause => exact ⟨rfl, solo⟩
  | prover answer others =>
    obtain ⟨housed, touches⟩ := (orderly.housed j).answer may answer
    exact solo_other orderly hj housed touches others solo

/-- Of what processes do, the run by itself has only what its own does. -/
theorem solo_drift (orderly : y.Orderly home) (solo : Solo home y.files (y.stalls i) (y.Taken i) t₀)
    (drifts : y.Drifts y') :
    ∃ t₁, (Yard.alone t₀ (y.stalls i)).Drifts (.alone t₁ (y'.stalls i)) ∧
      Solo home y'.files (y'.stalls i) (y'.Taken i) t₁ := by
  cases drifts with
  | still => exact ⟨t₀, .still _, solo⟩
  | @work _ j dir found running fills same others =>
    obtain ⟨housed, -, touches⟩ := (orderly.housed j).work running fills
    have touches : Stall.Touches home y.files (y.stalls j) y'.files (y'.stalls j) := by rwa [same]
    rw [← same] at housed
    by_cases hj : j = i
    · subst hj
      rw [taken_eq fun k hk => ((orderly_touches orderly housed touches others).2 k hk).1, same]
      have running' : ((Yard.alone t₀ (y.stalls j)).stalls 0).running = some (dir, found) := by
        simpa [Yard.alone] using running
      refine ⟨_, ?_, solo.work (clears_of_orderly orderly j) running fills⟩
      exact .work running' (solo.fills (solo.housed.running _ _ running) fills) rfl (disturbs_alone _ _ _ _)
    · obtain ⟨same', solo'⟩ := solo_other orderly hj housed touches others solo
      exact ⟨t₀, same' ▸ .still _, solo'⟩

end Mirror

section Runs

variable [Time τ] {invoker : Prover.Config τ} {temporary : Path} {jobs : List (Job τ)} {scripts : Nat → Script τ}
  {files : FileTree} {h : History (dialogue τ)} {crowd : Crowd (dialogue τ) (Yard τ) (Except Trouble (Outcome τ))}
  {i : Nat} {job : Job τ}

theorem waits_yard (a : Activity (dialogue τ) (Except Trouble (Outcome τ))) :
    Crowd.Waits (yard invoker temporary scripts) a := by
  cases a with
  | done => trivial
  | ask => rfl

/-- Of a run beside others there is one by itself with the same exchanges. -/
theorem exists_alone (shared : ∀ job ∈ jobs, job.config.prover = invoker) (hjob : jobs[i]? = some job)
    (run : Crowd.Run (yard invoker temporary scripts) ⟨jobs.map Job.activity, .idle files⟩ h crowd) :
    ∃ a t₀, crowd.tasks[i]? = some a ∧
      Crowd.Run (yard invoker temporary fun _ => scripts i) ⟨[job.activity], .idle files⟩ ((h.of i).map (0, ·))
        ⟨[a], .alone t₀ (crowd.state.stalls i)⟩ ∧
      Solo (invoker.home temporary) crowd.state.files (crowd.state.stalls i) (crowd.state.Taken i) t₀ := by
  have start : Crowd.Meets (fun i => terms invoker temporary (scripts i)) Yard.view (fun _ _ _ => True)
      ⟨jobs.map Job.activity, Yard.idle files⟩ := meets_jobs shared
  have orderly := fun {h c}
      (run : Crowd.Run (yard invoker temporary scripts) ⟨jobs.map Job.activity, .idle files⟩ h c) =>
    (parted_yard invoker temporary scripts).run run (orderly_idle _ files) start
  -- The run by itself is built along with the run of all; `Solo` says how its tree lies in the shared one.
  induction run with
  | nil =>
    refine ⟨job.activity, files, by simp [hjob], ?_, ?_⟩
    · rw [show (Yard.idle files : Yard τ).stalls i = {} from rfl, Yard.alone_idle]
      exact .nil
    · refine ⟨fun p => .inr rfl, nofun, ?_, nofun, nofun, nofun⟩
      rintro dir ⟨j, -, given⟩
      cases given
  | @drift h c' y run last ih =>
    obtain ⟨a, t₀, task, lone, solo⟩ := ih
    obtain ⟨t₁, drifts, solo₁⟩ := solo_drift (orderly run).1 solo last
    exact ⟨a, t₁, task, lone.drift drifts, solo₁⟩
  | @step h j e c' c'' run last ih =>
    obtain ⟨a, t₀, task, lone, solo⟩ := ih
    obtain ⟨inv, meets, -⟩ := orderly run
    cases last with
    | @reply q k r y found others answer =>
      have may := (meets j _ found).1
      rw [Crowd.history_of_append]
      by_cases hj : j = i
      · subst hj
        obtain rfl := Option.some.inj (task.symm.trans found)
        obtain ⟨t₁, answer₁, solo₁⟩ := solo_answer inv may solo answer
        refine ⟨k r, t₁, List.getElem?_set_self (List.getElem?_eq_some_iff.1 found).1, ?_, solo₁⟩
        rw [Crowd.history_of_self, List.map_append]
        exact lone.step (.reply rfl (fun _ a _ _ => waits_yard a) answer₁)
      · obtain ⟨same, solo₁⟩ := solo_answer_other inv hj may solo answer
        refine ⟨a, t₀, by rwa [List.getElem?_set_ne hj], ?_, solo₁⟩
        rw [Crowd.history_of_other hj, List.append_nil, same]
        exact lone

/-- What the proof of a job comes to in its exchanges, after two looks at the clock, and the directory that was made
last for it. -/
def Proves (job : Job τ) (es : List (Exchange (dialogue τ))) (x : Except Trouble Prover.Artifact)
    (last : Option Path) : Prop :=
  ∃ t₀ t₁ front rest, es = clock t₀ :: clock t₁ :: (front ++ rest) ∧
    Yields (proofAttempts job.config job.request) front x ∧ lastMade front = last

/-- The commitment that a proof leads to. -/
def commitment? (x : Except Trouble Prover.Artifact) : Option String :=
  x.toOption.map fun artifact => Commitment.ofBytes artifact.data

theorem Course.proves {es : List (Exchange (dialogue τ))} {o : Outcome τ}
    (course : Course job.config job.request es (.ok o)) :
    ∃ x last, Proves job es x last ∧ o.commitment = commitment? x := by
  cases course with
  | unproved _ proof => exact ⟨_, _, ⟨_, _, _, _, rfl, proof, rfl⟩, rfl⟩
  | unsubmitted _ proof | unverified _ proof | finished _ proof => exact ⟨_, _, ⟨_, _, _, _, rfl, proof, rfl⟩, rfl⟩

/-- What the proofs come to in two runs with one script. -/
theorem agree_of_runs {jobs' : List (Job τ)} {temporary' : Path} {scripts' : Nat → Script τ} {files' : FileTree}
    {h' : History (dialogue τ)} {crowd' : Crowd (dialogue τ) (Yard τ) (Except Trouble (Outcome τ))} {i' : Nat}
    (shared : ∀ job ∈ jobs, job.config.prover = invoker) (shared' : ∀ job ∈ jobs', job.config.prover = invoker)
    (hjob : jobs[i]? = some job) (hjob' : jobs'[i']? = some job) (script : scripts' i' = scripts i)
    (run : Crowd.Run (yard invoker temporary scripts) ⟨jobs.map Job.activity, .idle files⟩ h crowd)
    (run' : Crowd.Run (yard invoker temporary' scripts') ⟨jobs'.map Job.activity, .idle files'⟩ h' crowd')
    {x x' : Except Trouble Prover.Artifact} {last last' : Option Path} (proves : Proves job (h.of i) x last)
    (proves' : Proves job (h'.of i') x' last') : Agree last last' x x' := by
  obtain ⟨t₀, t₁, es, rest, front, proof, rfl⟩ := proves
  obtain ⟨t₀', t₁', es', rest', front', proof', rfl⟩ := proves'
  obtain ⟨v, hv, tries⟩ := tries_of_run shared hjob run front proof
  obtain ⟨v', hv', tries'⟩ := tries_of_run shared' hjob' run' front' proof'
  rw [script] at tries'
  rw [← hv, ← hv']
  exact Prover.tries_agree _ _ tries tries' rfl

theorem commitment_eq_of_agree {x x' : Except Trouble Prover.Artifact} {last last' : Option Path}
    (agree : Agree last last' x x') : commitment? x' = commitment? x := by
  have data := congrArg (Option.map Commitment.ofBytes) agree.data
  rwa [Option.map_map, Option.map_map] at data

/-- A run beside others may as well have been by itself, with the same exchanges. And with the same script,
what its proof comes to is the same in every run of it by itself, but for the path of its directory. So its
commitment is the same. -/
theorem proving_isolated (shared : ∀ job ∈ jobs, job.config.prover = invoker) (hjob : jobs[i]? = some job)
    (run : Crowd.Run (yard invoker temporary scripts) ⟨jobs.map Job.activity, .idle files⟩ h crowd) :
    (∃ lone, Crowd.Run (yard invoker temporary fun _ => scripts i) ⟨[job.activity], .idle files⟩
        ((h.of i).map (0, ·)) lone ∧ lone.tasks[0]? = crowd.tasks[i]?) ∧
      ∀ temporary' files' h' lone,
        Crowd.Run (yard invoker temporary' fun _ => scripts i) ⟨[job.activity], .idle files'⟩ h' lone →
          (∀ x x' last last', Proves job (h.of i) x last → Proves job (h'.of 0) x' last' →
            Agree last last' x x' ∧ commitment? x' = commitment? x) ∧
          ∀ o o', crowd.tasks[i]? = some (.done (.ok o)) → lone.tasks[0]? = some (.done (.ok o')) →
            o'.commitment = o.commitment := by
  refine ⟨?_, fun temporary' files' h' lone run' => ?_⟩
  · obtain ⟨a, t₀, task, lone, -⟩ := exists_alone shared hjob run
    exact ⟨_, lone, task.symm⟩
  have alone : [job][0]? = some job := rfl
  have agree : ∀ x x' last last', Proves job (h.of i) x last → Proves job (h'.of 0) x' last' →
      Agree last last' x x' ∧ commitment? x' = commitment? x := by
    intro x x' last last' proves proves'
    have shared' : ∀ j ∈ [job], j.config.prover = invoker := by
      intro j hj
      obtain rfl := List.mem_singleton.1 hj
      exact shared j (List.mem_of_getElem? hjob)
    have agree := agree_of_runs shared shared' hjob alone rfl run run' proves proves'
    exact ⟨agree, commitment_eq_of_agree agree⟩
  refine ⟨agree, fun o o' ended ended' => ?_⟩
  obtain ⟨x, last, proves, commits⟩ := (course_of_run run hjob ended).proves
  obtain ⟨x', last', proves', commits'⟩ := (course_of_run run' alone ended').proves
  rw [commits, commits', (agree x x' last last' proves proves').2]

end Runs

section Plays

variable (temporary : Path)

/-- A new directory, with a number in its name. -/
def openReply? (s : Script Int) (t : FileTree) (d : Stall Int) (root : Option Path) (stem : String) :
    Option (Except Fault Path × FileTree × Stall Int) :=
  let dir := (root.getD temporary).child (stem ++ Decimal.ofNat t.entries.length)
  match (s d.attempts).opening, t.arrive dir, FileTree.checkPath dir with
  | some f, _, _ => some (.error f, t, d.next)
  | none, .absent q, .ok () =>
    if t.isBare q then some (.ok dir, t.put q .directory, { d.next with dir := some dir, last := some dir }) else none
  | none, _, _ => none

/-- A file is written, unless the script refuses it. -/
def writeReply (s : Script Int) (t : FileTree) (d : Stall Int) (file : Path) (content : Bytes) :
    Except Fault Unit × FileTree × Stall Int :=
  match (d.course s).writing, t.write file content with
  | some r, _ => (.error (r.fault file), t, d)
  | none, .error f => (.error f, t, d)
  | none, .ok t' => (.ok (), t', d)

/-- A process is started, unless the script refuses it. -/
def startReply (s : Script Int) (t : FileTree) (d : Stall Int) (dir : Path) :
    Except Fault Nat × FileTree × Stall Int :=
  match ((d.course s).process d.started).refused with
  | some r => (.error (r.fault dir), t, { d with started := d.started + 1 })
  | none => (.ok d.started, t, { d with started := d.started + 1, running := some (dir, t.below dir) })

/-- The process that is running ends within the limit, or goes on. -/
def waitReply? (s : Script Int) (t : FileTree) (d : Stall Int) (n : Nat) (limit : Int) :
    Option (Option Prover.Exit × FileTree × Stall Int) :=
  match d.running with
  | none => none
  | some (dir, found) =>
    match ((d.course s).process n).ends limit found with
    | none => some (none, t, d)
    | some ending =>
      if t.find? dir.place = some .directory ∧ FileTree.isFixed dir.place = false then
        some (some ⟨ending.code, ending.errors.said dir⟩, t.refill dir ending.files, { d with running := none })
      else none

/-- One of the replies that a request may be given: names of directories are numbered, and the clock tells
the time that the script asks for. -/
def reply? (budget : Int) (s : Script Int) (t : FileTree) (d : Stall Int) :
    (q : Prover.Ask Int) → Option (Prover.Reply q × FileTree × Stall Int)
  | .now =>
    let time := d.began.elim 0 fun began => began + budget - (d.course s).left d.started
    some (time, t, { d with began := some (d.began.getD time) })
  | .openWorkspace root stem => openReply? temporary s t d root stem
  | .discard dir => some ((), t.remove dir.place, { d with dir := d.dir.filter (· != dir) })
  | .write file content => some (writeReply s t d file content)
  | .isFile file => some (t.isFile file, t, d)
  | .read file => some (t.read file, t, d)
  | .start _ dir => some (startReply s t d dir)
  | .wait n limit => waitReply? s t d n limit
  | .kill _ => some ((), t, { d with running := none })

section Replies

variable {temporary : Path} {budget : Int} {s : Script Int} {t t' : FileTree} {d d' : Stall Int}

theorem answers_of_openReply? {root : Option Path} {stem : String} {r : Except Fault Path}
    (h : openReply? temporary s t d root stem = some (r, t', d')) :
    Stall.Answers budget temporary s t d ⟨.openWorkspace root stem, r⟩ t' d' := by
  simp only [openReply?] at h
  split at h
  · cases h
    exact .unopened ‹_› (t.makes_self _)
  · split at h
    · cases h
      exact .opened ‹_› (t.makes_self _) rfl ‹_› (FileTree.isBare_of_isBare ‹_›) ‹_›
    · cases h
  · cases h

theorem answers_of_writeReply {file : Path} {content : Bytes} {r : Except Fault Unit}
    (h : writeReply s t d file content = (r, t', d')) :
    Stall.Answers budget temporary s t d ⟨.write file content, r⟩ t' d' := by
  simp only [writeReply] at h
  split at h
  · cases h
    exact .unwritable ‹_›
  · cases h
    exact .unwritten ‹_› ‹_›
  · cases h
    exact .written ‹_› ‹_›

theorem answers_of_startReply {args : List String} {dir : Path} {r : Except Fault Nat}
    (h : startReply s t d dir = (r, t', d')) : Stall.Answers budget temporary s t d ⟨.start args dir, r⟩ t' d' := by
  simp only [startReply] at h
  split at h
  · cases h
    exact .unstarted ‹_›
  · cases h
    exact .started ‹_›

theorem answers_of_waitReply? {n : Nat} {limit : Int} {r : Option Prover.Exit}
    (h : waitReply? s t d n limit = some (r, t', d')) :
    Stall.Answers budget temporary s t d ⟨.wait n limit, r⟩ t' d' := by
  simp only [waitReply?] at h
  split at h
  · cases h
  · split at h
    · cases h
      exact .late ‹_› ‹_›
    · split at h
      · rename_i place
        cases h
        exact .exited ‹_› ‹_› (FileTree.fills_refill place.1 place.2 _) (FileTree.below_refill place.2 _)
      · cases h

/-- The replies are such as may be given. -/
theorem answers_of_reply? {q : Prover.Ask Int} {r : Prover.Reply q}
    (h : reply? temporary budget s t d q = some (r, t', d')) : Stall.Answers budget temporary s t d ⟨q, r⟩ t' d' := by
  cases q with
  | now =>
    cases h
    refine .now _ fun began hb => ?_
    change began + budget - Option.elim d.began 0 _ = _
    rw [hb]
    exact Int.sub_sub_self _ _
  | discard dir =>
    cases h
    exact .discard (fun p off => FileTree.find?_remove off) fun p e => FileTree.of_find?_remove
  | isFile file =>
    cases h
    exact .isFile file
  | read file =>
    cases h
    exact .read file
  | kill n =>
    cases h
    exact .kill n
  | openWorkspace root stem => exact answers_of_openReply? h
  | write file content => exact answers_of_writeReply (Option.some.inj h)
  | start args dir => exact answers_of_startReply (Option.some.inj h)
  | wait n limit => exact answers_of_waitReply? h

end Replies

/-- A chain that cannot be reached. -/
def offline (i : Nat) (q : Client.Ask) : Client.Reply q :=
  match q with
  | .call _ _ => .error ⟨.connection, "unreachable"⟩
  | q => sampleReply i q

/-- Plays of runs in a yard, with no way to the chain. -/
def yardOracle (c : Prover.Config Int) (scripts : Nat → Script Int) : Oracle (yard c temporary scripts) where
  answer i q y :=
    match q with
    | .prover q => (reply? temporary c.timeout (scripts i) y.files (y.stalls i) q).map fun x =>
      (x.1, ⟨x.2.1, Function.update y.stalls i x.2.2⟩)
    | .chain q => some (offline i q, y)
    | .now => some ((0 : Int), y)
    | .pause _ => some ((), y)
  drift y := y
  answers := by
    intro i q y y' r h
    cases q with
    | chain q =>
      cases h
      exact .chain ⟨q, _⟩
    | now =>
      cases h
      exact .now _
    | pause d =>
      cases h
      exact .pause d
    | prover q =>
      obtain ⟨⟨r, t, d⟩, reply, h⟩ := Option.map_eq_some_iff.1 h
      cases h
      refine .prover (e := ⟨q, r⟩) (by simpa using answers_of_reply? reply) fun j hj => .inl ?_
      exact Function.update_of_ne hj ..
  drifts := .still

/-- A process that makes a proof if it finds an input. -/
def maker (proof : Bytes) : Prover.Program Int where
  ends _ found := (found "input.json" []).map fun e => ⟨0, [], [(["input.json"], e), (["proof.pf"], .file proof)]⟩

/-- A process that fails, and tells where. -/
def quitter : Prover.Program Int where
  ends _ _ := some ⟨1, [.here], []⟩

/-- Two runs with different proofs. In the second one the first attempt fails. -/
def twinScripts (i attempt : Nat) : Prover.Course Int where
  left _ := 1
  process _ := if i = 1 ∧ attempt = 0 then quitter else maker [UInt8.ofNat i]

/-- A job with a payload. All of these jobs have one id. -/
def twin (payload : String) : Job Int where
  config := { (Job.sample "A").config with retries := 1 }
  request := ⟨"A", "", payload, none⟩

/-- A play of two jobs with one id, turn by turn. -/
def twinPlay : History (dialogue Int) × Crowd (dialogue Int) (Yard Int) (Except Trouble (Outcome Int)) :=
  Crowd.play (yardOracle ⟨"/", []⟩ (twin "a").config.prover twinScripts)
    (List.replicate 27 [some 0, some 1]).flatten ⟨[twin "a", twin "b"].map Job.activity, .idle {}⟩

/-- A play of the second one by itself, in another place. -/
def lonePlay : History (dialogue Int) × Crowd (dialogue Int) (Yard Int) (Except Trouble (Outcome Int)) :=
  Crowd.play (yardOracle ⟨"", []⟩ (twin "b").config.prover fun _ => twinScripts 1)
    (List.replicate 27 (some 0)) ⟨[(twin "b").activity], .idle {}⟩

/-- Of two runs with one id the second makes its proof at the second attempt. By itself, in another place, it
comes to the same proof. -/
theorem proving_isolated_twin : ∃ h crowd h' lone o o' x x' last last',
    Crowd.Run (yard (twin "a").config.prover ⟨"/", []⟩ twinScripts)
      ⟨[twin "a", twin "b"].map Job.activity, .idle {}⟩ h crowd ∧
    Crowd.Run (yard (twin "b").config.prover ⟨"", []⟩ fun _ => twinScripts 1)
      ⟨[(twin "b").activity], .idle {}⟩ h' lone ∧
    crowd.tasks[1]? = some (.done (.ok o)) ∧ o.failedStage = some .submitting ∧
    lone.tasks[0]? = some (.done (.ok o')) ∧ o'.failedStage = some .submitting ∧
    Proves (twin "b") (h.of 1) x last ∧ Proves (twin "b") (h'.of 0) x' last' ∧
    Agree last last' x x' ∧ o'.commitment = o.commitment := by
  have run : Crowd.Run (yard (twin "a").config.prover ⟨"/", []⟩ twinScripts) _ twinPlay.1 twinPlay.2 :=
    Crowd.run_play _ _ _
  have run' : Crowd.Run (yard (twin "b").config.prover ⟨"", []⟩ fun _ => twinScripts 1) _ lonePlay.1 lonePlay.2 :=
    Crowd.run_play _ _ _
  have ends : (outcome? twinPlay.2 1).any (fun o => o.failedStage = some .submitting) = true ∧
      (outcome? lonePlay.2 0).any (fun o => o.failedStage = some .submitting) = true := by decide +kernel
  have shared : ∀ job ∈ [twin "a", twin "b"], job.config.prover = (twin "a").config.prover := by simp [twin]
  have second : [twin "a", twin "b"][1]? = some (twin "b") := rfl
  have alone : [twin "b"][0]? = some (twin "b") := rfl
  obtain ⟨o, ended, stuck⟩ := exists_of_outcome? ends.1
  obtain ⟨o', ended', stuck'⟩ := exists_of_outcome? ends.2
  obtain ⟨x, last, proves, -⟩ := (course_of_run run second ended).proves
  obtain ⟨x', last', proves', -⟩ := (course_of_run run' alone ended').proves
  obtain ⟨agree, commits⟩ := (proving_isolated shared second run).2 _ _ _ _ run'
  exact ⟨_, _, _, _, o, o', x, x', last, last', run, run', ended, stuck, ended', stuck', proves, proves',
    (agree x x' last last' proves proves').1, commits o o' ended ended'⟩

end Plays

end ProofRelay.Relay
