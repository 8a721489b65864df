import ProofRelay.Proofs.Prover.Attempts

/-!
Two attempts with one course. They take place in different directories, and their results agree but for the
paths of these: a proof is the same, and trouble is of the same kind, with the same message and with a text
that differs in nothing but the path of the directory.
-/

namespace ProofRelay

/-- Two results that are both there, or both missing for one reason. -/
def Matches {ε α β : Type} (x : Except ε α) (y : Except ε β) : Prop := x.map (fun _ => ()) = y.map fun _ => ()

theorem Matches.bind {ε α β γ δ : Type} {x : Except ε α} {y : Except ε β} {f : α → Except ε γ} {g : β → Except ε δ}
    (first : Matches x y) (rest : ∀ a b, Matches (f a) (g b)) : Matches (x >>= f) (y >>= g) := by
  cases x with
  | error e =>
    cases y with
    | error e' =>
      obtain rfl := Except.error.inj first
      rfl
    | ok b => cases first
  | ok a =>
    cases y with
    | error e' => cases first
    | ok b => exact rest a b

theorem Matches.map {ε α β γ δ : Type} {x : Except ε α} {y : Except ε β} (first : Matches x y) (f : α → γ) (g : β → δ) :
    Matches (x.map f) (y.map g) := by
  cases x <;> cases y <;> exact first

namespace Template

variable {vs vs' : Values}

/-- Values for the same names, of which the same have a text. -/
def Values.Alike (vs vs' : Values) : Prop :=
  ∀ name, (vs' name).map (·.map fun _ => ()) = (vs name).map (·.map fun _ => ())

theorem valueOf_congr (same : vs.Alike vs') (name : List Char) : Matches (valueOf vs' name) (valueOf vs name) := by
  have same := same (String.ofList name)
  unfold valueOf
  split
  · rfl
  · cases h' : vs' (String.ofList name) with
    | none => cases h : vs (String.ofList name) <;> simp [h, h'] at same <;> rfl
    | some v' =>
      cases h : vs (String.ofList name) with
      | none => simp [h, h'] at same
      | some v =>
        rw [h, h'] at same
        exact Option.some.inj same

/-- Whether a word can be filled in, and with which fault if not, is decided by which values there are. -/
theorem fill_congr (same : vs.Alike vs') (s : List Char) :
    Matches (fill vs' s) (fill vs s) := by
  fun_induction fill vs s with
  | case1 | case5 =>
    rw [fill]
    rfl
  | case2 rest ih | case3 rest ih =>
    rw [fill]
    exact ih.bind fun _ _ => rfl
  | case4 rest single =>
    rw [fill]
    · rfl
    · exact single
  | case6 rest single more unclosed =>
    rw [fill.eq_6 _ _ single more]
    split
    · rfl
    · rename_i closed
      cases unclosed.symm.trans closed
  | case7 rest single more name after closed nested =>
    rw [fill.eq_6 _ _ single more]
    split
    · rename_i unclosed
      cases unclosed.symm.trans closed
    · rename_i closed'
      obtain ⟨rfl, rfl⟩ := Prod.mk.inj (Option.some.inj (closed.symm.trans closed'))
      rw [if_pos nested]
      rfl
  | case8 rest single more name after closed plain ih =>
    rw [fill.eq_6 _ _ single more]
    split
    · rename_i unclosed
      cases unclosed.symm.trans closed
    · rename_i closed'
      obtain ⟨rfl, rfl⟩ := Prod.mk.inj (Option.some.inj (closed.symm.trans closed'))
      rw [if_neg plain]
      exact (valueOf_congr same name).bind fun _ _ => ih.bind fun _ _ => rfl
  | case9 c rest h₁ h₂ h₃ h₄ h₅ ih =>
    rw [fill.eq_7 _ _ _ h₁ h₂ h₃ h₄ h₅]
    exact ih.bind fun _ _ => rfl

theorem render_congr (same : vs.Alike vs') (template : List String) :
    Matches (render vs' template) (render vs template) := by
  induction template with
  | nil => rfl
  | cons word rest ih =>
    rw [render, render, List.mapM_cons, List.mapM_cons]
    exact ((fill_congr same word.toList).map _ _).bind fun _ _ => ih.bind fun _ _ => rfl

end Template

namespace Prover

variable {τ α β : Type} {c : Config τ} {dir dir' : Path}

theorem commandLine_congr (template : List String) (input input' model : String) (w w' : Workspace) :
    Matches (commandLine c template input' model w') (commandLine c template input model w) := by
  refine (Template.render_congr (fun name => ?_) template).map _ _
  unfold values
  split <;> rfl

/-- Texts that are the same but for the path of a directory: what a process says there, or a fault with the
directory or a file in it. -/
inductive Echoes (dir dir' : Path) : Text → Text → Prop where
  | same (text : Text) : Echoes dir dir' text text
  | said (w : Wording) : Echoes dir dir' (Utf8.decodeLossy (w.said dir)) (Utf8.decodeLossy (w.said dir'))
  | here (number : Int) (message : String) :
      Echoes dir dir' (Fault.system number message (some dir.toString)).text
        (Fault.system number message (some dir'.toString)).text
  | file (number : Int) (message name : String) :
      Echoes dir dir' (Fault.system number message (some (dir.child name).toString)).text
        (Fault.system number message (some (dir'.child name).toString)).text

/-- Faults of one kind, with texts that are the same but for the directory. -/
structure FaultAlike (dir dir' : Path) (f f' : Fault) : Prop where
  kind : f'.kind = f.kind
  text : Echoes dir dir' f.text f'.text

/-- Trouble of one kind, with one message, and with texts that are the same but for the directory. -/
inductive TroubleAlike (dir dir' : Path) : Trouble → Trouble → Prop where
  | failure {f f' : Failure} (same : f' = { f with detail := f'.detail })
      (detail : Echoes dir dir' f.detail f'.detail) : TroubleAlike dir dir' (.failure f) (.failure f')
  | fault {f f' : Fault} (alike : FaultAlike dir dir' f f') : TroubleAlike dir dir' (.fault f) (.fault f')

/-- Results that are related, or trouble that is alike. -/
inductive Alike (dir dir' : Path) (R : α → β → Prop) : Except Trouble α → Except Trouble β → Prop where
  | ok {a : α} {b : β} (related : R a b) : Alike dir dir' R (.ok a) (.ok b)
  | error {t t' : Trouble} (alike : TroubleAlike dir dir' t t') : Alike dir dir' R (.error t) (.error t')

/-- Artifacts that are the same but for the path of the proof. -/
structure ArtifactAlike (dir dir' : Path) (a a' : Artifact) : Prop where
  requestId : a'.requestId = a.requestId
  data : a'.data = a.data
  verifyingKey : a'.verifyingKey = a.verifyingKey
  source : a.source = (dir.child "proof.pf").toString
  source' : a'.source = (dir'.child "proof.pf").toString

theorem Alike.bind {γ δ : Type} {R : α → β → Prop} {S : γ → δ → Prop} {x : Except Trouble α} {y : Except Trouble β}
    {f : α → Except Trouble γ} {g : β → Except Trouble δ} (first : Alike dir dir' R x y)
    (rest : ∀ a b, R a b → Alike dir dir' S (f a) (g b)) : Alike dir dir' S (x >>= f) (y >>= g) := by
  cases first with
  | ok related => exact rest _ _ related
  | error alike => exact .error alike

theorem alike_failure {R : α → β → Prop} (f : Failure) : Alike dir dir' R (.error (.failure f)) (.error (.failure f)) :=
  .error (.failure rfl (.same _))

theorem alike_fault {R : α → β → Prop} (f : Fault) : Alike dir dir' R (.error (.fault f)) (.error (.fault f)) :=
  .error (.fault ⟨rfl, .same _⟩)

theorem alike_of_matches {x : Except Fault α} {y : Except Fault β} (same : Matches x y) :
    Alike dir dir' (fun _ _ => True) (x.mapError .fault) (y.mapError .fault) := by
  cases x with
  | error f =>
    cases y with
    | error f' =>
      obtain rfl := Except.error.inj same
      exact alike_fault f
    | ok b => cases same
  | ok a =>
    cases y with
    | error f' => cases same
    | ok b => exact .ok trivial

theorem alike_rfl (x : Except Fault α) : Alike dir dir' Eq (x.mapError .fault) (x.mapError .fault) := by
  cases x with
  | error f => exact alike_fault f
  | ok a => exact .ok rfl

/-- What is refused in two directories is refused alike. -/
theorem Refusal.alike_file (r : Refusal) (name : String) :
    FaultAlike dir dir' (r.fault (dir.child name)) (r.fault (dir'.child name)) := by
  cases r with
  | plain f => exact ⟨rfl, .same _⟩
  | about number message => exact ⟨rfl, .file number message name⟩

theorem Refusal.alike_here (r : Refusal) : FaultAlike dir dir' (r.fault dir) (r.fault dir') := by
  cases r with
  | plain f => exact ⟨rfl, .same _⟩
  | about number message => exact ⟨rfl, .here number message⟩

/-- Faults that are alike count as failures together. -/
theorem FaultAlike.trouble {f f' : Fault} (alike : FaultAlike dir dir' f f') (kind : Failure.Kind) (message : Text) :
    TroubleAlike dir dir' (if f.kind.isSystem then .failure { kind, message, detail := f.text } else .fault f)
      (if f'.kind.isSystem then .failure { kind, message, detail := f'.text } else .fault f') := by
  rw [alike.kind]
  split
  · exact .failure rfl alike.text
  · exact .fault alike

theorem FaultAlike.unreadable {f f' : Fault} (alike : FaultAlike dir dir' f f') :
    TroubleAlike dir dir' (unreadableProof f) (unreadableProof f') :=
  alike.trouble .artifact "Proof file could not be read"

/-- A look at a name tells the same in both directories. -/
theorem look_alike (files : Contents) (name : String) {report : Fault → Trouble}
    (reports : ∀ f f', FaultAlike dir dir' f f' → TroubleAlike dir dir' (report f) (report f')) :
    Alike dir dir' Eq ((files.look dir name).mapError report) ((files.look dir' name).mapError report) := by
  unfold Contents.look
  rcases files name [] with _ | _ | _ | _ | _
  · exact .ok rfl
  · exact .ok rfl
  · exact .ok rfl
  · exact .ok rfl
  · exact .error (reports _ _ ⟨rfl, .file 5 "Input/output error" name⟩)

theorem content_alike (files : Contents) (name : String) :
    Alike dir dir' Eq ((files.content name).mapError unreadableProof)
      ((files.content name).mapError unreadableProof) := by
  cases files.content name with
  | ok content => exact .ok rfl
  | error f => exact .error (FaultAlike.unreadable ⟨rfl, .same _⟩)

theorem key_alike (files : Contents) :
    Alike dir dir' Eq (Workspace.gatherKey (files.look dir) files.content)
      (Workspace.gatherKey (files.look dir') files.content) := by
  refine (look_alike files "vk.key" fun _ _ => FaultAlike.unreadable).bind ?_
  rintro there _ rfl
  cases there with
  | false => exact .ok rfl
  | true =>
    refine (content_alike files "vk.key").bind ?_
    rintro key _ rfl
    exact .ok rfl

theorem artifact_alike (files : Contents) (requestId : Text) :
    Alike dir dir' (ArtifactAlike dir dir') (files.artifact ⟨requestId, dir⟩) (files.artifact ⟨requestId, dir'⟩) := by
  refine (look_alike files "proof.pf" fun _ _ => .fault).bind ?_
  rintro there _ rfl
  cases there with
  | false =>
    have same : missingProof ⟨requestId, dir'⟩ = missingProof ⟨requestId, dir⟩ := by
      simp [missingProof, Workspace.proof, Path.name, Path.child]
    rw [same]
    exact alike_failure _
  | true =>
    refine (content_alike files "proof.pf").bind ?_
    rintro data _ rfl
    refine (key_alike files).bind ?_
    rintro key _ rfl
    exact .ok ⟨rfl, rfl, rfl, rfl, rfl⟩

section Courses

variable [Time τ] (k : Course τ) (model : String) (requestId : Text)

theorem Program.outcome_alike (p : Program τ) (step : Step) (left : τ) (found : Contents) :
    Alike dir dir' Eq (p.outcome c step dir left found) (p.outcome c step dir' left found) := by
  unfold Program.outcome
  split
  · exact alike_failure _
  · cases p.refused with
    | some r => exact .error (r.alike_here.trouble (.process 127) ("Prover " ++ step.name ++ " could not start"))
    | none =>
      cases p.ends left found with
      | none => exact alike_failure _
      | some e =>
        dsimp only
        split
        · exact .ok rfl
        · exact .error (.failure rfl (.said e.errors))

theorem Course.outcome_alike (n : Nat) (step : Step) (found : Contents) :
    Alike dir dir' Eq (k.outcome c model ⟨requestId, dir⟩ n step found)
      (k.outcome c model ⟨requestId, dir'⟩ n step found) := by
  refine Alike.bind (alike_of_matches (commandLine_congr step.template _ _ model _ _)) ?_
  rintro _ _ -
  exact Program.outcome_alike ..

/-- The results of a course in two directories agree but for their paths. -/
theorem Course.result_alike (document : Json) :
    Alike dir dir' (ArtifactAlike dir dir') (k.result c document model ⟨requestId, dir⟩)
      (k.result c document model ⟨requestId, dir'⟩) := by
  unfold Course.result
  refine Alike.bind (alike_rfl (document.write c.levels)) ?_
  rintro text _ rfl
  cases k.writing with
  | some r => exact .error ((r.alike_file "input.json").trouble (.process (-1)) "Could not write prover input")
  | none =>
    refine Alike.bind (R := Eq) ?_ ?_
    · refine (k.outcome_alike model requestId 0 .setup _).bind ?_
      rintro keys _ rfl
      exact k.outcome_alike model requestId 1 .prove keys
    · rintro files _ rfl
      exact artifact_alike files requestId

/-- Results that are one and the same, or that agree but for the directories they come from. -/
def Agree (last last' : Option Path) (r r' : Except Trouble Artifact) : Prop :=
  r' = r ∨ ∃ dir ∈ last, ∃ dir' ∈ last', Alike dir dir' (ArtifactAlike dir dir') r r'

theorem Agree.failure_iff {last last' : Option Path} {r r' : Except Trouble Artifact} (agree : Agree last last' r r') :
    (∃ f, r' = .error (.failure f)) ↔ ∃ f, r = .error (.failure f) := by
  rcases agree with rfl | ⟨dir, -, dir', -, alike⟩
  · rfl
  · cases alike with
    | ok => simp
    | error alike => cases alike <;> simp

theorem Agree.data {last last' : Option Path} {r r' : Except Trouble Artifact} (agree : Agree last last' r r') :
    r'.toOption.map Artifact.data = r.toOption.map Artifact.data := by
  rcases agree with rfl | ⟨dir, -, dir', -, alike⟩
  · rfl
  · cases alike with
    | ok related => exact congrArg some related.data
    | error => rfl

theorem Course.Gives.agree {k : Course τ} {model : String} {requestId : Text} {document : Json} {last last' : Option Path}
    {r r' : Except Trouble Artifact} (first : k.Gives c requestId document model last r)
    (second : k.Gives c requestId document model last' r') : Agree last last' r r' := by
  cases first with
  | unopened refused =>
    cases second with
    | unopened refused' =>
      obtain rfl := Option.some.inj (refused.symm.trans refused')
      exact .inl rfl
    | worked _ willing => cases refused.symm.trans willing
  | worked dir willing =>
    cases second with
    | unopened refused => cases refused.symm.trans willing
    | worked dir' => exact .inr ⟨dir, rfl, dir', rfl, k.result_alike model requestId document⟩

/-- One attempt of a script, as it is seen. -/
def Script.Attempt (s : Script τ) (c : Config τ) (requestId : Text) (document : Json) (model : String) (v : View τ)
    (r : Except Trouble Artifact) (v' : View τ) : Prop :=
  v'.stall.attempts = v.stall.attempts + 1 ∧ (s v.stall.attempts).Gives c requestId document model v'.stall.last r

theorem again_agree {s : Script τ} {document : Json} {n : Nat} {v v' w w' : View τ} {r r' : Except Trouble Artifact}
    (first : Attempt.Again (s.Attempt c requestId document model) n v r v')
    (second : Attempt.Again (s.Attempt c requestId document model) n w r' w')
    (same : w.stall.attempts = v.stall.attempts) : Agree v'.stall.last w'.stall.last r r' := by
  induction first generalizing w with
  | last attempt ends =>
    cases second with
    | last attempt' => exact attempt.2.agree (same ▸ attempt'.2)
    | again attempt' =>
      obtain ⟨f, rfl⟩ := (attempt.2.agree (same ▸ attempt'.2)).failure_iff.1 ⟨_, rfl⟩
      rcases ends with h | h
      · cases h
      · exact absurd rfl (h f)
  | again attempt rest ih =>
    cases second with
    | last attempt' ends =>
      obtain ⟨f, rfl⟩ := (attempt.2.agree (same ▸ attempt'.2)).failure_iff.2 ⟨_, rfl⟩
      rcases ends with h | h
      · cases h
      · exact absurd rfl (h f)
    | again attempt' rest' =>
      refine ih rest' ?_
      rw [attempt.1, attempt'.1, same]

/-- A failure that cannot be told is not told in either. -/
theorem Agree.curtailed {last last' : Option Path} {r r' : Except Trouble Artifact} (agree : Agree last last' r r') :
    Agree last last' (Attempt.curtailed r) (Attempt.curtailed r') := by
  rcases agree with rfl | ⟨dir, own, dir', own', alike⟩
  · exact .inl rfl
  · cases alike with
    | ok related => exact .inr ⟨dir, own, dir', own', .ok related⟩
    | error alike =>
      cases alike with
      | failure => exact .inl rfl
      | fault alike => exact .inr ⟨dir, own, dir', own', .error (.fault alike)⟩

/-- Two runs of a script have as many attempts, and their results agree. -/
theorem tries_agree {s : Script τ} {document : Json} {n : Nat} {v v' w w' : View τ} {r r' : Except Trouble Artifact}
    (first : Attempt.Tries (s.Attempt c requestId document model) n v r v')
    (second : Attempt.Tries (s.Attempt c requestId document model) n w r' w')
    (same : w.stall.attempts = v.stall.attempts) : Agree v'.stall.last w'.stall.last r r' := by
  unfold Attempt.Tries at first second
  split at first
  · rename_i short
    rw [if_pos short] at second
    exact again_agree model requestId first second same
  · rename_i long
    rw [if_neg long] at second
    obtain ⟨x, attempt, rfl⟩ := first
    obtain ⟨x', attempt', rfl⟩ := second
    exact (attempt.2.agree (same ▸ attempt'.2)).curtailed

end Courses

end Prover

end ProofRelay
