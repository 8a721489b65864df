import Mathlib.Logic.Function.Basic
import ProofRelay.Proofs.Activity.Terms
import ProofRelay.Proofs.Files.Tree
import ProofRelay.Prover.Invocation

/-!
The yard in which the prover's processes run: one file tree for all requests, and for each request a stall
with what is going on for it. How the processes of a request go is told by its script. A new directory is
made where nothing was; a process finds what is in its directory and changes nothing else. All that the
relay itself asks for is done in the shared tree, wherever the path leads.
-/

namespace ProofRelay

/-- An empty directory. -/
def Contents.empty : Contents := fun _ _ => none

def Contents.put (c : Contents) (name : String) (e : FileEntry) : Contents :=
  fun n rest => if n = name ∧ rest = [] then some e else c n rest

/-- What it comes to to read a file that was seen. -/
def Contents.content (c : Contents) (name : String) : Except Fault Bytes :=
  match c name [] with
  | some (.file content) => .ok content
  | _ => .error FileTree.unreadable

namespace Prover

/-- A piece of what a process says: bytes, or the path of its directory. -/
inductive Saying where
  | bytes (b : Bytes)
  | here

abbrev Wording : Type := List Saying

/-- What is said by a process in a directory. -/
def Wording.said (w : Wording) (dir : Path) : Bytes :=
  w.flatMap fun
    | .bytes b => b
    | .here => Utf8.encode dir.toString

/-- How a process ends: with an exit code, what it says, and what it leaves in its directory. -/
structure Ending where
  code : Int
  errors : Wording
  files : List (Place × FileEntry)

def Ending.contents (e : Ending) : Contents := fun name rest => e.files.lookup (name :: rest)

/-- Why a system call is refused: with a fault of its own, or with a number and a text about the file. -/
inductive Refusal where
  | plain (f : Fault)
  | about (number : Int) (message : String)

def Refusal.fault (r : Refusal) (file : Path) : Fault :=
  match r with
  | .plain f => f
  | .about number message => .system number message (some file.toString)

/-- A process: whether it can be started, and how it ends within a limit, by what it finds. -/
structure Program (τ : Type) where
  refused : Option Refusal := none
  ends : τ → Contents → Option Ending

/-- How one attempt to prove a request goes. -/
structure Course (τ : Type) where
  /-- Why no directory can be made. -/
  opening : Option Fault := none
  /-- Why the input cannot be written. -/
  writing : Option Refusal := none
  /-- What is left of the budget before each process. -/
  left : Nat → τ
  process : Nat → Program τ

/-- The courses of a request's attempts. -/
abbrev Script (τ : Type) : Type := Nat → Course τ

/-- What is going on for one request. -/
structure Stall (τ : Type) where
  /-- How many attempts were begun. -/
  attempts : Nat := 0
  /-- The directory of the attempt, as long as it is not removed. -/
  dir : Option Path := none
  /-- The directory that was made last. -/
  last : Option Path := none
  /-- When the budget began to run. -/
  began : Option τ := none
  started : Nat := 0
  /-- The directory of the process that is running, and what it found there. -/
  running : Option (Path × Contents) := none

namespace Stall

variable {τ : Type}

def course (d : Stall τ) (s : Script τ) : Course τ := s (d.attempts - 1)

/-- Another attempt is begun. -/
def next (d : Stall τ) : Stall τ := { d with attempts := d.attempts + 1, began := none, started := 0 }

/-- How a question may be answered for a stall, with the file tree before and after. -/
inductive Answers [Time τ] (budget : τ) (temporary : Path) (s : Script τ) :
    FileTree → Stall τ → Exchange (dialogue τ) → FileTree → Stall τ → Prop where
  /-- The first time that is told in an attempt is when its budget begins. -/
  | now {t : FileTree} {d : Stall τ} (time : τ)
      (left : ∀ began, d.began = some began → Time.sub (Time.add began budget) time = (d.course s).left d.started) :
      Answers budget temporary s t d ⟨.now, time⟩ t { d with began := some (d.began.getD time) }
  | unopened {t t' : FileTree} {d : Stall τ} {root : Option Path} {stem : String} {f : Fault}
      (refused : (s d.attempts).opening = some f) (made : t.Makes (root.getD temporary) t') :
      Answers budget temporary s t d ⟨.openWorkspace root stem, .error f⟩ t' d.next
  | opened {t t' : FileTree} {d : Stall τ} {root : Option Path} {stem suffix : String} {dir : Path} {q : Place}
      (willing : (s d.attempts).opening = none) (made : t.Makes (root.getD temporary) t')
      (named : dir = (root.getD temporary).child (stem ++ suffix)) (absent : t'.arrive dir = .absent q)
      (bare : t'.IsBare q) (valid : FileTree.checkPath dir = .ok ()) :
      Answers budget temporary s t d ⟨.openWorkspace root stem, .ok dir⟩ (t'.put q .directory)
        { d.next with dir := some dir, last := some dir }
  /-- Removing a directory may leave some of it. -/
  | discard {t t' : FileTree} {d : Stall τ} {dir : Path} (keeps : FileTree.Keeps dir.place t t')
      (less : ∀ p e, t'.find? p = some e → t.find? p = some e) :
      Answers budget temporary s t d ⟨.discard dir, ()⟩ t' { d with dir := d.dir.filter (· != dir) }
  | unwritable {t : FileTree} {d : Stall τ} {file : Path} {content : Bytes} {r : Refusal}
      (refused : (d.course s).writing = some r) :
      Answers budget temporary s t d ⟨.write file content, .error (r.fault file)⟩ t d
  | unwritten {t : FileTree} {d : Stall τ} {file : Path} {content : Bytes} {f : Fault}
      (willing : (d.course s).writing = none) (failed : t.write file content = .error f) :
      Answers budget temporary s t d ⟨.write file content, .error f⟩ t d
  | written {t t' : FileTree} {d : Stall τ} {file : Path} {content : Bytes}
      (willing : (d.course s).writing = none) (done : t.write file content = .ok t') :
      Answers budget temporary s t d ⟨.write file content, .ok ()⟩ t' d
  | isFile {t : FileTree} {d : Stall τ} (file : Path) :
      Answers budget temporary s t d ⟨.isFile file, t.isFile file⟩ t d
  | read {t : FileTree} {d : Stall τ} (file : Path) : Answers budget temporary s t d ⟨.read file, t.read file⟩ t d
  | unstarted {t : FileTree} {d : Stall τ} {args : List String} {dir : Path} {r : Refusal}
      (refused : ((d.course s).process d.started).refused = some r) :
      Answers budget temporary s t d ⟨.start args dir, .error (r.fault dir)⟩ t { d with started := d.started + 1 }
  | started {t : FileTree} {d : Stall τ} {args : List String} {dir : Path}
      (willing : ((d.course s).process d.started).refused = none) :
      Answers budget temporary s t d ⟨.start args dir, .ok d.started⟩ t
        { d with started := d.started + 1, running := some (dir, t.below dir) }
  | exited {t t' : FileTree} {d : Stall τ} {dir : Path} {found : Contents} {n : Nat} {limit : τ} {ending : Ending}
      (running : d.running = some (dir, found)) (ends : ((d.course s).process n).ends limit found = some ending)
      (fills : t.Fills dir t') (left : t'.below dir = ending.contents) :
      Answers budget temporary s t d ⟨.wait n limit, some ⟨ending.code, ending.errors.said dir⟩⟩ t'
        { d with running := none }
  | late {t : FileTree} {d : Stall τ} {dir : Path} {found : Contents} {n : Nat} {limit : τ}
      (running : d.running = some (dir, found)) (ends : ((d.course s).process n).ends limit found = none) :
      Answers budget temporary s t d ⟨.wait n limit, none⟩ t d
  | kill {t : FileTree} {d : Stall τ} (n : Nat) :
      Answers budget temporary s t d ⟨.kill n, ()⟩ t { d with running := none }

/-- What becomes of a stall when something else is done in the tree: if that is in the directory of its process,
the process finds whatever it may there. -/
def Disturbs (t t' : FileTree) (d d' : Stall τ) : Prop :=
  d' = d ∨ ∃ dir found found', d.running = some (dir, found) ∧ t'.below dir ≠ t.below dir ∧
    d' = { d with running := some (dir, found') }

/-- What a request sees of the files: those in its directory, but not while a process is at work there. -/
def sees (d : Stall τ) (t : FileTree) : Contents :=
  match d.running, d.dir with
  | none, some dir => t.below dir
  | _, _ => .empty

/-- A stall whose directory is in its place, and whose process runs nowhere else. -/
structure Housed (t : FileTree) (home : Path) (d : Stall τ) : Prop where
  settled : ∀ dir, d.dir = some dir → t.Settled home dir
  valid : ∀ dir, d.dir = some dir → FileTree.checkPath dir = .ok ()
  running : ∀ dir found, d.running = some (dir, found) → d.dir = some dir

end Stall

/-- What a request sees: its stall, and its files. -/
structure View (τ : Type) where
  stall : Stall τ
  files : Contents

def Stall.view {τ : Type} (d : Stall τ) (t : FileTree) : View τ := ⟨d, d.sees t⟩

variable {τ : Type}

/-- A request asks for nothing but its own directory and the files in it, and leaves them to its process
while that is running. -/
def May (c : Config τ) (v : View τ) : Ask τ → Prop
  | .now | .wait _ _ | .kill _ => True
  | .openWorkspace root _ => root = c.root ∧ v.stall.running = none
  | .discard dir | .start _ dir => v.stall.dir = some dir ∧ v.stall.running = none
  | .write file _ | .isFile file | .read file =>
    v.stall.running = none ∧ ∃ dir name, v.stall.dir = some dir ∧ file = dir.child name ∧ FileTree.IsPlain name

/-- The place in which directories are made for an invoker. -/
def Config.home (c : Config τ) (temporary : Path) : Path := c.root.getD temporary

/-- The terms of a request with a script: it asks what it may, and is answered for its stall in some tree in
which its directory is in place. -/
def terms [Time τ] (c : Config τ) (temporary : Path) (s : Script τ) : Terms (dialogue τ) (View τ) where
  May := May c
  Answers v e v' := ∃ t d t' d', Stall.Housed t (c.home temporary) d ∧
    Stall.Answers c.timeout temporary s t d e t' d' ∧ v = d.view t ∧ v' = d'.view t'

namespace Stall

section Frame

variable {c : Config τ} {temporary home : Path} {s : Script τ} {t t' : FileTree} {d d' o : Stall τ}
  {e : Exchange (dialogue τ)}

/-- Stalls do not share a directory. -/
def Apart (d d' : Stall τ) : Prop := ∀ dir dir', d.dir = some dir → d'.dir = some dir' → dir.place ≠ dir'.place

/-- What an answer to a request may do to the file tree: directories are made on the way to where all of
them are made, one is made there where nothing was, or something changes in the request's own. -/
inductive Touches (home : Path) (t : FileTree) (d : Stall τ) (t' : FileTree) (d' : Stall τ) : Prop where
  | makes (made : t.Makes home t') (same : d'.dir = d.dir)
  | opens (t₁ : FileTree) (dir : Path) (made : t.Makes home t₁) (bare : t₁.IsBare dir.place)
      (put : t' = t₁.put dir.place .directory) (settled : t'.Settled home dir) (given : d'.dir = some dir)
  | alters (dir : Path) (own : d.dir = some dir) (keeps : FileTree.Keeps dir.place t t')
      (same : ∀ dir', d'.dir = some dir' → dir' = dir)

/-- What is written into a stall's directory leaves it in its place. -/
theorem Housed.fills {dir : Path} (housed : d.Housed t home) (own : d.dir = some dir) (fills : t.Fills dir t') :
    (∀ dir', d.dir = some dir' → t'.Settled home dir') ∧ ∀ dir', d.dir = some dir' → dir' = dir := by
  have here : ∀ dir', d.dir = some dir' → dir' = dir := fun dir' own' => Option.some.inj (own'.symm.trans own)
  refine ⟨fun dir' own' => ?_, here⟩
  obtain rfl := here dir' own'
  exact (housed.settled dir' own').fills fills

theorem Housed.answer [Time τ] (housed : d.Housed t (c.home temporary)) (may : May c (d.view t) e.ask)
    (answer : Answers c.timeout temporary s t d e t' d') :
    d'.Housed t' (c.home temporary) ∧ Touches (c.home temporary) t d t' d' := by
  have stays : Touches (c.home temporary) t d t d := .makes (t.makes_self _) rfl
  cases answer with
  | now | unstarted => exact ⟨⟨housed.settled, housed.valid, housed.running⟩, .makes (t.makes_self _) rfl⟩
  | unwritable | unwritten | isFile | read | late => exact ⟨housed, stays⟩
  | kill => exact ⟨⟨housed.settled, housed.valid, nofun⟩, .makes (t.makes_self _) rfl⟩
  | unopened refused made =>
    obtain ⟨rfl, -⟩ := may
    exact ⟨⟨fun dir own => ((housed.settled dir own).made made).1, housed.valid, housed.running⟩, .makes made rfl⟩
  | opened willing made named absent bare valid =>
    obtain ⟨rfl, idle⟩ := may
    subst named
    obtain ⟨rfl, settled⟩ := FileTree.settled_put absent bare
    refine ⟨⟨?_, ?_, ?_⟩, .opens _ _ made bare rfl settled rfl⟩
    · rintro dir ⟨⟩
      exact settled
    · rintro dir ⟨⟩
      exact valid
    · intro dir found running
      exact nomatch idle.symm.trans running
  | @discard t' d dir keeps less =>
    obtain ⟨own, idle⟩ := may
    have gone : d.dir.filter (· != dir) = none := by simp [show d.dir = some dir from own]
    refine ⟨⟨?_, ?_, ?_⟩, .alters dir own keeps ?_⟩
    · exact fun dir' own' => nomatch gone.symm.trans own'
    · exact fun dir' own' => nomatch gone.symm.trans own'
    · exact fun dir' found running => nomatch idle.symm.trans running
    · exact fun dir' own' => nomatch gone.symm.trans own'
  | @written t' d file content willing done =>
    obtain ⟨idle, dir, name, own, rfl, plain⟩ := may
    have fills := (housed.settled dir own).fills_write (housed.valid dir own) plain done
    obtain ⟨settled, here⟩ := housed.fills own fills
    exact ⟨⟨settled, housed.valid, housed.running⟩, .alters dir own fills.keeps here⟩
  | @started d args dir willing =>
    obtain ⟨own, idle⟩ := may
    refine ⟨⟨housed.settled, housed.valid, ?_⟩, .makes (t.makes_self _) rfl⟩
    rintro dir' found ⟨⟩
    exact own
  | @exited t' d dir found n limit ending running ends fills left =>
    have own := housed.running dir found running
    obtain ⟨settled, here⟩ := housed.fills own fills
    exact ⟨⟨settled, housed.valid, nofun⟩, .alters dir own fills.keeps here⟩

/-- What is seen from a stall stays when its directory stays as it is. -/
theorem Housed.keep (housed : o.Housed t home)
    (keep : ∀ dir, o.dir = some dir → t.Settled home dir →
      t'.Settled home dir ∧ (o.running = none → t'.below dir = t.below dir)) :
    o.Housed t' home ∧ o.view t' = o.view t := by
  refine ⟨⟨fun dir own => (keep dir own (housed.settled dir own)).1, housed.valid, housed.running⟩, ?_⟩
  rw [view, view, View.mk.injEq]
  refine ⟨rfl, ?_⟩
  unfold sees
  split
  · rename_i dir idle own
    exact (keep dir own (housed.settled dir own)).2 idle
  · rfl

/-- What a process does in its directory is not seen while it is running. -/
theorem Housed.work {dir : Path} {found : Contents} (housed : d.Housed t home) (running : d.running = some (dir, found))
    (fills : t.Fills dir t') : d.Housed t' home ∧ d.view t' = d.view t ∧ Touches home t d t' d := by
  have own := housed.running dir found running
  obtain ⟨settled, here⟩ := housed.fills own fills
  obtain ⟨housed', seen⟩ := housed.keep fun dir' own' _ =>
    ⟨settled dir' own', fun idle => nomatch idle.symm.trans running⟩
  exact ⟨housed', seen, .alters dir own fills.keeps here⟩

/-- A new directory is nowhere that another one is. -/
theorem Housed.ne_of_bare {dir dir' : Path} (housed : o.Housed t home) (made : t.Makes home t')
    (bare : t'.IsBare dir.place) (own : o.dir = some dir') : dir'.place ≠ dir.place := by
  intro same
  exact bare.not_prefix ((housed.settled dir' own).made made).1.there (same ▸ List.prefix_rfl)

/-- An answer to one request leaves the directory of another one as it is. -/
theorem Touches.settled {dir' : Path} (touches : Touches home t d t' d') (housed : d.Housed t home)
    (beside : o.Housed t home) (apart : d.Apart o) (own' : o.dir = some dir') :
    t'.Settled home dir' ∧ t'.below dir' = t.below dir' := by
  have before := beside.settled dir' own'
  cases touches with
  | makes made => exact before.made made
  | opens t₁ dir made bare put settled =>
    have keeps : FileTree.Keeps dir.place t₁ t' := put ▸ FileTree.keeps_put List.prefix_rfl
    obtain ⟨settled', same⟩ := before.made made
    obtain ⟨settled'', same'⟩ := settled'.keep settled (beside.ne_of_bare made bare own') keeps
    exact ⟨settled'', same'.trans same⟩
  | alters dir own keeps => exact before.keep (housed.settled dir own) (apart dir dir' own own').symm keeps

/-- An answer to one request does not disturb the process of another one. -/
theorem Touches.undisturbed {o' : Stall τ} (touches : Touches home t d t' d') (housed : d.Housed t home)
    (beside : o.Housed t home) (apart : d.Apart o) (disturbs : Disturbs t t' o o') : o' = o := by
  rcases disturbs with same | ⟨dir', found, -, running, changed, -⟩
  · exact same
  · exact absurd (touches.settled housed beside apart (beside.running _ _ running)).2 changed

/-- An answer to one request changes nothing that another one sees. -/
theorem Touches.other (touches : Touches home t d t' d') (housed : d.Housed t home)
    (beside : o.Housed t home) (apart : d.Apart o) :
    o.Housed t' home ∧ o.view t' = o.view t ∧ d'.Apart o := by
  obtain ⟨kept, seen⟩ := beside.keep fun dir' own' _ =>
    (touches.settled housed beside apart own').imp_right fun same _ => same
  refine ⟨kept, seen, fun dir₁ dir₂ own₁ own₂ => ?_⟩
  cases touches with
  | makes made same => exact apart dir₁ dir₂ (same ▸ own₁) own₂
  | opens t₁ dir made bare put settled given =>
    obtain rfl := Option.some.inj (given.symm.trans own₁)
    exact (beside.ne_of_bare made bare own₂).symm
  | alters dir own keeps same =>
    obtain rfl := same dir₁ own₁
    exact apart dir₁ dir₂ own own₂

end Frame

end Stall

theorem Stall.view_files {d : Stall τ} {dir : Path} (own : d.dir = some dir) (idle : d.running = none) (t : FileTree) :
    (d.view t).files = t.below dir := by
  simp only [view, sees, idle, own]

section Replies

variable [Time τ] {c : Config τ} {temporary dir : Path} {s : Script τ} {v v' : View τ} {name : String}

theorem reply_now {time : τ} (answer : (terms c temporary s).Answers v ⟨.now, time⟩ v') :
    v' = { v with stall := { v.stall with began := some (v.stall.began.getD time) } } ∧
      ∀ began, v.stall.began = some began →
        Time.sub (Time.add began c.timeout) time = (v.stall.course s).left v.stall.started := by
  obtain ⟨t, d, t', d', -, answer, rfl, rfl⟩ := answer
  cases answer with
  | now _ left => exact ⟨rfl, left⟩

/-- No directory is made, or a new one, which is empty. -/
theorem reply_openWorkspace {stem : String} {r : Except Fault Path}
    (answer : (terms c temporary s).Answers v ⟨.openWorkspace c.root stem, r⟩ v') (idle : v.stall.running = none) :
    (∃ f, (s v.stall.attempts).opening = some f ∧ r = .error f ∧ v'.stall = v.stall.next) ∨
      ((s v.stall.attempts).opening = none ∧
        ∃ dir, r = .ok dir ∧
          v' = ⟨{ attempts := v.stall.attempts + 1, dir := some dir, last := some dir }, .empty⟩) := by
  obtain ⟨t, d, t', d', -, answer, rfl, rfl⟩ := answer
  cases answer with
  | unopened refused made => exact .inl ⟨_, refused, rfl, rfl⟩
  | @opened t₁ _ _ _ suffix dir q willing made named absent bare valid =>
    refine .inr ⟨willing, dir, rfl, ?_⟩
    subst named
    obtain ⟨rfl, -⟩ := FileTree.settled_put absent bare
    have idle : d.running = none := idle
    simp only [Stall.view, Stall.next, Stall.sees, idle, View.mk.injEq, true_and]
    funext name rest
    refine (FileTree.find?_put_other ?_).trans (bare _)
    simp

theorem reply_discard (answer : (terms c temporary s).Answers v ⟨.discard dir, ()⟩ v') (own : v.stall.dir = some dir) :
    v'.stall = { v.stall with dir := none } := by
  obtain ⟨t, d, t', d', -, answer, rfl, rfl⟩ := answer
  cases answer with
  | discard => simp [Stall.view, show d.dir = some dir from own]

theorem reply_write {content : Bytes} {r : Except Fault Unit}
    (answer : (terms c temporary s).Answers v ⟨.write (dir.child name) content, r⟩ v') (idle : v.stall.running = none)
    (own : v.stall.dir = some dir) (plain : FileTree.IsPlain name) (absent : v.files name [] = none) :
    (∃ x, (v.stall.course s).writing = some x ∧ r = .error (x.fault (dir.child name)) ∧ v' = v) ∨
      ((v.stall.course s).writing = none ∧ r = .ok () ∧
        v' = { v with files := v.files.put name (.file content) }) := by
  obtain ⟨t, d, t', d', housed, answer, rfl, rfl⟩ := answer
  have settled := housed.settled dir own
  have seen := d.view_files own idle
  rw [seen] at absent ⊢
  have write := settled.write (housed.valid dir own) plain content
  rw [absent, if_neg nofun, if_neg nofun] at write
  cases answer with
  | unwritable refused => exact .inl ⟨_, refused, rfl, rfl⟩
  | unwritten willing failed => cases write.symm.trans failed
  | written willing done =>
    obtain rfl := Except.ok.inj (write.symm.trans done)
    refine .inr ⟨willing, rfl, ?_⟩
    refine (View.mk.injEq _ _ _ _).mpr ⟨rfl, (seen _).trans (funext fun n => funext fun rest => ?_)⟩
    rw [Contents.put]
    split
    · rename_i same
      obtain ⟨rfl, rfl⟩ := same
      exact FileTree.find?_put_self (FileTree.isFixed_append settled.free _)
    · rename_i other
      refine FileTree.find?_put_other ?_
      intro same
      exact other (by simpa using same)

theorem reply_isFile {r : Except Fault Bool}
    (answer : (terms c temporary s).Answers v ⟨.isFile (dir.child name), r⟩ v')
    (idle : v.stall.running = none) (own : v.stall.dir = some dir) (plain : FileTree.IsPlain name) :
    r = v.files.look dir name ∧ v' = v := by
  obtain ⟨t, d, t', d', housed, answer, rfl, rfl⟩ := answer
  cases answer with
  | isFile =>
    refine ⟨?_, rfl⟩
    rw [(housed.settled dir own).isFile plain, d.view_files own idle]

theorem reply_read {r : Except Fault Bytes} (answer : (terms c temporary s).Answers v ⟨.read (dir.child name), r⟩ v')
    (idle : v.stall.running = none) (own : v.stall.dir = some dir) (plain : FileTree.IsPlain name)
    (there : v.files.look dir name = .ok true) : r = v.files.content name ∧ v' = v := by
  obtain ⟨t, d, t', d', housed, answer, rfl, rfl⟩ := answer
  cases answer with
  | read =>
    refine ⟨?_, rfl⟩
    rw [d.view_files own idle, Contents.look] at there
    rw [(housed.settled dir own).read (housed.valid dir own) plain, d.view_files own idle, Contents.content]
    rcases entry : t.below dir name [] with _ | _ | content | _ | _
    · simp [entry] at there
    · simp [entry] at there
    · rfl
    · rfl
    · simp [entry] at there

theorem reply_start {args : List String} {r : Except Fault Nat}
    (answer : (terms c temporary s).Answers v ⟨.start args dir, r⟩ v') (idle : v.stall.running = none)
    (own : v.stall.dir = some dir) :
    (∃ x, ((v.stall.course s).process v.stall.started).refused = some x ∧ r = .error (x.fault dir) ∧
        v' = { v with stall := { v.stall with started := v.stall.started + 1 } }) ∨
      (((v.stall.course s).process v.stall.started).refused = none ∧ r = .ok v.stall.started ∧
        v'.stall = { v.stall with started := v.stall.started + 1, running := some (dir, v.files) }) := by
  obtain ⟨t, d, t', d', housed, answer, rfl, rfl⟩ := answer
  cases answer with
  | unstarted refused => exact .inl ⟨_, refused, rfl, rfl⟩
  | started willing =>
    refine .inr ⟨willing, rfl, ?_⟩
    rw [d.view_files own idle]
    rfl

theorem reply_wait {found : Contents} {n : Nat} {limit : τ} {r : Option Exit}
    (answer : (terms c temporary s).Answers v ⟨.wait n limit, r⟩ v') (running : v.stall.running = some (dir, found)) :
    (∃ e, ((v.stall.course s).process n).ends limit found = some e ∧ r = some ⟨e.code, e.errors.said dir⟩ ∧
        v' = ⟨{ v.stall with running := none }, e.contents⟩) ∨
      (((v.stall.course s).process n).ends limit found = none ∧ r = none ∧ v' = v) := by
  obtain ⟨t, d, t', d', housed, answer, rfl, rfl⟩ := answer
  cases answer with
  | exited running' ends fills left =>
    obtain ⟨rfl, rfl⟩ := Prod.mk.inj (Option.some.inj (running'.symm.trans running))
    refine .inl ⟨_, ends, rfl, ?_⟩
    rw [← left]
    simp only [Stall.view, Stall.sees, housed.running _ _ running]
  | late running' ends =>
    obtain ⟨rfl, rfl⟩ := Prod.mk.inj (Option.some.inj (running'.symm.trans running))
    exact .inr ⟨ends, rfl, rfl⟩

theorem reply_kill {n : Nat} (answer : (terms c temporary s).Answers v ⟨.kill n, ()⟩ v') :
    v'.stall = { v.stall with running := none } := by
  obtain ⟨t, d, t', d', -, answer, rfl, rfl⟩ := answer
  cases answer
  rfl

end Replies

end Prover

end ProofRelay
