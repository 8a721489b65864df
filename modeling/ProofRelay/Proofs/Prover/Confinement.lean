import ProofRelay.Proofs.Bytes.Utf8
import ProofRelay.Proofs.Files.Path
import ProofRelay.Proofs.Prover.Discipline
import ProofRelay.Proofs.Prover.Provenance
import ProofRelay.Proofs.Prover.Substitution

/-!
Where the files of a request are. Of its id only safe characters come into the name of its directory, so whatever the
id is, the directory is one directly in the place where directories are made. All that is written and read for the
request, and all that the prover is told to write, is in five files directly in there.
-/

namespace ProofRelay

namespace Workspace

/-- The characters of an id that come into the name of a directory. -/
def safeCharacters : List Char :=
  ['A', 'B', 'C', 'D', 'E', 'F', 'G', 'H', 'I', 'J', 'K', 'L', 'M', 'N', 'O', 'P', 'Q', 'R', 'S', 'T',
   'U', 'V', 'W', 'X', 'Y', 'Z', 'a', 'b', 'c', 'd', 'e', 'f', 'g', 'h', 'i', 'j', 'k', 'l', 'm', 'n',
   'o', 'p', 'q', 'r', 's', 't', 'u', 'v', 'w', 'x', 'y', 'z', '0', '1', '2', '3', '4', '5', '6', '7',
   '8', '9', '_', '-']

/-- The first safe characters of an id, in their order. -/
def sanitised (requestId : Text) : String :=
  String.ofList ((requestId.characters.filter (safeCharacters.contains ·)).take 32)

/-- All characters of a name are safe. -/
def IsSafeName (name : String) : Prop := ∀ c ∈ name.toList, c ∈ safeCharacters

/-- The files of a workspace. -/
def files (w : Workspace) : List Path := [w.input, w.params, w.verifyingKey, w.provingKey, w.proof]

section Names

theorem toNat_of_isSafe {c : Char} (safe : isSafe c = true) : c.toNat < 128 := by
  have bound (d : Char) (le : c.val ≤ d.val) (small : d.toNat < 128) : c.toNat < 128 :=
    Nat.lt_of_le_of_lt (UInt32.le_iff_toNat_le.1 le) small
  have kinds : (((c.isUpper = true ∨ c.isLower = true) ∨ c.isDigit = true) ∨ c = '_') ∨ c = '-' := by
    refine (Bool.or_eq_true_iff.1 safe).imp (fun safe => ?_) eq_of_beq
    refine (Bool.or_eq_true_iff.1 safe).imp (fun letter => ?_) eq_of_beq
    exact (Bool.or_eq_true_iff.1 letter).imp_left Bool.or_eq_true_iff.1
  rcases kinds with (((upper | lower) | digit) | rfl) | rfl
  · exact bound 'Z' (of_decide_eq_true upper).2 (by decide)
  · exact bound 'z' (of_decide_eq_true (Bool.and_eq_true_iff.1 lower).2) (by decide)
  · exact bound '9' (of_decide_eq_true (Bool.and_eq_true_iff.1 digit).2) (by decide)
  · decide
  · decide

theorem isSafe_eq (c : Char) : isSafe c = safeCharacters.contains c := by
  -- The characters below 128 are tried one by one, and none of the others is safe or in the list.
  by_cases small : c.toNat < 128
  · have all : ((List.range 128).all fun n =>
        isSafe (Char.ofNat n) == safeCharacters.contains (Char.ofNat n)) = true := by decide +kernel
    have here := List.all_eq_true.1 all c.toNat (List.mem_range.2 small)
    rw [Char.ofNat_toNat] at here
    exact eq_of_beq here
  · have listed : safeCharacters.all (·.toNat < 128) = true := by decide
    have refused : isSafe c = false := Bool.eq_false_iff.2 fun safe => small (toNat_of_isSafe safe)
    have absent : safeCharacters.contains c = false := by
      rw [← Bool.not_eq_true, List.contains_iff_mem]
      intro inside
      exact small (of_decide_eq_true (List.all_eq_true.1 listed c inside))
    rw [refused, absent]

theorem stem_eq (requestId : Text) : stem requestId = "proof-" ++ sanitised requestId ++ "-" := by
  rw [stem, sanitised, funext isSafe_eq]
  rfl

theorem isSafeName_sanitised (requestId : Text) : IsSafeName (sanitised requestId) := by
  intro c inside
  rw [sanitised, String.toList_ofList] at inside
  exact List.contains_iff_mem.1 (List.mem_filter.1 (List.mem_of_mem_take inside)).2

theorem sanitised_eq_self {name : String} (safe : IsSafeName name) (short : name.toList.length ≤ 32) :
    sanitised (Text.ofString name) = name := by
  have kept : name.toList.filter (safeCharacters.contains ·) = name.toList :=
    List.filter_eq_self.2 fun c inside => List.contains_iff_mem.2 (safe c inside)
  rw [sanitised, Text.characters_ofString, kept, List.take_of_length_le short, String.ofList_toList]

theorem sanitised_sanitised (requestId : Text) :
    sanitised (Text.ofString (sanitised requestId)) = sanitised requestId := by
  refine sanitised_eq_self (isSafeName_sanitised requestId) ?_
  rw [sanitised, String.toList_ofList]
  exact List.length_take_le _ _

theorem stem_inj {requestId other : Text} : stem other = stem requestId ↔ sanitised other = sanitised requestId := by
  rw [stem_eq, stem_eq, String.append_left_inj, String.append_right_inj]

theorem IsSafeName.append {a b : String} (first : IsSafeName a) (second : IsSafeName b) : IsSafeName (a ++ b) := by
  intro c inside
  rw [String.toList_append] at inside
  exact (List.mem_append.1 inside).elim (first c) (second c)

theorem isSafeName_of_all {name : String} (all : name.toList.all (safeCharacters.contains ·) = true) :
    IsSafeName name :=
  fun c inside => List.contains_iff_mem.1 (List.all_eq_true.1 all c inside)

theorem isSafeName_stem (requestId : Text) : IsSafeName (stem requestId) := by
  rw [stem_eq]
  exact ((isSafeName_of_all (by decide)).append (isSafeName_sanitised requestId)).append (isSafeName_of_all (by decide))

/-- There is neither a slash nor a dot in a safe name. -/
theorem IsSafeName.free {name : String} (safe : IsSafeName name) : '/' ∉ name.toList ∧ '.' ∉ name.toList := by
  have others : safeCharacters.contains '/' = false ∧ safeCharacters.contains '.' = false := by decide
  constructor
  · intro inside
    rw [List.contains_iff_mem.2 (safe _ inside)] at others
    cases others.1
  · intro inside
    rw [List.contains_iff_mem.2 (safe _ inside)] at others
    cases others.2

theorem stem_append_ne_nil (requestId : Text) (suffix : String) : (stem requestId ++ suffix).toList ≠ [] := by
  simp [stem]

/-- A safe name is one part of a path, and it is not the way up. -/
theorem IsSafeName.isPart {name : String} (safe : IsSafeName name) (nonempty : name.toList ≠ []) :
    Path.IsPart name ∧ name ≠ ".." := by
  obtain ⟨noSlash, noDot⟩ := safe.free
  refine ⟨⟨nonempty, noSlash, ?_⟩, ?_⟩
  · intro dot
    exact noDot (by simp [dot])
  · rintro rfl
    exact noDot (by decide)

end Names

section Files

variable {w : Workspace}

theorem names_files (w : Workspace) :
    w.files.map Path.name = ["input.json", "kzg.params", "vk.key", "pk.key", "proof.pf"] := by
  simp [files, input, params, verifyingKey, provingKey, proof, Path.name, Path.child]

/-- The files of a workspace are directly in its directory. -/
theorem of_mem_files {p : Path} (inside : p ∈ w.files) :
    p = w.root.child p.name ∧ p.parent = w.root ∧ p.place = w.root.place ++ [p.name] := by
  have each (name : String) (plain : name ≠ "..") : let p := w.root.child name
      p = w.root.child p.name ∧ p.parent = w.root ∧ p.place = w.root.place ++ [p.name] := by
    have same : (w.root.child name).name = name := by simp [Path.name, Path.child]
    have above : (w.root.child name).parent = w.root := by simp [Path.parent, Path.child]
    dsimp only
    rw [same]
    exact ⟨rfl, above, Path.place_child _ plain⟩
  simp only [files, List.mem_cons, List.not_mem_nil, or_false] at inside
  rcases inside with rfl | rfl | rfl | rfl | rfl
  · exact each "input.json" (by decide)
  · exact each "kzg.params" (by decide)
  · exact each "vk.key" (by decide)
  · exact each "pk.key" (by decide)
  · exact each "proof.pf" (by decide)

/-- The texts of the files of a workspace are all different. -/
theorem nodup_texts (below : w.root.parts ≠ []) : (w.files.map Path.toString).Nodup := by
  have texts : w.files.map Path.toString = (w.files.map Path.name).map (w.root.toString ++ "/" ++ ·) := by
    rw [List.map_map]
    refine List.map_congr_left fun p inside => ?_
    rw [(of_mem_files inside).1, Path.toString_child below]
    simp [Path.name, Path.child]
  have different : ["input.json", "kzg.params", "vk.key", "pk.key", "proof.pf"].Nodup := by decide
  rw [texts, names_files]
  exact List.pairwise_map.2 (different.imp fun ne same => ne ((String.append_right_inj _).1 same))

/-- A workspace is confined to a place: its directory is directly in there, under a name that its id cannot lead out
of, and its files are directly in its directory, each under a name of its own. -/
structure Confined (home : Path) (w : Workspace) : Prop where
  named : ∃ suffix, IsSafeName suffix ∧ w.root.name = "proof-" ++ sanitised w.requestId ++ "-" ++ suffix
  noSlash : '/' ∉ w.root.name.toList
  noDot : '.' ∉ w.root.name.toList
  child : w.root = home.child w.root.name
  parent : w.root.parent = home
  place : w.root.place = home.place ++ [w.root.name]
  files : ∀ p ∈ w.files, p = w.root.child p.name ∧ p.parent = w.root ∧ p.place = w.root.place ++ [p.name]
  names : w.files.map Path.name = ["input.json", "kzg.params", "vk.key", "pk.key", "proof.pf"]
  distinct : (w.files.map Path.toString).Nodup

/-- The stem and safe characters after it make a name that leads nowhere else. -/
theorem confined_of_child {home : Path} {suffix : String} (safe : IsSafeName suffix)
    (root : w.root = home.child (stem w.requestId ++ suffix)) : Confined home w := by
  have name : w.root.name = stem w.requestId ++ suffix := by simp [root, Path.name, Path.child]
  have safeName := (isSafeName_stem w.requestId).append safe
  have plain := (safeName.isPart (stem_append_ne_nil w.requestId suffix)).2
  refine ⟨⟨suffix, safe, ?_⟩, ?_, ?_, ?_, ?_, ?_, fun p => of_mem_files, names_files w, nodup_texts ?_⟩
  · rw [name, stem_eq]
  · rw [name]
    exact safeName.free.1
  · rw [name]
    exact safeName.free.2
  · rw [name, root]
  · simp [root, Path.parent, Path.child]
  · rw [name, root, Path.place_child _ plain]
  · simp [root, Path.child]

end Files

end Workspace

namespace Prover

open Attempt (AtMost)
open Workspace (sanitised IsSafeName)

variable {τ : Type}

/-- A directory is made as a temporary one: in a place that is given as a text, under a name that begins with the stem
and ends in safe characters. -/
def MadeTemporarily (temporary : String) : Exchange (dialogue τ) → Prop
  | ⟨.openWorkspace root stem, .ok dir⟩ => ∃ suffix, IsSafeName suffix ∧
      dir = Path.ofString (Path.join ((root.map Path.toString).getD temporary) (stem ++ suffix))
  | _ => True

/-- A question about nothing but the directory of a workspace and the files in it: the input is written, the proof and
the verifying key are read, and a step is told to write what it makes to its files. -/
def Ask.stays (c : Config τ) (model : String) (w : Workspace) : Ask τ → Bool
  | .now | .wait _ _ | .kill _ => true
  | .openWorkspace _ _ => false
  | .discard dir => dir = w.root
  | .write file _ => file = w.input
  | .isFile file | .read file => file = w.proof ∨ file = w.verifyingKey
  | .start args dir => dir = w.root ∧ ∃ s ∈ Step.all, args = s.arguments c w.input.toString model w

theorem mem_files_of_mem_outputs {w : Workspace} {s : Step} {o : String × Path} (inside : o ∈ s.outputs w) :
    o.2 ∈ w.files := by
  have all : ∀ o ∈ s.outputs w, o.2 ∈ w.files := by
    cases s <;> simp [Step.outputs, Workspace.files]
  exact all o inside

section Runs

variable [Time τ] {c : Config τ} {requestId : Text} {model temporary : String} {d : Json} {es : List (Exchange (dialogue τ))}
  {b : Activity (dialogue τ) (Except Trouble Artifact)}

/-- A step is started as it stays in the workspace. -/
theorem never_strays_runTemplate (c : Config τ) (model : String) (w : Workspace) (deadline : τ) (s : Step) :
    AtMost (fun q : Ask τ => !q.stays c model w) 0 (runTemplate c w.input.toString model w deadline s) := by
  have one : s ∈ Step.all := by cases s <;> decide
  have starts : (!(Ask.start (s.arguments c w.input.toString model w) w.root : Ask τ).stays c model w) = false := by
    simp only [Ask.stays, Bool.not_eq_false', decide_eq_true_eq]
    exact ⟨trivial, s, one, rfl⟩
  rw [runTemplate, commandLine_template]
  split
  · exact never_runStep rfl (fun _ _ => rfl) (fun _ => rfl) starts c s deadline
  · exact .done _ _

theorem never_strays_generate (c : Config τ) (model : String) (w : Workspace) :
    AtMost (fun q : Ask τ => !q.stays c model w) 0 (generate c w.input model w) := by
  refine (never_ask rfl).zero_bind fun now => ?_
  refine AtMost.zero_bind ?_ fun _ => never_collect ⟨by simp [Ask.stays], by simp [Ask.stays]⟩
    ⟨by simp [Ask.stays], by simp [Ask.stays]⟩
  refine (never_strays_runTemplate c model w _ .setup).zero_bind fun _ => ?_
  exact (never_strays_runTemplate c model w _ .prove).zero_bind fun _ => Attempt.atMost_ofExcept _ _

theorem never_strays_work (c : Config τ) (d : Json) (model : String) (w : Workspace) :
    AtMost (fun q : Ask τ => !q.stays c model w) 0 (do generate c (← w.writeInput c.levels d) model w) := by
  have writes (content : Bytes) : (!(Ask.write w.input content : Ask τ).stays c model w) = false := by simp [Ask.stays]
  rw [Workspace.writeInput]
  cases d.write c.levels with
  | error f => exact .done _ _
  | ok text =>
  -- Only if the input is written does the work go on, and then with the place of that file and of no other.
  refine Activity.AtMost.other (writes _) fun reply => ?_
  cases reply with
  | error f => exact .done _ _
  | ok _ => exact never_strays_generate c model w

/-- An attempt asks for its directory, and then for nothing outside of it. -/
theorem stays_of_path (path : Activity.Path (proveDocument c requestId d model).run es b) :
    es = [] ∨ ∃ reply rest, es = ⟨.openWorkspace c.root (Workspace.stem requestId), reply⟩ :: rest ∧
      ∀ e ∈ rest, ∃ dir, reply = .ok dir ∧ e.ask.stays c model ⟨requestId, dir⟩ = true := by
  rcases Activity.path_ask_iff.1 path with ⟨rfl, -⟩ | ⟨reply, rest, rfl, onward⟩
  · exact .inl rfl
  refine .inr ⟨reply, rest, rfl, ?_⟩
  cases reply with
  | error f =>
    obtain ⟨rfl, -⟩ := Activity.path_done_iff.1 onward
    exact List.forall_mem_nil _
  | ok dir =>
    intro e inside
    have never : AtMost (fun q : Ask τ => !q.stays c model ⟨requestId, dir⟩) 0 (do
        let result ← (do generate c (← Workspace.writeInput ⟨requestId, dir⟩ c.levels d) model ⟨requestId, dir⟩ :
          Attempt (dialogue τ) Artifact).outcome
        Workspace.close ⟨requestId, dir⟩ c.keep
        Attempt.ofExcept result) := by
      refine (never_strays_work c d model _).outcome.zero_bind fun result => ?_
      exact (never_close _ _ (by simp [Ask.stays])).zero_bind fun _ => Attempt.atMost_ofExcept _ _
    have stays := Activity.AtMost.eq_false onward never e inside
    exact ⟨dir, rfl, by simpa using stays⟩

omit [Time τ] in
/-- However a path was read, a directory that is made temporarily for an id is directly in the place for it. -/
theorem eq_child_of_made {dir : Path} (simple : ∀ p, c.root = some p → ∃ s, p = Path.ofString s)
    (made : MadeTemporarily (τ := τ) temporary ⟨.openWorkspace c.root (Workspace.stem requestId), .ok dir⟩) :
    ∃ suffix, IsSafeName suffix ∧
      dir = (c.root.getD (Path.ofString temporary)).child (Workspace.stem requestId ++ suffix) := by
  obtain ⟨suffix, safe, rfl⟩ := made
  refine ⟨suffix, safe, ?_⟩
  have part := (((Workspace.isSafeName_stem requestId).append safe).isPart
    (Workspace.stem_append_ne_nil requestId suffix)).1
  rw [Path.ofString_join part]
  cases root : c.root with
  | none => rfl
  | some p =>
    obtain ⟨s, rfl⟩ := simple p root
    exact congrArg (Path.child · _) (Path.ofString_toString s)

/-- Whatever the id of a request is, the request is confined to the place where directories are made. The name of its
directory begins with the safe characters of the id, up to a limit, and with nothing else of it, so ids with the same
ones have the same stem, and to make an id safe twice comes to the same as once. On every path of an attempt the first
thing that is asked for is a directory under such a name, and all else is about that directory and the files that are
directly in it. -/
theorem request_confined (requestId : Text) :
    Workspace.stem requestId = "proof-" ++ sanitised requestId ++ "-" ∧
    sanitised (Text.ofString (sanitised requestId)) = sanitised requestId ∧
    (∀ other, Workspace.stem other = Workspace.stem requestId ↔ sanitised other = sanitised requestId) ∧
    (∀ (w : Workspace) (s : Step), ∀ o ∈ s.outputs w, o.2 ∈ w.files) ∧
    ∀ (c : Config τ) (model temporary : String) (d : Json) (es : List (Exchange (dialogue τ)))
      (b : Activity (dialogue τ) (Except Trouble Artifact)), (∀ p, c.root = some p → ∃ s, p = Path.ofString s) →
      Activity.Path (proveDocument c requestId d model).run es b → (∀ e ∈ es, MadeTemporarily temporary e) →
      (∀ e ∈ es, e.ask = .openWorkspace c.root (Workspace.stem requestId) ∨
        ∃ dir, workspace? es = some dir ∧ e.ask.stays c model ⟨requestId, dir⟩ = true) ∧
      ∀ dir, workspace? es = some dir →
        Workspace.Confined (c.root.getD (Path.ofString temporary)) ⟨requestId, dir⟩ := by
  refine ⟨Workspace.stem_eq _, Workspace.sanitised_sanitised _, fun _ => Workspace.stem_inj,
    fun w s o => mem_files_of_mem_outputs, ?_⟩
  intro c model temporary d es b simple path made
  rcases stays_of_path path with rfl | ⟨reply, rest, rfl, stays⟩
  · exact ⟨List.forall_mem_nil _, nofun⟩
  cases reply with
  | error f =>
    have none : rest = [] := by
      refine List.eq_nil_iff_forall_not_mem.2 fun e inside => ?_
      obtain ⟨dir, same, -⟩ := stays e inside
      cases same
    subst none
    refine ⟨fun e inside => .inl ?_, nofun⟩
    rw [List.mem_singleton.1 inside]
  | ok dir =>
    refine ⟨?_, ?_⟩
    · intro e inside
      rcases List.mem_cons.1 inside with rfl | inside
      · exact .inl rfl
      · obtain ⟨dir', same, stays⟩ := stays e inside
        obtain rfl := Except.ok.inj same
        exact .inr ⟨dir, rfl, stays⟩
    · rintro dir' ⟨⟩
      obtain ⟨suffix, safe, rfl⟩ := eq_child_of_made simple (made _ List.mem_cons_self)
      exact Workspace.confined_of_child safe rfl

end Runs

section Climbing

/-- An id that would lead out of any directory, with a surrogate in it. -/
def climbing : Text := Text.ofString "../../etc/pass wd\x00.é" ++ [CodePoint.ofNat 0xD800] ++ Text.ofString "_9-"

def climbingConfig : Config Binary64 :=
  { command := ["ezkl"], timeout := Binary64.zero false, root := some (Path.ofString "/srv//work/.") }

def climbingDirectory : Path := Path.ofString "/srv/work/proof-etcpasswd_9--k3v_x0ab"

/-- A directory is made, and the input is written there. -/
def climbingExchanges : List (Exchange (dialogue Binary64)) :=
  [⟨.openWorkspace climbingConfig.root (Workspace.stem climbing), .ok climbingDirectory⟩,
    ⟨.write (climbingDirectory.child "input.json") (Utf8.encode "null"), .ok ()⟩]

/-- The climbing id gets a directory in the place for it, and its input is in there. -/
theorem request_confined_climbing :
    (∀ p, climbingConfig.root = some p → ∃ s, p = Path.ofString s) ∧
    (∃ b, Activity.Path (proveDocument climbingConfig climbing .null "m").run climbingExchanges b) ∧
    (∀ e ∈ climbingExchanges, MadeTemporarily "/tmp" e) ∧ sanitised climbing = "etcpasswd_9-" ∧
    Workspace.Confined (Path.ofString "/srv/work") ⟨climbing, climbingDirectory⟩ := by
  have simple : ∀ p, climbingConfig.root = some p → ∃ s, p = Path.ofString s := by
    rintro p ⟨⟩
    exact ⟨_, rfl⟩
  have path : Activity.Path (proveDocument climbingConfig climbing .null "m").run climbingExchanges _ :=
    .cons (.cons (.nil _))
  have made : ∀ e ∈ climbingExchanges, MadeTemporarily "/tmp" e := by
    refine List.forall_mem_cons.2 ⟨⟨"k3v_x0ab", Workspace.isSafeName_of_all (by decide), by decide⟩, ?_⟩
    exact List.forall_mem_singleton.2 trivial
  obtain ⟨-, -, -, -, runs⟩ := request_confined (τ := Binary64) climbing
  exact ⟨simple, ⟨_, path⟩, made, by decide, (runs _ _ _ _ _ _ simple path made).2 climbingDirectory rfl⟩

end Climbing

end Prover

end ProofRelay
