import ProofRelay.Proofs.Prover.Yard

/-!
A request by itself. Whatever it is answered beside others, it may be answered as well in a tree of its
own, which has its directory in common with the shared one and else only what was there before.
-/

namespace ProofRelay.Prover

variable {τ : Type} {c : Config τ} {temporary home : Path} {s : Script τ} {t t' t₀ t₁ : FileTree} {d d' : Stall τ}
  {Taken : Path → Prop} {dir : Path}

/-- A tree of its own for one stall: nothing else stands in it than in the shared tree, its directory is the
same, and nothing is where the others' directories are. -/
structure Solo (home : Path) (t : FileTree) (d : Stall τ) (Taken : Path → Prop) (t₀ : FileTree) : Prop where
  less : ∀ p, t₀.find? p = none ∨ t₀.find? p = t.find? p
  own : ∀ dir, d.dir = some dir → ∀ rest, t₀.find? (dir.place ++ rest) = t.find? (dir.place ++ rest)
  bare : ∀ dir, Taken dir → t₀.IsBare dir.place
  housed : d.Housed t₀ home

/-- The others' directories are in place, and none of them is the own one. -/
def Clears (home : Path) (t : FileTree) (d : Stall τ) (Taken : Path → Prop) : Prop :=
  ∀ dir', Taken dir' → t.Settled home dir' ∧ ∀ dir, d.dir = some dir → dir.place ≠ dir'.place

namespace Solo

theorem below (solo : Solo home t d Taken t₀) (own : d.dir = some dir) : t₀.below dir = t.below dir :=
  funext fun name => funext fun rest => solo.own dir own (name :: rest)

theorem none_of_none (solo : Solo home t d Taken t₀) {p : Place} (none : t.find? p = none) : t₀.find? p = .none := by
  rcases solo.less p with h | h
  · exact h
  · exact h.trans none

/-- Where nothing changes in the trees. -/
theorem stay (solo : Solo home t d Taken t₀) (same : d'.dir = d.dir) (housed : d'.Housed t₀ home) :
    Solo home t d' Taken t₀ :=
  ⟨solo.less, fun dir own => solo.own dir (same ▸ own), solo.bare, housed⟩

/-- Where directories are made in the shared tree only. -/
theorem made (solo : Solo home t d Taken t₀) (made : t.Makes home t') : Solo home t' d Taken t₀ := by
  refine ⟨fun p => ?_, fun dir own rest => ?_, solo.bare, solo.housed⟩
  · rcases made p with same | ⟨-, none, -⟩
    · rw [same]
      exact solo.less p
    · exact .inl (solo.none_of_none none)
  · rw [solo.own dir own rest]
    rcases made (dir.place ++ rest) with same | ⟨on, -⟩
    · exact same.symm
    · exact absurd (List.prefix_append _ _) ((solo.housed.settled dir own).off _ on)

/-- Where both trees change alike in the own directory. -/
theorem alters (solo : Solo home t d Taken t₀) (clears : Clears home t d Taken) (own : d.dir = some dir)
    (keeps : FileTree.Keeps dir.place t t') (keeps₀ : FileTree.Keeps dir.place t₀ t₁)
    (same : ∀ rest, t₁.find? (dir.place ++ rest) = t'.find? (dir.place ++ rest)) (housed : d'.Housed t₁ home)
    (still : ∀ dir', d'.dir = some dir' → dir' = dir) : Solo home t' d' Taken t₁ := by
  refine ⟨fun p => ?_, fun dir' own' rest => ?_, fun dir' taken rest => ?_, housed⟩
  · by_cases inside : dir.place <+: p
    · obtain ⟨rest, rfl⟩ := inside
      exact .inr (same rest)
    · rw [keeps p inside, keeps₀ p inside]
      exact solo.less p
  · obtain rfl := still dir' own'
    exact same rest
  · obtain ⟨settled', apart⟩ := clears dir' taken
    rw [keeps₀ _ (settled'.apart (solo.housed.settled dir own) (apart dir own).symm rest)]
    exact solo.bare dir' taken rest

/-- A directory that is made in the shared tree can be made in the own one. -/
theorem opens (solo : Solo home t d Taken t₀) (made : t.Makes home t') {name : String} {q : Place}
    (absent : t'.arrive (home.child name) = .absent q) (bare : t'.IsBare q) :
    (t₀.pave home t').arrive (home.child name) = .absent q ∧ (t₀.pave home t').IsBare q := by
  obtain ⟨clear, plain, short, rfl⟩ := FileTree.of_arrive_absent absent
  have off := clear.off bare
  have none : ∀ rest, (t₀.pave home t').find? (home.place ++ [name] ++ rest) = none := by
    intro rest
    have old : t.find? (home.place ++ [name] ++ rest) = none := by
      rcases made (home.place ++ [name] ++ rest) with same | ⟨on, -⟩
      · rw [← same]
        exact bare rest
      · exact absurd (List.prefix_append _ _) (off _ on)
    rw [FileTree.find?_pave, solo.none_of_none old, Option.none_or, if_neg]
    rintro ⟨on, -⟩
    exact off _ on (List.prefix_append _ _)
  have clear₀ : (t₀.pave home t').Clear home := by
    refine clear.mono fun p on there => ?_
    rw [FileTree.find?_pave, if_pos ⟨on, there⟩]
    rcases solo.less p with h | h
    · rw [h]
      rfl
    · rw [h]
      rcases made p with same | ⟨-, none, -⟩
      · rw [← same, there]
        rfl
      · rw [none]
        rfl
  refine ⟨?_, none⟩
  have last := none []
  rw [List.append_nil] at last
  refine (FileTree.walk_append clear₀).trans ?_
  have place : FileTree.placeFrom (FileTree.start home) home.parts = home.place := rfl
  simp [FileTree.walk, plain, short, place, last]

/-- Where the directories on the way are made in both trees. -/
theorem paved (solo : Solo home t d Taken t₀) (clears : Clears home t d Taken) (made : t.Makes home t') :
    Solo home t' d Taken (t₀.pave home t') := by
  have off : ∀ p, p ∉ home.trail → (t₀.pave home t').find? p = t₀.find? p := by
    intro p off
    rw [FileTree.find?_pave, if_neg (fun on => off on.1), Option.or_none]
  refine ⟨fun p => ?_, fun dir own rest => ?_, fun dir taken rest => ?_, ?_⟩
  · rw [FileTree.find?_pave]
    rcases (solo.made made).less p with h | h
    · rw [h, Option.none_or]
      split
      · rename_i on
        exact .inr on.2.symm
      · exact .inl rfl
    · cases there : t₀.find? p with
      | none =>
        rw [Option.none_or]
        split
        · rename_i on
          exact .inr on.2.symm
        · exact .inl rfl
      | some e =>
        rw [← h, there]
        exact .inr rfl
  · rw [off, (solo.made made).own dir own rest]
    exact fun on => (solo.housed.settled dir own).off _ on (List.prefix_append _ _)
  · rw [off, solo.bare dir taken rest]
    exact fun on => (clears dir taken).1.off _ on (List.prefix_append _ _)
  · exact ⟨fun dir own => ((solo.housed.settled dir own).made (t₀.makes_pave home t')).1, solo.housed.valid,
      solo.housed.running⟩

/-- Where a directory is made in both trees. -/
theorem opened (solo : Solo home t d Taken t₀) (clears : Clears home t d Taken) (bare : t.IsBare dir.place)
    (bare₀ : t₀.IsBare dir.place) (settled : (t.put dir.place .directory).Settled home dir)
    (given : d'.dir = some dir) (housed : d'.Housed (t₀.put dir.place .directory) home) :
    Solo home (t.put dir.place .directory) d' Taken (t₀.put dir.place .directory) := by
  have both : ∀ p, p = dir.place → (t₀.put dir.place .directory).find? p = (t.put dir.place .directory).find? p := by
    rintro p rfl
    rw [FileTree.find?_put_self settled.free, FileTree.find?_put_self settled.free]
  refine ⟨fun p => ?_, fun dir' own rest => ?_, fun dir' taken rest => ?_, housed⟩
  · by_cases here : p = dir.place
    · exact .inr (both p here)
    · rw [FileTree.find?_put_other here, FileTree.find?_put_other here]
      exact solo.less p
  · obtain rfl := Option.some.inj (given.symm.trans own)
    by_cases here : dir.place ++ rest = dir.place
    · exact both _ here
    · rw [FileTree.find?_put_other here, FileTree.find?_put_other here, bare rest, bare₀ rest]
  · have settled' := (clears dir' taken).1
    have ne : dir.place ≠ dir'.place := fun same => bare.not_prefix settled'.there (same ▸ List.prefix_rfl)
    have off := settled.apart settled' ne []
    rw [FileTree.find?_put_other, solo.bare dir' taken rest]
    intro here
    exact off ⟨rest, by rw [here, List.append_nil]⟩

/-- What is done in the own directory can be done in the own tree. -/
theorem fills (solo : Solo home t d Taken t₀) (own : d.dir = some dir) (fills : t.Fills dir t') :
    t₀.Fills dir (t₀.graft dir.place t') := by
  intro p off
  by_cases inside : dir.place <+: p
  · obtain ⟨rest, rfl⟩ := inside
    rw [FileTree.find?_graft_append, fills _ off, solo.own dir own rest]
  · exact t₀.keeps_graft _ t' p inside

/-- What the own process does while it is running. -/
theorem work {found : Contents} (solo : Solo home t d Taken t₀) (clears : Clears home t d Taken)
    (running : d.running = some (dir, found)) (fills : t.Fills dir t') :
    Solo home t' d Taken (t₀.graft dir.place t') :=
  have own := solo.housed.running dir found running
  solo.alters clears own fills.keeps (t₀.keeps_graft _ t') (t₀.find?_graft_append _ t')
    (solo.housed.work running (solo.fills own fills)).1 fun _ own' => Option.some.inj (own'.symm.trans own)

/-- Removing leaves nothing new in the own tree either. -/
theorem less_graft (solo : Solo home t d Taken t₀) (own : d.dir = some dir)
    (less : ∀ p e, t'.find? p = some e → t.find? p = some e) (p : Place) (e : FileEntry)
    (there : (t₀.graft dir.place t').find? p = some e) : t₀.find? p = some e := by
  by_cases inside : dir.place <+: p
  · obtain ⟨rest, rfl⟩ := inside
    rw [FileTree.find?_graft_append] at there
    rw [solo.own dir own rest]
    exact less _ _ there
  · rwa [t₀.keeps_graft _ t' p inside] at there

section Write

variable {name : String} {content : Bytes}

theorem write_error {f : Fault} (solo : Solo home t d Taken t₀) (housed : d.Housed t home) (own : d.dir = some dir)
    (plain : FileTree.IsPlain name) (failed : t.write (dir.child name) content = .error f) :
    t₀.write (dir.child name) content = .error f := by
  have valid := housed.valid dir own
  rw [(housed.settled dir own).write valid plain] at failed
  rw [(solo.housed.settled dir own).write valid plain, solo.below own]
  split at failed
  · rwa [if_pos ‹_›]
  · split at failed
    · rwa [if_neg ‹_›, if_pos ‹_›]
    · cases failed

/-- A file that is written in the shared tree can be written in the own one. -/
theorem write_ok (solo : Solo home t d Taken t₀) (housed : d.Housed t home) (own : d.dir = some dir)
    (plain : FileTree.IsPlain name) (done : t.write (dir.child name) content = .ok t') :
    ∃ t₁, t₀.write (dir.child name) content = .ok t₁ ∧ FileTree.Keeps dir.place t t' ∧
      FileTree.Keeps dir.place t₀ t₁ ∧ ∀ rest, t₁.find? (dir.place ++ rest) = t'.find? (dir.place ++ rest) := by
  have valid := housed.valid dir own
  have here := List.prefix_append dir.place [name]
  have free := FileTree.isFixed_append (housed.settled dir own).free [name]
  rw [(housed.settled dir own).write valid plain] at done
  rw [(solo.housed.settled dir own).write valid plain, solo.below own]
  split at done
  · cases done
  split at done
  · cases done
  · obtain rfl := Except.ok.inj done
    rw [if_neg ‹_›, if_neg ‹_›]
    refine ⟨_, rfl, FileTree.keeps_put here, FileTree.keeps_put here, fun rest => ?_⟩
    by_cases same : dir.place ++ rest = dir.place ++ [name]
    · rw [same, FileTree.find?_put_self free, FileTree.find?_put_self free]
    · rw [FileTree.find?_put_other same, FileTree.find?_put_other same, solo.own dir own rest]

end Write

/-- What is answered to another request changes nothing in the own tree. -/
theorem other {o o' : Stall τ} {Taken' : Path → Prop} (solo : Solo home t d Taken t₀) (housed : d.Housed t home)
    (beside : o.Housed t home) (apart : o.Apart d) (touches : Stall.Touches home t o t' o')
    (taken : ∀ dir, o.dir = some dir → Taken dir) (after : ∀ dir, Taken' dir → Taken dir ∨ o'.dir = some dir) :
    Solo home t' d Taken' t₀ := by
  have bare : ∀ dir, (o'.dir = some dir → t₀.IsBare dir.place) → Taken' dir → t₀.IsBare dir.place :=
    fun dir new taken' => (after dir taken').elim (solo.bare dir) new
  have own : ∀ dir, d.dir = some dir → ∀ rest, t₀.find? (dir.place ++ rest) = t'.find? (dir.place ++ rest) := by
    intro dir own rest
    obtain ⟨settled, same⟩ := touches.settled beside housed apart own
    rw [solo.own dir own rest]
    cases rest with
    | nil => rw [List.append_nil, settled.there, (housed.settled dir own).there]
    | cons name rest => exact (congrFun (congrFun same name) rest).symm
  cases touches with
  | makes made same =>
    refine ⟨(solo.made made).less, own, fun dir => bare dir fun given => ?_, solo.housed⟩
    exact solo.bare dir (taken dir (same ▸ given))
  | alters dir own' keeps same =>
    refine ⟨fun p => ?_, own, fun dir' => bare dir' fun given => ?_, solo.housed⟩
    · by_cases inside : dir.place <+: p
      · obtain ⟨rest, rfl⟩ := inside
        exact .inl (solo.bare dir (taken dir own') rest)
      · rw [keeps p inside]
        exact solo.less p
    · obtain rfl := same dir' given
      exact solo.bare dir' (taken dir' own')
  | opens t₁ dir made clean put settled given =>
    have free : t₀.IsBare dir.place := fun rest => (solo.made made).none_of_none (clean rest)
    refine ⟨fun p => ?_, own, fun dir' => bare dir' fun given' => ?_, solo.housed⟩
    · by_cases here : p = dir.place
      · exact .inl (by simpa [here] using free [])
      · rw [put, FileTree.find?_put_other here]
        exact (solo.made made).less p
    · obtain rfl := Option.some.inj (given.symm.trans given')
      exact free

section Answers

variable [Time τ] {e : Exchange (dialogue τ)}

/-- An answer may be given in the tree of its own as well, and leaves that a tree of its own. -/
def Follows (c : Config τ) (temporary : Path) (s : Script τ) (Taken : Path → Prop) (t₀ : FileTree) (d : Stall τ)
    (e : Exchange (dialogue τ)) (t' : FileTree) (d' : Stall τ) : Prop :=
  ∃ t₁, Stall.Answers c.timeout temporary s t₀ d e t₁ d' ∧ Solo (c.home temporary) t' d' Taken t₁

theorem follows (solo : Solo (c.home temporary) t d Taken t₀) (may : May c (d.view t) e.ask)
    (answer : Stall.Answers c.timeout temporary s t₀ d e t₁ d')
    (after : d'.Housed t₁ (c.home temporary) → Solo (c.home temporary) t' d' Taken t₁) :
    Follows c temporary s Taken t₀ d e t' d' := by
  have may₀ : May c (d.view t₀) e.ask := may
  exact ⟨t₁, answer, after (solo.housed.answer may₀ answer).1⟩

variable (solo : Solo (c.home temporary) t d Taken t₀) (clears : Clears (c.home temporary) t d Taken)

include solo clears

theorem follows_opened {stem suffix : String} {q : Place}
    (may : May c (d.view t) (.openWorkspace c.root stem)) (willing : (s d.attempts).opening = none)
    (made : t.Makes (c.home temporary) t') (absent : t'.arrive ((c.home temporary).child (stem ++ suffix)) = .absent q)
    (bare : t'.IsBare q) (valid : FileTree.checkPath ((c.home temporary).child (stem ++ suffix)) = .ok ()) :
    Follows c temporary s Taken t₀ d ⟨.openWorkspace c.root stem, .ok ((c.home temporary).child (stem ++ suffix))⟩
      (t'.put q .directory)
      { d.next with dir := some ((c.home temporary).child (stem ++ suffix)),
                    last := some ((c.home temporary).child (stem ++ suffix)) } := by
  obtain ⟨absent₀, bare₀⟩ := solo.opens made absent bare
  obtain ⟨rfl, settled⟩ := FileTree.settled_put absent bare
  refine solo.follows may (.opened willing (t₀.makes_pave _ _) rfl absent₀ bare₀ valid) ?_
  refine (solo.paved clears made).opened ?_ bare bare₀ settled rfl
  exact fun dir' taken => ⟨((clears dir' taken).1.made made).1, (clears dir' taken).2⟩

theorem follows_discard (may : May c (d.view t) (.discard dir)) (keeps : FileTree.Keeps dir.place t t')
    (less : ∀ p e, t'.find? p = some e → t.find? p = some e) :
    Follows c temporary s Taken t₀ d ⟨.discard dir, ()⟩ t' { d with dir := d.dir.filter (· != dir) } := by
  have own : d.dir = some dir := may.1
  have gone : d.dir.filter (· != dir) = none := by simp [own]
  refine solo.follows may (.discard (t₀.keeps_graft _ t') (solo.less_graft own less)) fun housed' => ?_
  exact solo.alters clears own keeps (t₀.keeps_graft _ t') (t₀.find?_graft_append _ t') housed'
    fun dir' own' => nomatch gone.symm.trans own'

theorem follows_exited {found : Contents} {n : Nat} {limit : τ} {ending : Ending}
    (housed : d.Housed t (c.home temporary))
    (may : May c (d.view t) (.wait n limit)) (running : d.running = some (dir, found))
    (ends : ((d.course s).process n).ends limit found = some ending) (fills : t.Fills dir t')
    (left : t'.below dir = ending.contents) :
    Follows c temporary s Taken t₀ d ⟨.wait n limit, some ⟨ending.code, ending.errors.said dir⟩⟩ t'
      { d with running := none } := by
  have own := housed.running dir found running
  refine solo.follows may (.exited running ends (solo.fills own fills) ?_) fun housed' => ?_
  · rw [← left]
    exact funext fun name => funext fun rest => t₀.find?_graft_append _ t' (name :: rest)
  · exact solo.alters clears own fills.keeps (t₀.keeps_graft _ t') (t₀.find?_graft_append _ t') housed'
      fun dir' own' => Option.some.inj (own'.symm.trans own)

theorem follows_written {file : Path} {content : Bytes} (housed : d.Housed t (c.home temporary))
    (may : May c (d.view t) (.write file content)) (willing : (d.course s).writing = none)
    (done : t.write file content = .ok t') : Follows c temporary s Taken t₀ d ⟨.write file content, .ok ()⟩ t' d := by
  obtain ⟨-, dir, name, own, rfl, plain⟩ := id may
  obtain ⟨t₁, done₁, keeps, keeps₁, same⟩ := solo.write_ok housed own plain done
  refine solo.follows may (.written willing done₁) fun housed' => ?_
  exact solo.alters clears own keeps keeps₁ same housed' fun dir' own' => Option.some.inj (own'.symm.trans own)

omit clears in
theorem follows_isFile {file : Path} (housed : d.Housed t (c.home temporary)) (may : May c (d.view t) (.isFile file)) :
    Follows c temporary s Taken t₀ d ⟨.isFile file, t.isFile file⟩ t d := by
  obtain ⟨-, dir, name, own, rfl, plain⟩ := id may
  have same : t₀.isFile (dir.child name) = t.isFile (dir.child name) := by
    rw [(housed.settled dir own).isFile plain, (solo.housed.settled dir own).isFile plain, solo.below own]
  exact solo.follows may (same ▸ .isFile _) (solo.stay rfl)

omit clears in
theorem follows_read {file : Path} (housed : d.Housed t (c.home temporary)) (may : May c (d.view t) (.read file)) :
    Follows c temporary s Taken t₀ d ⟨.read file, t.read file⟩ t d := by
  obtain ⟨-, dir, name, own, rfl, plain⟩ := id may
  have valid := housed.valid dir own
  have same : t₀.read (dir.child name) = t.read (dir.child name) := by
    rw [(housed.settled dir own).read valid plain, (solo.housed.settled dir own).read valid plain, solo.below own]
  exact solo.follows may (same ▸ .read _) (solo.stay rfl)

/-- Every answer to a request is one that it may be given in the tree of its own. -/
theorem answer (housed : d.Housed t (c.home temporary)) (may : May c (d.view t) e.ask)
    (answer : Stall.Answers c.timeout temporary s t d e t' d') : Follows c temporary s Taken t₀ d e t' d' := by
  cases answer with
  | now time left => exact solo.follows may (.now time left) (solo.stay rfl)
  | unstarted refused => exact solo.follows may (.unstarted refused) (solo.stay rfl)
  | unwritable refused => exact solo.follows may (.unwritable refused) (solo.stay rfl)
  | late running ends => exact solo.follows may (.late running ends) (solo.stay rfl)
  | kill n => exact solo.follows may (.kill n) (solo.stay rfl)
  | unopened refused made =>
    obtain ⟨rfl, -⟩ := id may
    exact solo.follows may (.unopened refused (t₀.makes_self _)) ((solo.made made).stay rfl)
  | opened willing made named absent bare valid =>
    obtain ⟨rfl, -⟩ := id may
    subst named
    exact solo.follows_opened clears may willing made absent bare valid
  | discard keeps less => exact solo.follows_discard clears may keeps less
  | unwritten willing failed =>
    obtain ⟨-, dir, name, own, rfl, plain⟩ := id may
    exact solo.follows may (.unwritten willing (solo.write_error housed own plain failed)) (solo.stay rfl)
  | written willing done => exact solo.follows_written clears housed may willing done
  | isFile => exact solo.follows_isFile housed may
  | read => exact solo.follows_read housed may
  | @started d args dir willing =>
    have same : t₀.below dir = t.below dir := solo.below may.1
    refine solo.follows may ?_ (solo.stay rfl)
    rw [← same]
    exact .started willing
  | exited running ends fills left => exact solo.follows_exited clears housed may running ends fills left

end Answers

end Solo

end ProofRelay.Prover
