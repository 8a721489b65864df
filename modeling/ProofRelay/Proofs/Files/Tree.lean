import ProofRelay.Files.Tree

/-!
Ways through a file tree. The place that a path names, and the places on the way to it, do not depend on
the tree, so what changes elsewhere does not change where the path leads. A place at which nothing stands,
nor below it, is not on the way to anything. What is written to a file is read from it.
-/

namespace ProofRelay

namespace FileTree

section Entries

variable {t : FileTree} {q p : Place} {e : FileEntry}

theorem lookup_filter (l : List (Place × FileEntry)) (keep : Place → Bool) (p : Place) :
    (l.filter fun x => keep x.1).lookup p = if keep p then l.lookup p else none := by
  induction l with
  | nil => simp
  | cons x l ih =>
    obtain ⟨k, e⟩ := x
    by_cases hk : p = k
    · subst hk
      cases hp : keep p with
      | true => simp [hp]
      | false => rw [List.filter_cons_of_neg (by simpa using hp), ih, hp]; rfl
    · have other : (p == k) = false := beq_false_of_ne hk
      cases hk' : keep k <;> simp [hk', List.lookup_cons, other, ih]

theorem find?_put_self (free : isFixed q = false) : (t.put q e).find? q = some e := by
  simp [find?, put, free]

theorem find?_put_other (hne : p ≠ q) : (t.put q e).find? p = t.find? p := by
  have kept : (p != q) = true := by simpa using hne
  have other : (p == q) = false := beq_false_of_ne hne
  simp only [find?, put, List.lookup_cons, other, lookup_filter _ (fun x => x != q), kept, if_true]

theorem find?_remove (off : ¬ q <+: p) : (t.remove q).find? p = t.find? p := by
  have kept : (!q.isPrefixOf p) = true := by
    rw [Bool.not_eq_true', ← Bool.not_eq_true, List.isPrefixOf_iff_prefix]
    exact off
  simp only [find?, remove, lookup_filter _ (fun x => !q.isPrefixOf x), kept, if_true]

theorem of_find?_remove (there : (t.remove q).find? p = some e) : t.find? p = some e := by
  unfold find? at there ⊢
  split at there
  · rwa [if_pos ‹_›]
  · rw [remove, lookup_filter _ (fun x => !q.isPrefixOf x)] at there
    split at there
    · rwa [if_neg ‹_›]
    · cases there

theorem find?_of_isFixed (fixed : isFixed p = true) : t.find? p = some .directory := by
  simp [find?, fixed]

/-- Below a place that comes and goes there is nothing that is always there. -/
theorem isFixed_append (free : isFixed q = false) (rest : Place) : isFixed (q ++ rest) = false := by
  rw [← Bool.not_eq_true] at free ⊢
  refine fun fixed => free ?_
  simp only [isFixed, Bool.or_eq_true, List.all_append, Bool.and_eq_true, beq_iff_eq] at fixed ⊢
  rcases fixed with ⟨all, -⟩ | top
  · exact .inl all
  · cases q with
    | nil => exact .inl rfl
    | cons part q =>
      obtain ⟨rfl, hq⟩ := List.cons.inj top
      obtain ⟨rfl, -⟩ := List.append_eq_nil_iff.1 hq
      exact .inr rfl

/-- Nothing stands at a place or below it. -/
def IsBare (t : FileTree) (q : Place) : Prop := ∀ rest, t.find? (q ++ rest) = none

theorem IsBare.free (bare : t.IsBare q) : isFixed q = false := by
  have none := bare []
  rw [List.append_nil] at none
  rw [← Bool.not_eq_true]
  intro fixed
  rw [find?_of_isFixed fixed] at none
  cases none

/-- Whether a place is bare, by looking at all entries. -/
def isBare (t : FileTree) (q : Place) : Bool := !isFixed q && t.entries.all fun x => !q.isPrefixOf x.1

theorem isBare_of_isBare (h : t.isBare q = true) : t.IsBare q := by
  intro rest
  simp only [isBare, Bool.and_eq_true, Bool.not_eq_true', List.all_eq_true] at h
  rw [find?, isFixed_append h.1, if_neg Bool.false_ne_true, List.lookup_eq_none_iff]
  intro x hx
  refine bne_iff_ne.2 ?_
  rintro same
  have below := h.2 x hx
  rw [← same, List.isPrefixOf_iff_prefix.2 (List.prefix_append _ _)] at below
  cases below

theorem IsBare.not_prefix (bare : t.IsBare q) (there : t.find? p = some e) : ¬ q <+: p := by
  rintro ⟨rest, rfl⟩
  rw [bare rest] at there
  cases there

/-- A change at or below one place only. -/
def Keeps (q : Place) (t t' : FileTree) : Prop := ∀ p, ¬ q <+: p → t'.find? p = t.find? p

theorem keeps_put (below : q <+: p) : Keeps q t (t.put p e) := by
  intro p' off
  refine find?_put_other ?_
  rintro rfl
  exact off below

end Entries

section Ways

/-- The place that a walk comes to by one part of its path. -/
def onward (at_ : Place) (part : String) : Place := if part = ".." then above at_ else at_ ++ [part]

/-- The place that a path leads to from another one. -/
def placeFrom (at_ : Place) (parts : List String) : Place := parts.foldl onward at_

/-- The places that a walk comes by, with its start and its end. -/
def trailFrom (at_ : Place) : List String → List Place
  | [] => [at_]
  | part :: rest => at_ :: trailFrom (onward at_ part) rest

/-- All directories that a walk passes are there. -/
def ClearFrom (t : FileTree) (at_ : Place) : List String → Prop
  | [] => True
  | part :: rest =>
    (part ≠ ".." → isTooLong part = false ∧ t.find? (at_ ++ [part]) = some .directory) ∧
      ClearFrom t (onward at_ part) rest

variable {t t' : FileTree} {at_ q p : Place} {parts more : List String} {part name : String}

theorem onward_of_ne (plain : part ≠ "..") : onward at_ part = at_ ++ [part] := if_neg plain

/-- A walk goes on from where its way is clear to. -/
theorem walk_append (clear : ClearFrom t at_ parts) :
    walk t at_ (parts ++ more) = walk t (placeFrom at_ parts) more := by
  induction parts generalizing at_ with
  | nil => rfl
  | cons part parts ih =>
    obtain ⟨first, rest⟩ := clear
    have := ih rest
    by_cases up : part = ".."
    · subst up
      simpa [walk, placeFrom, onward] using this
    · obtain ⟨short, there⟩ := first up
      rw [onward_of_ne up] at this
      simpa [walk, placeFrom, onward, up, short, there] using this

theorem clearFrom_append :
    ClearFrom t at_ (parts ++ more) ↔ ClearFrom t at_ parts ∧ ClearFrom t (placeFrom at_ parts) more := by
  induction parts generalizing at_ with
  | nil => simp [ClearFrom, placeFrom]
  | cons part parts ih => simp [ClearFrom, ih, placeFrom, and_assoc]

theorem placeFrom_concat (plain : name ≠ "..") : placeFrom at_ (parts ++ [name]) = placeFrom at_ parts ++ [name] := by
  simp [placeFrom, onward, plain]

theorem mem_trailFrom_concat :
    p ∈ trailFrom at_ (parts ++ [name]) ↔ p ∈ trailFrom at_ parts ∨ p = onward (placeFrom at_ parts) name := by
  induction parts generalizing at_ with
  | nil => simp [trailFrom, placeFrom]
  | cons part parts ih => simp [trailFrom, ih, placeFrom, or_assoc]

/-- A way stays clear as long as its directories stay. -/
theorem ClearFrom.mono (clear : ClearFrom t at_ parts)
    (stay : ∀ p ∈ trailFrom at_ parts, t.find? p = some .directory → t'.find? p = some .directory) :
    ClearFrom t' at_ parts := by
  induction parts generalizing at_ with
  | nil => trivial
  | cons part parts ih =>
    obtain ⟨first, rest⟩ := clear
    refine ⟨fun plain => ?_, ih rest fun p hp => stay p (List.mem_cons_of_mem _ hp)⟩
    obtain ⟨short, there⟩ := first plain
    have on : at_ ++ [part] ∈ trailFrom at_ (part :: parts) := by
      rw [← onward_of_ne plain]
      cases parts <;> simp [trailFrom]
    exact ⟨short, stay _ on there⟩

/-- A walk that finds nothing at the last part has come to a directory that is there. -/
theorem of_walk_absent (absent : walk t at_ (parts ++ [name]) = .absent q) :
    ClearFrom t at_ parts ∧ name ≠ ".." ∧ isTooLong name = false ∧ q = placeFrom at_ parts ++ [name] := by
  induction parts generalizing at_ with
  | nil =>
    simp only [List.nil_append, walk, beq_iff_eq] at absent
    split at absent
    · cases absent
    · rename_i plain
      split at absent
      · cases absent
      · rename_i short
        split at absent
        · cases absent
        · cases absent
        · exact ⟨trivial, plain, by simpa using short, (Arrival.absent.inj absent).symm⟩
  | cons part parts ih =>
    simp only [List.cons_append, walk, beq_iff_eq] at absent
    split at absent
    · rename_i up
      obtain ⟨clear, rest⟩ := ih absent
      have on : onward at_ part = above at_ := if_pos up
      refine ⟨⟨fun plain => absurd up plain, on ▸ clear⟩, ?_⟩
      rw [placeFrom, List.foldl_cons, on]
      exact rest
    · rename_i plain
      split at absent
      · cases absent
      · rename_i short
        split at absent
        · rename_i there
          obtain ⟨clear, rest⟩ := ih absent
          have on : onward at_ part = at_ ++ [part] := onward_of_ne plain
          refine ⟨⟨fun _ => ⟨by simpa using short, there⟩, on ▸ clear⟩, ?_⟩
          rw [placeFrom, List.foldl_cons, on]
          exact rest
        · simp at absent
        · simp at absent

/-- A bare place is not on a clear way, and nor is any below it. -/
theorem ClearFrom.off (clear : ClearFrom t at_ parts) (bare : t.IsBare q) (start : ¬ q <+: at_) :
    ∀ p ∈ trailFrom at_ parts, ¬ q <+: p := by
  induction parts generalizing at_ with
  | nil => simpa [trailFrom] using start
  | cons part parts ih =>
    obtain ⟨first, rest⟩ := clear
    have next : ¬ q <+: onward at_ part := by
      by_cases up : part = ".."
      · -- The way up leads to a fixed place, or to one that has been passed.
        rw [onward, if_pos up, above]
        split
        · exact start
        · split
          · rename_i low fixed
            refine bare.not_prefix (find?_of_isFixed ?_)
            have ups : at_.all (· == "..") = true := by simpa [isFixed, low] using fixed
            simp [isFixed, ups]
          · exact fun below => start (below.trans (List.dropLast_prefix _))
      · rw [onward_of_ne up]
        exact bare.not_prefix (first up).2
    intro p hp
    rcases List.mem_cons.1 hp with rfl | hp
    · exact start
    · exact ih rest next p hp

end Ways

end FileTree

/-- The place that a path names. -/
def Path.place (p : Path) : Place := FileTree.placeFrom (FileTree.start p) p.parts

/-- The places on the way along a path. -/
def Path.trail (p : Path) : List Place := FileTree.trailFrom (FileTree.start p) p.parts

theorem Path.place_child (p : Path) {name : String} (plain : name ≠ "..") : (p.child name).place = p.place ++ [name] :=
  FileTree.placeFrom_concat plain

theorem Path.mem_trail_child {p : Path} {name : String} {q : Place} (plain : name ≠ "..") :
    q ∈ (p.child name).trail ↔ q ∈ p.trail ∨ q = p.place ++ [name] := by
  rw [← FileTree.onward_of_ne plain]
  exact FileTree.mem_trailFrom_concat

theorem Path.toString_child {p : Path} (below : p.parts ≠ []) (name : String) :
    (p.child name).toString = p.toString ++ "/" ++ name := by
  have long : (p.child name).parts ≠ [] := by simp [Path.child]
  have join : String.intercalate "/" (p.parts ++ [name]) = String.intercalate "/" p.parts ++ "/" ++ name := by
    rw [String.intercalate_append_of_ne_nil below (List.cons_ne_nil _ _), String.intercalate_singleton]
  rw [Path.toString, Path.toString, if_neg (by simp [long]), if_neg (by simp [below])]
  simp only [Path.child, join, String.append_assoc]

/-- What stands below a directory, by the first name and the rest of the way. -/
abbrev Contents : Type := String → Place → Option FileEntry

/-- What a look at a name in the directory tells: whether there is a file. -/
def Contents.look (c : Contents) (dir : Path) (name : String) : Except Fault Bool :=
  match c name [] with
  | none | some .directory => .ok false
  | some .broken => .error (FileTree.brokenFile (dir.child name))
  | some _ => .ok true

namespace FileTree

variable {t t' : FileTree} {home dir dir' : Path} {q : Place} {name : String}

def below (t : FileTree) (dir : Path) : Contents := fun name rest => t.find? (dir.place ++ name :: rest)

/-- All directories along a path are there. -/
def Clear (t : FileTree) (p : Path) : Prop := t.ClearFrom (start p) p.parts

theorem not_prefix_start (free : isFixed q = false) (p : Path) : ¬ q <+: start p := by
  intro below
  have fixed : isFixed (start p) = true := by
    unfold start
    split <;> rfl
  obtain ⟨rest, hrest⟩ := below
  rw [← hrest, isFixed_append free] at fixed
  cases fixed

theorem of_arrive_absent (absent : t.arrive (home.child name) = .absent q) :
    t.Clear home ∧ name ≠ ".." ∧ isTooLong name = false ∧ q = home.place ++ [name] :=
  of_walk_absent absent

theorem Clear.off (clear : t.Clear dir) (bare : t.IsBare q) : ∀ p ∈ dir.trail, ¬ q <+: p :=
  ClearFrom.off clear bare (not_prefix_start bare.free dir)

/-- A name that may be given to a file. -/
structure IsPlain (name : String) : Prop where
  ne_up : name ≠ ".."
  short : isTooLong name = false
  noZero : name.toList.any (· == Char.ofNat 0) = false

/-- What a path to a file in a directory leads to. -/
theorem arrive_child (clear : t.Clear dir) (plain : IsPlain name) :
    t.arrive (dir.child name) = match t.below dir name [] with
      | some e => .present (dir.place ++ [name]) e
      | none => .absent (dir.place ++ [name]) := by
  refine (walk_append clear).trans ?_
  change walk t dir.place [name] = match t.find? (dir.place ++ [name]) with
    | some e => .present (dir.place ++ [name]) e
    | none => .absent (dir.place ++ [name])
  rcases h : t.find? (dir.place ++ [name]) with _ | _ | _ | _ <;> simp [walk, plain.ne_up, plain.short, h]

/-- A file in a directory with a good path has one too. -/
theorem checkPath_child (below : dir.parts ≠ []) (valid : checkPath dir = .ok ()) (plain : IsPlain name) :
    checkPath (dir.child name) = .ok () := by
  have good : dir.toString.toList.any (· == Char.ofNat 0) = false := by
    rw [← Bool.not_eq_true]
    intro bad
    rw [checkPath, if_pos bad] at valid
    cases valid
  have slash : "/".toList.any (· == Char.ofNat 0) = false := by decide
  refine if_neg ?_
  rw [Path.toString_child below, String.toList_append, String.toList_append, List.any_append, List.any_append, good,
    slash, plain.noZero]
  decide

/-- A directory in another one, to which the way is clear and does not come back to it. -/
structure Settled (t : FileTree) (home dir : Path) : Prop where
  child : ∃ name, name ≠ ".." ∧ dir = home.child name
  clear : t.Clear dir
  free : isFixed dir.place = false
  off : ∀ p ∈ home.trail, ¬ dir.place <+: p

/-- Directories are made where there was nothing, on the way along a path. -/
def Makes (t : FileTree) (home : Path) (t' : FileTree) : Prop :=
  ∀ p, t'.find? p = t.find? p ∨ (p ∈ home.trail ∧ t.find? p = none ∧ t'.find? p = some .directory)

/-- A change strictly below a directory. -/
def Fills (t : FileTree) (dir : Path) (t' : FileTree) : Prop :=
  ∀ p, (∀ name rest, p ≠ dir.place ++ name :: rest) → t'.find? p = t.find? p

theorem Fills.keeps (fills : t.Fills dir t') : Keeps dir.place t t' := by
  intro p off
  refine fills p ?_
  rintro name rest rfl
  exact off (List.prefix_append _ _)

theorem fills_put (e : FileEntry) : t.Fills dir (t.put (dir.place ++ [name]) e) :=
  fun _ off => find?_put_other (off name [])

theorem makes_self (t : FileTree) (home : Path) : t.Makes home t := fun _ => .inl rfl

/-- A directory made where nothing was. -/
theorem settled_put (absent : t.arrive (home.child name) = .absent q) (bare : t.IsBare q) :
    q = (home.child name).place ∧ Settled (t.put q .directory) home (home.child name) := by
  obtain ⟨clear, plain, short, rfl⟩ := of_arrive_absent absent
  have place := home.place_child plain
  have off := clear.off bare
  refine ⟨place.symm, ⟨name, plain, rfl⟩, ?_, place ▸ bare.free, place ▸ off⟩
  refine clearFrom_append.2 ⟨clear.mono fun p hp there => ?_, fun _ => ⟨short, find?_put_self bare.free⟩, trivial⟩
  rwa [find?_put_other]
  rintro rfl
  exact off _ hp List.prefix_rfl

theorem Settled.parts_ne_nil (settled : t.Settled home dir) : dir.parts ≠ [] := by
  obtain ⟨name, -, rfl⟩ := settled.child
  simp [Path.child]

theorem Settled.isFile (settled : t.Settled home dir) (plain : IsPlain name) :
    t.isFile (dir.child name) = (t.below dir).look dir name := by
  rw [FileTree.isFile, arrive_child settled.clear plain, Contents.look]
  rcases t.below dir name [] with _ | _ | _ | _ | _ <;> rfl

theorem Settled.read (settled : t.Settled home dir) (valid : checkPath dir = .ok ()) (plain : IsPlain name) :
    t.read (dir.child name) = match t.below dir name [] with
      | none => .error (noSuchFile (dir.child name))
      | some .directory => .error (isDirectory (dir.child name))
      | some .unreadable => .error unreadable
      | some .broken => .error (brokenFile (dir.child name))
      | some (.file content) => .ok content := by
  rw [FileTree.read, checkPath_child settled.parts_ne_nil valid plain, arrive_child settled.clear plain]
  rcases t.below dir name [] with _ | _ | _ | _ | _ <;> rfl

theorem Settled.write (settled : t.Settled home dir) (valid : checkPath dir = .ok ()) (plain : IsPlain name)
    (content : Bytes) :
    t.write (dir.child name) content =
      if t.below dir name [] = some .directory then .error (isDirectory (dir.child name))
      else if t.below dir name [] = some .broken then .error (brokenFile (dir.child name))
      else .ok (t.put (dir.place ++ [name]) (.file content)) := by
  rw [FileTree.write, checkPath_child settled.parts_ne_nil valid plain, arrive_child settled.clear plain]
  rcases t.below dir name [] with _ | _ | _ | _ | _ <;> rfl

theorem Settled.fills_write {content : Bytes} (settled : t.Settled home dir) (valid : checkPath dir = .ok ())
    (plain : IsPlain name) (done : t.write (dir.child name) content = .ok t') : t.Fills dir t' := by
  rw [settled.write valid plain] at done
  split at done
  · cases done
  · split at done
    · cases done
    · obtain rfl := Except.ok.inj done
      exact fills_put _

theorem Settled.there (settled : t.Settled home dir) : t.find? dir.place = some .directory := by
  obtain ⟨name, plain, rfl⟩ := settled.child
  have last := (clearFrom_append.1 settled.clear).2
  rw [home.place_child plain]
  exact (last.1 plain).2

/-- Two directories in one do not lie in each other. -/
theorem Settled.apart (settled : t.Settled home dir) (other : t'.Settled home dir') (hne : dir.place ≠ dir'.place)
    (rest : Place) : ¬ dir'.place <+: dir.place ++ rest := by
  obtain ⟨a, plain, rfl⟩ := settled.child
  obtain ⟨b, plain', rfl⟩ := other.child
  rw [home.place_child plain, home.place_child plain'] at hne ⊢
  rw [List.append_assoc, List.prefix_append_right_inj, List.singleton_append, List.cons_prefix_cons]
  rintro ⟨rfl, -⟩
  exact hne rfl

theorem Settled.mem_trail (settled : t.Settled home dir) {p : Place} (hp : p ∈ dir.trail) :
    p ∈ home.trail ∨ p = dir.place := by
  obtain ⟨name, plain, rfl⟩ := settled.child
  rw [home.place_child plain]
  exact (Path.mem_trail_child plain).1 hp

theorem Settled.mono (settled : t.Settled home dir)
    (stay : ∀ p, p ∈ home.trail ∨ p = dir.place → t.find? p = some .directory → t'.find? p = some .directory) :
    t'.Settled home dir :=
  ⟨settled.child, settled.clear.mono fun p hp => stay p (settled.mem_trail hp), settled.free, settled.off⟩

/-- What happens in one directory does not touch another one beside it. -/
theorem Settled.keep {s : FileTree} (settled : t.Settled home dir) (other : s.Settled home dir')
    (hne : dir.place ≠ dir'.place) (keeps : Keeps dir'.place t t') :
    t'.Settled home dir ∧ t'.below dir = t.below dir := by
  refine ⟨settled.mono fun p hp there => ?_, funext fun name => funext fun rest => ?_⟩
  · rw [keeps p, there]
    rcases hp with hp | rfl
    · exact other.off p hp
    · simpa using settled.apart other hne []
  · exact keeps _ (settled.apart other hne _)

/-- Directories that are made on the way to where a directory lies do not touch it. -/
theorem Settled.made (settled : t.Settled home dir) (made : t.Makes home t') :
    t'.Settled home dir ∧ t'.below dir = t.below dir := by
  refine ⟨settled.mono fun p _ there => ?_, funext fun name => funext fun rest => ?_⟩
  · rcases made p with same | ⟨-, none, -⟩
    · rw [same, there]
    · rw [there] at none
      cases none
  · rcases made (dir.place ++ name :: rest) with same | ⟨on, -⟩
    · exact same
    · exact absurd (List.prefix_append _ _) (settled.off _ on)

/-- A tree in which what stands at and below a place is taken from another one. -/
def graft (t : FileTree) (q : Place) (t' : FileTree) : FileTree :=
  ⟨(t'.entries.filter fun x => q.isPrefixOf x.1) ++ t.entries.filter fun x => !q.isPrefixOf x.1⟩

theorem find?_graft (t : FileTree) (q : Place) (t' : FileTree) (p : Place) :
    (t.graft q t').find? p = if q <+: p then t'.find? p else t.find? p := by
  unfold find? graft
  split
  · simp
  · rw [List.lookup_append, lookup_filter, lookup_filter _ (fun x => !q.isPrefixOf x)]
    by_cases below : q <+: p
    · rw [if_pos (List.isPrefixOf_iff_prefix.2 below), if_neg (by simpa using below), if_pos below, Option.or_none]
    · have off : q.isPrefixOf p = false := by
        rw [← Bool.not_eq_true, List.isPrefixOf_iff_prefix]
        exact below
      simp [off, below]

theorem find?_graft_append (t : FileTree) (q : Place) (t' : FileTree) (rest : Place) :
    (t.graft q t').find? (q ++ rest) = t'.find? (q ++ rest) := by
  rw [find?_graft, if_pos (List.prefix_append _ _)]

theorem keeps_graft (t : FileTree) (q : Place) (t' : FileTree) : Keeps q t (t.graft q t') := by
  intro p off
  rw [find?_graft, if_neg off]

/-- A tree with some files in a directory, instead of what is there. -/
def refill (t : FileTree) (dir : Path) (files : List (Place × FileEntry)) : FileTree :=
  t.graft dir.place ⟨(dir.place, .directory) :: files.map fun x => (dir.place ++ x.1, x.2)⟩

theorem lookup_map_append (q p : Place) (files : List (Place × FileEntry)) :
    (files.map fun x => (q ++ x.1, x.2)).lookup (q ++ p) = files.lookup p := by
  induction files with
  | nil => rfl
  | cons x files ih =>
    have same : (q ++ p == q ++ x.1) = (p == x.1) := by
      rw [Bool.eq_iff_iff, beq_iff_eq, beq_iff_eq, List.append_cancel_left_eq]
    rw [List.map_cons, List.lookup_cons, List.lookup_cons, same, ih]

theorem below_refill (free : isFixed dir.place = false) (files : List (Place × FileEntry)) :
    (t.refill dir files).below dir = fun name rest => files.lookup (name :: rest) := by
  funext name rest
  have inside : (dir.place ++ name :: rest == dir.place) = false := beq_false_of_ne (by simp)
  rw [below, refill, find?_graft_append, find?, isFixed_append free, if_neg Bool.false_ne_true, List.lookup_cons,
    inside]
  exact lookup_map_append ..

theorem fills_refill (there : t.find? dir.place = some .directory) (free : isFixed dir.place = false)
    (files : List (Place × FileEntry)) : t.Fills dir (t.refill dir files) := by
  intro p off
  by_cases inside : dir.place <+: p
  · obtain ⟨rest, rfl⟩ := inside
    cases rest with
    | nil =>
      rw [refill, find?_graft_append, List.append_nil, there]
      simp [find?, free]
    | cons name rest => exact absurd rfl (off name rest)
  · exact keeps_graft _ _ _ p inside

/-- A tree with the directories along a path that another one has, where nothing else stands. -/
def pave (t : FileTree) (home : Path) (t' : FileTree) : FileTree :=
  ⟨t.entries ++ (home.trail.filter fun p => t'.find? p = some .directory).map fun p => (p, .directory)⟩

theorem lookup_directories (ps : List Place) (p : Place) :
    (ps.map fun p => (p, FileEntry.directory)).lookup p = if p ∈ ps then some .directory else none := by
  induction ps with
  | nil => rfl
  | cons p' ps ih =>
    by_cases h : p = p'
    · simp [h]
    · have other : (p == p') = false := beq_false_of_ne h
      simp [List.lookup_cons, other, ih, h]

theorem find?_pave (t : FileTree) (home : Path) (t' : FileTree) (p : Place) :
    (t.pave home t').find? p =
      (t.find? p).or (if p ∈ home.trail ∧ t'.find? p = some .directory then some .directory else none) := by
  unfold pave
  by_cases fixed : isFixed p = true
  · rw [find?_of_isFixed fixed, find?_of_isFixed fixed]
    rfl
  · simp only [find?, if_neg fixed, List.lookup_append, lookup_directories]
    congr 1
    simp [fixed]

theorem makes_pave (t : FileTree) (home : Path) (t' : FileTree) : t.Makes home (t.pave home t') := by
  intro p
  rw [find?_pave]
  cases t.find? p with
  | some e => exact .inl rfl
  | none =>
    by_cases on : p ∈ home.trail ∧ t'.find? p = some .directory
    · exact .inr ⟨on.1, rfl, by simp [on]⟩
    · exact .inl (by simp [on])

theorem Settled.fills (settled : t.Settled home dir) (fills : t.Fills dir t') : t'.Settled home dir := by
  refine settled.mono fun p hp there => ?_
  rw [fills p, there]
  rintro name rest rfl
  rcases hp with hp | hp
  · exact settled.off _ hp (List.prefix_append _ _)
  · simp at hp

section Writing

variable {t t' : FileTree} {at_ q : Place} {parts : List String} {content : Bytes} {p : Path}

/-- A walk comes to a place where a file may be written: one that is there and is no directory, or one that
is not there. -/
inductive Arrival.Writes (q : Place) : Arrival → Prop where
  | present {e : FileEntry} (file : e ≠ .directory) : Writes q (.present q e)
  | absent : Writes q (.absent q)

theorem find?_of_walk (writes : (walk t at_ parts).Writes q) : t.find? q ≠ some .directory := by
  induction parts generalizing at_ with
  | nil =>
    rw [walk] at writes
    cases writes with
    | present file =>
      intro there
      exact file (by rw [there, Option.getD_some])
  | cons part parts ih =>
    rw [walk] at writes
    split at writes
    · exact ih writes
    split at writes
    · cases writes
    split at writes
    · exact ih writes
    · rename_i e other found
      split at writes
      · cases writes
        rw [found]
        exact fun there => other (Option.some.inj there)
      · cases writes
    · rename_i absent
      split at writes
      · cases writes
        rw [absent]
        simp
      · cases writes

/-- After a file was written where a walk led to, the walk leads to it. -/
theorem walk_put (writes : (walk t at_ parts).Writes q) :
    walk (t.put q (.file content)) at_ parts = .present q (.file content) := by
  have other := find?_of_walk writes
  have free : isFixed q = false := by
    rw [← Bool.not_eq_true]
    intro fixed
    exact other (find?_of_isFixed fixed)
  induction parts generalizing at_ with
  | nil =>
    rw [walk] at writes
    cases writes with
    | present _ => rw [walk, find?_put_self free, Option.getD_some]
  | cons part parts ih =>
    rw [walk] at writes ⊢
    split at writes
    · rename_i up
      rw [if_pos up]
      exact ih writes
    rename_i plain
    rw [if_neg plain]
    split at writes
    · cases writes
    rename_i short
    rw [if_neg short]
    -- The file stands at the end of the way, since what is passed is a directory.
    by_cases last : at_ ++ [part] = q
    · rw [last] at writes ⊢
      rw [find?_put_self free]
      cases ended : parts.isEmpty with
      | true => rfl
      | false =>
        rw [ended] at writes
        split at writes
        · exact absurd ‹t.find? q = some .directory› other
        · cases writes
        · cases writes
    · rw [find?_put_other last]
      split at writes
      · exact ih writes
      · split at writes
        · cases writes
          exact absurd rfl last
        · cases writes
      · split at writes
        · cases writes
          exact absurd rfl last
        · cases writes

/-- What was written to a file is read from it. -/
theorem read_write (written : t.write p content = .ok t') : t'.read p = .ok content := by
  rw [write] at written
  cases valid : checkPath p with
  | error f =>
    rw [valid] at written
    cases written
  | ok _ =>
    rw [valid] at written
    have kept {q : Place} (writes : (t.arrive p).Writes q) : (t.put q (.file content)).read p = .ok content := by
      rw [read, valid, arrive, walk_put writes]
      rfl
    cases arrived : t.arrive p with
    | present q e =>
      rw [arrived] at written kept
      cases e with
      | directory | broken => cases written
      | file _ | unreadable =>
        cases written
        exact kept (.present (by simp))
    | absent q =>
      rw [arrived] at written kept
      cases written
      exact kept .absent
    | noParent | belowFile | tooLong =>
      rw [arrived] at written
      cases written

end Writing
end FileTree

end ProofRelay
