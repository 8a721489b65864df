import Mathlib.Data.List.Nodup
import Mathlib.Logic.Function.Basic
import ProofRelay.Proofs.Files.Tree

/-!
Directories that stand in a file tree for a time. They are made in one place, each for somebody, where nothing was
before; what happens meanwhile happens in one of them, and in the end they are removed. As long as that is all,
the tree is what it was, but for the directories that stand and those on the way to where they are made.
-/

namespace ProofRelay.FileTree

/-- What may happen for one of many in a tree, with the directories that stand for each of them. -/
inductive Change (home : Path) (i : Nat) : FileTree → (Nat → List Path) → FileTree → (Nat → List Path) → Prop where
  /-- Directories are made on the way to where all of them are made. -/
  | makes {t t' : FileTree} {dirs : Nat → List Path} (made : t.Makes home t') : Change home i t dirs t' dirs
  /-- A directory is made where nothing was. -/
  | opens {t t₁ : FileTree} {dirs : Nat → List Path} {dir : Path} (made : t.Makes home t₁)
      (bare : t₁.IsBare dir.place) (settled : (t₁.put dir.place .directory).Settled home dir) :
      Change home i t dirs (t₁.put dir.place .directory) (Function.update dirs i (dirs i ++ [dir]))
  /-- Something changes in an own directory. -/
  | fills {t t' : FileTree} {dirs : Nat → List Path} {dir : Path} (own : dir ∈ dirs i) (fills : t.Fills dir t') :
      Change home i t dirs t' dirs
  /-- An own directory is removed, with all that is in it. -/
  | removes {t t' : FileTree} {dirs : Nat → List Path} {dir : Path} (own : dir ∈ dirs i)
      (keeps : Keeps dir.place t t') (gone : t'.IsBare dir.place) :
      Change home i t dirs t' (Function.update dirs i ((dirs i).filter (· ≠ dir)))

/-- A tree that differs from what it was at first by its standing directories only, each of which is one of its own
in a common place, where nothing was at first. -/
structure Tidy (home : Path) (first t : FileTree) (dirs : Nat → List Path) : Prop where
  settled : ∀ i, ∀ dir ∈ dirs i, t.Settled home dir
  fresh : ∀ i, ∀ dir ∈ dirs i, first.IsBare dir.place
  distinct : ∀ i, ((dirs i).map Path.place).Nodup
  apart : ∀ i j, i ≠ j → ∀ dir ∈ dirs i, ∀ dir' ∈ dirs j, dir.place ≠ dir'.place
  frame : ∀ p, (∀ i, ∀ dir ∈ dirs i, ¬ dir.place <+: p) →
    t.find? p = first.find? p ∨ (p ∈ home.trail ∧ first.find? p = none ∧ t.find? p = some .directory)

section Lists

variable {dirs : Nat → List Path} {i j : Nat} {dir dir' : Path}

theorem mem_update_append :
    dir' ∈ Function.update dirs i (dirs i ++ [dir]) j ↔ dir' ∈ dirs j ∨ (j = i ∧ dir' = dir) := by
  by_cases hj : j = i
  · subst hj
    simp
  · simp [hj]

theorem mem_update_filter :
    dir' ∈ Function.update dirs i ((dirs i).filter (· ≠ dir)) j ↔ dir' ∈ dirs j ∧ ¬ (j = i ∧ dir' = dir) := by
  by_cases hj : j = i
  · subst hj
    simp
  · simp [hj]

end Lists

section Tidy

variable {home dir dir' : Path} {first t t' : FileTree} {dirs dirs' : Nat → List Path} {i j : Nat}

theorem tidy_nil (home : Path) (t : FileTree) : Tidy home t t fun _ => [] :=
  ⟨by simp, by simp, by simp, by simp, fun _ _ => .inl rfl⟩

theorem Tidy.eq_of_place (tidy : Tidy home first t dirs) (hi : dir ∈ dirs i) (hj : dir' ∈ dirs j)
    (same : dir.place = dir'.place) : i = j ∧ dir = dir' := by
  by_cases hij : i = j
  · subst hij
    exact ⟨rfl, List.inj_on_of_nodup_map (tidy.distinct i) hi hj same⟩
  · exact absurd same (tidy.apart i j hij dir hi dir' hj)

theorem Tidy.made (tidy : Tidy home first t dirs) (made : t.Makes home t') : Tidy home first t' dirs := by
  refine ⟨fun j dir hj => ((tidy.settled j dir hj).made made).1, tidy.fresh, tidy.distinct, tidy.apart, ?_⟩
  intro p off
  rcases tidy.frame p off with same | ⟨on, none, there⟩
  · rcases made p with same' | ⟨on, none, there⟩
    · exact .inl (same'.trans same)
    · exact .inr ⟨on, same ▸ none, there⟩
  · rcases made p with same' | ⟨-, none', -⟩
    · exact .inr ⟨on, none, same'.trans there⟩
    · cases none'.symm.trans there

/-- Where nothing is now, nothing was at first. -/
theorem Tidy.isBare (tidy : Tidy home first t dirs) {q : Place} (bare : t.IsBare q) : first.IsBare q := by
  intro rest
  by_cases inside : ∃ j, ∃ dir ∈ dirs j, dir.place <+: q ++ rest
  · obtain ⟨j, dir, hj, more, same⟩ := inside
    rw [← same]
    exact tidy.fresh j dir hj more
  · have off : ∀ j, ∀ dir ∈ dirs j, ¬ dir.place <+: q ++ rest := fun j dir hj below => inside ⟨j, dir, hj, below⟩
    rcases tidy.frame _ off with same | ⟨-, none, -⟩
    · exact same.symm.trans (bare rest)
    · exact none

theorem Tidy.opened (tidy : Tidy home first t dirs) (bare : t.IsBare dir.place)
    (settled : (t.put dir.place .directory).Settled home dir) :
    Tidy home first (t.put dir.place .directory) (Function.update dirs i (dirs i ++ [dir])) := by
  have new : ∀ j, ∀ dir' ∈ dirs j, dir'.place ≠ dir.place := by
    intro j dir' hj same
    exact bare.not_prefix (tidy.settled j dir' hj).there (same ▸ List.prefix_rfl)
  have keeps : Keeps dir.place t (t.put dir.place .directory) := keeps_put List.prefix_rfl
  constructor
  · intro j dir' hj
    rcases mem_update_append.1 hj with hj | ⟨-, rfl⟩
    · exact ((tidy.settled j dir' hj).keep settled (new j dir' hj) keeps).1
    · exact settled
  · intro j dir' hj
    rcases mem_update_append.1 hj with hj | ⟨-, rfl⟩
    · exact tidy.fresh j dir' hj
    · exact tidy.isBare bare
  · intro j
    by_cases hj : j = i
    · subst hj
      rw [Function.update_self, List.map_append, List.nodup_append]
      refine ⟨tidy.distinct j, by simp, ?_⟩
      intro q hq q' hq'
      obtain ⟨dir', hdir', rfl⟩ := List.mem_map.1 hq
      rw [List.map_singleton, List.mem_singleton] at hq'
      rw [hq']
      exact new j dir' hdir'
    · rw [Function.update_of_ne hj]
      exact tidy.distinct j
  · intro j k hjk dir₁ h₁ dir₂ h₂
    rcases mem_update_append.1 h₁ with old₁ | ⟨rfl, rfl⟩
    · rcases mem_update_append.1 h₂ with old₂ | ⟨rfl, rfl⟩
      · exact tidy.apart j k hjk dir₁ old₁ dir₂ old₂
      · exact new j dir₁ old₁
    · rcases mem_update_append.1 h₂ with old₂ | ⟨rfl, -⟩
      · exact (new k dir₂ old₂).symm
      · exact absurd rfl hjk
  · intro p off
    have outside : ¬ dir.place <+: p := off i dir (mem_update_append.2 (.inr ⟨rfl, rfl⟩))
    rw [keeps p outside]
    exact tidy.frame p fun j dir' hj => off j dir' (mem_update_append.2 (.inl hj))

theorem Tidy.filled (tidy : Tidy home first t dirs) (own : dir ∈ dirs i) (fills : t.Fills dir t') :
    Tidy home first t' dirs := by
  refine ⟨?_, tidy.fresh, tidy.distinct, tidy.apart, ?_⟩
  · intro j dir' hj
    by_cases same : dir'.place = dir.place
    · rw [(tidy.eq_of_place hj own same).2]
      exact (tidy.settled i dir own).fills fills
    · exact ((tidy.settled j dir' hj).keep (tidy.settled i dir own) same fills.keeps).1
  · intro p off
    rw [fills.keeps p (off i dir own)]
    exact tidy.frame p off

theorem Tidy.removed (tidy : Tidy home first t dirs) (own : dir ∈ dirs i) (keeps : Keeps dir.place t t')
    (gone : t'.IsBare dir.place) : Tidy home first t' (Function.update dirs i ((dirs i).filter (· ≠ dir))) := by
  constructor
  · intro j dir' hj
    obtain ⟨hj, other⟩ := mem_update_filter.1 hj
    have apart : dir'.place ≠ dir.place := fun same => other (tidy.eq_of_place hj own same)
    exact ((tidy.settled j dir' hj).keep (tidy.settled i dir own) apart keeps).1
  · intro j dir' hj
    exact tidy.fresh j dir' (mem_update_filter.1 hj).1
  · intro j
    by_cases hj : j = i
    · subst hj
      rw [Function.update_self]
      exact (tidy.distinct j).sublist (List.filter_sublist.map _)
    · rw [Function.update_of_ne hj]
      exact tidy.distinct j
  · intro j k hjk dir₁ h₁ dir₂ h₂
    exact tidy.apart j k hjk dir₁ (mem_update_filter.1 h₁).1 dir₂ (mem_update_filter.1 h₂).1
  · intro p off
    by_cases inside : dir.place <+: p
    · obtain ⟨rest, rfl⟩ := inside
      -- All that was in there is gone with it, and nothing of it was there at first.
      exact .inl ((gone rest).trans (tidy.fresh i dir own rest).symm)
    · rw [keeps p inside]
      refine tidy.frame p fun j dir' hj => ?_
      by_cases same : j = i ∧ dir' = dir
      · rw [same.2]
        exact inside
      · exact off j dir' (mem_update_filter.2 ⟨hj, same⟩)

/-- A tree stays tidy, whatever happens in it. -/
theorem Tidy.change (tidy : Tidy home first t dirs) (change : Change home i t dirs t' dirs') :
    Tidy home first t' dirs' := by
  cases change with
  | makes made => exact tidy.made made
  | opens made bare settled => exact (tidy.made made).opened bare settled
  | fills own fills => exact tidy.filled own fills
  | removes own keeps gone => exact tidy.removed own keeps gone

/-- What happens for one leaves the directories of all others as they are. -/
theorem Tidy.find?_other (tidy : Tidy home first t dirs) (change : Change home i t dirs t' dirs') (hij : j ≠ i)
    (hj : dir ∈ dirs j) (rest : Place) : t'.find? (dir.place ++ rest) = t.find? (dir.place ++ rest) := by
  have settled := tidy.settled j dir hj
  have apart {dir' : Path} (own : dir' ∈ dirs i) : ¬ dir'.place <+: dir.place ++ rest :=
    settled.apart (tidy.settled i dir' own) (tidy.apart j i hij dir hj dir' own) rest
  have makes {t₁ : FileTree} (made : t.Makes home t₁) : t₁.find? (dir.place ++ rest) = t.find? (dir.place ++ rest) := by
    rcases made (dir.place ++ rest) with same | ⟨on, -⟩
    · exact same
    · exact absurd (List.prefix_append _ _) (settled.off _ on)
  cases change with
  | makes made => exact makes made
  | fills own fills => exact fills.keeps _ (apart own)
  | removes own keeps => exact keeps _ (apart own)
  | @opens t₁ _ dir' made bare settled' =>
    have new : dir.place ≠ dir'.place := by
      intro same
      exact bare.not_prefix (settled.made made).1.there (same ▸ List.prefix_rfl)
    rw [keeps_put List.prefix_rfl _ (settled.apart settled' new rest)]
    exact makes made

/-- When no directory stands any more, the tree is what it was, but for the way to where they are made. -/
theorem Tidy.makes (tidy : Tidy home first t dirs) (none : ∀ i, dirs i = []) : first.Makes home t := by
  intro p
  refine tidy.frame p fun i dir hi => ?_
  rw [none i] at hi
  cases hi

end Tidy

end ProofRelay.FileTree
