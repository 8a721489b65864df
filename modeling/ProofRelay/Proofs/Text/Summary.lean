import ProofRelay.Proofs.Bytes.Utf8
import ProofRelay.Proofs.Text.Lines

/-!
Summaries. A summary is the core of the last line that is not blank, cut to the limit. What comes out is
itself one short line without blanks around it, and such a line is its own summary; and only the last of
some texts that are put together by line feeds is heard, as long as it says anything.
-/

namespace ProofRelay.Text

/-- Some lines tell `t`: it is the core of the last of them that is not blank. -/
inductive Tells : List Text → Text → Prop where
  | intro {before after : List Text} {l t : Text} (core : Core l t) (told : ¬ Blank l)
      (silent : ∀ k ∈ after, Blank k) : Tells (before ++ l :: after) t

/-- A line that a summary may be: not longer than the limit, and without blanks around it. -/
structure Short (limit : Int) (r : Text) : Prop where
  length : (r.length : Int) ≤ limit
  line : OneLine r
  trimmed : Trimmed r

section Told

variable {ls ks : List Text} {l t : Text}

/-- The cores of the lines that are not blank. -/
def cores (ls : List Text) : List Text := (ls.map (strip CodePoint.isBlank)).filter fun l => !l.isEmpty

theorem meaningfulLines_eq (s : Text) : meaningfulLines s = cores (lines s) := rfl

theorem cores_append (ls ks : List Text) : cores (ls ++ ks) = cores ls ++ cores ks := by
  rw [cores, List.map_append, List.filter_append]
  rfl

theorem cores_of_blank (blank : Blank l) : cores [l] = [] := by
  simp [cores, strip_eq_nil_iff.2 blank]

theorem cores_of_told (told : ¬ Blank l) : cores [l] = [strip CodePoint.isBlank l] := by
  have nonempty : strip CodePoint.isBlank l ≠ [] := fun h => told (strip_eq_nil_iff.1 h)
  simp [cores, nonempty]

/-- Either all lines are blank, or the last core is what they tell. -/
theorem getLast?_cores (ls : List Text) :
    ((cores ls).getLast? = none ∧ ∀ l ∈ ls, Blank l) ∨ ∃ t, (cores ls).getLast? = some t ∧ Tells ls t := by
  induction ls using List.reverseRecOn with
  | nil => exact .inl ⟨rfl, nofun⟩
  | append_singleton ls l ih =>
    rw [cores_append]
    by_cases blank : Blank l
    · rw [cores_of_blank blank, List.append_nil]
      rcases ih with ⟨none, all⟩ | ⟨t, last, core, told, silent⟩
      · exact .inl ⟨none, List.forall_mem_append.2 ⟨all, by simpa using blank⟩⟩
      · refine .inr ⟨t, last, ?_⟩
        rw [List.append_assoc, List.cons_append]
        exact .intro core told (List.forall_mem_append.2 ⟨silent, by simpa using blank⟩)
    · rw [cores_of_told blank]
      exact .inr ⟨_, List.getLast?_concat, .intro (core_strip l) blank nofun⟩

theorem Tells.not_blank (tells : Tells ls t) : ∃ l ∈ ls, ¬ Blank l := by
  obtain ⟨-, told, -⟩ := tells
  exact ⟨_, by simp, told⟩

theorem Tells.trimmed (tells : Tells ls t) : Trimmed t := by
  obtain ⟨core, -, -⟩ := tells
  obtain ⟨-, trimmed, -⟩ := core
  exact trimmed

theorem Tells.ne_nil (tells : Tells ls t) : t ≠ [] := by
  obtain ⟨core, told, -⟩ := tells
  rintro rfl
  exact told (strip_eq_nil_iff.1 (strip_eq_of_core core))

/-- What is told stands in one of the lines. -/
theorem Tells.exists_line (tells : Tells ls t) : ∃ l ∈ ls, Core l t := by
  obtain ⟨core, -, -⟩ := tells
  exact ⟨_, by simp, core⟩

theorem Tells.oneLine (tells : Tells ls t) (lines : ∀ l ∈ ls, OneLine l) : OneLine t := by
  obtain ⟨l, hl, core⟩ := tells.exists_line
  exact fun p hp => lines l hl p (core.mem hp)

end Told

section Shorten

variable {limit : Int} {t : Text}

theorem shorten_eq (enough : 3 ≤ limit) (t : Text) :
    shorten limit t = if (t.length : Int) ≤ limit then t else t.take (limit - 3).toNat ++ ellipsis := by
  rw [shorten]
  by_cases fits : (t.length : Int) ≤ limit
  · rw [if_neg (by omega), if_pos fits]
  · rw [if_pos (by omega), if_neg fits, takeBefore, if_pos (by omega)]

theorem shorten_ne_nil (enough : 3 ≤ limit) (nonempty : t ≠ []) : shorten limit t ≠ [] := by
  rw [shorten_eq enough]
  split
  · exact nonempty
  · simp [ellipsis, ofString]

theorem oneLine_ellipsis : OneLine ellipsis := by
  have all : (ellipsis.all fun p => !p.isLineBreak) = true := by decide
  intro p hp
  simpa using List.all_eq_true.1 all p hp

theorem trimmed_cut (trimmed : Trimmed t) (n : Nat) : Trimmed (t.take n ++ ellipsis) := by
  constructor
  · intro p hp
    cases n with
    | zero =>
      obtain rfl : CodePoint.ofChar '.' = p := Option.some.inj hp
      decide
    | succ n =>
      cases t with
      | nil =>
        obtain rfl : CodePoint.ofChar '.' = p := Option.some.inj hp
        decide
      | cons q t => exact trimmed.head p hp
  · intro p hp
    rw [List.getLast?_append_of_ne_nil _ (by decide)] at hp
    obtain rfl : CodePoint.ofChar '.' = p := Option.some.inj hp
    decide

/-- What a line is shortened to is short. -/
theorem short_shorten (enough : 3 ≤ limit) (line : OneLine t) (trimmed : Trimmed t) :
    Short limit (shorten limit t) := by
  rw [shorten_eq enough]
  split
  · rename_i fits
    exact ⟨fits, line, trimmed⟩
  · refine ⟨?_, ?_, trimmed_cut trimmed _⟩
    · have three : ellipsis.length = 3 := rfl
      rw [List.length_append, List.length_take, three]
      omega
    · exact List.forall_mem_append.2 ⟨fun p hp => line p (List.mem_of_mem_take hp), oneLine_ellipsis⟩

end Shorten

section Summary

variable {limit : Int} {x : Option Text}

/-- Either all lines are blank and the summary is empty, or it is what they tell, made short. -/
theorem summary_cases (limit : Int) (x : Option Text) :
    (summary limit x = [] ∧ ∀ l ∈ lines (x.getD []), Blank l) ∨
      ∃ t, Tells (lines (x.getD [])) t ∧ summary limit x = shorten limit t := by
  rcases getLast?_cores (lines (x.getD [])) with ⟨none, all⟩ | ⟨t, last, tells⟩
  · exact .inl ⟨by rw [summary, meaningfulLines_eq, none], all⟩
  · exact .inr ⟨t, tells, by rw [summary, meaningfulLines_eq, last]⟩

theorem summary_eq_nil_iff (enough : 3 ≤ limit) : summary limit x = [] ↔ ∀ l ∈ lines (x.getD []), Blank l := by
  rcases summary_cases limit x with ⟨empty, all⟩ | ⟨t, tells, same⟩
  · exact iff_of_true empty all
  · refine iff_of_false ?_ ?_
    · rw [same]
      exact shorten_ne_nil enough tells.ne_nil
    · intro all
      obtain ⟨l, hl, told⟩ := tells.not_blank
      exact told (all l hl)

theorem short_summary (enough : 3 ≤ limit) (x : Option Text) : Short limit (summary limit x) := by
  rcases summary_cases limit x with ⟨empty, -⟩ | ⟨t, tells, same⟩
  · rw [empty]
    exact ⟨by simp only [List.length_nil]; omega, nofun, nofun, nofun⟩
  · rw [same]
    exact short_shorten enough (tells.oneLine (splits_lines _).oneLine) tells.trimmed

/-- A short line is its own summary. -/
theorem summary_of_short {r : Text} (short : Short limit r) : summary limit (some r) = r := by
  by_cases empty : r = []
  · subst empty
    rfl
  · have told : ¬ Blank r := by
      intro blank
      have stripped := strip_eq_of_core (core_self short.trimmed)
      exact empty (stripped.symm.trans (strip_eq_nil_iff.2 blank))
    have lines : meaningfulLines r = [r] := by
      rw [meaningfulLines_eq, lines_of_splits (.last short.line empty), cores_of_told told,
        strip_eq_of_core (core_self short.trimmed)]
    have fits : ¬ limit < r.length := Int.not_lt.2 short.length
    rw [summary, Option.getD_some, lines, List.getLast?_singleton]
    exact if_neg fits

/-- What stands before a line feed is not heard, if anything after it is. -/
theorem summary_after_lineFeed (limit : Int) (before : Text) {s : Text} (heard : ∃ l ∈ lines s, ¬ Blank l) :
    summary limit (some (before ++ CodePoint.lineFeed :: s)) = summary limit (some s) := by
  have nonempty : cores (lines s) ≠ [] := by
    intro empty
    rcases getLast?_cores (lines s) with ⟨-, all⟩ | ⟨t, last, -⟩
    · obtain ⟨l, hl, told⟩ := heard
      exact told (all l hl)
    · rw [empty] at last
      cases last
  have last : (meaningfulLines (before ++ CodePoint.lineFeed :: s)).getLast? = (meaningfulLines s).getLast? := by
    rw [meaningfulLines_eq, meaningfulLines_eq, lines_after_lineFeed, cores_append,
      List.getLast?_append_of_ne_nil _ nonempty]
  rw [summary, Option.getD_some, last]
  rfl

end Summary

/-- For every text, also a missing one, and every limit that has room for three dots: the summary is empty just
if all lines are blank, and else it is the core of the last line that is not, or as much of that as fits in
front of three dots. It is one line of at most the limit, without blanks around it, and its own summary;
and what stands in front of the text, ended by a line feed, changes nothing if any line is not blank. -/
theorem summary_last_line {limit : Int} (enough : 3 ≤ limit) (x : Option Text) :
    ∃ ls, Splits (x.getD []) ls ∧
      (summary limit x = [] ↔ ∀ l ∈ ls, Blank l) ∧
      ((∃ l ∈ ls, ¬ Blank l) → ∃ t, Tells ls t ∧
        summary limit x = if (t.length : Int) ≤ limit then t else t.take (limit - 3).toNat ++ ofString "...") ∧
      ((summary limit x).length : Int) ≤ limit ∧ OneLine (summary limit x) ∧ Trimmed (summary limit x) ∧
      summary limit (some (summary limit x)) = summary limit x ∧
      ((∃ l ∈ ls, ¬ Blank l) → ∀ before : Text,
        summary limit (some (before ++ CodePoint.lineFeed :: x.getD [])) = summary limit x) := by
  have short := short_summary enough x
  refine ⟨lines (x.getD []), splits_lines _, summary_eq_nil_iff enough, ?_, short.length, short.line, short.trimmed,
    summary_of_short short, ?_⟩
  · rintro ⟨l, hl, told⟩
    rcases summary_cases limit x with ⟨-, all⟩ | ⟨t, tells, same⟩
    · exact (told (all l hl)).elim
    · exact ⟨t, tells, same.trans (shorten_eq enough t)⟩
  · exact fun heard before => summary_after_lineFeed limit before heard

/-- A text with a pair of carriage return and line feed, a line separator, and blanks in its last lines. -/
def sampleText : Text := ofString "ab\r\n cdefgh\t\u2028 \u3000"

/-- The limit cuts the line; in front of it stands a text that ends in a carriage return. -/
theorem summary_last_line_cut :
    (3 : Int) ≤ 5 ∧ summary 5 (some sampleText) = ofString "cd..." ∧
      summary 5 (some (summary 5 (some sampleText))) = ofString "cd..." ∧
      summary 5 (some (ofString "ij\r" ++ CodePoint.lineFeed :: sampleText)) = ofString "cd..." := by
  have told : summary 5 (some sampleText) = ofString "cd..." := by decide +kernel
  have enough : (3 : Int) ≤ 5 := by decide
  obtain ⟨ls, -, empty, -, -, -, -, again, after⟩ := summary_last_line enough (some sampleText)
  have heard : ∃ l ∈ ls, ¬ Blank l := by
    by_contra none
    have all : ∀ l ∈ ls, Blank l := fun l hl => not_not.1 fun told => none ⟨l, hl, told⟩
    rw [empty.2 all] at told
    cases told
  exact ⟨enough, told, again.trans told, (after heard _).trans told⟩

/-- A summary is its own summary. -/
theorem summarize_summarize (s : Text) : summarize (summarize s) = summarize s :=
  summary_of_short (short_summary (by decide) _)

/-- A glimpse of some lines: one line of at most 160 code points, which is the core of the last line that is not
blank, or its first 157 code points with three dots. -/
structure Glimpse (ls : List Text) (e : Text) : Prop where
  nonempty : e ≠ []
  length : e.length ≤ 160
  line : OneLine e
  told : ∃ t, Tells ls t ∧ e = if t.length ≤ 160 then t else t.take 157 ++ ofString "..."

/-- What a summary shows: nothing if all lines are blank, and else a glimpse of them. -/
theorem summarize_cases (s : Text) :
    (summarize s = [] ∧ ∀ l ∈ lines s, Blank l) ∨ Glimpse (lines s) (summarize s) := by
  have enough : (3 : Int) ≤ summaryLimit := by decide
  rcases summary_cases summaryLimit (some s) with ⟨empty, all⟩ | ⟨t, tells, same⟩
  · exact .inl ⟨empty, all⟩
  · have short := short_summary enough (some s)
    refine .inr ⟨?_, Int.ofNat_le.1 short.length, short.line, t, tells, ?_⟩
    · rw [summarize, same]
      exact shorten_ne_nil enough tells.ne_nil
    · rw [summarize, same, shorten_eq enough]
      have bound : ((t.length : Int) ≤ summaryLimit) = (t.length ≤ 160) := propext Int.ofNat_le
      simp only [bound]
      rfl

end ProofRelay.Text
