import ProofRelay.Http.Service
import ProofRelay.Proofs.Text.Summary

/-!
What the report of a failure discloses of the foreign text behind it: at most one short line. The report is the
same for every text with the same summary, so also for the summary in place of the text. A failure always
says something, and its report never has a code of success.
-/

namespace ProofRelay

namespace Failure

theorem summary_of_process {f : Failure} {code : Int} (kind : f.kind = .process code) :
    f.summary = if Text.summarize f.detail = [] then
        f.message ++ Text.ofString (" (exit code " ++ Decimal.ofInt code ++ ")")
      else Text.summarize f.detail := by
  rw [summary, kind]
  simp only [List.isEmpty_iff]

theorem summary_of_other {f : Failure} (kind : ∀ code, f.kind ≠ .process code) :
    f.summary = if Text.summarize f.detail = [] then f.message
      else f.message ++ Text.ofString ": " ++ Text.summarize f.detail := by
  rw [summary]
  split
  · rename_i code same
    exact (kind code same).elim
  · simp only [List.isEmpty_iff]

/-- Failures that differ in their texts only say the same, if the texts have the same summary. -/
theorem summary_congr {f : Failure} {detail : Text} (same : Text.summarize detail = Text.summarize f.detail) :
    { f with detail := detail }.summary = f.summary := by
  rw [summary, summary, same]

/-- The account `s` that a failure gives of a text with some lines. A failed process is told by a glimpse of them,
if there is any, and all other failures by their message, with the glimpse after it. -/
structure Account (f : Failure) (ls : List Text) (s : Text) : Prop where
  exited : ∀ code, f.kind = .process code → (∀ l ∈ ls, Text.Blank l) →
    s = f.message ++ Text.ofString (" (exit code " ++ Decimal.ofInt code ++ ")")
  printed : ∀ code, f.kind = .process code → (∃ l ∈ ls, ¬ Text.Blank l) → Text.Glimpse ls s
  plain : (∀ code, f.kind ≠ .process code) → (∀ l ∈ ls, Text.Blank l) → s = f.message
  detailed : (∀ code, f.kind ≠ .process code) → (∃ l ∈ ls, ¬ Text.Blank l) →
    ∃ e, Text.Glimpse ls e ∧ s = f.message ++ Text.ofString ": " ++ e

theorem account_summary (f : Failure) : f.Account (Text.lines f.detail) f.summary := by
  rcases Text.summarize_cases f.detail with ⟨empty, blank⟩ | glimpse
  · have unheard : ¬ ∃ l ∈ Text.lines f.detail, ¬ Text.Blank l :=
      fun ⟨l, hl, told⟩ => told (blank l hl)
    refine ⟨fun code kind _ => ?_, fun _ _ heard => (unheard heard).elim, fun kind _ => ?_,
      fun _ heard => (unheard heard).elim⟩
    · rw [summary_of_process kind, if_pos empty]
    · rw [summary_of_other kind, if_pos empty]
  · obtain ⟨t, tells, -⟩ := glimpse.told
    have heard : ¬ ∀ l ∈ Text.lines f.detail, Text.Blank l := by
      intro blank
      obtain ⟨l, hl, told⟩ := tells.not_blank
      exact told (blank l hl)
    refine ⟨fun _ _ blank => (heard blank).elim, fun code kind _ => ?_, fun _ blank => (heard blank).elim,
      fun kind _ => ⟨_, glimpse, ?_⟩⟩
    · rw [summary_of_process kind, if_neg glimpse.nonempty]
      exact glimpse
    · rw [summary_of_other kind, if_neg glimpse.nonempty]

theorem summary_ne_nil {f : Failure} (message : f.message ≠ []) : f.summary ≠ [] := by
  by_cases process : ∃ code, f.kind = .process code
  · obtain ⟨code, kind⟩ := process
    rw [summary_of_process kind]
    split
    · exact List.append_ne_nil_of_left_ne_nil message _
    · assumption
  · rw [summary_of_other fun code kind => process ⟨code, kind⟩]
    split
    · exact message
    · exact List.append_ne_nil_of_left_ne_nil (List.append_ne_nil_of_left_ne_nil message _) _

end Failure

namespace Http

open Service (failureResponse)

/-- A report has no trace of a text but its summary. -/
theorem report_congr {f : Failure} {detail : Text} (same : Text.summarize detail = Text.summarize f.detail)
    (requestId : Option Text) : Report.ofFailure { f with detail := detail } requestId = .ofFailure f requestId := by
  rw [Report.ofFailure, Report.ofFailure, Failure.summary_congr same]

theorem le_code (f : Failure) (requestId : Option Text) : 400 ≤ (Report.ofFailure f requestId).code := by
  by_cases error : 400 ≤ f.status
  · rwa [Report.ofFailure, if_pos error]
  · rw [Report.ofFailure, if_neg error]
    exact (by decide : (400 : Int) ≤ 500)

/-- For every failure, whatever the text behind it: failures that are alike but for texts with the same summary get
the same report and the same response, and so does the failure with the summary in place of the text; the
report's message is the failure's account of the lines of the text, and not empty unless the failure's own
is; and its code is that of the failure if it is an error's, else 500. -/
theorem report_discloses_summary (f : Failure) (requestId : Option Text) :
    (∀ g : Failure, g.kind = f.kind → g.message = f.message → g.stage = f.stage → g.status = f.status →
      Text.summarize g.detail = Text.summarize f.detail →
      Report.ofFailure g requestId = .ofFailure f requestId ∧
      failureResponse g requestId = failureResponse f requestId) ∧
    failureResponse { f with detail := Text.summarize f.detail } requestId = failureResponse f requestId ∧
    (Report.ofFailure f requestId).message = f.summary ∧
    (f.message ≠ [] → f.summary ≠ []) ∧
    (∃ ls, Text.Splits f.detail ls ∧ f.Account ls f.summary) ∧
    (failureResponse f requestId).status = (if 400 ≤ f.status then f.status else 500) ∧
    400 ≤ (failureResponse f requestId).status := by
  refine ⟨?_, ?_, rfl, Failure.summary_ne_nil, ⟨_, Text.splits_lines _, f.account_summary⟩, rfl, le_code f requestId⟩
  · rintro ⟨kind, message, detail, stage, status⟩ rfl rfl rfl rfl same
    have reports := report_congr same requestId
    exact ⟨reports, congrArg Service.reportResponse reports⟩
  · exact congrArg Service.reportResponse (report_congr (Text.summarize_summarize f.detail) requestId)

/-- A failed process that printed some text before its last line. -/
def printedFailure (detail : Text) : Failure :=
  { kind := .process 1, message := "Prover setup failed", detail := detail, stage := some "Proving" }

/-- A text with a line before its last one, and a lone surrogate in that. -/
def printedText : Text := Text.ofString "key=0x5f\nsetup " ++ CodePoint.ofNat 0xD800 :: Text.ofString "\n"

/-- The last line of that text, with blanks before it. -/
def printedLine : Text := Text.ofString "\t setup " ++ [CodePoint.ofNat 0xD800]

/-- What is printed before the last line, and the blanks around that, leave no trace. -/
theorem report_discloses_summary_trace :
    Text.summarize printedText = Text.summarize printedLine ∧
    Report.ofFailure (printedFailure printedText) none = .ofFailure (printedFailure printedLine) none ∧
    (printedFailure printedLine).message ≠ [] ∧ (printedFailure printedLine).summary ≠ [] := by
  have same : Text.summarize printedText = Text.summarize printedLine := by decide +kernel
  have message : (printedFailure printedLine).message ≠ [] := by decide
  obtain ⟨alike, -, -, told, -⟩ := report_discloses_summary (printedFailure printedLine) none
  exact ⟨same, (alike (printedFailure printedText) rfl rfl rfl rfl same).1, message, told message⟩

end Http

end ProofRelay
