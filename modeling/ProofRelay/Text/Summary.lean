import ProofRelay.Text.CodePoint
import ProofRelay.Text.Lines

/-!
The summary of a longer text: its last line that is not blank, cut to a limit.
-/

namespace ProofRelay.Text

/-- The lines that are not blank, each without the blanks around it. -/
def meaningfulLines (s : Text) : List Text :=
  ((lines s).map (strip CodePoint.isBlank)).filter fun l => !l.isEmpty

/-- The code points before position `n`, where a negative position counts from the end. -/
def takeBefore (n : Int) (s : Text) : Text :=
  if 0 ≤ n then s.take n.toNat else s.take (s.length - n.natAbs)

def ellipsis : Text := ofString "..."

/-- A line of more than `limit` code points keeps `limit - 3` of them and ends in three dots. -/
def shorten (limit : Int) (line : Text) : Text :=
  if limit < line.length then takeBefore (limit - 3) line ++ ellipsis else line

/-- The summary of a text; one that is missing is taken for empty. -/
def summary (limit : Int) (s : Option Text) : Text :=
  match (meaningfulLines (s.getD [])).getLast? with
  | none => []
  | some line => shorten limit line

/-- How many code points of foreign text a summary shows. -/
def summaryLimit : Int := 160

def summarize (s : Text) : Text := summary summaryLimit (some s)

end ProofRelay.Text
