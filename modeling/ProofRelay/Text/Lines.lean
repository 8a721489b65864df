import ProofRelay.Text.CodePoint

/-!
Lines of a text. A line ends at any of the mandatory breaks of Unicode, at the three information
separators, or at a carriage return with or without a line feed; a final break opens no further line.
-/

namespace ProofRelay

namespace CodePoint

def lineFeed : CodePoint := 0x0A

def carriageReturn : CodePoint := 0x0D

def isLineBreak (p : CodePoint) : Bool :=
  (0x0A ≤ p.val && p.val ≤ 0x0D) || (0x1C ≤ p.val && p.val ≤ 0x1E) ||
    p.val == 0x85 || p.val == 0x2028 || p.val == 0x2029

end CodePoint

namespace Text

/-- Collects lines: `done` holds the finished ones and `current` the open one, both back to front. Right
after a carriage return, which has ended a line, a line feed ends no other one. -/
def linesFrom (done : List Text) (current : Text) (returned : Bool) : Text → List Text
  | [] => (if current.isEmpty then done else current.reverse :: done).reverse
  | p :: rest =>
    if returned && p == CodePoint.lineFeed then linesFrom done current false rest
    else if p.isLineBreak then linesFrom (current.reverse :: done) [] (p == CodePoint.carriageReturn) rest
    else linesFrom done (p :: current) false rest

def lines (s : Text) : List Text := linesFrom [] [] false s

/-- Both `\r\n` and a lone `\r` become `\n`. -/
def unifyNewlines : List Char → List Char
  | [] => []
  | '\r' :: '\n' :: rest => '\n' :: unifyNewlines rest
  | c :: rest => (if c = '\r' then '\n' else c) :: unifyNewlines rest

end Text

end ProofRelay
