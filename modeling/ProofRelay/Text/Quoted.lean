import ProofRelay.Bytes.Hex
import ProofRelay.Text.CodePoint
import ProofRelay.Text.Printable

/-!
Quoted text for messages. The quote is the single one, unless the text holds that one and not the
double one; what has no visible form is escaped by its number in hexadecimal.
-/

namespace ProofRelay.Text

def hexPadded (width n : Nat) : List Char :=
  let ds := Nat.toDigits 16 n
  List.replicate (width - ds.length) '0' ++ ds

def quoteFor (hasSingle hasDouble : Bool) : Char := if hasSingle && !hasDouble then '"' else '\''

/-- The escapes that both quoted text and quoted bytes have. -/
def escapeShort? (quote : Char) (n : Nat) : Option (List Char) :=
  if n = quote.toNat || n = 0x5C then some ['\\', Char.ofNat n]
  else if n = 0x09 then some ['\\', 't']
  else if n = 0x0A then some ['\\', 'n']
  else if n = 0x0D then some ['\\', 'r']
  else none

def quotePoint (quote : Char) (p : CodePoint) : List Char :=
  match escapeShort? quote p.val with
  | some e => e
  | none =>
    if isPrintable p.val then [Char.ofNat p.val]
    else if p.val < 0x100 then '\\' :: 'x' :: hexPadded 2 p.val
    else if p.val < 0x10000 then '\\' :: 'u' :: hexPadded 4 p.val
    else '\\' :: 'U' :: hexPadded 8 p.val

def quotedChars (t : Text) : List Char :=
  let q := quoteFor (t.contains (.ofChar '\'')) (t.contains (.ofChar '"'))
  q :: (t.flatMap (quotePoint q) ++ [q])

/-- The text between quotes. -/
def quoted (t : Text) : String := String.ofList (quotedChars t)

def quoteByte (quote : Char) (b : UInt8) : List Char :=
  match escapeShort? quote b.toNat with
  | some e => e
  | none =>
    if 0x20 ≤ b.toNat && b.toNat < 0x7F then [Char.ofNat b.toNat] else '\\' :: 'x' :: hexPadded 2 b.toNat

/-- Bytes between quotes, after the mark that tells them from text. -/
def quotedBytes (bs : Bytes) : String :=
  let q := quoteFor (bs.contains 0x27) (bs.contains 0x22)
  String.ofList ('b' :: q :: (bs.flatMap (quoteByte q) ++ [q]))

end ProofRelay.Text

namespace ProofRelay

/-- A string between quotes. -/
def quote (s : String) : String := Text.quoted (Text.ofString s)

end ProofRelay
