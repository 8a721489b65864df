import ProofRelay.Fault
import ProofRelay.Files.Path
import ProofRelay.Number.Decimal

/-!
Templates of command lines. A template is a list of words; in a word a name in braces is replaced by its
value, and a doubled brace stands for one.
-/

namespace ProofRelay.Template

/-- The value of each name that a word may use, if it has a text. -/
abbrev Values := String → Option (Except Fault String)

def singleOpen : Fault := .value "Single '\x7b' encountered in format string"

def singleClose : Fault := .value "Single '\x7d' encountered in format string"

def unclosed : Fault := .value "expected '\x7d' before end of string"

def nestedOpen : Fault := .value "unexpected '\x7b' in field name"

def noPosition (n : Nat) : Fault :=
  ⟨.index, "Replacement index " ++ Decimal.ofNat n ++ " out of range for positional args tuple"⟩

/-- The value of what stands between braces. A number, or nothing at all, would be the position of a
value, and no value has a position. -/
def valueOf (values : Values) (name : List Char) : Except Fault String :=
  if name.all Char.isDigit then
    .error (noPosition (name.foldl (fun n c => 10 * n + (c.toNat - '0'.toNat)) 0))
  else
    match values (String.ofList name) with
    | some v => v
    | none => .error (.missingKey (String.ofList name))

/-- Splits a text after the first closing brace. -/
def untilClose? : List Char → Option (List Char × List Char)
  | [] => none
  | '}' :: rest => some ([], rest)
  | c :: rest => (untilClose? rest).map fun (name, after) => (c :: name, after)

theorem length_untilClose? {s name rest : List Char} (h : untilClose? s = some (name, rest)) :
    rest.length < s.length := by
  induction s generalizing name with
  | nil => simp [untilClose?] at h
  | cons c s ih =>
    by_cases hc : c = '}'
    · subst hc
      simp only [untilClose?, Option.some.injEq, Prod.mk.injEq] at h
      simp [h.2]
    · rw [untilClose?] at h
      · simp only [Option.map_eq_some_iff, Prod.exists, Prod.mk.injEq] at h
        obtain ⟨inner, after, hs, _, rfl⟩ := h
        have := ih hs
        simp only [List.length_cons]
        omega
      · exact hc

/-- One word with its values filled in. -/
def fill (values : Values) (s : List Char) : Except Fault (List Char) :=
  match s with
  | [] => .ok []
  | '{' :: '{' :: rest => do return '{' :: (← fill values rest)
  | '}' :: '}' :: rest => do return '}' :: (← fill values rest)
  | '}' :: _ => .error singleClose
  | ['{'] => .error singleOpen
  | '{' :: rest =>
    match _h : untilClose? rest with
    | none => .error (if rest.any (· == '{') then nestedOpen else unclosed)
    | some (name, after) =>
      if name.any (· == '{') then .error nestedOpen
      else do
        let v ← valueOf values name
        return v.toList ++ (← fill values after)
  | c :: rest => do return c :: (← fill values rest)
termination_by s.length
decreasing_by
  · simp only [List.length_cons]; omega
  · simp only [List.length_cons]; omega
  · have := length_untilClose? _h
    simp only [List.length_cons]
    omega
  · simp only [List.length_cons]; omega

/-- All words of a template with their values. -/
def render (values : Values) (template : List String) : Except Fault (List String) :=
  template.mapM fun word => (fill values word.toList).map String.ofList

/-- The words that make keys and parameters. -/
def setup : List String :=
  ["-K=\x7blogrows\x7d", "--bits=\x7bbits\x7d", "setup", "-D", "\x7binput\x7d", "-M", "\x7bmodel\x7d",
   "--params-path", "\x7bparams\x7d", "--vk-path", "\x7bvk\x7d", "--pk-path", "\x7bpk\x7d"]

/-- The words that make the proof. -/
def prove : List String :=
  ["-K=\x7blogrows\x7d", "--bits=\x7bbits\x7d", "prove", "-D", "\x7binput\x7d", "-M", "\x7bmodel\x7d",
   "--params-path", "\x7bparams\x7d", "--pk-path", "\x7bpk\x7d", "--proof-path", "\x7bproof\x7d"]

end ProofRelay.Template
