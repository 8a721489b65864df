import ProofRelay.Proofs.Number.Decimal
import ProofRelay.Prover.Invocation
import ProofRelay.Text.CodePoint

/-!
Values in command lines. A word of a template is written in pieces, text that stands for itself and names of values,
and filling it puts the values where the names are. A value is never looked at again, so it may hold braces, blanks
or dashes: each word of a template gives one argument. What a template fails with is the first name in it that has no
value, or whose value is an integer with too many digits to be written. A prover without a command has no command
lines at all.
-/

namespace ProofRelay

namespace Template

variable {ν : Type}

/-- A piece of a word: text that stands for itself, or a name that stands for its value. -/
inductive Piece (ν : Type) where
  | literal (text : String)
  | field (name : ν)

/-- A brace that stands for itself is written twice. -/
def doubled (c : Char) : List Char := if c = '{' ∨ c = '}' then [c, c] else [c]

namespace Piece

/-- How a piece is written in a word. -/
def written (name : ν → String) : Piece ν → List Char
  | .literal text => text.toList.flatMap doubled
  | .field x => '{' :: ((name x).toList ++ ['}'])

/-- What a piece comes to with a value for each name. -/
def filled (value : ν → String) : Piece ν → List Char
  | .literal text => text.toList
  | .field x => (value x).toList

def name? : Piece ν → Option ν
  | .literal _ => none
  | .field x => some x

end Piece

/-- How a word is written. -/
def written (name : ν → String) (word : List (Piece ν)) : String := String.ofList (word.flatMap (Piece.written name))

/-- The texts and the values of a word, one after another. -/
def filled (value : ν → String) (word : List (Piece ν)) : String := String.ofList (word.flatMap (Piece.filled value))

/-- The names in a word, in their order. -/
def names (word : List (Piece ν)) : List ν := word.filterMap Piece.name?

/-- The characters with a meaning of their own between braces. -/
def reserved : List Char := ['{', '}', '[', '.', ':', '!']

/-- What may be the name of a value: it does not begin with a digit, and no character of it is reserved. Identifiers,
of whatever script, are such names. -/
def isName (name : String) : Bool :=
  name.toList.head?.any (fun c => (Text.digitValue? c).isNone) &&
    name.toList.all fun c => !reserved.contains c

section Words

variable (value : ν → String)

@[simp] theorem filled_literal (text : String) : filled value [.literal text] = text := by
  simp [filled, Piece.filled]

@[simp] theorem filled_field (x : ν) : filled value [.field x] = value x := by
  simp [filled, Piece.filled]

@[simp] theorem filled_literal_field (text : String) (x : ν) :
    filled value [.literal text, .field x] = text ++ value x := by
  simp [filled, Piece.filled]

end Words

section Fill

variable {values : Values}

theorem untilClose?_append {name : List Char} (free : '}' ∉ name) (rest : List Char) :
    untilClose? (name ++ '}' :: rest) = some (name, rest) := by
  induction name with
  | nil => rfl
  | cons c name ih =>
    obtain ⟨other, free⟩ := not_or.1 (mt List.mem_cons.2 free)
    rw [List.cons_append, untilClose?, ih free]
    · rfl
    · exact fun same => other same.symm

/-- A character, doubled if it is a brace, stands for itself whatever follows. -/
theorem fill_doubled (c : Char) (rest : List Char) :
    fill values (doubled c ++ rest) = (fill values rest).map (c :: ·) := by
  have sequence (r : Except Fault (List Char)) : (do let s ← r; return c :: s) = r.map (c :: ·) := by
    cases r <;> rfl
  rw [← sequence]
  by_cases brace : c = '{' ∨ c = '}'
  · rw [doubled, if_pos brace]
    rcases brace with rfl | rfl
    · rw [List.cons_append, List.singleton_append, fill]
    · rw [List.cons_append, List.singleton_append, fill]
  · obtain ⟨notOpen, notClose⟩ := not_or.1 brace
    rw [doubled, if_neg brace, List.singleton_append, fill]
    all_goals simp [notOpen, notClose]

theorem fill_literal (text rest : List Char) :
    fill values (text.flatMap doubled ++ rest) = (fill values rest).map (text ++ ·) := by
  induction text with
  | nil =>
    rw [List.flatMap_nil, List.nil_append]
    cases fill values rest <;> rfl
  | cons c text ih =>
    rw [List.flatMap_cons, List.append_assoc, fill_doubled, ih]
    cases fill values rest <;> rfl

/-- What stands between braces is looked up, and what comes after them is filled on its own. -/
theorem fill_braces {name : List Char} (nonempty : name ≠ []) (noOpen : '{' ∉ name) (noClose : '}' ∉ name)
    (rest : List Char) :
    fill values ('{' :: (name ++ '}' :: rest)) = do
      let v ← valueOf values name
      return v.toList ++ (← fill values rest) := by
  obtain ⟨c, cs, rfl⟩ := List.exists_cons_of_ne_nil nonempty
  have other : c ≠ '{' := fun same => noOpen (by simp [same])
  have single : ¬ (c :: cs).any (· == '{') = true := by
    rw [List.any_eq_true]
    rintro ⟨b, inside, brace⟩
    exact noOpen (eq_of_beq brace ▸ inside)
  rw [fill, untilClose?_append noClose]
  · exact if_neg single
  · simp [other]
  · simp

theorem isDigit_of_digitValue? {c : Char} (none : Text.digitValue? c = none) : c.isDigit = false := by
  rw [← Bool.not_eq_true]
  intro digit
  have bounds : '0' ≤ c ∧ c ≤ '9' := by simpa [Char.isDigit, Char.le_def] using digit
  have small : c.toNat < 0x80 := Nat.lt_of_le_of_lt (Char.le_def.1 bounds.2) (by decide)
  rw [Text.digitValue?, if_pos small, if_pos (by simpa using bounds)] at none
  cases none

/-- A name has a first character, which is no digit, and it has no braces. -/
theorem of_isName {name : String} (proper : isName name = true) :
    (∃ c rest, name.toList = c :: rest ∧ c.isDigit = false) ∧ '{' ∉ name.toList ∧ '}' ∉ name.toList := by
  obtain ⟨first, free⟩ := Bool.and_eq_true_iff.1 proper
  have without (b : Char) (brace : reserved.contains b = true) : b ∉ name.toList := by
    intro inside
    have free := List.all_eq_true.1 free b inside
    rw [brace] at free
    cases free
  refine ⟨?_, without '{' rfl, without '}' rfl⟩
  cases shape : name.toList with
  | nil =>
    rw [shape] at first
    cases first
  | cons c rest =>
    rw [shape] at first
    exact ⟨c, rest, rfl, isDigit_of_digitValue? (Option.isNone_iff_eq_none.1 first)⟩

/-- What a name stands for. -/
def named (values : Values) (name : String) : Except Fault String := (values name).getD (.error (.missingKey name))

/-- A name is looked up as it is: it is not the position of a value. -/
theorem fill_name {name : String} (proper : isName name = true) (rest : List Char) :
    fill values ('{' :: (name.toList ++ '}' :: rest)) = do
      let v ← named values name
      return v.toList ++ (← fill values rest) := by
  obtain ⟨⟨c, cs, shape, notDigit⟩, noOpen, noClose⟩ := of_isName proper
  have value : valueOf values name.toList = named values name := by
    rw [valueOf, if_neg (by simp [shape, notDigit]), String.ofList_toList, named]
    cases values name <;> rfl
  rw [fill_braces (by simp [shape]) noOpen noClose, value]

theorem fill_known {name v : String} (proper : isName name = true) (known : named values name = .ok v)
    (rest : List Char) :
    fill values ('{' :: (name.toList ++ '}' :: rest)) = (fill values rest).map (v.toList ++ ·) := by
  rw [fill_name proper, known]
  cases fill values rest <;> rfl

theorem fill_failing {name : String} {f : Fault} (proper : isName name = true) (failed : named values name = .error f)
    (rest : List Char) : fill values ('{' :: (name.toList ++ '}' :: rest)) = .error f := by
  rw [fill_name proper, failed]
  rfl

/-- A word in which every name has a value is filled with the values. -/
theorem fill_written {name value : ν → String} {word : List (Piece ν)}
    (known : ∀ x ∈ names word, isName (name x) = true ∧ named values (name x) = .ok (value x)) :
    fill values (word.flatMap (Piece.written name)) = .ok (word.flatMap (Piece.filled value)) := by
  induction word with
  | nil => rw [List.flatMap_nil, fill, List.flatMap_nil]
  | cons piece word ih =>
    rw [List.flatMap_cons, List.flatMap_cons]
    cases piece with
    | literal text =>
      rw [Piece.written, fill_literal, ih known]
      rfl
    | field x =>
      obtain ⟨⟨proper, found⟩, known⟩ := List.forall_mem_cons.1 known
      rw [Piece.written, List.cons_append, List.append_assoc, List.singleton_append, fill_known proper found, ih known]
      rfl

/-- The first of these names that fails does so with this fault. -/
def FirstFails (values : Values) (name : ν → String) (xs : List ν) (f : Fault) : Prop :=
  ∃ before x after, xs = before ++ x :: after ∧ (∀ y ∈ before, ∃ v, named values (name y) = .ok v) ∧
    named values (name x) = .error f

theorem firstFails_cons {name : ν → String} {x : ν} {xs : List ν} {f : Fault}
    (first : FirstFails values name (x :: xs) f) :
    named values (name x) = .error f ∨ (∃ v, named values (name x) = .ok v) ∧ FirstFails values name xs f := by
  obtain ⟨before, y, after, shape, known, failed⟩ := first
  cases before with
  | nil =>
    obtain ⟨rfl, -⟩ := List.cons.inj shape
    exact .inl failed
  | cons z before =>
    obtain ⟨rfl, rfl⟩ := List.cons.inj shape
    obtain ⟨here, known⟩ := List.forall_mem_cons.1 known
    exact .inr ⟨here, before, y, after, rfl, known, failed⟩

/-- A word fails with the first name in it that does. -/
theorem fill_written_failing {name : ν → String} {word : List (Piece ν)} {f : Fault}
    (proper : ∀ x ∈ names word, isName (name x) = true) (first : FirstFails values name (names word) f) :
    fill values (word.flatMap (Piece.written name)) = .error f := by
  induction word with
  | nil =>
    obtain ⟨before, x, after, shape, -⟩ := first
    cases before <;> cases shape
  | cons piece word ih =>
    rw [List.flatMap_cons]
    cases piece with
    | literal text =>
      rw [Piece.written, fill_literal, ih proper first]
      rfl
    | field x =>
      obtain ⟨here, proper⟩ := List.forall_mem_cons.1 proper
      rw [Piece.written, List.cons_append, List.append_assoc, List.singleton_append]
      rcases firstFails_cons first with failed | ⟨⟨v, known⟩, later⟩
      · exact fill_failing here failed _
      · rw [fill_known here known, ih proper later]
        rfl

end Fill

section Render

variable {values : Values}

theorem render_cons (word : String) (template : List String) :
    render values (word :: template) = do
      let first ← (fill values word.toList).map String.ofList
      return first :: (← render values template) := by
  rw [render, List.mapM_cons]
  rfl

/-- A template in which every name has a value gives one word for each of its own. -/
theorem render_written {name value : ν → String} {words : List (List (Piece ν))}
    (known : ∀ x ∈ words.flatMap names, isName (name x) = true ∧ named values (name x) = .ok (value x)) :
    render values (words.map (written name)) = .ok (words.map (filled value)) := by
  induction words with
  | nil => rfl
  | cons word words ih =>
    obtain ⟨here, later⟩ := List.forall_mem_append.1 known
    rw [List.map_cons, render_cons, written, String.toList_ofList, fill_written here, ih later]
    rfl

theorem firstFails_append {name : ν → String} {xs ys : List ν} {f : Fault}
    (first : FirstFails values name (xs ++ ys) f) :
    FirstFails values name xs f ∨ (∀ x ∈ xs, ∃ v, named values (name x) = .ok v) ∧ FirstFails values name ys f := by
  induction xs with
  | nil => exact .inr ⟨List.forall_mem_nil _, first⟩
  | cons x xs ih =>
    rcases firstFails_cons first with failed | ⟨here, later⟩
    · exact .inl ⟨[], x, xs, rfl, List.forall_mem_nil _, failed⟩
    rcases ih later with ⟨before, y, after, rfl, known, failed⟩ | ⟨known, rest⟩
    · exact .inl ⟨x :: before, y, after, rfl, List.forall_mem_cons.2 ⟨here, known⟩, failed⟩
    · exact .inr ⟨List.forall_mem_cons.2 ⟨here, known⟩, rest⟩

/-- A template fails with the first name in it that does. -/
theorem render_written_failing {name : ν → String} {words : List (List (Piece ν))} {f : Fault}
    (proper : ∀ x ∈ words.flatMap names, isName (name x) = true)
    (first : FirstFails values name (words.flatMap names) f) :
    render values (words.map (written name)) = .error f := by
  induction words with
  | nil =>
    obtain ⟨before, x, after, shape, -⟩ := first
    cases before <;> cases shape
  | cons word words ih =>
    obtain ⟨here, later⟩ := List.forall_mem_append.1 proper
    rw [List.map_cons, render_cons, written, String.toList_ofList]
    rcases firstFails_append first with failed | ⟨known, rest⟩
    · rw [fill_written_failing here failed]
      rfl
    · -- All names of this word have values, so the first one that fails is in a later word.
      have filled (x : ν) (inside : x ∈ names word) :
          isName (name x) = true ∧ named values (name x) = .ok ((named values (name x)).toOption.getD "") := by
        obtain ⟨v, value⟩ := known x inside
        exact ⟨here x inside, by rw [value]; rfl⟩
      rw [fill_written filled, ih later rest]
      rfl

end Render

end Template

namespace Prover

open Template (Piece names isName)

/-- The values of a command line. -/
inductive Operand where
  | logrows
  | bits
  | input
  | model
  | params
  | vk
  | pk
  | proof
deriving DecidableEq

namespace Operand

def all : List Operand := [.logrows, .bits, .input, .model, .params, .vk, .pk, .proof]

def name : Operand → String
  | .logrows => "logrows"
  | .bits => "bits"
  | .input => "input"
  | .model => "model"
  | .params => "params"
  | .vk => "vk"
  | .pk => "pk"
  | .proof => "proof"

def ofName? (n : String) : Option Operand := all.find? fun o => o.name == n

theorem isName_name (o : Operand) : isName o.name = true := by
  cases o <;> decide

variable {τ : Type} (c : Config τ) (input model : String) (w : Workspace)

/-- The integers among the values have a text if they have no more digits than can be written. -/
def hasText : Operand → Bool
  | .logrows => Decimal.fits c.logrows
  | .bits => Decimal.fits c.bits
  | _ => true

def value : Operand → String
  | .logrows => Decimal.ofInt c.logrows
  | .bits => Decimal.ofInt c.bits
  | .input => input
  | .model => model
  | .params => w.params.toString
  | .vk => w.verifyingKey.toString
  | .pk => w.provingKey.toString
  | .proof => w.proof.toString

theorem named_name (o : Operand) : Template.named (values c input model w) o.name =
    if o.hasText c then .ok (o.value c input model w) else .error Decimal.unwritable := by
  cases o <;> rfl

/-- No other name has a value. -/
theorem named_eq (n : String) : Template.named (values c input model w) n =
    match ofName? n with
    | some o => if o.hasText c then .ok (o.value c input model w) else .error Decimal.unwritable
    | none => .error (.missingKey n) := by
  cases found : ofName? n with
  | some o =>
    have same := @List.find?_some _ (fun o : Operand => o.name == n) o all found
    rw [← eq_of_beq same, named_name]
  | none =>
    have unknown : values c input model w n = none := by
      unfold values
      split
      case h_9 => rfl
      all_goals cases found
    rw [Template.named, unknown]
    rfl

end Operand

/-- The flags of a step with the files that they are for, in the order of its command line. -/
def Step.outputs (w : Workspace) : Step → List (String × Path)
  | .setup => [("--params-path", w.params), ("--vk-path", w.verifyingKey), ("--pk-path", w.provingKey)]
  | .prove => [("--params-path", w.params), ("--pk-path", w.provingKey), ("--proof-path", w.proof)]

/-- The template of a step in pieces. -/
def Step.words (s : Step) : List (List (Piece Operand)) :=
  [[.literal "-K=", .field .logrows], [.literal "--bits=", .field .bits], [.literal s.name], [.literal "-D"],
    [.field .input], [.literal "-M"], [.field .model], [.literal "--params-path"], [.field .params]] ++
  match s with
  | .setup => [[.literal "--vk-path"], [.field .vk], [.literal "--pk-path"], [.field .pk]]
  | .prove => [[.literal "--pk-path"], [.field .pk], [.literal "--proof-path"], [.field .proof]]

theorem Step.template_eq (s : Step) : s.template = s.words.map (Template.written Operand.name) := by
  cases s <;> decide

variable {τ : Type} (c : Config τ) (input model : String) (w : Workspace)

/-- The command line of a step. -/
def Step.arguments (s : Step) : List String :=
  c.command ++ ["-K=" ++ Decimal.ofInt c.logrows, "--bits=" ++ Decimal.ofInt c.bits, s.name,
    "-D", input, "-M", model] ++
    (s.outputs w).flatMap fun o => [o.1, o.2.toString]

variable {c}

theorem commandLine_written {words : List (List (Piece Operand))}
    (fine : ∀ o ∈ words.flatMap names, o.hasText c = true) :
    commandLine c (words.map (Template.written Operand.name)) input model w =
      .ok (c.command ++ words.map (Template.filled (Operand.value c input model w))) := by
  have known (o : Operand) (inside : o ∈ words.flatMap names) : isName o.name = true ∧
      Template.named (values c input model w) o.name = .ok (o.value c input model w) :=
    ⟨o.isName_name, (o.named_name c input model w).trans (if_pos (fine o inside))⟩
  rw [commandLine, Template.render_written known]
  rfl

/-- The command line of a step is what it should be, unless a number in it has no text. -/
theorem commandLine_template (s : Step) : commandLine c s.template input model w =
    if Decimal.fits c.logrows = true ∧ Decimal.fits c.bits = true then .ok (s.arguments c input model w)
    else .error Decimal.unwritable := by
  rw [s.template_eq]
  by_cases short : Decimal.fits c.logrows = true ∧ Decimal.fits c.bits = true
  · have fine (o : Operand) (_ : o ∈ s.words.flatMap names) : o.hasText c = true := by
      cases o with
      | logrows => exact short.1
      | bits => exact short.2
      | _ => rfl
    rw [commandLine_written input model w fine, if_pos short, Step.arguments]
    cases s <;> simp [Step.words, Step.outputs, Operand.value]
  · -- The two numbers come first, so one of them is the first name that fails.
    have first : Template.FirstFails (values c input model w) Operand.name (s.words.flatMap names)
        Decimal.unwritable := by
      have start : ∃ rest, s.words.flatMap names = .logrows :: .bits :: rest := by cases s <;> exact ⟨_, rfl⟩
      obtain ⟨rest, start⟩ := start
      rw [start]
      by_cases rows : Decimal.fits c.logrows = true
      · refine ⟨[.logrows], .bits, rest, rfl, List.forall_mem_singleton.2 ⟨Decimal.ofInt c.logrows, ?_⟩, ?_⟩
        · exact (Operand.named_name c input model w .logrows).trans (if_pos rows)
        · exact (Operand.named_name c input model w .bits).trans (if_neg fun bits => short ⟨rows, bits⟩)
      · refine ⟨[], .logrows, .bits :: rest, rfl, List.forall_mem_nil _, ?_⟩
        exact (Operand.named_name c input model w .logrows).trans (if_neg rows)
    rw [commandLine, Template.render_written_failing (fun o _ => o.isName_name) first, if_neg short]
    rfl

variable (c)

/-- The command line of a prover with this configuration, if it is one. -/
def built (template : List String) : Except Fault (List String) := do
  c.check
  commandLine c template input model w

/-- Names in a template that have no value, or whose value has no text. -/
def Operand.fails (n : String) : Bool := !(Operand.ofName? n).any (Operand.hasText c)

/-- What a name fails with. -/
def Operand.fault (n : String) : Fault := if (Operand.ofName? n).isSome then Decimal.unwritable else .missingKey n

theorem firstFails_of_find? {ns : List String} {n : String} (first : ns.find? (Operand.fails c) = some n) :
    Template.FirstFails (values c input model w) id ns (Operand.fault n) := by
  obtain ⟨failed, before, after, rfl, known⟩ := List.find?_eq_some_iff_append.1 first
  refine ⟨before, n, after, rfl, fun m inside => ?_, ?_⟩
  · have fine := known m inside
    rw [Operand.fails, Bool.not_not, Option.any_eq_true] at fine
    obtain ⟨o, found, text⟩ := fine
    exact ⟨_, by rw [id, Operand.named_eq, found]; exact if_pos text⟩
  · rw [id, Operand.named_eq, Operand.fault]
    cases found : Operand.ofName? n with
    | none => rfl
    | some o =>
      rw [Operand.fails, found] at failed
      exact if_neg (by simpa using failed)

/-- The arguments of a command line are the command and one argument for each word of the template, in which the texts
and the values of the names stand one after another as they are. -/
structure Substitutes : Prop where
  fills : ∀ words : List (List (Piece Operand)), (∀ o ∈ words.flatMap names, o.hasText c = true) →
    built c input model w (words.map (Template.written Operand.name)) =
      .ok (c.command ++ words.map (Template.filled (Operand.value c input model w)))
  fails : ∀ (words : List (List (Piece String))) (n : String), (∀ m ∈ words.flatMap names, isName m = true) →
    (words.flatMap names).find? (Operand.fails c) = some n →
    built c input model w (words.map (Template.written id)) = .error (Operand.fault n)
  setup : Decimal.fits c.logrows = true → Decimal.fits c.bits = true →
    built c input model w Template.setup = .ok (c.command ++
      ["-K=" ++ Decimal.ofInt c.logrows, "--bits=" ++ Decimal.ofInt c.bits, "setup", "-D", input, "-M", model,
        "--params-path", w.params.toString, "--vk-path", w.verifyingKey.toString,
        "--pk-path", w.provingKey.toString])
  prove : Decimal.fits c.logrows = true → Decimal.fits c.bits = true →
    built c input model w Template.prove = .ok (c.command ++
      ["-K=" ++ Decimal.ofInt c.logrows, "--bits=" ++ Decimal.ofInt c.bits, "prove", "-D", input, "-M", model,
        "--params-path", w.params.toString, "--pk-path", w.provingKey.toString,
        "--proof-path", w.proof.toString])
  unwritable : ¬ (Decimal.fits c.logrows = true ∧ Decimal.fits c.bits = true) → ∀ s : Step,
    built c input model w s.template = .error Decimal.unwritable

/-- A prover has a command. Its command lines are the command with the words of the template, in which the values are
put where their names are and are not looked at again. The first name without a value, or whose value is an integer
with too many digits, is reported. So the command lines of the two steps have all their arguments in fixed places,
whatever the values are. -/
theorem arguments_substituted :
    (c.command = [] → ∀ template, built c input model w template = .error (.value "Prover command must not be empty")) ∧
      (c.command ≠ [] → Substitutes c input model w) := by
  constructor
  · intro none template
    rw [built, Config.check, none]
    rfl
  · intro some
    have same (template : List String) : built c input model w template = commandLine c template input model w := by
      have fine : c.check = .ok () := if_neg (by simpa using some)
      rw [built, fine]
      rfl
    refine ⟨fun words fine => ?_, fun words n proper first => ?_, fun rows bits => ?_, fun rows bits => ?_,
      fun long s => ?_⟩
    · rw [same, commandLine_written input model w fine]
    · have failed := firstFails_of_find? c input model w first
      have rendered : Template.render _ (words.map (Template.written id)) = _ :=
        Template.render_written_failing proper failed
      rw [same, commandLine, rendered]
      rfl
    · refine (same _).trans ((commandLine_template input model w .setup).trans ((if_pos ⟨rows, bits⟩).trans ?_))
      simp [Step.arguments, Step.outputs, Step.name]
    · refine (same _).trans ((commandLine_template input model w .prove).trans ((if_pos ⟨rows, bits⟩).trans ?_))
      simp [Step.arguments, Step.outputs, Step.name]
    · rw [same, commandLine_template, if_neg long]

/-- A template with doubled braces, a name that is known and two that are not. -/
def strange : List (List (Piece String)) :=
  [[.literal "a\x7bb\x7d", .field "pk"], [.field "zk", .literal " ", .field "vk"], [.field "nonce"]]

/-- The strange template fails with the first name that is not known. Values that look like names, flags or several
words are passed as they are. -/
theorem arguments_substituted_strange :
    (∀ m ∈ strange.flatMap names, isName m = true) ∧
    (strange.flatMap names).find? (Operand.fails (τ := Unit) { command := ["ezkl"], timeout := () }) = some "zk" ∧
    strange.map (Template.written id) = ["a\x7b\x7bb\x7d\x7d\x7bpk\x7d", "\x7bzk\x7d \x7bvk\x7d", "\x7bnonce\x7d"] ∧
    built (τ := Unit) { command := ["ezkl"], timeout := () } "in" "m" ⟨"", Path.ofString "/w"⟩
      (strange.map (Template.written id)) = .error (.missingKey "zk") ∧
    built (τ := Unit) { command := ["ezkl", "\x7binput\x7d"], timeout := () } "-M" "\x7bpk\x7d \"\n--bits=1"
      ⟨"", Path.ofString "/w"⟩ Template.prove = .ok ["ezkl", "\x7binput\x7d", "-K=17", "--bits=16", "prove", "-D", "-M",
        "-M", "\x7bpk\x7d \"\n--bits=1", "--params-path", "/w/kzg.params", "--pk-path", "/w/pk.key",
        "--proof-path", "/w/proof.pf"] := by
  have proper : ∀ m ∈ strange.flatMap names, isName m = true := List.all_eq_true.1 (by decide)
  have first : (strange.flatMap names).find? (Operand.fails (τ := Unit) { command := ["ezkl"], timeout := () }) =
      some "zk" := by
    decide
  refine ⟨proper, first, by decide, ?_, ?_⟩
  · exact ((arguments_substituted _ _ _ _).2 (by simp)).fails strange "zk" proper first
  · exact ((arguments_substituted _ _ _ _).2 (by simp)).prove (by decide) (by decide)

/-- Configurations that have no command lines: one without a command, and any with a number of rows that has too many
digits. -/
theorem arguments_not_built :
    built (τ := Unit) { command := [], timeout := () } "in" "m" ⟨"", Path.ofString "/w"⟩ Template.setup =
      .error (.value "Prover command must not be empty") ∧
    ∀ command ≠ [], built (τ := Unit) { command := command, logrows := Decimal.leastLong, timeout := () } "in" "m"
      ⟨"", Path.ofString "/w"⟩ Template.setup = .error Decimal.unwritable := by
  refine ⟨rfl, fun command some => ?_⟩
  have fine : (⟨command, Decimal.leastLong, 16, (), none, false, Json.usualLevels⟩ : Config Unit).check = .ok () :=
    if_neg (by simpa using some)
  have long : ¬ (Decimal.fits Decimal.leastLong = true ∧ Decimal.fits 16 = true) := by
    rintro ⟨fits, -⟩
    cases Decimal.not_fits_leastLong.symm.trans fits
  rw [built, fine]
  exact (commandLine_template "in" "m" _ .setup).trans (if_neg long)

end Prover

end ProofRelay
