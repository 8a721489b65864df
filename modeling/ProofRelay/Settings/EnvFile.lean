import ProofRelay.Text.CodePoint
import ProofRelay.Text.Lines

/-!
Files of settings: one name and value a line, with comments, an optional `export`, quotes, and references
to other names in values. A line that cannot be read is skipped.
-/

namespace ProofRelay.EnvFile

/-- A blank that does not end the line. -/
def isInlineBlank (c : Char) : Bool := Text.isBlank c && c != '\n' && c != '\r'

def isLineEnd (c : Char) : Bool := c == '\n' || c == '\r'

def skipInline (s : List Char) : List Char := s.dropWhile isInlineBlank

/-- A text up to the closing quote. A quote after a backslash closes only if no other one does. -/
def quotedBody (quote : Char) : List Char → Option (List Char × List Char)
  | [] => none
  | [c] => if c == quote then some ([], []) else none
  | c :: d :: rest =>
    if c == quote then some ([], d :: rest)
    else if c == '\\' && d == quote then
      match quotedBody quote rest with
      | some (body, after) => some (c :: d :: body, after)
      | none => some ([c], rest)
    else (quotedBody quote (d :: rest)).map fun (body, after) => (c :: body, after)

/-- What an escape in double quotes stands for. -/
def escape? (c : Char) : Option Char :=
  match c with
  | '\\' => some '\\'
  | '\'' => some '\''
  | '"' => some '"'
  | 'a' => some (Char.ofNat 7)
  | 'b' => some (Char.ofNat 8)
  | 'f' => some (Char.ofNat 12)
  | 'n' => some '\n'
  | 'r' => some '\r'
  | 't' => some '\t'
  | 'v' => some (Char.ofNat 11)
  | _ => none

/-- What an escape in single quotes stands for. -/
def escapeSingle? (c : Char) : Option Char := if c == '\\' || c == '\'' then some c else none

def unescape (meaning : Char → Option Char) : List Char → List Char
  | '\\' :: c :: rest =>
    match meaning c with
    | some x => x :: unescape meaning rest
    | none => '\\' :: unescape meaning (c :: rest)
  | c :: rest => c :: unescape meaning rest
  | [] => []

def trimRight (s : List Char) : List Char := (s.reverse.dropWhile Text.isBlank).reverse

/-- A text up to the first comment, which is a number sign after a blank. -/
def beforeComment (last : Option Char) : List Char → List Char
  | [] => []
  | c :: rest => if c == '#' && last.any Text.isBlank then [] else c :: beforeComment (some c) rest

/-- The value at the start of a text. -/
def readValue (s : List Char) : Option (List Char × List Char) :=
  match s with
  | '\'' :: rest => (quotedBody '\'' rest).map fun (body, after) => (unescape escapeSingle? body, after)
  | '"' :: rest => (quotedBody '"' rest).map fun (body, after) => (unescape escape? body, after)
  | s => some (trimRight (beforeComment none (s.takeWhile fun c => !isLineEnd c)), s.dropWhile fun c => !isLineEnd c)

def skipExport (s : List Char) : List Char :=
  match s with
  | 'e' :: 'x' :: 'p' :: 'o' :: 'r' :: 't' :: c :: rest => if isInlineBlank c then skipInline rest else s
  | s => s

def isKeyChar (c : Char) : Bool := c != '=' && c != '#' && !Text.isBlank c

/-- The name at the start of a text; a comment has none. -/
def readKey (s : List Char) : Option (Option (List Char) × List Char) :=
  match s with
  | '#' :: _ => some (none, s)
  | '\'' :: rest =>
    let key := rest.takeWhile (· != '\'')
    match rest.dropWhile (· != '\'') with
    | _ :: after => if key.isEmpty then none else some (some key, after)
    | [] => none
  | s =>
    let key := s.takeWhile isKeyChar
    if key.isEmpty then none else some (some key, s.dropWhile isKeyChar)

/-- Skips a comment and the end of the line, if nothing else is left on it. -/
def skipLineEnd (s : List Char) : Option (List Char) :=
  let s := match skipInline s with
    | '#' :: rest => rest.dropWhile fun c => !isLineEnd c
    | s => s
  match s with
  | [] => some []
  | '\r' :: '\n' :: rest => some rest
  | c :: rest => if isLineEnd c then some rest else none

/-- A name, with a value if it has one. -/
abbrev Binding := List Char × Option (List Char)

def readAssignment (s : List Char) : Option (Option (List Char)) × List Char :=
  match skipInline s with
  | '=' :: rest =>
    let rest := skipInline rest
    match readValue rest with
    | some (v, after) => (some (some v), after)
    | none => (none, rest)
  | s => (some none, s)

def skipLine (s : List Char) : List Char :=
  match s.dropWhile fun c => !isLineEnd c with
  | [] => []
  | _ :: rest => rest

/-- The binding at the start of a text, if the line holds one, and what follows the line. -/
def readLine (s : List Char) : Option Binding × List Char :=
  let s := skipExport (s.dropWhile Text.isBlank)
  match readKey s with
  | none => (none, skipLine s)
  | some (key, rest) =>
    match readAssignment rest with
    | (none, rest) => (none, skipLine rest)
    | (some value, rest) =>
      match skipLineEnd rest with
      | none => (none, skipLine rest)
      | some rest => (key.map fun k => (k, value), rest)

/-- All bindings of a text, in order. -/
def readAll (s : List Char) : List Binding :=
  let (binding, rest) := readLine s
  let here := binding.toList
  if _h : rest.length < s.length then here ++ readAll rest else here
termination_by s.length

/-- The values of names, of which the first one counts. -/
abbrev Names := List (String × Option String)

def lookupText (names : Names) (name : String) : Option String := (names.lookup name).map fun v => v.getD ""

/-- A reference in braces: the name, and the text for when there is none. -/
def readReference (s : List Char) : Option (String × String × List Char) :=
  let name := s.takeWhile fun c => c != '}' && c != ':'
  match s.dropWhile fun c => c != '}' && c != ':' with
  | '}' :: rest => some (String.ofList name, "", rest)
  | ':' :: '-' :: rest =>
    match rest.dropWhile (· != '}') with
    | _ :: after => some (String.ofList name, String.ofList (rest.takeWhile (· != '}')), after)
    | [] => none
  | _ => none

/-- A value with its references replaced; `size` bounds the length of the text. -/
def resolve (names : Names) : Nat → List Char → List Char
  | 0, s => s
  | _ + 1, [] => []
  | size + 1, '$' :: '{' :: rest =>
    match readReference rest with
    | some (name, default, after) => ((lookupText names name).getD default).toList ++ resolve names size after
    | none => '$' :: '{' :: resolve names size rest
  | size + 1, c :: rest => c :: resolve names size rest

/-- Gives a name its value: in its old place if it has one, else at the end. -/
def put (names : Names) (name : String) (v : Option String) : Names :=
  if names.any fun p => p.1 == name then names.map fun p => if p.1 == name then (name, v) else p
  else names ++ [(name, v)]

/-- The names of a file with their values. A value may refer to names before it and to the environment;
of two values for a name the later one counts. -/
def read (environment : List (String × String)) (s : String) : Names :=
  let outside : Names := environment.map fun (k, v) => (k, some v)
  let step (names : Names) (b : Binding) : Names :=
    put names (String.ofList b.1) (b.2.map fun v => String.ofList (resolve (names ++ outside) v.length v))
  (readAll (Text.unifyNewlines s.toList)).foldl step []

end ProofRelay.EnvFile
