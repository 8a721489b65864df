import ProofRelay.Contract.Handle
import ProofRelay.Proofs.Activity.Path
import ProofRelay.Proofs.Bytes.Utf8
import ProofRelay.Proofs.Files.Path

/-!
Loading a contract ends in a handle that knows its methods, in a report of the loader, or in a fault that
the loader does not foresee. There are eight ways to such a fault, and each of them always leads to it: a
path with a surrogate that stands for no byte, or else with a zero character; a file that is not UTF-8; an
integer with too many digits; values that nest deeper than the reader goes; an entry without a type that
nests too deep to be shown in the report of it; a function whose name is a list or an object; and, in an
interface that is otherwise usable and is bound, a function without a name.
-/

namespace ProofRelay

/-- A list is worked through up to the first item that fails. -/
theorem mapM_except_cases {ε α β : Type} {f : α → Except ε β} {g : α → β} {l : List α}
    (each : ∀ a ∈ l, (∃ e, f a = .error e) ∨ f a = .ok (g a)) :
    (∃ a ∈ l, ∃ e, f a = .error e ∧ l.mapM f = .error e) ∨
      (∀ a ∈ l, f a = .ok (g a)) ∧ l.mapM f = .ok (l.map g) := by
  induction l with
  | nil => exact .inr ⟨nofun, rfl⟩
  | cons a l ih =>
    rw [List.mapM_cons]
    rcases each a List.mem_cons_self with ⟨e, failed⟩ | good
    · exact .inl ⟨a, List.mem_cons_self, e, failed, by rw [failed]; rfl⟩
    rcases ih fun a' mem => each a' (List.mem_cons_of_mem a mem) with ⟨a', mem, e, failed, run⟩ | ⟨rest, run⟩
    · exact .inl ⟨a', List.mem_cons_of_mem a mem, e, failed, by rw [good, run]; rfl⟩
    · exact .inr ⟨List.forall_mem_cons.2 ⟨good, rest⟩, by rw [good, run]; rfl⟩

namespace FileTree

variable {files : FileTree} {path : Text}

/-- Some surrogate of the text stands for no byte of a name. -/
def Unencodable (t : Text) : Prop := ∃ p ∈ t, p.isSurrogate = true ∧ isEscapedByte p = false

theorem unencodable?_cases (t : Text) :
    (Unencodable t ∧ ∃ f, unencodable? t = some f ∧ f.kind = .unicodeEncode) ∨
      ¬ Unencodable t ∧ unencodable? t = none := by
  have split (p : CodePoint) : ¬ (!p.isSurrogate || isEscapedByte p) = true ↔
      p.isSurrogate = true ∧ isEscapedByte p = false := by
    cases p.isSurrogate <;> simp
  have left : t.drop (t.takeWhile fun p => !p.isSurrogate || isEscapedByte p).length =
      t.dropWhile fun p => !p.isSurrogate || isEscapedByte p :=
    (congrArg (List.drop _) List.takeWhile_append_dropWhile.symm).trans List.drop_left
  rw [unencodable?, left]
  cases rest : t.dropWhile fun p => !p.isSurrogate || isEscapedByte p with
  | nil =>
    refine .inr ⟨?_, rfl⟩
    rintro ⟨p, mem, bad⟩
    exact (split p).2 bad (List.dropWhile_eq_nil_iff.1 rest p mem)
  | cons p rest' =>
    have bad := List.head?_dropWhile_not (fun p => !p.isSurrogate || isEscapedByte p) t
    rw [rest] at bad
    refine .inl ⟨⟨p, List.dropWhile_subset _ (rest ▸ List.mem_cons_self), (split p).1 ?_⟩, _, rfl, rfl⟩
    simpa using bad

theorem unencodable_spelled_iff : Unencodable (Path.spelled path) ↔ Unencodable path := by
  have other {p : CodePoint} (surrogate : p.isSurrogate = true) (c : Char) : p ≠ .ofChar c := by
    rintro rfl
    cases (CodePoint.isSurrogate_ofChar c).symm.trans surrogate
  constructor
  all_goals
    rintro ⟨p, mem, surrogate, lone⟩
    have same := Path.mem_spelled (other surrogate '/') (other surrogate '.') path
  · exact ⟨p, same.1 mem, surrogate, lone⟩
  · exact ⟨p, same.2 mem, surrogate, lone⟩

theorem readAt_of_unencodable (files : FileTree) (bad : Unencodable path) :
    ∃ f, files.readAt path = .error f ∧ f.kind = .unicodeEncode := by
  rcases unencodable?_cases (Path.spelled path) with ⟨-, f, found, kind⟩ | ⟨fine, -⟩
  · exact ⟨f, by simp only [readAt, found], kind⟩
  · exact absurd (unencodable_spelled_iff.2 bad) fine

/-- Where the path is that of a string, the file of that path is read. -/
theorem readAt_of_encodable (files : FileTree) (fine : ¬ Unencodable path) :
    (∃ s, path = Text.ofString s ∧ files.readAt path = files.read (.ofString s)) ∨
      files.readAt path = if path.any (· == CodePoint.ofNat 0) then .error (.value "embedded null byte")
        else .error (.system 2 "No such file or directory" (some (Path.spelled path))) := by
  rcases unencodable?_cases (Path.spelled path) with ⟨bad, -⟩ | ⟨-, none⟩
  · exact absurd (unencodable_spelled_iff.1 bad) fine
  · cases read : path.toString? with
    | some s => exact .inl ⟨s, Text.toString?_eq_some_iff.1 read, by simp only [readAt, none, read]⟩
    | none => exact .inr (by simp only [readAt, none, read])

/-- A path holds a zero character just if the text of which it was made does. -/
theorem any_zero_toString (s : String) : (Path.ofString s).toString.toList.any (· == Char.ofNat 0) = true ↔
    0 ∈ Text.ofString s := by
  have zero : (0 : CodePoint) = .ofChar (Char.ofNat 0) := rfl
  have inj {c : Char} (same : CodePoint.ofChar c = .ofChar (Char.ofNat 0)) : c = Char.ofNat 0 := by
    have read := CodePoint.toChar?_ofChar c
    rw [same, CodePoint.toChar?_ofChar] at read
    exact (Option.some.inj read).symm
  rw [List.any_beq', List.contains_iff_mem, Path.mem_toString_ofString (by decide) (by decide),
    zero, Text.ofString, List.mem_map]
  constructor
  · exact fun mem => ⟨_, mem, rfl⟩
  · rintro ⟨c, mem, same⟩
    exact inj same ▸ mem

theorem readAt_of_zero (files : FileTree) (fine : ¬ Unencodable path) (zero : 0 ∈ path) :
    files.readAt path = .error (.value "embedded null byte") := by
  rcases readAt_of_encodable files fine with ⟨s, rfl, run⟩ | run
  · rw [run, read, checkPath, if_pos ((any_zero_toString s).2 zero)]
    rfl
  · rw [run, if_pos (List.any_eq_true.2 ⟨0, zero, rfl⟩)]

/-- The file system refuses with its own kind of error, unless the path is none. -/
theorem readAt_error {f : Fault} (h : files.readAt path = .error f) :
    f.kind = .system ∨ f.kind = .unicodeEncode ∧ Unencodable path ∨
      f.kind = .value ∧ ¬ Unencodable path ∧ 0 ∈ path := by
  by_cases bad : Unencodable path
  · obtain ⟨f', refused, kind⟩ := readAt_of_unencodable files bad
    cases refused.symm.trans h
    exact .inr (.inl ⟨kind, bad⟩)
  by_cases zero : 0 ∈ path
  · cases (readAt_of_zero files bad zero).symm.trans h
    exact .inr (.inr ⟨rfl, bad, zero⟩)
  left
  rcases readAt_of_encodable files bad with ⟨s, rfl, run⟩ | run
  · have valid : checkPath (.ofString s) = .ok () := if_neg fun found => zero ((any_zero_toString s).1 found)
    rw [run, read, valid] at h
    cases arrival : files.arrive (.ofString s) with
    | present at_ e =>
      rw [arrival] at h
      cases e <;> cases h <;> rfl
    | absent | noParent | belowFile | tooLong =>
      rw [arrival] at h
      cases h
      rfl
  · have none : ¬ path.any (· == CodePoint.ofNat 0) = true := by
      intro found
      obtain ⟨p, mem, same⟩ := List.any_eq_true.1 found
      obtain rfl := eq_of_beq same
      exact zero mem
    rw [run, if_neg none] at h
    cases h
    rfl

end FileTree

namespace Interface

/-- The values that have no place in a set. -/
def isCompound : Json → Bool
  | .arr _ | .obj _ => true
  | _ => false

/-- A document with a list of entries that all have a type. -/
def Typed (d : Json) (entries : List Json) : Prop :=
  entries? d = some entries ∧ ∀ e ∈ entries, hasType e = true

/-- Some function has a name that is no simple value. -/
def Clashes (entries : List Json) : Prop :=
  ∃ e ∈ entries, isFunction e = true ∧ isCompound (e.get "name") = true

/-- Some function has no name. -/
def Nameless (entries : List Json) : Prop := ∃ e ∈ entries, isFunction e = true ∧ e.get? "name" = none

/-- The functions have simple names, and those that are required are among them. -/
structure Usable (entries : List Json) : Prop where
  simple : ¬ Clashes entries
  complete : ∀ m ∈ required, ∃ e ∈ entries, isFunction e = true ∧ e.get "name" = .text m

theorem checkName_cases (name : Json) :
    (isCompound name = true ∧ ∃ f, checkName name = .error f ∧ f.kind = .type) ∨
      isCompound name = false ∧ checkName name = .ok name := by
  cases name with
  | arr | obj => exact .inl ⟨rfl, _, rfl, rfl⟩
  | _ => exact .inr ⟨rfl, rfl⟩

theorem isNamed_iff {m : String} {name : Json} : isNamed m name = true ↔ name = .text m := by
  cases name <;> simp [isNamed, Json.text]

def namesOf (entries : List Json) : List Json := (entries.filter isFunction).map fun e => e.get "name"

theorem mem_namesOf {entries : List Json} {name : Json} :
    name ∈ namesOf entries ↔ ∃ e ∈ entries, isFunction e = true ∧ e.get "name" = name := by
  simp [namesOf, and_assoc]

theorem missing_eq_nil_iff {names : List Json} : missing names = [] ↔ ∀ m ∈ required, .text m ∈ names := by
  simp only [missing, List.filter_eq_nil_iff, Bool.not_eq_true', Bool.not_eq_false, List.any_eq_true, isNamed_iff]
  constructor
  · intro h m hm
    obtain ⟨_, mem, rfl⟩ := h m hm
    exact mem
  · intro h m hm
    exact ⟨_, h m hm, rfl⟩

/-- The names are taken as they are unless one of them is no simple value. -/
theorem names_cases (entries : List Json) :
    (Clashes entries ∧ ∃ f, (namesOf entries).mapM checkName = .error f ∧ f.kind = .type) ∨
      ¬ Clashes entries ∧ (namesOf entries).mapM checkName = .ok (namesOf entries) := by
  have each : ∀ n ∈ namesOf entries, (∃ f, checkName n = .error f) ∨ checkName n = .ok (id n) := by
    intro n _
    exact (checkName_cases n).imp (fun ⟨_, f, h, _⟩ => ⟨f, h⟩) And.right
  rcases mapM_except_cases each with ⟨name, mem, f, failed, run⟩ | ⟨good, run⟩
  · obtain ⟨e, he, function, rfl⟩ := mem_namesOf.1 mem
    rcases checkName_cases (e.get "name") with ⟨compound, f', failed', kind⟩ | ⟨-, passed⟩
    · cases failed.symm.trans failed'
      exact .inl ⟨⟨e, he, function, compound⟩, f, run, kind⟩
    · cases failed.symm.trans passed
  · refine .inr ⟨?_, by rw [run, List.map_id]⟩
    rintro ⟨e, he, function, compound⟩
    have passed := good _ (mem_namesOf.2 ⟨e, he, function, rfl⟩)
    rcases checkName_cases (e.get "name") with ⟨-, f, failed, -⟩ | ⟨simple, -⟩
    · cases failed.symm.trans passed
    · cases simple.symm.trans compound

section Document

variable {n : Nesting} {d : Json} {entries : List Json}

/-- A document with typed entries is decided by the names of its functions. -/
theorem ofDocument_of_typed (typed : Typed d entries) :
    ofDocument n d =
      match (namesOf entries).mapM checkName with
      | .error f => .error (.fault f)
      | .ok names =>
        match missing names with
        | [] => .ok entries
        | ms => .error (refusal "ABI is missing required methods" (String.intercalate ", " ms)) := by
  have none : (entries.find? fun e => !hasType e) = none := by
    rw [List.find?_eq_none]
    intro e mem
    simp [typed.2 e mem]
  simp only [ofDocument, typed.1, none]
  rfl

theorem ofDocument_of_clashes (typed : Typed d entries) (clashes : Clashes entries) :
    ∃ f, ofDocument n d = .error (.fault f) ∧ f.kind = .type := by
  rcases names_cases entries with ⟨-, f, run, kind⟩ | ⟨simple, -⟩
  · exact ⟨f, by rw [ofDocument_of_typed typed, run], kind⟩
  · exact absurd clashes simple

theorem ofDocument_of_usable (typed : Typed d entries) (usable : Usable entries) : ofDocument n d = .ok entries := by
  rcases names_cases entries with ⟨clashes, -⟩ | ⟨-, run⟩
  · exact absurd clashes usable.simple
  · have none : missing (namesOf entries) = [] := by
      rw [missing_eq_nil_iff]
      intro m hm
      exact mem_namesOf.2 (usable.complete m hm)
    simp only [ofDocument_of_typed typed, run, none]

/-- The document lists this entry, which has no type, and those before it have one. -/
def FirstUntyped (d entry : Json) : Prop :=
  ∃ entries, entries? d = some entries ∧ entries.find? (fun e => !hasType e) = some entry

theorem ofDocument_of_untyped {entry : Json} (first : FirstUntyped d entry) :
    ofDocument n d = .error (untyped n entry) := by
  obtain ⟨entries, listed, found⟩ := first
  simp only [ofDocument, listed, found]

/-- An entry without a type is reported, if it can be shown. -/
theorem untyped_cases (n : Nesting) (entry : Json) :
    (∃ f, untyped n entry = .failure f ∧ f.kind = .interface ∧ ∃ text, entry.shown n.showing = .ok text) ∨
      ∃ f, entry.shown n.showing = .error f ∧ untyped n entry = .fault f := by
  cases shown : entry.shown n.showing with
  | ok text => exact .inl ⟨_, by rw [untyped, shown]; rfl, rfl, text, rfl⟩
  | error f => exact .inr ⟨f, rfl, by rw [untyped, shown]⟩

/-- A document is usable, or is refused with a report, or an entry for the report cannot be shown, or a name is no
simple value. -/
theorem ofDocument_cases (n : Nesting) (d : Json) :
    (∃ entries, Typed d entries ∧ Usable entries ∧ ofDocument n d = .ok entries) ∨
      (∃ f, ofDocument n d = .error (.failure f) ∧ f.kind = .interface) ∨
      (∃ entry f, FirstUntyped d entry ∧ entry.shown n.showing = .error f ∧ ofDocument n d = .error (.fault f)) ∨
      ∃ entries f, Typed d entries ∧ Clashes entries ∧ ofDocument n d = .error (.fault f) ∧ f.kind = .type := by
  cases listed : entries? d with
  | none => exact .inr (.inl ⟨_, by rw [ofDocument, listed]; rfl, rfl⟩)
  | some entries =>
    cases found : entries.find? fun e => !hasType e with
    | some entry =>
      have first : FirstUntyped d entry := ⟨entries, listed, found⟩
      rcases untyped_cases n entry with ⟨f, reported, kind, -⟩ | ⟨f, hidden, fault⟩
      · exact .inr (.inl ⟨f, by rw [ofDocument_of_untyped first, reported], kind⟩)
      · exact .inr (.inr (.inl ⟨entry, f, first, hidden, by rw [ofDocument_of_untyped first, fault]⟩))
    | none =>
      have typed : Typed d entries := ⟨listed, fun e mem => by simpa using List.find?_eq_none.1 found e mem⟩
      rcases names_cases entries with ⟨clashes, f, run, kind⟩ | ⟨simple, run⟩
      · exact .inr (.inr (.inr ⟨entries, f, typed, clashes, by rw [ofDocument_of_typed typed, run], kind⟩))
      · cases left : missing (namesOf entries) with
        | nil =>
          have usable : Usable entries := by
            refine ⟨simple, fun m hm => ?_⟩
            exact mem_namesOf.1 (missing_eq_nil_iff.1 left m hm)
          exact .inl ⟨entries, typed, usable, ofDocument_of_usable typed usable⟩
        | cons m ms => exact .inr (.inl ⟨_, by simp only [ofDocument_of_typed typed, run, left]; rfl, rfl⟩)

end Document

/-- A function tells its name if it has one; another entry has none to tell. -/
theorem nameOf_cases {entry : Json} (typed : hasType entry = true) :
    (isFunction entry = true ∧ entry.get? "name" = none ∧ nameOf entry = .error (.missingKey "name")) ∨
      (isFunction entry = true → entry.get? "name" ≠ none) ∧
        nameOf entry = .ok (if isFunction entry = true then entry.get? "name" else none) := by
  cases entry with
  | obj members =>
    by_cases function : isFunction (.obj members) = true
    · cases name : (Json.obj members).get? "name" with
      | none => exact .inl ⟨function, rfl, by simp only [nameOf, function, name, if_true]⟩
      | some n => exact .inr ⟨fun _ => by simp, by simp only [nameOf, function, name, if_true]⟩
    · exact .inr ⟨fun h => absurd h function, by simp only [nameOf, function, Bool.false_eq_true, if_false]⟩
  | _ => cases typed

/-- The names of the functions can be told unless one of them has none. -/
theorem methodNames_cases {entries : List Json} (typed : ∀ e ∈ entries, hasType e = true) :
    (Nameless entries ∧ ∃ f, methodNames entries = .error f ∧ f.kind = .key) ∨
      ¬ Nameless entries ∧ ∃ names, methodNames entries = .ok names := by
  have each : ∀ e ∈ entries, (∃ f, nameOf e = .error f) ∨
      nameOf e = .ok ((fun e : Json => if isFunction e = true then e.get? "name" else none) e) := by
    intro e mem
    exact (nameOf_cases (typed e mem)).imp (fun h => ⟨_, h.2.2⟩) And.right
  rcases mapM_except_cases each with ⟨e, mem, f, failed, run⟩ | ⟨good, run⟩
  · left
    rcases nameOf_cases (typed e mem) with ⟨function, nameless, failed'⟩ | ⟨-, passed⟩
    · cases failed.symm.trans failed'
      exact ⟨⟨e, mem, function, nameless⟩, _, by rw [methodNames, run]; rfl, rfl⟩
    · cases failed.symm.trans passed
  · right
    refine ⟨?_, _, by rw [methodNames, run]; rfl⟩
    rintro ⟨e, mem, function, nameless⟩
    rcases nameOf_cases (typed e mem) with ⟨-, -, failed⟩ | ⟨named, -⟩
    · cases failed.symm.trans (good e mem)
    · exact named function nameless

end Interface

namespace Handle

/-- The text of a file that holds the encoding of a string. -/
def unified (s : String) : Text := Text.ofString (String.ofList (Text.unifyNewlines s.toList))

theorem textOf_encode (s : String) : textOf (Utf8.encode s) = .ok (unified s) := by
  rw [textOf, Encoding.decodeStrict_encode, Except.map, Text.toStringLossy_ofString]
  rfl

/-- A file has a text just if it holds the encoding of a string. -/
theorem textOf_cases (content : Bytes) :
    (∃ s, content = Utf8.encode s ∧ textOf content = .ok (unified s)) ∨
      (∀ s, content ≠ Utf8.encode s) ∧ ∃ f, textOf content = .error f ∧ f.kind = .unicodeDecode := by
  cases h : Encoding.decodeStrict content with
  | ok t =>
    obtain ⟨s, rfl, -⟩ := Encoding.decodeStrict_eq_ok_iff.1 h
    exact .inl ⟨s, rfl, textOf_encode s⟩
  | error f =>
    refine .inr ⟨?_, f, by rw [textOf, h]; rfl, ?_⟩
    · rintro s rfl
      cases h.symm.trans (Encoding.decodeStrict_encode s)
    · rw [Encoding.decodeStrict] at h
      split at h <;> cases h
      rfl

/-- The empty text is no address anyway. -/
theorem accepts_text (address : String) :
    (if (Datum.text address).isTruthy then Address.ofDatum? (.text address) else none) = Address.ofString? address := by
  have decided : Address.ofDatum? (.text address) = Address.ofString? address := by
    simp only [Datum.text, Json.text, Address.ofDatum?, Text.toString?_ofString, Option.bind_some]
  cases given : (Datum.text address).isTruthy with
  | true => exact decided
  | false =>
    have empty : address.toList = [] := by
      simpa [Datum.text, Json.text, Datum.isTruthy, Json.isTruthy, Text.ofString] using given
    have none : Address.ofString? address = none := by
      rw [Address.ofString?, empty]
      rfl
    rw [none]
    rfl

/-- Binding gives a handle or a report of the loader. -/
theorem bind_cases (entries : List Json) (address : String) {refused : Option Fault}
    (tame : ∀ f ∈ refused, f.kind = .type ∨ f.kind.isValue = true) :
    (∃ a, Address.ofString? address = some a ∧ refused = none ∧
        bind refused entries (.text address) = .ok ⟨a.toString, entries⟩) ∨
      (Address.ofString? address = none ∨ refused ≠ none) ∧
        ∃ f, bind refused entries (.text address) = .error (.failure f) ∧ f.kind.isLoad = true := by
  rw [bind, accepts_text]
  cases valid : Address.ofString? address with
  | none => exact .inr ⟨.inl rfl, _, rfl, rfl⟩
  | some a =>
    cases refused with
    | none => exact .inl ⟨a, rfl, rfl, rfl⟩
    | some f =>
      have caught : (f.kind == .type || f.kind.isValue) = true := by simpa using tame f rfl
      exact .inr ⟨.inr nofun, _, by simp only [caught, if_true]; rfl, rfl⟩

section Load

variable (n : Interface.Nesting) (files : FileTree) (path : Text) (address : String) (refused : Option Fault)

/-- The ways to a fault that the loader does not foresee, by the kind of the fault. -/
inductive Unforeseen : Fault.Kind → Prop where
  | surrogate (bad : FileTree.Unencodable path) : Unforeseen .unicodeEncode
  | zero (fine : ¬ FileTree.Unencodable path) (mem : 0 ∈ path) : Unforeseen .value
  | bytes {content : Bytes} (read : files.readAt path = .ok content) (other : ∀ s, content ≠ Utf8.encode s) :
      Unforeseen .unicodeDecode
  | digits {s : String} {count : Nat} (read : files.readAt path = .ok (Utf8.encode s))
      (stop : Json.readDocument n.reading (unified s) = .error (.digits count)) : Unforeseen .value
  | nesting {s : String} {holder : Json.Holder} (read : files.readAt path = .ok (Utf8.encode s))
      (stop : Json.readDocument n.reading (unified s) = .error (.nesting holder)) : Unforeseen .recursion
  | entry {s : String} {d entry : Json} {f : Fault} (read : files.readAt path = .ok (Utf8.encode s))
      (document : Json.readDocument n.reading (unified s) = .ok d) (first : Interface.FirstUntyped d entry)
      (hidden : entry.shown n.showing = .error f) : Unforeseen f.kind
  | name {s : String} {d : Json} {entries : List Json} (read : files.readAt path = .ok (Utf8.encode s))
      (document : Json.readDocument n.reading (unified s) = .ok d) (typed : Interface.Typed d entries)
      (clashes : Interface.Clashes entries) : Unforeseen .type
  | nameless {s : String} {d : Json} {entries : List Json} {a : Address}
      (read : files.readAt path = .ok (Utf8.encode s)) (document : Json.readDocument n.reading (unified s) = .ok d)
      (typed : Interface.Typed d entries) (usable : Interface.Usable entries)
      (valid : Address.ofString? address = some a) (bound : refused = none) (nameless : Interface.Nameless entries) :
      Unforeseen .key

variable {n files path address refused}

theorem load_of_read_error {f : Fault} (read : files.readAt path = .error f) :
    load n files path (.text address) refused =
      .error (if f.kind.isSystem then unreadable path f else .fault f) := by
  rw [load, read]
  rfl

theorem load_of_read {content : Bytes} (read : files.readAt path = .ok content) :
    load n files path (.text address) refused = do
      let text ← (textOf content).mapError Trouble.fault
      let handle ← bind refused (← Interface.ofText n text) (.text address)
      let _ ← handle.methodNames.mapError Trouble.fault
      return handle := by
  rw [load, read]
  rfl

theorem load_of_text_error {content : Bytes} {f : Fault} (read : files.readAt path = .ok content)
    (text : textOf content = .error f) : load n files path (.text address) refused = .error (.fault f) := by
  rw [load_of_read read, text]
  rfl

/-- A file with a text is decided by the document in it. -/
theorem load_of_text {s : String} (read : files.readAt path = .ok (Utf8.encode s)) :
    load n files path (.text address) refused = do
      let handle ← bind refused (← Interface.ofText n (unified s)) (.text address)
      let _ ← handle.methodNames.mapError Trouble.fault
      return handle := by
  rw [load_of_read read, textOf_encode]
  rfl

theorem load_of_refused {s : String} {t : Trouble} (read : files.readAt path = .ok (Utf8.encode s))
    (interface : Interface.ofText n (unified s) = .error t) :
    load n files path (.text address) refused = .error t := by
  rw [load_of_text read, interface]
  rfl

theorem load_of_unbound {s : String} {entries : List Json} {t : Trouble}
    (read : files.readAt path = .ok (Utf8.encode s)) (interface : Interface.ofText n (unified s) = .ok entries)
    (unbound : bind refused entries (.text address) = .error t) :
    load n files path (.text address) refused = .error t := by
  rw [load_of_text read, interface]
  change (bind refused entries (.text address) >>= _) = _
  rw [unbound]
  rfl

theorem load_of_bound {s : String} {entries : List Json} {h : Handle} (read : files.readAt path = .ok (Utf8.encode s))
    (interface : Interface.ofText n (unified s) = .ok entries) (bound : bind refused entries (.text address) = .ok h) :
    load n files path (.text address) refused = (h.methodNames.mapError Trouble.fault).map fun _ => h := by
  rw [load_of_text read, interface]
  change (bind refused entries (.text address) >>= _) = _
  rw [bound]
  change (h.methodNames.mapError Trouble.fault >>= _) = _
  cases h.methodNames <;> rfl

theorem ofText_of_document {t : Text} {d : Json} (document : Json.readDocument n.reading t = .ok d) :
    Interface.ofText n t = Interface.ofDocument n d := by
  rw [Interface.ofText, document]

theorem load_of_unforeseen {k : Fault.Kind} (unforeseen : Unforeseen n files path address refused k) :
    ∃ f, load n files path (.text address) refused = .error (.fault f) ∧ f.kind = k := by
  cases unforeseen with
  | surrogate bad =>
    obtain ⟨f, read, kind⟩ := FileTree.readAt_of_unencodable files bad
    refine ⟨f, ?_, kind⟩
    rw [load_of_read_error read, kind]
    rfl
  | zero fine mem => exact ⟨_, load_of_read_error (FileTree.readAt_of_zero files fine mem), rfl⟩
  | bytes read other =>
    rename_i content
    rcases textOf_cases content with ⟨s, same, -⟩ | ⟨-, f, text, kind⟩
    · exact absurd same (other s)
    · exact ⟨f, load_of_text_error read text, kind⟩
  | digits read stop => exact ⟨_, load_of_refused read (by rw [Interface.ofText, stop]), rfl⟩
  | nesting read stop => exact ⟨_, load_of_refused read (by rw [Interface.ofText, stop]), rfl⟩
  | @entry s d entry f read document first hidden =>
    have interface : Interface.ofText n (unified s) = .error (.fault f) := by
      rw [ofText_of_document document, Interface.ofDocument_of_untyped first, Interface.untyped, hidden]
    exact ⟨f, load_of_refused read interface, rfl⟩
  | name read document typed clashes =>
    obtain ⟨f, refusal, kind⟩ := Interface.ofDocument_of_clashes typed clashes
    exact ⟨f, load_of_refused read ((ofText_of_document document).trans refusal), kind⟩
  | nameless read document typed usable valid bound nameless =>
    rename_i s d entries a
    have interface := (ofText_of_document document).trans (Interface.ofDocument_of_usable typed usable)
    have handle : bind refused entries (.text address) = .ok ⟨a.toString, entries⟩ := by
      rw [bind, accepts_text, valid, bound]
    rcases Interface.methodNames_cases typed.2 with ⟨-, f, names, kind⟩ | ⟨named, -⟩
    · refine ⟨f, ?_, kind⟩
      rw [load_of_bound read interface handle, methodNames, names]
      rfl
    · exact absurd nameless named

/-- A file with a text: the document in it decides, and before it the limits of the reader. -/
theorem load_text_cases {s : String} (read : files.readAt path = .ok (Utf8.encode s))
    (tame : ∀ f ∈ refused, f.kind = .type ∨ f.kind.isValue = true) :
    (∃ h names, load n files path (.text address) refused = .ok h ∧ h.methodNames = .ok names) ∨
      (∃ f, load n files path (.text address) refused = .error (.failure f) ∧ f.kind.isLoad = true) ∨
      ∃ f, load n files path (.text address) refused = .error (.fault f) ∧
        Unforeseen n files path address refused f.kind := by
  cases document : Json.readDocument n.reading (unified s) with
  | error stop =>
    cases stop with
    | defect d left => exact .inr (.inl ⟨_, load_of_refused read (by rw [Interface.ofText, document]; rfl), rfl⟩)
    | digits count =>
      exact .inr (.inr ⟨_, load_of_refused read (by rw [Interface.ofText, document]), .digits read document⟩)
    | nesting holder =>
      exact .inr (.inr ⟨_, load_of_refused read (by rw [Interface.ofText, document]), .nesting read document⟩)
  | ok d =>
    have interface := ofText_of_document document
    rcases Interface.ofDocument_cases n d with ⟨entries, typed, usable, accepted⟩ | ⟨f, refusal, kind⟩ |
      ⟨entry, f, first, hidden, refusal⟩ | ⟨entries, f, typed, clashes, refusal, kind⟩
    · rcases bind_cases entries address tame with ⟨a, valid, bound, handle⟩ | ⟨-, f, refusal, kind⟩
      · rw [load_of_bound read (interface.trans accepted) handle, methodNames]
        rcases Interface.methodNames_cases typed.2 with ⟨nameless, f, names, kind⟩ | ⟨-, names, told⟩
        · exact .inr (.inr ⟨f, by rw [names]; rfl, kind ▸ .nameless read document typed usable valid bound nameless⟩)
        · exact .inl ⟨⟨a.toString, entries⟩, names, by rw [told]; rfl, told⟩
      · exact .inr (.inl ⟨f, load_of_unbound read (interface.trans accepted) refusal, kind⟩)
    · exact .inr (.inl ⟨f, load_of_refused read (interface.trans refusal), by rw [kind]; rfl⟩)
    · exact .inr (.inr ⟨f, load_of_refused read (interface.trans refusal), .entry read document first hidden⟩)
    · exact .inr (.inr ⟨f, load_of_refused read (interface.trans refusal), kind ▸ .name read document typed clashes⟩)

/-- Loading gives a handle with its methods, a report of the loader, or a fault that it does not foresee. -/
theorem load_cases (tame : ∀ f ∈ refused, f.kind = .type ∨ f.kind.isValue = true) :
    (∃ h names, load n files path (.text address) refused = .ok h ∧ h.methodNames = .ok names) ∨
      (∃ f, load n files path (.text address) refused = .error (.failure f) ∧ f.kind.isLoad = true) ∨
      ∃ f, load n files path (.text address) refused = .error (.fault f) ∧
        Unforeseen n files path address refused f.kind := by
  cases read : files.readAt path with
  | error f =>
    rw [load_of_read_error read]
    rcases FileTree.readAt_error read with system | ⟨kind, bad⟩ | ⟨kind, fine, zero⟩
    · exact .inr (.inl ⟨_, by simp only [Fault.Kind.isSystem, system, if_true]; rfl, rfl⟩)
    · refine .inr (.inr ⟨f, by simp only [Fault.Kind.isSystem, kind, Bool.false_eq_true, if_false], ?_⟩)
      exact kind ▸ .surrogate bad
    · refine .inr (.inr ⟨f, by simp only [Fault.Kind.isSystem, kind, Bool.false_eq_true, if_false], ?_⟩)
      exact kind ▸ .zero fine zero
  | ok content =>
    rcases textOf_cases content with ⟨s, rfl, -⟩ | ⟨other, f, text, kind⟩
    · exact load_text_cases read tame
    · exact .inr (.inr ⟨f, load_of_text_error read text, kind ▸ .bytes read other⟩)

end Load

/-- Loading ends in a handle whose methods can be told, or in a report of the loader, unless one of the
eight ways to an unforeseen fault is open; and then it ends in that fault. -/
theorem load_foreseen_iff (n : Interface.Nesting) (files : FileTree) (path : Text) (address : String)
    (refused : Option Fault) (tame : ∀ f ∈ refused, f.kind = .type ∨ f.kind.isValue = true) :
    (((∃ h names, load n files path (.text address) refused = .ok h ∧ h.methodNames = .ok names) ∨
        ∃ f, load n files path (.text address) refused = .error (.failure f) ∧ f.kind.isLoad = true) ↔
      ∀ k, ¬ Unforeseen n files path address refused k) ∧
    ∀ k, (∃ f, load n files path (.text address) refused = .error (.fault f) ∧ f.kind = k) ↔
      Unforeseen n files path address refused k := by
  constructor
  · constructor
    · intro foreseen k unforeseen
      obtain ⟨f, fault, -⟩ := load_of_unforeseen unforeseen
      rcases foreseen with ⟨h, names, loaded, -⟩ | ⟨f', reported, -⟩
      · cases loaded.symm.trans fault
      · cases reported.symm.trans fault
    · intro foreseen
      rcases load_cases tame with loaded | reported | ⟨f, -, unforeseen⟩
      · exact .inl loaded
      · exact .inr reported
      · exact absurd unforeseen (foreseen f.kind)
  · intro k
    constructor
    · rintro ⟨f, fault, rfl⟩
      rcases load_cases tame with ⟨h, names, loaded, -⟩ | ⟨f', reported, -⟩ | ⟨f', fault', unforeseen⟩
      · cases loaded.symm.trans fault
      · cases reported.symm.trans fault
      · cases fault'.symm.trans fault
        exact unforeseen
    · exact load_of_unforeseen

/-- A file in which an interface is expected, with these bytes. -/
def fileWith (content : Bytes) : FileTree := .ofFiles [("abi.json", content)]

/-- Where a contract might be. -/
def somewhere : String := "0x00000000000000000000000000000000000000a1"

/-- An interface without methods is reported, so no way to an unforeseen fault is open. -/
theorem load_foreseen_iff_refused :
    (∃ f, load {} (fileWith [0x5B, 0x5D]) "abi.json" (.text somewhere) (some (.type "bad ABI")) =
        .error (.failure f) ∧ f.kind.isLoad = true) ∧
      ∀ k, ¬ Unforeseen {} (fileWith [0x5B, 0x5D]) "abi.json" somewhere (some (.type "bad ABI")) k := by
  have read : (fileWith [0x5B, 0x5D]).readAt "abi.json" = .ok (Utf8.encode "[]") := by decide +kernel
  have interface : Interface.ofText {} (unified "[]") = .error (Interface.refusal "ABI is missing required methods"
      "create_proof, verify_proof, counter") := rfl
  have reported : ∃ f, load {} (fileWith [0x5B, 0x5D]) "abi.json" (.text somewhere) (some (.type "bad ABI")) =
      .error (.failure f) ∧ f.kind.isLoad = true := ⟨_, load_of_refused read interface, rfl⟩
  have tame : ∀ f ∈ some (Fault.type "bad ABI"), f.kind = .type ∨ f.kind.isValue = true := by
    rintro f ⟨⟩
    exact .inl rfl
  exact ⟨reported, (load_foreseen_iff _ _ _ _ _ tame).1.1 (.inr reported)⟩

theorem encode_ne_lone_mark (s : String) : [0xFF] ≠ Utf8.encode s := by
  intro same
  have read := Encoding.decodeStrict_encode s
  rw [← same, Encoding.decodeStrict, Utf8.pieces_cons] at read
  cases read

/-- A file that is not UTF-8 is not reported by the loader: the error of the decoder comes through. -/
theorem load_undecodable :
    ¬ ((∃ h names, load {} (fileWith [0xFF]) "abi.json" (.text somewhere) none = .ok h ∧
          h.methodNames = .ok names) ∨
        ∃ f, load {} (fileWith [0xFF]) "abi.json" (.text somewhere) none = .error (.failure f) ∧
          f.kind.isLoad = true) := by
  have read : (fileWith [0xFF]).readAt "abi.json" = .ok [0xFF] := by decide +kernel
  obtain ⟨f, fault, -⟩ := load_of_unforeseen (n := {}) (.bytes read encode_ne_lone_mark)
  rintro (⟨h, names, loaded, -⟩ | ⟨f', reported, -⟩)
  · cases loaded.symm.trans fault
  · cases reported.symm.trans fault

end Handle

end ProofRelay
