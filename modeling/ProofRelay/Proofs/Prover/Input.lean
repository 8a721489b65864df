import ProofRelay.Proofs.Activity.Path
import ProofRelay.Proofs.Files.Tree
import ProofRelay.Proofs.Json.RoundTrip
import ProofRelay.Prover.Workspace
import ProofRelay.Request

/-!
What the prover finds in its input file. The text of the document is put there in one step, and what was put
there is read from there. It is of ASCII, it is read as the document that was to be proved, and it is the
same for every order of the members. A document that is beyond the limits of the writer has no text, and then
nothing is put there. The document of a request always has one, and gives back what was requested.
-/

namespace ProofRelay

namespace Request

/-- What the prover is given has a text, however little nesting there is room for. -/
theorem exists_write_proverInput (r : Request) (levels : Nat) :
    ∃ text, r.proverInput.write (levels + 1) = .ok text := by
  have leaf (s : Text) : Json.Passable .writing levels (.str s) := .str (fun all => by cases all) s
  have free : Json.Passage.writing.obstacle? (levels + 1) r.proverInput = none := by
    refine Json.Passage.obstacle?_eq_none_iff.2 (.obj (List.forall_mem_map.2 ?_))
    simp only [List.forall_mem_cons]
    exact ⟨leaf _, leaf _, leaf _, List.forall_mem_nil _⟩
  exact ⟨_, by rw [Json.write, free]⟩

/-- It is a document if the id is of characters. -/
theorem isDocument_proverInput {r : Request} {id : String} (characters : r.id = Text.ofString id) {l l' : Json.Limits}
    (room : l.inside? = some l') : r.proverInput.IsDocument l := by
  have names : ["request_id", "requester", "payload"].Nodup := by decide
  refine Json.isDocument_record room ?_ ?_
  · exact names
  simp only [List.forall_mem_cons]
  exact ⟨characters ▸ .str id, .str _, .str _, List.forall_mem_nil _⟩

/-- From its text id, requester and payload are read back. -/
theorem read_proverInput {r : Request} {id text : String} (characters : r.id = Text.ofString id) {levels : Nat}
    (written : r.proverInput.write (levels + 1) = .ok text) :
    Json.ReadsAs r.proverInput text ∧ ∃ back, Json.readDocument (levels + 1) (Text.ofString text) = .ok back ∧
      r.proverInput.Same back ∧ back.get? "request_id" = some (.text id) ∧
      back.get? "requester" = some (.text r.requester) ∧ back.get? "payload" = some (.text r.payload) := by
  have document : r.proverInput.IsDocument (.of (levels + 1)) := isDocument_proverInput characters rfl
  have reads := Json.readsAs_write document.none written
  obtain ⟨back, read, same, -⟩ := reads.read _ document
  have texts {name s : String} (found : r.proverInput.get? name = some (.text s)) :
      back.get? name = some (.text s) := by
    obtain ⟨v, found', equal⟩ := same.get? found
    cases equal
    exact found'
  have named : r.proverInput.get? "request_id" = some (.text id) := congrArg (some ∘ Json.str) characters
  exact ⟨reads, back, read, same, texts named, texts rfl, texts rfl⟩

end Request

namespace Workspace

variable {τ : Type} {d : Json} {w : Workspace} {levels : Nat}

/-- Nothing is written of a document that has no text. -/
theorem yields_writeInput_of_error {es : List (Exchange (Prover.dialogue τ))} {r : Except Trouble Path} {f : Fault}
    (refused : d.write levels = .error f) :
    (w.writeInput (τ := τ) levels d).Yields es r ↔ es = [] ∧ r = .error (.fault f) := by
  rw [writeInput, refused, Attempt.yields_bind_iff]
  constructor
  · rintro (⟨t, stopped, rfl⟩ | ⟨_, _, _, -, written, -⟩)
    · obtain ⟨rfl, same⟩ := Attempt.yields_ofExcept_iff.1 stopped
      obtain rfl := Except.error.inj same
      exact ⟨rfl, rfl⟩
    · cases (Attempt.yields_ofExcept_iff.1 written).2
  · rintro ⟨rfl, rfl⟩
    exact .inl ⟨.fault f, Attempt.yields_ofExcept_iff.2 ⟨rfl, rfl⟩, rfl⟩

/-- A text is written in one step, and that yields the place of the input if nothing is in its way there. -/
theorem yields_writeInput_of_ok {es : List (Exchange (Prover.dialogue τ))} {r : Except Trouble Path} {text : String}
    (written : d.write levels = .ok text) :
    (w.writeInput (τ := τ) levels d).Yields es r ↔
      ∃ reply : Except Fault Unit, es = [⟨.write w.input (Utf8.encode text), reply⟩] ∧
        r = (reply.map fun _ => w.input).mapError (failure "Could not write prover input") := by
  rw [writeInput, written]
  refine (Attempt.yields_bind_iff (a := Prover.ask (.write w.input (Utf8.encode text)))).trans ?_
  constructor
  · rintro (⟨t, asked, -⟩ | ⟨reply, fs, gs, rfl, asked, rest⟩)
    · obtain ⟨reply, -, same⟩ := Attempt.yields_query_iff.1 asked
      cases same
    · obtain ⟨reply, rfl, same⟩ := Attempt.yields_query_iff.1 asked
      cases same
      refine ⟨reply, ?_⟩
      cases reply with
      | ok _ =>
        obtain ⟨rfl, rfl⟩ := Attempt.yields_pure_iff.1 rest
        exact ⟨rfl, rfl⟩
      | error f =>
        obtain ⟨rfl, rfl⟩ := Attempt.yields_ofExcept_iff.1 rest
        exact ⟨rfl, rfl⟩
  · rintro ⟨reply, rfl, rfl⟩
    refine .inr ⟨reply, _, [], rfl, Attempt.yields_query_iff.2 ⟨reply, rfl, rfl⟩, ?_⟩
    cases reply with
    | ok _ => exact Attempt.yields_pure_iff.2 ⟨rfl, rfl⟩
    | error f => exact Attempt.yields_ofExcept_iff.2 ⟨rfl, rfl⟩

theorem yields_writeInput_iff {es : List (Exchange (Prover.dialogue τ))} {r : Except Trouble Path} :
    (w.writeInput (τ := τ) levels d).Yields es r ↔
      (∃ (text : String) (reply : Except Fault Unit), d.write levels = .ok text ∧
        es = [⟨.write w.input (Utf8.encode text), reply⟩] ∧
        r = (reply.map fun _ => w.input).mapError (failure "Could not write prover input")) ∨
      ∃ f, d.write levels = .error f ∧ es = [] ∧ r = .error (.fault f) := by
  cases written : d.write levels with
  | error f =>
    rw [yields_writeInput_of_error written]
    constructor
    · exact fun nothing => .inr ⟨f, rfl, nothing⟩
    · rintro (⟨_, _, h, -⟩ | ⟨_, h, nothing⟩)
      · cases h
      · obtain rfl := Except.error.inj h
        exact nothing
  | ok text =>
    rw [yields_writeInput_of_ok written]
    constructor
    · rintro ⟨reply, put⟩
      exact .inl ⟨text, reply, rfl, put⟩
    · rintro (⟨_, reply, h, put⟩ | ⟨_, h, -⟩)
      · obtain rfl := Except.ok.inj h
        exact ⟨reply, put⟩
      · cases h

/-- The fault of a document that has no text. -/
theorem write_eq_error {f : Fault} (refused : d.write levels = .error f) :
    f = Decimal.unwritable ∨ f = .tooDeep "encoding a JSON object" := by
  rw [Json.write] at refused
  split at refused
  · cases refused
  · rename_i o _
    obtain rfl := Except.error.inj refused
    cases o with
    | digits => exact .inl rfl
    | nesting => exact .inr rfl

/-- What is put into the input file is read from it. A document is put there just if its integers have no more digits
than can be written, and it nests no deeper than there are levels; else there is a fault, and nothing is put there.
What is put there is a text of ASCII, from which a reader of JSON gets the same document; just the same documents
have the same text, whatever the order of their members; and the document of a request always has a text, which
gives back its id, if that is of characters, its requester and its payload. -/
theorem input_read_back (w : Workspace) (levels : Nat) (document : d.IsDocument .none) :
    (∀ es r, (w.writeInput (τ := τ) levels d).Yields es r ↔
      (∃ (text : String) (reply : Except Fault Unit), d.write levels = .ok text ∧
        es = [⟨.write w.input (Utf8.encode text), reply⟩] ∧
        r = (reply.map fun _ => w.input).mapError (failure "Could not write prover input")) ∨
      ∃ f, d.write levels = .error f ∧ es = [] ∧ r = .error (.fault f)) ∧
    (d.IsDocument ⟨some 4300, some levels⟩ ↔ ∃ text, d.write levels = .ok text) ∧
    (∀ f, d.write levels = .error f → f = Decimal.unwritable ∨ f = .tooDeep "encoding a JSON object") ∧
    (∀ text, d.write levels = .ok text → Json.ReadsAs d text) ∧
    (∀ (t t' : FileTree) text, t.write w.input (Utf8.encode text) = .ok t' →
      t'.read w.input = .ok (Utf8.encode text)) ∧
    (∀ d' : Json, d'.IsDocument .none → (d.Same d' → d.write levels = d'.write levels) ∧
      ∀ text, d.write levels = .ok text → d'.write levels = .ok text → d.Same d') ∧
    ∀ (request : Request) (levels : Nat), ∃ text, request.proverInput.write (levels + 1) = .ok text ∧
      ∀ id, request.id = Text.ofString id → Json.ReadsAs request.proverInput text ∧
        ∃ back, Json.readDocument (levels + 1) (Text.ofString text) = .ok back ∧ request.proverInput.Same back ∧
          back.get? "request_id" = some (.text id) ∧ back.get? "requester" = some (.text request.requester) ∧
          back.get? "payload" = some (.text request.payload) := by
  refine ⟨fun es r => yields_writeInput_iff, ?_, fun f => write_eq_error, fun text => Json.readsAs_write document,
    fun t t' text => FileTree.read_write, ?_, ?_⟩
  · constructor
    · intro within
      exact ⟨_, document.write_eq_ok_iff.2 ⟨within, rfl⟩⟩
    · rintro ⟨text, written⟩
      exact (document.write_eq_ok_iff.1 written).1
  · intro d' document'
    constructor
    · intro same
      rw [Json.write, Json.write, document.obstacle?_eq_of_same document' same,
        Json.writeChars_eq_of_same document document' same]
    · intro text written written'
      obtain ⟨-, rfl⟩ := document.write_eq_ok_iff.1 written
      obtain ⟨-, text⟩ := document'.write_eq_ok_iff.1 written'
      exact (document.same_iff document').2 (String.ofList_injective text)
  · intro request levels
    obtain ⟨text, written⟩ := request.exists_write_proverInput levels
    exact ⟨text, written, fun id characters => Request.read_proverInput characters written⟩

/-- A document with a list and an object in it, a negative number, and a text with characters that are escaped
in each of the ways there are. -/
def nested : Json :=
  .record [("b", .arr [.int (-5), .bool true, .record [("c", .null)]]), ("a", .text "é\"\\\n\u2028😀")]

/-- The same document with its members the other way round. -/
def turned : Json :=
  .record [("a", .text "é\"\\\n\u2028😀"), ("b", .arr [.int (-5), .bool true, .record [("c", .null)]])]

/-- It takes three levels. -/
theorem isDocument_nested : nested.IsDocument (.of 3) := by
  apply Json.isDocument_record rfl (by decide)
  simp only [List.forall_mem_cons]
  refine ⟨.arr rfl ?_, .str _, List.forall_mem_nil _⟩
  simp only [List.forall_mem_cons]
  refine ⟨.int _ (Json.Limits.exceeded_of.2 (by decide)), .bool _, Json.isDocument_record rfl (by decide) ?_,
    List.forall_mem_nil _⟩
  simp only [List.forall_mem_cons]
  exact ⟨.null, List.forall_mem_nil _⟩

theorem not_isDocument_nested : ¬ nested.IsDocument (.of 2) := by
  intro document
  cases document with
  | obj room _ _ inner =>
    obtain rfl := Option.some.inj room
    cases inner _ List.mem_cons_self with
    | arr room inner =>
      obtain rfl := Option.some.inj room
      cases inner _ (List.mem_cons_of_mem _ (List.mem_cons_of_mem _ List.mem_cons_self)) with
      | obj room => cases room

/-- The nested document has the same text the other way round, and its text is read back, with no level to spare; with
one level less nothing is written. -/
theorem input_read_back_nested : nested.IsDocument .none ∧ nested.write 3 = turned.write 3 ∧
    (∃ text back, nested.write 3 = .ok text ∧ (∀ b ∈ Utf8.encode text, b.toNat < 128) ∧
      Json.readDocument 3 (Text.ofString text) = .ok back ∧ back.get? "a" = some (.text "é\"\\\n\u2028😀")) ∧
    ∃ f, ((⟨"", .ofString ""⟩ : Workspace).writeInput (τ := Unit) 2 nested).Yields [] (.error (.fault f)) := by
  have document := isDocument_nested.none
  obtain ⟨turns, same⟩ := document.same_of_perm (List.Perm.swap _ _ [])
  obtain ⟨-, within, -, reads, -, canonical, -⟩ := input_read_back (τ := Unit) ⟨"", Path.ofString ""⟩ 3 document
  obtain ⟨text, written⟩ := within.1 isDocument_nested
  obtain ⟨back, read, again, -⟩ := (reads text written).read _ isDocument_nested
  have there : nested.get? "a" = some (.text "é\"\\\n\u2028😀") := rfl
  obtain ⟨v, found, equal⟩ := again.get? there
  cases equal
  refine ⟨document, (canonical turned turns).1 same, ⟨text, back, written, (reads text written).ascii, read, found⟩, ?_⟩
  obtain ⟨yields, within, -⟩ := input_read_back (τ := Unit) ⟨"", Path.ofString ""⟩ 2 document
  cases refused : nested.write 2 with
  | ok text => exact absurd (within.2 ⟨text, refused⟩) not_isDocument_nested
  | error f => exact ⟨f, (yields _ _).2 (.inr ⟨f, refused, rfl, rfl⟩)⟩

theorem write_brackets (n : Nat) : (Json.brackets n).write n = .error (.tooDeep "encoding a JSON object") := by
  have full : Json.Passage.writing.obstacle? n (Json.brackets n) = some .nesting := by
    induction n with
    | zero => rfl
    | succ n ih => simp [Json.brackets, Json.Passage.obstacle?, Json.Passage.inItems, ih]
  rw [Json.write, full]
  rfl

/-- A directory in which one stands where the input is to be put. -/
def occupied : FileTree := ⟨[(["w"], .directory), (["w", "input.json"], .directory)]⟩

/-- Documents of which nothing is put into the input file: an integer with too many digits, lists that nest deeper than
there are levels, whatever these are, and any document at all where a directory is in the way. -/
theorem input_not_stored :
    (Json.int Decimal.leastLong).IsDocument .none ∧
    (∀ (w : Workspace) (levels : Nat), (w.writeInput (τ := Unit) levels (.int Decimal.leastLong)).Yields []
      (.error (.fault Decimal.unwritable))) ∧
    (∀ levels, (Json.brackets levels).IsDocument .none ∧ ∀ w : Workspace,
      (w.writeInput (τ := Unit) levels (Json.brackets levels)).Yields []
        (.error (.fault (.tooDeep "encoding a JSON object")))) ∧
    ∀ content, occupied.write (⟨"", .ofString "w"⟩ : Workspace).input content =
      .error (FileTree.isDirectory (.ofString "w/input.json")) := by
  refine ⟨.int _ rfl, ?_, ?_, fun content => rfl⟩
  · intro w levels
    refine (yields_writeInput_of_error ?_).2 ⟨rfl, rfl⟩
    have long : Json.Passage.writing.obstacle? levels (.int Decimal.leastLong) = some .digits := by
      rw [Json.Passage.obstacle?, Json.Passage.atLeaf]
      refine (if_neg Bool.false_ne_true).trans (if_neg ?_)
      rw [Option.all_some, Decimal.not_fits_leastLong]
      exact Bool.false_ne_true
    rw [Json.write, long]
    rfl
  · intro levels
    exact ⟨Json.isDocument_brackets levels, fun w =>
      (yields_writeInput_of_error (write_brackets levels)).2 ⟨rfl, rfl⟩⟩

end Workspace

end ProofRelay
