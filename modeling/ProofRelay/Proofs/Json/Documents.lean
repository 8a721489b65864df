import Mathlib.Data.List.Nodup
import ProofRelay.Proofs.Json.Strings

/-!
Documents and their text. A document is made of null, truth values, integers, strings, lists and objects
whose names are all different. Two documents are the same if they have the same values in the same places,
an object's places being its names, in whatever order; each is the same as the one with its members in the
order of their names. The same documents have the same text, and it is of ASCII alone. A writer comes through a
document just if a reader with as many levels does.
-/

namespace ProofRelay.Json

/-- A value without numbers other than integers, whose strings are of characters and whose objects have no
name twice. Limits, if there are any, bound the digits of its integers and how deep it nests. -/
inductive IsDocument : Limits → Json → Prop where
  | null {l : Limits} : IsDocument l .null
  | bool {l : Limits} (b : Bool) : IsDocument l (.bool b)
  | int {l : Limits} (n : Int) (short : l.exceeded (Decimal.natDigits n.natAbs).length = false) : IsDocument l (.int n)
  | str {l : Limits} (s : String) : IsDocument l (.str (Text.ofString s))
  | arr {l l' : Limits} {items : List Json} (room : l.inside? = some l') (inner : ∀ v ∈ items, IsDocument l' v) :
      IsDocument l (.arr items)
  | obj {l l' : Limits} {members : List (Text × Json)} (room : l.inside? = some l')
      (distinct : (members.map Prod.fst).Nodup) (names : ∀ m ∈ members, ∃ s, m.1 = Text.ofString s)
      (inner : ∀ m ∈ members, IsDocument l' m.2) : IsDocument l (.obj members)

/-- The same values in the same places; the order of an object's members does not count. -/
inductive Same : Json → Json → Prop where
  | null : Same .null .null
  | bool (b : Bool) : Same (.bool b) (.bool b)
  | int (n : Int) : Same (.int n) (.int n)
  | real (x : Binary64) : Same (.real x) (.real x)
  | str (s : Text) : Same (.str s) (.str s)
  | arr {items items' : List Json} (length : items.length = items'.length)
      (inner : ∀ (i : Nat) v v', items[i]? = some v → items'[i]? = some v' → Same v v') :
      Same (.arr items) (.arr items')
  | obj {members members' : List (Text × Json)}
      (names : ∀ k, (findMember k members).isSome = (findMember k members').isSome)
      (inner : ∀ k v v', findMember k members = some v → findMember k members' = some v' → Same v v') :
      Same (.obj members) (.obj members')

section Members

variable {k : Text} {v : Json} {members : List (Text × Json)}

theorem mem_of_findMember (h : findMember k members = some v) : (k, v) ∈ members := by
  induction members with
  | nil => cases h
  | cons m members ih =>
    obtain ⟨k', v'⟩ := m
    rw [findMember] at h
    split at h
    · rename_i same
      cases h
      rw [same]
      exact List.mem_cons_self
    · exact List.mem_cons_of_mem _ (ih h)

/-- Where no name stands twice, every member is found under its name. -/
theorem findMember_eq_some_iff (distinct : (members.map Prod.fst).Nodup) :
    findMember k members = some v ↔ (k, v) ∈ members := by
  refine ⟨mem_of_findMember, ?_⟩
  intro mem
  induction members with
  | nil => cases mem
  | cons m members ih =>
    obtain ⟨k', v'⟩ := m
    rw [List.map_cons, List.nodup_cons] at distinct
    rw [findMember]
    rcases List.mem_cons.1 mem with same | later
    · cases same
      rw [if_pos rfl]
    · have other : k ≠ k' := by
        intro same
        have named := List.mem_map_of_mem (f := Prod.fst) later
        rw [same] at named
        exact distinct.1 named
      rw [if_neg other, ih distinct.2 later]

theorem isSome_findMember : (findMember k members).isSome = true ↔ k ∈ members.map Prod.fst := by
  induction members with
  | nil => simp [findMember]
  | cons m members ih =>
    obtain ⟨k', v'⟩ := m
    rw [findMember, List.map_cons, List.mem_cons]
    split
    · rename_i same
      exact iff_of_true rfl (.inl same)
    · rename_i other
      rw [ih, or_iff_right other]

/-- An object is a document if its names are different and its values are documents. -/
theorem isDocument_record {l l' : Limits} {members : List (String × Json)} (room : l.inside? = some l')
    (distinct : (members.map Prod.fst).Nodup) (inner : ∀ m ∈ members, IsDocument l' m.2) :
    IsDocument l (.record members) := by
  refine .obj room ?_ (List.forall_mem_map.2 fun m _ => ⟨m.1, rfl⟩) (List.forall_mem_map.2 inner)
  have names : (members.map fun m => (Text.ofString m.1, m.2)).map Prod.fst =
      (members.map Prod.fst).map Text.ofString := by
    rw [List.map_map, List.map_map]
    rfl
  rw [names]
  exact distinct.map fun _ _ => Text.ofString_injective

end Members

section Sameness

variable {d d' d'' : Json}

theorem Same.symm (same : Same d d') : Same d' d := by
  induction same with
  | null => exact .null
  | bool b => exact .bool b
  | int n => exact .int n
  | real x => exact .real x
  | str s => exact .str s
  | arr length _ ih =>
    refine .arr length.symm ?_
    intro i v v' first second
    exact ih i v' v second first
  | obj names _ ih =>
    refine .obj (fun k => (names k).symm) ?_
    intro k v v' found found'
    exact ih k v' v found' found

theorem Same.trans (first : Same d d') (second : Same d' d'') : Same d d'' := by
  induction first generalizing d'' with
  | null => exact second
  | bool b => exact second
  | int n => exact second
  | real x => exact second
  | str s => exact second
  | @arr items items' length _ ih =>
    cases second with
    | @arr _ items'' length' inner' =>
      refine .arr (length.trans length') ?_
      intro i v v'' found found''
      have inside : i < items'.length := by
        obtain ⟨bound, -⟩ := List.getElem?_eq_some_iff.1 found
        omega
      have found' := List.getElem?_eq_getElem inside
      exact ih i v _ found found' (inner' i _ v'' found' found'')
  | @obj members members' names _ ih =>
    cases second with
    | @obj _ members'' names' inner' =>
      refine .obj (fun k => (names k).trans (names' k)) ?_
      intro k v v'' found found''
      obtain ⟨v', found'⟩ := Option.isSome_iff_exists.1 ((names k).symm.trans (congrArg Option.isSome found))
      exact ih k v v' found found' (inner' k v' v'' found' found'')

/-- What stands under a name in a document stands under it in the same document. -/
theorem Same.get? {name : String} {v : Json} (same : Same d d') (found : d.get? name = some v) :
    ∃ v', d'.get? name = some v' ∧ Same v v' := by
  cases same with
  | @obj members members' names inner =>
    obtain ⟨v', found'⟩ := Option.isSome_iff_exists.1 ((names _).symm.trans (congrArg Option.isSome found))
    exact ⟨v', found', inner _ v v' found found'⟩
  | null | bool | int | real | str | arr => cases found

end Sameness

section Order

theorem nameLe_iff {a b : Text} : nameLe a b = true ↔ ¬ b < a := by
  rw [nameLe, Bool.not_eq_true', decide_eq_false_iff_not]

theorem nameLe_trans {a b c : Text} (first : nameLe a b = true) (second : nameLe b c = true) : nameLe a c = true := by
  rw [nameLe_iff] at first second ⊢
  exact List.not_lt.2 (List.le_trans (List.not_lt.1 first) (List.not_lt.1 second))

theorem nameLe_total (a b : Text) : (nameLe a b || nameLe b a) = true := by
  rw [Bool.or_eq_true, nameLe_iff, nameLe_iff]
  exact (List.le_total a b).imp List.not_lt.2 List.not_lt.2

theorem nameLe_antisymm {a b : Text} (first : nameLe a b = true) (second : nameLe b a = true) : a = b := by
  rw [nameLe_iff] at first second
  exact List.le_antisymm (List.not_lt.1 first) (List.not_lt.1 second)

/-- Members with different names are put in one order, however they stood before. -/
theorem sortByName_eq_of_perm {α : Type} {ms ms' : List (Text × α)} (perm : ms.Perm ms')
    (distinct : (ms.map Prod.fst).Nodup) : sortByName ms = sortByName ms' := by
  have sorted (l : List (Text × α)) : (sortByName l).Pairwise fun a b => nameLe a.1 b.1 = true := by
    apply List.pairwise_mergeSort
    · intro a b c
      exact nameLe_trans
    · intro a b
      exact nameLe_total a.1 b.1
  refine List.Perm.eq_of_pairwise ?_ (sorted ms) (sorted ms')
    ((List.mergeSort_perm ms _).trans (perm.trans (List.mergeSort_perm ms' _).symm))
  intro a b memA memB first second
  -- Equal names stand at one place only, so the members are equal.
  exact List.inj_on_of_nodup_map distinct ((List.mergeSort_perm ms _).mem_iff.1 memA)
    (perm.mem_iff.2 ((List.mergeSort_perm ms' _).mem_iff.1 memB)) (nameLe_antisymm first second)

end Order

section Text

variable {l : Limits} {d d' : Json} {members members' : List (Text × Json)}

theorem joinComma_singleton (text : List Char) : joinComma [text] = text := rfl

theorem joinComma_cons_cons (text next : List Char) (texts : List (List Char)) :
    joinComma (text :: next :: texts) = text ++ ',' :: ' ' :: joinComma (next :: texts) :=
  rfl

/-- The text of one member of an object. -/
def memberText (m : Text × Json) : List Char := writeText m.1 ++ ':' :: ' ' :: writeChars m.2

theorem writeItems_eq (items : List Json) : writeItems items = items.map writeChars := by
  induction items with
  | nil => rfl
  | cons v items ih => rw [writeItems, ih, List.map_cons]

theorem writeMembers_eq (members : List (Text × Json)) :
    writeMembers members = members.map fun m => (m.1, memberText m) := by
  induction members with
  | nil => rfl
  | cons m members ih =>
    obtain ⟨k, v⟩ := m
    rw [writeMembers, ih, List.map_cons]
    rfl

theorem names_writeMembers (members : List (Text × Json)) :
    (writeMembers members).map Prod.fst = members.map Prod.fst := by
  rw [writeMembers_eq, List.map_map]
  rfl

theorem writeChars_int (n : Int) :
    writeChars (.int n) = if n < 0 then '-' :: Decimal.natDigits n.natAbs else Decimal.natDigits n.natAbs := by
  rw [writeChars, Decimal.ofInt, Decimal.ofNat]
  split
  · simp
  · rw [String.toList_ofList]

theorem writeChars_arr (items : List Json) :
    writeChars (.arr items) = '[' :: (joinComma (items.map writeChars) ++ [']']) := by
  rw [writeChars, writeItems_eq]

/-- Ordering the texts of members by their names is ordering the members. -/
theorem writeChars_obj (members : List (Text × Json)) :
    writeChars (.obj members) = '{' :: (joinComma ((sortByName members).map memberText) ++ ['}']) := by
  have sorted : (sortByName members).map (fun m => (m.1, memberText m)) = sortByName (writeMembers members) := by
    rw [writeMembers_eq]
    exact List.map_mergeSort fun _ _ _ _ => rfl
  rw [writeChars, ← sorted, List.map_map]
  rfl

/-- Of lists of one length, where a function has the same value at each place, the values are the same. -/
theorem items_map_eq {α : Type} {f : Json → α} {items items' : List Json} (length : items.length = items'.length)
    (inner : ∀ (i : Nat) v v', items[i]? = some v → items'[i]? = some v' → f v = f v') :
    items.map f = items'.map f := by
  apply List.ext_getElem
  · rw [List.length_map, List.length_map, length]
  · intro i first second
    rw [List.length_map] at first second
    rw [List.getElem_map, List.getElem_map]
    exact inner i _ _ (List.getElem?_eq_getElem first) (List.getElem?_eq_getElem second)

/-- Of objects with the same names, where a function has the same values under each, the members with these values are
the same in some order. -/
theorem members_perm {α : Type} (f : Text → Json → α) (distinct : (members.map Prod.fst).Nodup)
    (distinct' : (members'.map Prod.fst).Nodup)
    (names : ∀ k, (findMember k members).isSome = (findMember k members').isSome)
    (inner : ∀ k v v', findMember k members = some v → findMember k members' = some v' → f k v = f k v') :
    (members.map fun m => (m.1, f m.1 m.2)).Perm (members'.map fun m => (m.1, f m.1 m.2)) := by
  have nodup {ms : List (Text × Json)} (distinct : (ms.map Prod.fst).Nodup) :
      (ms.map fun m => (m.1, f m.1 m.2)).Nodup := by
    refine List.Nodup.of_map Prod.fst ?_
    rw [List.map_map]
    exact distinct
  rw [List.perm_ext_iff_of_nodup (nodup distinct) (nodup distinct')]
  intro written
  rw [List.mem_map, List.mem_map]
  constructor
  · rintro ⟨⟨k, v⟩, mem, rfl⟩
    have found := (findMember_eq_some_iff distinct).2 mem
    obtain ⟨v', found'⟩ := Option.isSome_iff_exists.1 ((names k).symm.trans (congrArg Option.isSome found))
    exact ⟨(k, v'), mem_of_findMember found', congrArg (Prod.mk k) (inner k v v' found found').symm⟩
  · rintro ⟨⟨k, v'⟩, mem, rfl⟩
    have found' := (findMember_eq_some_iff distinct').2 mem
    obtain ⟨v, found⟩ := Option.isSome_iff_exists.1 ((names k).trans (congrArg Option.isSome found'))
    exact ⟨(k, v), mem_of_findMember found, congrArg (Prod.mk k) (inner k v v' found found')⟩

/-- The same documents are written alike. -/
theorem writeChars_eq_of_same {l' : Limits} (document : IsDocument l d) (document' : IsDocument l' d')
    (same : Same d d') : writeChars d = writeChars d' := by
  induction document generalizing l' d' with
  | null => cases same; rfl
  | bool b => cases same; rfl
  | int n _ => cases same; rfl
  | str s => cases same; rfl
  | @arr _ _ items _ _ ih =>
    cases same with
    | @arr _ items' length inner =>
      cases document' with
      | arr _ inner' =>
        have each := items_map_eq (f := writeChars) length fun i v v' found found' =>
          ih v (List.mem_of_getElem? found) (inner' v' (List.mem_of_getElem? found')) (inner i v v' found found')
        rw [writeChars_arr, writeChars_arr, each]
  | @obj _ _ members _ distinct _ _ ih =>
    cases same with
    | @obj _ members' names inner =>
      cases document' with
      | obj _ distinct' _ inner' =>
        have perm : (writeMembers members).Perm (writeMembers members') := by
          rw [writeMembers_eq, writeMembers_eq]
          refine members_perm (fun k v => memberText (k, v)) distinct distinct' names ?_
          intro k v v' found found'
          rw [memberText, memberText, ih (k, v) (mem_of_findMember found) (inner' (k, v') (mem_of_findMember found'))
            (inner k v v' found found')]
        rw [writeChars, writeChars, sortByName_eq_of_perm perm (by rwa [names_writeMembers])]

end Text

section InOrder

variable {l : Limits} {d : Json}

mutual

/-- A document with the members of each of its objects in the order of their names. -/
def inOrder : Json → Json
  | .arr items => .arr (itemsInOrder items)
  | .obj members => .obj (sortByName (membersInOrder members))
  | .null => .null
  | .bool b => .bool b
  | .int n => .int n
  | .real x => .real x
  | .str s => .str s

def itemsInOrder : List Json → List Json
  | [] => []
  | v :: items => inOrder v :: itemsInOrder items

def membersInOrder : List (Text × Json) → List (Text × Json)
  | [] => []
  | (k, v) :: members => (k, inOrder v) :: membersInOrder members

end

theorem itemsInOrder_eq (items : List Json) : itemsInOrder items = items.map inOrder := by
  induction items with
  | nil => rfl
  | cons v items ih => rw [itemsInOrder, ih, List.map_cons]

theorem membersInOrder_eq (members : List (Text × Json)) :
    membersInOrder members = members.map fun m => (m.1, inOrder m.2) := by
  induction members with
  | nil => rfl
  | cons m members ih =>
    obtain ⟨k, v⟩ := m
    rw [membersInOrder, ih, List.map_cons]

/-- It makes no difference whether the members are put in order before or after what stands under them. -/
theorem inOrder_obj (members : List (Text × Json)) :
    inOrder (.obj members) = .obj ((sortByName members).map fun m => (m.1, inOrder m.2)) := by
  have sorted : (sortByName members).map (fun m => (m.1, inOrder m.2)) = sortByName (membersInOrder members) := by
    rw [membersInOrder_eq]
    exact List.map_mergeSort fun _ _ _ _ => rfl
  rw [inOrder, sorted]

theorem sortByName_perm (members : List (Text × Json)) : (sortByName members).Perm members :=
  List.mergeSort_perm members _

theorem nodup_sortByName {members : List (Text × Json)} (distinct : (members.map Prod.fst).Nodup) :
    ((sortByName members).map Prod.fst).Nodup :=
  (((sortByName_perm members).map Prod.fst).nodup_iff).2 distinct

theorem names_inOrder (members : List (Text × Json)) :
    (members.map fun m => (m.1, inOrder m.2)).map Prod.fst = members.map Prod.fst := by
  rw [List.map_map]
  rfl

/-- Putting a document in order leaves a document. -/
theorem IsDocument.inOrder (document : IsDocument l d) : IsDocument l d.inOrder := by
  induction document with
  | null => exact .null
  | bool b => exact .bool b
  | int n short => exact .int n short
  | str s => exact .str s
  | arr room _ ih =>
    rw [Json.inOrder, itemsInOrder_eq]
    exact .arr room (List.forall_mem_map.2 ih)
  | @obj _ _ members room distinct names _ ih =>
    have inside {m : Text × Json} (mem : m ∈ sortByName members) : m ∈ members :=
      (sortByName_perm members).mem_iff.1 mem
    rw [inOrder_obj]
    refine .obj room ?_ (List.forall_mem_map.2 fun m mem => names m (inside mem))
      (List.forall_mem_map.2 fun m mem => ih m (inside mem))
    rw [names_inOrder]
    exact nodup_sortByName distinct

/-- A document put in order is the same document. -/
theorem IsDocument.same_inOrder (document : IsDocument l d) : Same d d.inOrder := by
  induction document with
  | null => exact .null
  | bool b => exact .bool b
  | int n _ => exact .int n
  | str s => exact .str _
  | @arr _ _ items _ _ ih =>
    rw [Json.inOrder, itemsInOrder_eq]
    refine .arr (List.length_map _).symm ?_
    intro i v v' first second
    rw [List.getElem?_map, first] at second
    cases second
    exact ih v (List.mem_of_getElem? first)
  | @obj _ _ members _ distinct _ _ ih =>
    rw [inOrder_obj]
    have ordered : (((sortByName members).map fun m => (m.1, Json.inOrder m.2)).map Prod.fst).Nodup := by
      rw [names_inOrder]
      exact nodup_sortByName distinct
    refine .obj ?_ ?_
    · intro k
      rw [Bool.eq_iff_iff, isSome_findMember, isSome_findMember, names_inOrder]
      exact (((sortByName_perm members).map Prod.fst).mem_iff).symm
    · intro k v v' found found'
      obtain ⟨⟨k', w⟩, mem, same⟩ := List.mem_map.1 (mem_of_findMember found')
      cases same
      rw [(sortByName_perm members).mem_iff, ← findMember_eq_some_iff distinct, found] at mem
      cases mem
      exact ih (k', v) (mem_of_findMember found)

theorem IsDocument.refl (document : IsDocument l d) : Same d d :=
  document.same_inOrder.trans document.same_inOrder.symm

/-- The order in which the members of an object stand makes no difference. -/
theorem IsDocument.same_of_perm {members members' : List (Text × Json)} (document : IsDocument l (.obj members))
    (perm : members.Perm members') : IsDocument l (.obj members') ∧ Same (.obj members) (.obj members') := by
  cases document with
  | obj room distinct names inner =>
    have distinct' := (perm.map Prod.fst).nodup_iff.1 distinct
    have inside {m : Text × Json} (mem : m ∈ members') : m ∈ members := perm.mem_iff.2 mem
    refine ⟨.obj room distinct' (fun m mem => names m (inside mem)) fun m mem => inner m (inside mem), .obj ?_ ?_⟩
    · intro k
      rw [Bool.eq_iff_iff, isSome_findMember, isSome_findMember]
      exact (perm.map Prod.fst).mem_iff
    · intro k v v' found found'
      rw [findMember_eq_some_iff distinct', ← perm.mem_iff, ← findMember_eq_some_iff distinct, found] at found'
      cases found'
      exact (inner (k, v) (mem_of_findMember found)).refl

end InOrder

section Ascii

variable {l : Limits} {d : Json}

theorem isDigit_natDigits {n : Nat} {c : Char} (mem : c ∈ Decimal.natDigits n) : isDigit (point c) = true := by
  have digit : c.isDigit = true := Nat.isDigit_of_mem_toDigits (by decide) (by decide) mem
  rw [Char.isDigit, Bool.and_eq_true, decide_eq_true_eq, decide_eq_true_eq] at digit
  rw [isDigit, Bool.and_eq_true, decide_eq_true_eq, decide_eq_true_eq]
  exact digit

theorem isAscii_natDigits (n : Nat) : IsAscii (Decimal.natDigits n) := by
  intro c mem
  have digit := isDigit_natDigits mem
  rw [isDigit, Bool.and_eq_true, decide_eq_true_eq, decide_eq_true_eq] at digit
  have greatest : c.toNat ≤ 0x39 := digit.2
  omega

theorem isAscii_joinComma {texts : List (List Char)} (each : ∀ text ∈ texts, IsAscii text) :
    IsAscii (joinComma texts) := by
  induction texts with
  | nil => exact isAscii_nil
  | cons text texts ih =>
    rw [List.forall_mem_cons] at each
    cases texts with
    | nil => exact each.1
    | cons next texts =>
      rw [joinComma_cons_cons]
      exact isAscii_append.2 ⟨each.1, isAscii_cons.2 ⟨by decide, isAscii_cons.2 ⟨by decide, ih each.2⟩⟩⟩

/-- The text of a document is of ASCII. -/
theorem IsDocument.isAscii (document : IsDocument l d) : IsAscii (writeChars d) := by
  have bracketed {first last : Char} {texts : List (List Char)} (opening : first.toNat < 128)
      (closing : last.toNat < 128) (each : ∀ text ∈ texts, IsAscii text) :
      IsAscii (first :: (joinComma texts ++ [last])) :=
    isAscii_cons.2 ⟨opening, isAscii_append.2 ⟨isAscii_joinComma each, isAscii_cons.2 ⟨closing, isAscii_nil⟩⟩⟩
  induction document with
  | null =>
    rw [writeChars]
    decide
  | bool b => cases b <;> rw [writeChars] <;> decide
  | int n _ =>
    rw [writeChars_int]
    split
    · exact isAscii_cons.2 ⟨by decide, isAscii_natDigits _⟩
    · exact isAscii_natDigits _
  | str s => exact isAscii_writeText s
  | arr _ _ ih =>
    rw [writeChars_arr]
    exact bracketed (by decide) (by decide) (List.forall_mem_map.2 ih)
  | @obj _ _ members _ _ names _ ih =>
    rw [writeChars_obj]
    refine bracketed (by decide) (by decide) (List.forall_mem_map.2 fun m mem => ?_)
    rw [(sortByName_perm members).mem_iff] at mem
    obtain ⟨name, spelled⟩ := names m mem
    rw [memberText, spelled]
    exact isAscii_append.2 ⟨isAscii_writeText name, isAscii_cons.2 ⟨by decide, isAscii_cons.2 ⟨by decide, ih m mem⟩⟩⟩

end Ascii

section Passages

variable {p : Passage} {levels : Nat} {l : Limits} {d : Json}

/-- A value that can be gone through with so many levels left: every integer in it has a text, and it nests no
deeper. -/
inductive Passable (p : Passage) : Nat → Json → Prop where
  | null {levels : Nat} (room : p.countsAll = true → 0 < levels) : Passable p levels .null
  | bool {levels : Nat} (room : p.countsAll = true → 0 < levels) (b : Bool) : Passable p levels (.bool b)
  | int {levels : Nat} (room : p.countsAll = true → 0 < levels) {n : Int} (short : Decimal.fits n = true) :
      Passable p levels (.int n)
  | real {levels : Nat} (room : p.countsAll = true → 0 < levels) (x : Binary64) : Passable p levels (.real x)
  | str {levels : Nat} (room : p.countsAll = true → 0 < levels) (s : Text) : Passable p levels (.str s)
  | arr {levels : Nat} {items : List Json} (inner : ∀ v ∈ items, Passable p levels v) :
      Passable p (levels + 1) (.arr items)
  | obj {levels : Nat} {members : List (Text × Json)} (inner : ∀ m ∈ members, Passable p levels m.2) :
      Passable p (levels + 1) (.obj members)

theorem Passage.atLeaf_eq_none_iff {n : Option Int} :
    p.atLeaf levels n = none ↔ (p.countsAll = true → 0 < levels) ∧ n.all Decimal.fits = true := by
  rw [atLeaf]
  by_cases full : (p.countsAll && levels == 0) = true
  · rw [if_pos full]
    rw [Bool.and_eq_true, beq_iff_eq] at full
    refine iff_of_false (by simp) fun h => ?_
    have := h.1 full.1
    omega
  · rw [if_neg full]
    rw [Bool.and_eq_true, beq_iff_eq, not_and] at full
    have room : p.countsAll = true → 0 < levels := fun counts => Nat.pos_of_ne_zero (full counts)
    cases n.all Decimal.fits with
    | false => simp
    | true => exact iff_of_true rfl ⟨room, rfl⟩

theorem Passage.inItems_eq (items : List Json) : p.inItems levels items = items.map (p.obstacle? levels) := by
  induction items with
  | nil => rfl
  | cons v items ih => rw [inItems, ih, List.map_cons]

/-- What was found in members, if anything was, with their names. -/
def Passage.found (members : List (Text × Option Obstacle)) : List (Text × Obstacle) :=
  members.filterMap fun m => m.2.map (m.1, ·)

theorem Passage.inMembers_eq (members : List (Text × Json)) :
    p.inMembers levels members = found (members.map fun m => (m.1, p.obstacle? levels m.2)) := by
  induction members with
  | nil => rfl
  | cons m members ih =>
    obtain ⟨k, v⟩ := m
    rw [inMembers, ih, List.map_cons]
    dsimp only
    cases p.obstacle? levels v <;> rfl

theorem Passage.found_eq_nil_iff {members : List (Text × Option Obstacle)} :
    found members = [] ↔ ∀ m ∈ members, m.2 = none := by
  rw [found, List.filterMap_eq_nil_iff]
  exact forall₂_congr fun m _ => Option.map_eq_none_iff

theorem Passage.names_found_sublist (members : List (Text × Option Obstacle)) :
    ((found members).map Prod.fst).Sublist (members.map Prod.fst) := by
  induction members with
  | nil => exact .slnil
  | cons m members ih =>
    obtain ⟨k, o⟩ := m
    cases o with
    | none => exact ih.cons k
    | some o => exact ih.cons_cons k

theorem Passage.arrange_eq_nil_iff {α : Type} {members : List (Text × α)} : p.arrange members = [] ↔ members = [] := by
  rw [arrange]
  split
  · rw [← List.length_eq_zero_iff, sortByName, List.length_mergeSort, List.length_eq_zero_iff]
  · rfl

theorem Passage.obstacle?_arr (items : List Json) :
    p.obstacle? levels (.arr items) = none ↔
      ∃ inner, levels = inner + 1 ∧ ∀ v ∈ items, p.obstacle? inner v = none := by
  rw [obstacle?, inItems_eq]
  cases levels with
  | zero => simp
  | succ inner => simp [List.findSome?_eq_none_iff]

theorem Passage.obstacle?_obj (members : List (Text × Json)) :
    p.obstacle? levels (.obj members) = none ↔
      ∃ inner, levels = inner + 1 ∧ ∀ m ∈ members, p.obstacle? inner m.2 = none := by
  rw [obstacle?, inMembers_eq]
  cases levels with
  | zero => simp
  | succ inner =>
    rw [if_neg (Nat.succ_ne_zero inner), Nat.add_sub_cancel, Option.map_eq_none_iff, List.head?_eq_none_iff,
      arrange_eq_nil_iff, found_eq_nil_iff]
    simp only [List.forall_mem_map, Nat.add_right_cancel_iff, exists_eq_left']

/-- Values in which nothing can be nested. -/
theorem Passage.obstacle?_leaf_iff (list : ∀ items, d ≠ .arr items) (object : ∀ members, d ≠ .obj members) :
    p.obstacle? levels d = none ↔ Passable p levels d := by
  cases d with
  | arr items => exact absurd rfl (list items)
  | obj members => exact absurd rfl (object members)
  | null =>
    rw [obstacle?, atLeaf_eq_none_iff]
    constructor
    · intro free
      exact .null free.1
    · intro passable
      cases passable with
      | null room => exact ⟨room, rfl⟩
  | bool b =>
    rw [obstacle?, atLeaf_eq_none_iff]
    constructor
    · intro free
      exact .bool free.1 b
    · intro passable
      cases passable with
      | bool room => exact ⟨room, rfl⟩
  | int n =>
    rw [obstacle?, atLeaf_eq_none_iff]
    constructor
    · intro free
      exact .int free.1 free.2
    · intro passable
      cases passable with
      | int room short => exact ⟨room, short⟩
  | real x =>
    rw [obstacle?, atLeaf_eq_none_iff]
    constructor
    · intro free
      exact .real free.1 x
    · intro passable
      cases passable with
      | real room => exact ⟨room, rfl⟩
  | str s =>
    rw [obstacle?, atLeaf_eq_none_iff]
    constructor
    · intro free
      exact .str free.1 s
    · intro passable
      cases passable with
      | str room => exact ⟨room, rfl⟩

/-- Nothing stands in the way just of a value that can be gone through. -/
theorem Passage.obstacle?_eq_none_iff : p.obstacle? levels d = none ↔ Passable p levels d := by
  induction levels generalizing d with
  | zero =>
    cases d with
    | arr items =>
      rw [obstacle?_arr]
      exact iff_of_false (fun ⟨_, h, _⟩ => nomatch h) fun h => nomatch h
    | obj members =>
      rw [obstacle?_obj]
      exact iff_of_false (fun ⟨_, h, _⟩ => nomatch h) fun h => nomatch h
    | _ => exact obstacle?_leaf_iff nofun nofun
  | succ levels ih =>
    cases d with
    | arr items =>
      rw [obstacle?_arr]
      constructor
      · rintro ⟨_, h, inner⟩
        obtain rfl := Nat.succ.inj h
        exact .arr fun v mem => ih.1 (inner v mem)
      · rintro (_ | _ | _ | _ | _ | inner)
        exact ⟨levels, rfl, fun v mem => ih.2 (inner v mem)⟩
    | obj members =>
      rw [obstacle?_obj]
      constructor
      · rintro ⟨_, h, inner⟩
        obtain rfl := Nat.succ.inj h
        exact .obj fun m mem => ih.1 (inner m mem)
      · rintro (_ | _ | _ | _ | _ | _ | inner)
        exact ⟨levels, rfl, fun m mem => ih.2 (inner m mem)⟩
    | _ => exact obstacle?_leaf_iff nofun nofun

/-- The levels of a writer, and its limit on digits, as the limits of a reader. -/
def Limits.of (levels : Nat) : Limits := ⟨some Decimal.digitLimit, some levels⟩

theorem Limits.exceeded_of {n : Int} :
    (Limits.of levels).exceeded (Decimal.natDigits n.natAbs).length = false ↔ Decimal.fits n = true := by
  change decide (Decimal.digitLimit < _) = false ↔ _
  rw [decide_eq_false_iff_not, Nat.not_lt, Decimal.fits, decide_eq_true_iff]

/-- What is a document within some limits is a document. -/
theorem IsDocument.none (document : IsDocument l d) : IsDocument .none d := by
  induction document with
  | null => exact .null
  | bool b => exact .bool b
  | int n _ => exact .int n rfl
  | str s => exact .str s
  | arr _ _ ih => exact .arr rfl ih
  | obj _ distinct names _ ih => exact .obj rfl distinct names ih

theorem Passage.room_of_writing (counts : Passage.writing.countsAll = true) : 0 < levels := Bool.noConfusion counts

theorem IsDocument.passable (document : IsDocument (.of levels) d) : Passable .writing levels d := by
  generalize same : Limits.of levels = l at document
  induction document generalizing levels with
  | null => exact .null Passage.room_of_writing
  | bool b => exact .bool Passage.room_of_writing b
  | int n short =>
    subst same
    exact .int Passage.room_of_writing (Limits.exceeded_of.1 short)
  | str s => exact .str Passage.room_of_writing _
  | arr room _ ih =>
    subst same
    cases levels with
    | zero => cases room
    | succ levels => exact .arr fun v mem => ih v mem (Option.some.inj room)
  | obj room _ _ _ ih =>
    subst same
    cases levels with
    | zero => cases room
    | succ levels => exact .obj fun m mem => ih m mem (Option.some.inj room)

theorem IsDocument.of_passable (document : IsDocument .none d) (passable : Passable .writing levels d) :
    IsDocument (.of levels) d := by
  induction passable with
  | null => exact .null
  | bool _ b => exact .bool b
  | int _ short => exact .int _ (Limits.exceeded_of.2 short)
  | real =>
    cases document
  | str =>
    cases document with
    | str s => exact .str s
  | arr _ ih =>
    cases document with
    | arr room inner =>
      obtain rfl := Option.some.inj room
      exact .arr rfl fun v mem => ih v mem (inner v mem)
  | obj _ ih =>
    cases document with
    | obj room distinct names inner =>
      obtain rfl := Option.some.inj room
      exact .obj rfl distinct names fun m mem => ih m mem (inner m mem)

/-- What stands in the way of a writer does not depend on the order of members. -/
theorem IsDocument.obstacle?_eq_of_same {l' : Limits} {d' : Json} (document : IsDocument l d)
    (document' : IsDocument l' d') (same : Same d d') :
    Passage.writing.obstacle? levels d = Passage.writing.obstacle? levels d' := by
  induction document generalizing l' d' levels with
  | null => cases same; rfl
  | bool b => cases same; rfl
  | int n _ => cases same; rfl
  | str s => cases same; rfl
  | @arr _ _ items _ _ ih =>
    cases same with
    | @arr _ items' length inner =>
      cases document' with
      | arr _ inner' =>
        have each := items_map_eq (f := Passage.writing.obstacle? (levels - 1)) length fun i v v' found found' =>
          ih v (List.mem_of_getElem? found) (inner' v' (List.mem_of_getElem? found')) (inner i v v' found found')
        rw [Passage.obstacle?, Passage.obstacle?, Passage.inItems_eq, Passage.inItems_eq, each]
  | @obj _ _ members _ distinct _ _ ih =>
    cases same with
    | @obj _ members' names inner =>
      cases document' with
      | obj _ distinct' _ inner' =>
        have perm := members_perm (fun _ => Passage.writing.obstacle? (levels - 1)) distinct distinct' names
          fun k v v' found found' => ih (k, v) (mem_of_findMember found) (inner' (k, v') (mem_of_findMember found'))
            (inner k v v' found found')
        have names := Passage.names_found_sublist
          (members.map fun m => (m.1, Passage.writing.obstacle? (levels - 1) m.2))
        rw [List.map_map] at names
        have ordered := sortByName_eq_of_perm (perm.filterMap _) (names.nodup distinct)
        rw [Passage.obstacle?, Passage.obstacle?, Passage.inMembers_eq, Passage.inMembers_eq]
        exact congrArg (fun ms => if levels = 0 then _ else (List.head? ms).map Prod.snd) ordered

/-- A writer comes through a document just if it is within its limits. -/
theorem IsDocument.obstacle?_eq_none_iff (document : IsDocument .none d) :
    Passage.writing.obstacle? levels d = .none ↔ IsDocument (.of levels) d :=
  Passage.obstacle?_eq_none_iff.trans ⟨document.of_passable, IsDocument.passable⟩

end Passages

end ProofRelay.Json
