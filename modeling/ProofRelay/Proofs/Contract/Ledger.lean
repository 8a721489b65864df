import ProofRelay.Bytes.Hex

/-!
The contract's ledger: the transactions that asked it to append a commitment, in the order in which they
were mined. Those with status 1 did append, and are its entries. Block numbers never decrease, a
transaction is mined once, and blocks are complete: what is mined later is in later blocks. Then the
number of entries up to a block tells the position of the last entry of that block.
-/

namespace ProofRelay

/-- A mined transaction that asks the contract to append its argument. -/
structure Mined where
  block : Int
  txHash : String
  status : Int
  argument : Bytes

structure Ledger where
  mined : List Mined
  ordered : mined.Pairwise fun t t' => t.block ≤ t'.block
  distinct : (mined.map Mined.txHash).Nodup

namespace Ledger

def entries (l : Ledger) : List Mined := l.mined.filter fun t => t.status == 1

/-- The contract's counter as of a block. -/
def counterAt (l : Ledger) (block : Int) : Nat := l.entries.countP fun t => t.block ≤ block

/-- The contract has an argument at a position. -/
def Holds (l : Ledger) (position : Int) (argument : Bytes) : Prop :=
  ∃ n : Nat, position = n ∧ ∃ t, l.entries[n]? = some t ∧ t.argument = argument

instance (l : Ledger) (position : Int) (argument : Bytes) : Decidable (l.Holds position argument) :=
  decidable_of_iff (0 ≤ position ∧ ∃ t, l.entries[position.toNat]? = some t ∧ t.argument = argument) <| by
    constructor
    · rintro ⟨valid, held⟩
      exact ⟨position.toNat, (Int.toNat_of_nonneg valid).symm, held⟩
    · rintro ⟨n, rfl, held⟩
      exact ⟨Int.natCast_nonneg n, held⟩

/-- A ledger after more blocks. -/
def Extends (l l' : Ledger) : Prop :=
  ∃ new, l'.mined = l.mined ++ new ∧ ∀ t ∈ l.mined, ∀ t' ∈ new, t.block < t'.block

variable {l l' l'' : Ledger}

theorem Extends.refl (l : Ledger) : l.Extends l := ⟨[], (List.append_nil _).symm, nofun⟩

theorem Extends.trans (first : l.Extends l') (second : l'.Extends l'') : l.Extends l'' := by
  obtain ⟨new, hmined, hlater⟩ := first
  obtain ⟨new', hmined', hlater'⟩ := second
  refine ⟨new ++ new', by rw [hmined', hmined, List.append_assoc], ?_⟩
  intro t ht t' ht'
  rcases List.mem_append.1 ht' with ht' | ht'
  · exact hlater t ht t' ht'
  · exact hlater' t (by rw [hmined]; exact List.mem_append_left _ ht) t' ht'

theorem Extends.mem_mined (ext : l.Extends l') {t : Mined} (ht : t ∈ l.mined) : t ∈ l'.mined := by
  obtain ⟨new, hmined, -⟩ := ext
  rw [hmined]
  exact List.mem_append_left _ ht

/-- New entries come after the old ones, in later blocks than all that was mined. -/
theorem Extends.entries_eq (ext : l.Extends l') :
    ∃ new, l'.entries = l.entries ++ new ∧ ∀ t ∈ l.mined, ∀ t' ∈ new, t.block < t'.block := by
  obtain ⟨new, hmined, hlater⟩ := ext
  refine ⟨new.filter fun t => t.status == 1, ?_, ?_⟩
  · rw [entries, hmined, List.filter_append]
    rfl
  · exact fun t ht t' ht' => hlater t ht t' (List.mem_filter.1 ht').1

/-- Entries keep their positions. -/
theorem Extends.getElem?_entries (ext : l.Extends l') {n : Nat} {t : Mined} (h : l.entries[n]? = some t) :
    l'.entries[n]? = some t := by
  obtain ⟨new, hentries, -⟩ := ext.entries_eq
  rw [hentries, List.getElem?_append_left (List.getElem?_eq_some_iff.1 h).1]
  exact h

/-- An entry of a transaction that was not mined before is a new one. -/
theorem Extends.length_le_of_new (ext : l.Extends l') {p : Nat} {t : Mined} (h : l'.entries[p]? = some t)
    (new : ∀ t' ∈ l.mined, t'.txHash ≠ t.txHash) : l.entries.length ≤ p := by
  refine Nat.not_lt.1 fun old => ?_
  have held := List.getElem?_eq_getElem old
  have same := ext.getElem?_entries held
  rw [h, Option.some.injEq] at same
  exact new _ (List.mem_filter.1 (List.mem_of_getElem? held)).1 (congrArg Mined.txHash same.symm)

/-- A block in which something is mined gets no more entries. -/
theorem Extends.counterAt_eq (ext : l.Extends l') {t : Mined} (ht : t ∈ l.mined) :
    l'.counterAt t.block = l.counterAt t.block := by
  obtain ⟨new, hentries, hlater⟩ := ext.entries_eq
  have none : new.countP (fun t' => decide (t'.block ≤ t.block)) = 0 := by
    refine List.countP_eq_zero.2 fun t' ht' => ?_
    have := hlater t ht t' ht'
    simp only [decide_eq_true_eq]
    omega
  rw [counterAt, counterAt, hentries, List.countP_append, none, Nat.add_zero]

/-- What a position holds stays as it is. -/
theorem Extends.holds_iff (ext : l.Extends l') {n : Nat} {t : Mined} (h : l.entries[n]? = some t)
    {argument : Bytes} : l'.Holds n argument ↔ l.Holds n argument := by
  have h' := ext.getElem?_entries h
  constructor
  · rintro ⟨m, hm, t', ht', hargument⟩
    obtain rfl := Int.ofNat_inj.1 hm
    exact ⟨n, rfl, t, h, Option.some.inj (h'.symm.trans ht') ▸ hargument⟩
  · rintro ⟨m, hm, t', ht', hargument⟩
    exact ⟨m, hm, t', ext.getElem?_entries ht', hargument⟩

theorem exists_position {t : Mined} (ht : t ∈ l.mined) (success : t.status = 1) :
    ∃ p : Nat, l.entries[p]? = some t :=
  List.mem_iff_getElem?.1 (List.mem_filter.2 ⟨ht, by simp [success]⟩)

theorem ordered_entries (l : Ledger) : l.entries.Pairwise fun t t' => t.block ≤ t'.block :=
  l.ordered.filter _

/-- An entry is told by its transaction. -/
theorem position_unique {m n : Nat} {t t' : Mined} (hm : l.entries[m]? = some t) (hn : l.entries[n]? = some t')
    (same : t.txHash = t'.txHash) : m = n := by
  have distinct : (l.entries.map Mined.txHash).Nodup :=
    l.distinct.sublist (List.filter_sublist.map _)
  refine (List.getElem?_inj ?_ distinct).1 ?_
  · simpa using (List.getElem?_eq_some_iff.1 hm).1
  · rw [List.getElem?_map, List.getElem?_map, hm, hn, Option.map_some, Option.map_some, same]

end Ledger

/-- A position holds the last entry of a block. -/
def LastOf (ts : List Mined) (block : Int) (n : Nat) : Prop :=
  (∃ t, ts[n]? = some t ∧ t.block = block) ∧ ∀ m t, n < m → ts[m]? = some t → t.block ≠ block

theorem LastOf.unique {ts : List Mined} {block : Int} {m n : Nat} (hm : LastOf ts block m)
    (hn : LastOf ts block n) : m = n := by
  obtain ⟨⟨t, ht, hblock⟩, later⟩ := hm
  obtain ⟨⟨t', ht', hblock'⟩, later'⟩ := hn
  rcases Nat.lt_trichotomy m n with h | h | h
  · exact absurd hblock' (later n t' h ht')
  · exact h
  · exact absurd hblock (later' m t h ht)

/-- In order, the entries up to a block come first, and there are as many as are counted. -/
theorem lt_countP_iff {ts : List Mined} (ordered : ts.Pairwise fun t t' => t.block ≤ t'.block) (block : Int)
    {n : Nat} {t : Mined} (ht : ts[n]? = some t) :
    n < ts.countP (fun t => decide (t.block ≤ block)) ↔ t.block ≤ block := by
  induction ts generalizing n with
  | nil => cases ht
  | cons a ts ih =>
    obtain ⟨first, rest⟩ := List.pairwise_cons.1 ordered
    rw [List.countP_cons]
    by_cases ha : a.block ≤ block
    · cases n with
      | zero =>
        obtain rfl := Option.some.inj ht
        simp [ha]
      | succ n =>
        rw [List.getElem?_cons_succ] at ht
        rw [← ih rest ht]
        simp [ha]
    · -- all that follow are in blocks beyond, too
      have none : ts.countP (fun t => decide (t.block ≤ block)) = 0 := by
        refine List.countP_eq_zero.2 fun t' ht' => ?_
        have := first t' ht'
        simp only [decide_eq_true_eq]
        omega
      have beyond : ¬ t.block ≤ block := by
        rcases List.mem_cons.1 (List.mem_of_getElem? ht) with rfl | ht'
        · exact ha
        · have := first t ht'
          omega
      simp [none, ha, beyond]

/-- The count up to the block of an entry is one past the position of the last entry of that block. -/
theorem lastOf_countP {ts : List Mined} (ordered : ts.Pairwise fun t t' => t.block ≤ t'.block) {p : Nat}
    {t : Mined} (ht : ts[p]? = some t) :
    ∃ n, ts.countP (fun t' => decide (t'.block ≤ t.block)) = n + 1 ∧ p ≤ n ∧ LastOf ts t.block n := by
  have counted := (lt_countP_iff ordered t.block ht).2 (Int.le_refl _)
  obtain ⟨n, hn⟩ := Nat.exists_eq_add_of_lt (Nat.lt_of_le_of_lt (Nat.zero_le p) counted)
  rw [Nat.zero_add] at hn
  have hlt : n < ts.length := by
    have := List.countP_le_length (p := fun t' : Mined => decide (t'.block ≤ t.block)) (l := ts)
    omega
  refine ⟨n, hn, by omega, ⟨ts[n], List.getElem?_eq_getElem hlt, ?_⟩, ?_⟩
  · have upTo := (lt_countP_iff ordered t.block (List.getElem?_eq_getElem hlt)).1 (by omega)
    rcases Nat.lt_or_ge p n with h | h
    · have := List.pairwise_iff_getElem.1 ordered p n (List.getElem?_eq_some_iff.1 ht).1 hlt h
      rw [(List.getElem?_eq_some_iff.1 ht).2] at this
      omega
    · obtain rfl : p = n := by omega
      rw [(List.getElem?_eq_some_iff.1 ht).2]
  · intro m t' hm ht' same
    have := (lt_countP_iff ordered t.block ht').2 (Int.le_of_eq same)
    omega

end ProofRelay
