import ProofRelay.Proofs.Activity.Play
import ProofRelay.Proofs.Client.Calls

/-!
What gets past the guards of the operations that only read and price. A call is encoded first, and that may be
refused with a fault of the contract's, of a type, or of a round trip to the node. A read guards all of these.
A build guards the first two and malformed values only, so the other faults of a round trip escape from it, and
so do a gas limit that is too large, a transaction that the node built without its data, and a price, an estimate or a
limit that has no text. Nothing else escapes from either, and neither sends anything.
-/

namespace ProofRelay

/-- The kinds of fault with which a call may be refused before anything is asked of the node. -/
def Fault.Kind.isRefusal (k : Fault.Kind) : Bool := k == .member || k == .type || k.isNode

/-- The kinds of fault that a build guards against when its call is encoded. -/
def Fault.Kind.isEncoding (k : Fault.Kind) : Bool := k == .member || k == .type || k.isValue

/-- With one list of replies an activity comes to one end. -/
theorem Activity.Path.unique {D : Dialogue} {α : Type} {a : Activity D α} {es es' fs fs' : List (Exchange D)} {x y : α}
    (path : Path a es (.done x)) (path' : Path a es' (.done y)) (same : es ++ fs = es' ++ fs') : es = es' ∧ x = y := by
  induction a generalizing es es' with
  | done z =>
    obtain ⟨rfl, h⟩ := path_done_iff.1 path
    obtain ⟨rfl, h'⟩ := path_done_iff.1 path'
    exact ⟨rfl, Activity.done.inj (h.trans h'.symm)⟩
  | ask q k ih =>
    obtain ⟨r, gs, rfl, rest⟩ := path_ask_done_iff.1 path
    obtain ⟨r', gs', rfl, rest'⟩ := path_ask_done_iff.1 path'
    obtain ⟨first, tails⟩ := List.cons.inj same
    cases first
    obtain ⟨rfl, h⟩ := ih r rest rest' tails
    exact ⟨rfl, h⟩

namespace Client

open Attempt (Yields)

/-- A reply of the node: something good, or one of the node's faults. -/
def Sound {α : Type} (good : α → Prop) : Except Fault α → Prop
  | .ok x => good x
  | .error f => f.kind.isNode = true

/-- A value that stands for an integer. -/
def Converts (v : Json) : Prop := ∃ n, v.toInt = .ok n

/-- Replies of a node that fails only with its own faults, and whose numbers are numbers. -/
def Usual : Exchange dialogue → Prop
  | ⟨.chainId, r⟩ | ⟨.gasPrice, r⟩ | ⟨.estimate _ _, r⟩ => Sound Converts r
  | ⟨.build _ _, r⟩ => Sound (fun b => Converts (b.field "value" (.int 0))) r
  | ⟨.call _ _, r⟩ => Sound (fun _ => True) r
  | _ => True

/-- What the encoding of a call came to in the first of some exchanges. -/
def Prepares (h : Handle) (c : Call) (es : List (Exchange dialogue)) (p : Except Fault Unit) : Prop :=
  ∃ fs gs, es = fs ++ gs ∧ Yields (prepare h c) fs (.ok p)

/-- What gets past the guards of a build, with the fault that escapes. -/
inductive Slips (cfg : Config) (h : Handle) (c : Call) (sender : String) (es : List (Exchange dialogue)) :
    Fault → Prop where
  /-- The call is refused with a fault of a round trip that is no malformed value. -/
  | refused {f : Fault} (prepares : Prepares h c es (.error f)) (unguarded : f.kind.isEncoding = false) :
      Slips cfg h c sender es f
  /-- Price, estimate and chain id are there, and the gas limit is too large. -/
  | unlimited {price amount : Json} {n : Int} {f : Fault} (priced : ⟨.gasPrice, .ok price⟩ ∈ es)
      (estimated : ⟨.estimate c sender, .ok amount⟩ ∈ es) (number : amount.toInt = .ok n)
      (known : ∀ g, ⟨.chainId, .error g⟩ ∉ es) (limit : cfg.gasFactor.limit n = .error f)
      (uncaught : f.kind.isNode = false) : Slips cfg h c sender es f
  /-- The node built something without data. -/
  | dataless {terms : Terms} {made : Built} {f : Fault} (built : ⟨.build c terms, .ok made⟩ ∈ es)
      (missing : made.data = .error f) : Slips cfg h c sender es f
  /-- The node built something with its data, and the estimate, the limit or the price has no text. -/
  | untold {amount d : Json} {n k : Int} {terms : Terms} {made : Built}
      (estimated : ⟨.estimate c sender, .ok amount⟩ ∈ es) (number : amount.toInt = .ok n)
      (built : ⟨.build c terms, .ok made⟩ ∈ es) (data : made.data = .ok d)
      (told : k ∈ [n, terms.gas, terms.gasPrice]) (long : Decimal.fits k = false) :
      Slips cfg h c sender es Decimal.unwritable

section Prepare

variable {h : Handle} {c : Call} {es fs : List (Exchange dialogue)} {p p' : Except Fault Unit}

theorem Prepares.unique (prepares : Prepares h c es p) (prepares' : Prepares h c es p') : p = p' := by
  obtain ⟨fs, gs, rfl, yields⟩ := prepares
  obtain ⟨fs', gs', same, yields'⟩ := prepares'
  have ends := (Activity.Path.unique yields yields' same).2
  exact Except.ok.inj ends

/-- Encoding a call is refused by the handle, or it is one question. -/
theorem yields_prepare_cases {r : Except Trouble (Except Fault Unit)} (yields : Yields (prepare h c) es r) :
    ∃ p, r = .ok p ∧ ((es = [] ∧ ∃ f, p = .error f) ∨ es = [⟨.prepare c, p⟩]) := by
  rw [prepare] at yields
  cases has : h.checkMethod c.method with
  | error f =>
    rw [has] at yields
    obtain ⟨rfl, rfl⟩ := Attempt.yields_pure_iff.1 yields
    exact ⟨.error f, rfl, .inl ⟨rfl, f, rfl⟩⟩
  | ok _ =>
    rw [has] at yields
    obtain ⟨p, rfl, rfl⟩ := Attempt.yields_query_iff.1 yields
    exact ⟨p, rfl, .inr rfl⟩

/-- One of the node's faults is one that a read guards against. -/
theorem callTrouble_sound (method : String) {f : Fault} (node : f.kind.isNode = true) :
    ∃ g, callTrouble method f = .failure g := by
  rw [callTrouble, if_pos node]
  split <;> exact ⟨_, rfl⟩

/-- A fault that a call may be refused with is one that a read guards against. -/
theorem callTrouble_of_isRefusal {method : String} {f : Fault} (refusal : f.kind.isRefusal = true) :
    ∃ g, callTrouble method f = .failure g := by
  rw [callTrouble]
  split
  · exact ⟨_, rfl⟩
  · rename_i other
    have node : f.kind.isNode = true := by
      simpa [Fault.Kind.isRefusal, other] using refusal
    rw [if_pos node]
    exact ⟨_, rfl⟩

end Prepare

section Price

variable {α β : Type} {cfg : Config} {h : Handle} {c : Call} {sender : String} {es : List (Exchange dialogue)}

theorem yields_ask_bind_iff {q : Ask} {f : Reply q → Attempt dialogue β} {r : Except Trouble β} :
    Yields (ask q >>= f) es r ↔ ∃ x fs, es = ⟨q, x⟩ :: fs ∧ Yields (f x) fs r :=
  Activity.path_ask_done_iff

theorem yields_demand_bind_iff {x : Except Fault α} {f : α → Attempt dialogue β} {r : Except Trouble β} :
    Yields (demand x >>= f) es r ↔
      (∃ g, x = .error g ∧ es = [] ∧ r = .error (.fault g)) ∨ ∃ a, x = .ok a ∧ Yields (f a) es r := by
  cases x with
  | error g =>
    have ended : Yields (demand (.error g) >>= f) es r ↔ es = [] ∧ r = .error (.fault g) :=
      Attempt.yields_ofExcept_iff (x := .error (.fault g))
    simp [ended]
  | ok a =>
    have goes : Yields (demand (.ok a) >>= f) es r ↔ Yields (f a) es r := Iff.rfl
    simp [goes]

/-- The chain id is remembered, or it is asked for and may be got or not. -/
theorem yields_chainId_cases {r : Except Trouble Int} (yields : Yields chainId es r) :
    (∃ n, es = [⟨.knownChainId, some n⟩] ∧ r = .ok n) ∨
      (∃ x f, es = [⟨.knownChainId, none⟩, ⟨.chainId, x⟩] ∧ x.bind Json.toInt = .error f ∧ r = .error (.fault f)) ∨
      ∃ v n, es = [⟨.knownChainId, none⟩, ⟨.chainId, .ok v⟩, ⟨.rememberChainId n, ()⟩] ∧ r = .ok n := by
  obtain ⟨known, fs, rfl, rest₁⟩ := yields_ask_bind_iff.1 yields
  cases known with
  | some n =>
    obtain ⟨rfl, rfl⟩ := Attempt.yields_pure_iff.1 rest₁
    exact .inl ⟨n, rfl, rfl⟩
  | none =>
    obtain ⟨x, fs, rfl, rest₂⟩ := yields_ask_bind_iff.1 rest₁
    rcases yields_demand_bind_iff.1 rest₂ with ⟨f, failed, rfl, rfl⟩ | ⟨n, number, rest₃⟩
    · exact .inr (.inl ⟨x, f, rfl, failed, rfl⟩)
    · obtain ⟨_, fs, rfl, rest₄⟩ := yields_ask_bind_iff.1 rest₃
      obtain ⟨rfl, rfl⟩ := Attempt.yields_pure_iff.1 rest₄
      cases x with
      | error f => cases number
      | ok v => exact .inr (.inr ⟨v, n, rfl, rfl⟩)

/-- How pricing a call goes, with the exchanges on the way. -/
inductive Pricing (cfg : Config) (c : Call) (sender : String) :
    List (Exchange dialogue) → Except Trouble Priced → Prop where
  | unpriced {price amount : Except Fault Json} {f : Fault} (failed : price.bind Json.toInt = .error f) :
      Pricing cfg c sender [⟨.gasPrice, price⟩, ⟨.estimate c sender, amount⟩] (.error (.fault f))
  | unestimated {price amount : Except Fault Json} {f : Fault} (failed : amount.bind Json.toInt = .error f) :
      Pricing cfg c sender [⟨.gasPrice, price⟩, ⟨.estimate c sender, amount⟩] (.error (.fault f))
  | unchained {price amount x : Except Fault Json} {f : Fault} (failed : x.bind Json.toInt = .error f) :
      Pricing cfg c sender [⟨.gasPrice, price⟩, ⟨.estimate c sender, amount⟩, ⟨.knownChainId, none⟩, ⟨.chainId, x⟩]
        (.error (.fault f))
  | unlimited {price amount : Json} {n chain : Int} {ids : List (Exchange dialogue)} {f : Fault}
      (number : amount.toInt = .ok n) (known : Yields chainId ids (.ok chain))
      (limit : cfg.gasFactor.limit n = .error f) :
      Pricing cfg c sender (⟨.gasPrice, .ok price⟩ :: ⟨.estimate c sender, .ok amount⟩ :: ids) (.error (.fault f))
  | built {price amount : Json} {n gas chain : Int} {terms : Terms} {ids : List (Exchange dialogue)}
      {made : Except Fault Built} (number : amount.toInt = .ok n) (known : Yields chainId ids (.ok chain))
      (limit : cfg.gasFactor.limit n = .ok gas) :
      Pricing cfg c sender
        (⟨.gasPrice, .ok price⟩ :: ⟨.estimate c sender, .ok amount⟩ :: (ids ++ [⟨.build c terms, made⟩]))
        ((made.mapError Trouble.fault).map (⟨n, terms, ·⟩))

theorem yields_price_cases {r : Except Trouble Priced} (yields : Yields (price cfg c sender) es r) :
    Pricing cfg c sender es r := by
  obtain ⟨price, fs, rfl, rest₁⟩ := yields_ask_bind_iff.1 yields
  obtain ⟨amount, fs, rfl, rest₂⟩ := yields_ask_bind_iff.1 rest₁
  rcases yields_demand_bind_iff.1 rest₂ with ⟨f, failed, rfl, rfl⟩ | ⟨p, priced, rest₃⟩
  · exact .unpriced failed
  rcases yields_demand_bind_iff.1 rest₃ with ⟨f, failed, rfl, rfl⟩ | ⟨n, number, rest₄⟩
  · exact .unestimated failed
  rcases price with f | price
  · cases priced
  rcases amount with f | amount
  · cases number
  rcases Attempt.yields_bind_iff.1 rest₄ with ⟨t, unknown, rfl⟩ | ⟨chain, ids, fs, rfl, known, rest₅⟩
  · rcases yields_chainId_cases unknown with ⟨n, -, h⟩ | ⟨x, f, rfl, failed, h⟩ | ⟨v, n, -, h⟩
    · cases h
    · cases h
      exact .unchained failed
    · cases h
  rcases yields_demand_bind_iff.1 rest₅ with ⟨f, limit, rfl, rfl⟩ | ⟨gas, limit, rest₆⟩
  · rw [List.append_nil]
    exact .unlimited number known limit
  obtain ⟨made, fs, rfl, rest₇⟩ := yields_ask_bind_iff.1 rest₆
  rcases yields_demand_bind_iff.1 rest₇ with ⟨f, rfl, rfl, rfl⟩ | ⟨b, rfl, rest₈⟩
  · exact .built number known limit
  · obtain ⟨rfl, rfl⟩ := Attempt.yields_pure_iff.1 rest₈
    exact .built number known limit

/-- The questions with which a call of a sender is priced and built. -/
def Ask.Prices (c : Call) (sender : String) : Ask → Prop
  | .gasPrice | .knownChainId | .chainId | .rememberChainId _ => True
  | .estimate c' sender' => c' = c ∧ sender' = sender
  | .build c' _ => c' = c
  | _ => False

theorem Pricing.asks {x : Except Trouble Priced} (priced : Pricing cfg c sender es x) :
    ∀ e ∈ es, e.ask.Prices c sender := by
  have ids {n : Int} {ids : List (Exchange dialogue)} (known : Yields chainId ids (.ok n)) :
      ∀ e ∈ ids, e.ask.Prices c sender := by
    rcases yields_chainId_ok known with rfl | ⟨id, rfl⟩ <;> simp [Ask.Prices]
  cases priced with
  | unpriced | unestimated | unchained => simp [Ask.Prices]
  | unlimited _ known => simpa [Ask.Prices] using ids known
  | built _ known =>
    refine List.forall_mem_cons.2 ⟨trivial, List.forall_mem_cons.2 ⟨⟨rfl, rfl⟩, ?_⟩⟩
    exact List.forall_mem_append.2 ⟨ids known, List.forall_mem_singleton.2 rfl⟩

/-- A number that a usual node does not give is a fault of its own. -/
theorem Sound.of_bind_error {x : Except Fault Json} {f : Fault} (sound : Sound Converts x)
    (failed : x.bind Json.toInt = .error f) : x = .error f ∧ f.kind.isNode = true := by
  cases x with
  | error g =>
    cases failed
    exact ⟨rfl, sound⟩
  | ok v =>
    obtain ⟨n, number⟩ : Converts v := sound
    cases failed.symm.trans number

/-- Getting the chain id is no pricing, and it is got without a fault. -/
theorem not_mem_of_chainId (c : Call) (sender : String) {n : Int} (known : Yields chainId es (.ok n)) :
    (∀ terms made, ⟨.build c terms, made⟩ ∉ es) ∧ (∀ amount, ⟨.estimate c sender, amount⟩ ∉ es) ∧
      ∀ f, ⟨.chainId, .error f⟩ ∉ es := by
  rcases yields_chainId_ok known with rfl | ⟨id, rfl⟩ <;> simp

/-- The fault with which no transaction is made of a priced call, if its value is a number. -/
inductive Priced.Lacks (p : Priced) : Fault → Prop where
  | data {f : Fault} (missing : p.built.data = .error f) : p.Lacks f
  | text {d : Json} {k : Int} (data : p.built.data = .ok d) (told : k ∈ [p.estimate, p.terms.gas, p.terms.gasPrice])
      (long : Decimal.fits k = false) : p.Lacks Decimal.unwritable

theorem Priced.Lacks.unique {p : Priced} {f g : Fault} (lacks : p.Lacks f) (lacks' : p.Lacks g) : f = g := by
  cases lacks with
  | data missing =>
    cases lacks' with
    | data missing' => exact Except.error.inj (missing.symm.trans missing')
    | text data => cases missing.symm.trans data
  | text data =>
    cases lacks' with
    | data missing' => cases missing'.symm.trans data
    | text => rfl

/-- The fault that escapes from a build, by what its pricing comes to. -/
def Escaping (x : Except Trouble Priced) (g : Fault) : Prop :=
  (x = .error (.fault g) ∧ g.kind.isNode = false) ∨ ∃ p, x = .ok p ∧ p.Lacks g

theorem not_escaping {f g : Fault} (node : f.kind.isNode = true) : ¬ Escaping (.error (.fault f)) g := by
  rintro (⟨same, uncaught⟩ | ⟨_, h, _⟩)
  · cases same
    cases node.symm.trans uncaught
  · cases h

section Encoded

variable {fs : List (Exchange dialogue)} {g : Fault} (prepares : Prepares h c (⟨.prepare c, .ok ()⟩ :: fs) (.ok ()))

include prepares

/-- Nothing slips past a build that is not priced because of the node. -/
theorem not_slips (unbuilt : ∀ terms made, ⟨.build c terms, made⟩ ∉ fs)
    (unpriced : (∀ v, ⟨.gasPrice, .ok v⟩ ∉ fs) ∨ (∀ v, ⟨.estimate c sender, .ok v⟩ ∉ fs) ∨
      ∃ f, ⟨.chainId, .error f⟩ ∈ fs) :
    ¬ Slips cfg h c sender (⟨.prepare c, .ok ()⟩ :: fs) g := by
  rintro (⟨refused, -⟩ | ⟨priced, estimated, -, known, -⟩ | ⟨built, -⟩ | ⟨-, -, built, -⟩)
  · cases prepares.unique refused
  · rcases unpriced with none | none | ⟨f, failed⟩
    · exact none _ (by simpa using priced)
    · exact none _ (by simpa using estimated)
    · exact known f (List.mem_cons_of_mem _ failed)
  · exact unbuilt _ _ (by simpa using built)
  · exact unbuilt _ _ (by simpa using built)

variable {price amount : Json} {n chain : Int} {ids : List (Exchange dialogue)}

/-- Past a build without a gas limit slips the fault of that, unless it is one of the node's. -/
theorem slips_iff_of_unlimited {f : Fault} (number : amount.toInt = .ok n) (known : Yields chainId ids (.ok chain))
    (limit : cfg.gasFactor.limit n = .error f)
    (shape : fs = ⟨.gasPrice, .ok price⟩ :: ⟨.estimate c sender, .ok amount⟩ :: ids) :
    Slips cfg h c sender (⟨.prepare c, .ok ()⟩ :: fs) g ↔ g = f ∧ f.kind.isNode = false := by
  obtain ⟨unbuilt, unestimated, unfailed⟩ := not_mem_of_chainId c sender known
  constructor
  · rintro (⟨refused, -⟩ | ⟨-, estimated, number', -, limit', uncaught⟩ | ⟨built, -⟩ | ⟨-, -, built, -⟩)
    · cases prepares.unique refused
    · obtain rfl : _ = amount := by simpa [shape, unestimated] using estimated
      cases number.symm.trans number'
      cases limit.symm.trans limit'
      exact ⟨rfl, uncaught⟩
    · simp [shape, unbuilt] at built
    · simp [shape, unbuilt] at built
  · rintro ⟨rfl, uncaught⟩
    have priced : ⟨.gasPrice, .ok price⟩ ∈ (⟨.prepare c, .ok ()⟩ :: fs : List (Exchange dialogue)) := by simp [shape]
    exact .unlimited priced (by simp [shape]) number (by simp [shape, unfailed]) limit uncaught

/-- Past a build for which the node built something slips what that lacks. -/
theorem slips_iff_of_built {gas : Int} {terms : Terms} {made : Except Fault Built} (number : amount.toInt = .ok n)
    (known : Yields chainId ids (.ok chain)) (limit : cfg.gasFactor.limit n = .ok gas)
    (shape : fs = ⟨.gasPrice, .ok price⟩ :: ⟨.estimate c sender, .ok amount⟩ :: (ids ++ [⟨.build c terms, made⟩])) :
    Slips cfg h c sender (⟨.prepare c, .ok ()⟩ :: fs) g ↔
      ∃ b, made = .ok b ∧ Priced.Lacks ⟨n, terms, b⟩ g := by
  obtain ⟨unbuilt, unestimated, -⟩ := not_mem_of_chainId c sender known
  have one {terms' : Terms} {b : Built}
      (built : ⟨.build c terms', .ok b⟩ ∈ (⟨.prepare c, .ok ()⟩ :: fs : List (Exchange dialogue))) :
      terms' = terms ∧ made = .ok b := by
    obtain ⟨rfl, rfl⟩ : _ = terms ∧ _ = made := by simpa [shape, unbuilt] using built
    exact ⟨rfl, rfl⟩
  have estimate {v : Json}
      (estimated : ⟨.estimate c sender, .ok v⟩ ∈ (⟨.prepare c, .ok ()⟩ :: fs : List (Exchange dialogue))) :
      v = amount := by
    simpa [shape, unestimated] using estimated
  constructor
  · rintro (⟨refused, -⟩ | ⟨-, estimated, number', -, limit', -⟩ | ⟨built, missing⟩ |
      ⟨estimated, number', built, data, told, long⟩)
    · cases prepares.unique refused
    · obtain rfl := estimate estimated
      cases number.symm.trans number'
      cases limit.symm.trans limit'
    · obtain ⟨rfl, same⟩ := one built
      exact ⟨_, same, .data missing⟩
    · obtain rfl := estimate estimated
      obtain rfl := Except.ok.inj (number.symm.trans number')
      obtain ⟨rfl, same⟩ := one built
      exact ⟨_, same, .text data told long⟩
  · rintro ⟨b, rfl, lacks⟩
    have built : ⟨.build c terms, .ok b⟩ ∈ (⟨.prepare c, .ok ()⟩ :: fs : List (Exchange dialogue)) := by simp [shape]
    have estimated : ⟨.estimate c sender, .ok amount⟩ ∈ (⟨.prepare c, .ok ()⟩ :: fs : List (Exchange dialogue)) := by
      simp [shape]
    cases lacks with
    | data missing => exact .dataless built missing
    | text data told long => exact .untold estimated number built data told long

end Encoded

/-- What slips past a build whose call is encoded is decided by what its pricing comes to. -/
theorem Pricing.slips_iff {fs : List (Exchange dialogue)} {x : Except Trouble Priced}
    (priced : Pricing cfg c sender fs x) (prepares : Prepares h c (⟨.prepare c, .ok ()⟩ :: fs) (.ok ()))
    (usual : ∀ e ∈ fs, Usual e) (g : Fault) :
    Slips cfg h c sender (⟨.prepare c, .ok ()⟩ :: fs) g ↔ Escaping x g := by
  cases priced with
  | @unpriced price amount f failed =>
    have sound : Sound Converts price := usual ⟨.gasPrice, price⟩ (by simp)
    obtain ⟨rfl, node⟩ := sound.of_bind_error failed
    exact iff_of_false (not_slips prepares (by simp) (.inl (by simp))) (not_escaping node)
  | @unestimated price amount f failed =>
    have sound : Sound Converts amount := usual ⟨.estimate c sender, amount⟩ (by simp)
    obtain ⟨rfl, node⟩ := sound.of_bind_error failed
    exact iff_of_false (not_slips prepares (by simp) (.inr (.inl (by simp)))) (not_escaping node)
  | @unchained price amount y f failed =>
    have sound : Sound Converts y := usual ⟨.chainId, y⟩ (by simp)
    obtain ⟨rfl, node⟩ := sound.of_bind_error failed
    exact iff_of_false (not_slips prepares (by simp) (.inr (.inr ⟨f, by simp⟩))) (not_escaping node)
  | unlimited number known limit =>
    rw [slips_iff_of_unlimited prepares number known limit rfl]
    constructor
    · rintro ⟨rfl, uncaught⟩
      exact .inl ⟨rfl, uncaught⟩
    · rintro (⟨same, uncaught⟩ | ⟨_, h, _⟩)
      · cases same
        exact ⟨rfl, uncaught⟩
      · cases h
  | @built price amount n gas chain terms ids made number known limit =>
    rw [slips_iff_of_built prepares number known limit rfl]
    have sound : Sound (fun b => Converts (b.field "value" (.int 0))) made := usual ⟨.build c terms, made⟩ (by simp)
    cases made with
    | error f =>
      refine iff_of_false ?_ (not_escaping sound)
      rintro ⟨b, h, -⟩
      cases h
    | ok b =>
      constructor
      · rintro ⟨_, same, lacks⟩
        cases same
        exact .inr ⟨_, rfl, lacks⟩
      · rintro (⟨h, -⟩ | ⟨_, same, lacks⟩)
        · cases h
        · cases same
          exact ⟨b, rfl, lacks⟩

/-- What a build makes of what its pricing comes to. -/
inductive Concludes : Except Trouble Priced → Except Trouble Transaction → Prop where
  | caught {f : Fault} {g : Failure} (node : f.kind.isNode = true) : Concludes (.error (.fault f)) (.error (.failure g))
  | uncaught {f : Fault} (uncaught : f.kind.isNode = false) : Concludes (.error (.fault f)) (.error (.fault f))
  | lacking {p : Priced} {f : Fault} (lacks : p.Lacks f) : Concludes (.ok p) (.error (.fault f))
  | valueless {p : Priced} {f : Fault} (value : (p.built.field "value" (.int 0)).toInt = .error f) :
      Concludes (.ok p) (.error (.fault f))
  | built {p : Priced} {tx : Transaction} (whole : ∀ f, ¬ p.Lacks f) : Concludes (.ok p) (.ok tx)

/-- Making a transaction of a priced call asks nothing. -/
theorem yields_transaction_cases {p : Priced} {r : Except Trouble Transaction}
    (yields : Yields (p.transaction h sender) es r) : es = [] ∧ Concludes (.ok p) r := by
  rcases yields_demand_bind_iff.1 yields with ⟨f, missing, rfl, rfl⟩ | ⟨d, data, rest₁⟩
  · exact ⟨rfl, .lacking (.data missing)⟩
  rcases Decimal.showAll_cases [p.estimate, p.terms.gas, p.terms.gasPrice] with ⟨short, -⟩ | ⟨⟨k, told, long⟩, -⟩
  · rw [Attempt.log_bind_of_fits short] at rest₁
    rcases yields_demand_bind_iff.1 rest₁ with ⟨f, value, rfl, rfl⟩ | ⟨v, -, rest₂⟩
    · exact ⟨rfl, .valueless value⟩
    obtain ⟨rfl, rfl⟩ := Attempt.yields_pure_iff.1 rest₂
    refine ⟨rfl, .built ?_⟩
    rintro f (missing | ⟨-, told, long⟩)
    · cases data.symm.trans missing
    · cases (short _ told).symm.trans long
  · rw [Attempt.log_bind_of_not_fits told long] at rest₁
    obtain ⟨rfl, rfl⟩ := Attempt.yields_ofExcept_iff.1 rest₁
    exact ⟨rfl, .lacking (.text data told long)⟩

theorem Pricing.error {x : Trouble} (priced : Pricing cfg c sender es (.error x)) : ∃ f, x = .fault f := by
  generalize same : Except.error x = y at priced
  cases priced with
  | unpriced | unestimated | unchained | unlimited =>
    cases same
    exact ⟨_, rfl⟩
  | @built _ _ _ _ _ _ _ made =>
    cases made with
    | error f =>
      cases same
      exact ⟨f, rfl⟩
    | ok b => cases same

/-- A build ends with the encoding of its call, or it goes on to price it. -/
theorem yields_buildTransaction_cases {r : Except Trouble Transaction}
    (yields : Yields (buildTransaction cfg h c sender) es r) :
    (∃ f, Yields (prepare h c) es (.ok (.error f)) ∧ r = .error (encodeTrouble c.method f)) ∨
      ∃ fs x, es = ⟨.prepare c, .ok ()⟩ :: fs ∧ Prepares h c es (.ok ()) ∧ Pricing cfg c sender fs x ∧
        Concludes x r := by
  rcases Attempt.yields_bind_iff.1 yields with ⟨t, prepared, rfl⟩ | ⟨p, fs, gs, rfl, prepared, rest₁⟩
  · obtain ⟨p, h, -⟩ := yields_prepare_cases prepared
    cases h
  rcases p with f | _
  · obtain ⟨rfl, rfl⟩ := Attempt.yields_ofExcept_iff.1 rest₁
    rw [List.append_nil]
    exact .inl ⟨f, prepared, rfl⟩
  obtain rfl := yields_prepare_ok prepared
  have prepares : Prepares h c ([⟨.prepare c, .ok ()⟩] ++ gs) (.ok ()) := ⟨_, gs, rfl, prepared⟩
  right
  rcases Attempt.yields_bind_iff.1 rest₁ with ⟨t, guarded, rfl⟩ | ⟨p, gs, last, rfl, guarded, rest₂⟩
  · obtain ⟨x, fs, gs, rfl, priced, raised⟩ := Attempt.yields_outcome_bind_iff.1 guarded
    have priced := yields_price_cases priced
    cases x with
    | ok y => cases (Attempt.yields_ofExcept_iff.1 raised).2
    | error t' =>
      obtain ⟨f, rfl⟩ := priced.error
      obtain ⟨rfl, same⟩ := Attempt.yields_ofExcept_iff.1 raised
      rw [List.append_nil] at prepares ⊢
      refine ⟨fs, _, rfl, prepares, priced, ?_⟩
      cases node : f.kind.isNode with
      | true =>
        rw [if_pos node] at same
        cases same
        exact .caught node
      | false =>
        rw [if_neg (by simp [node])] at same
        cases same
        exact .uncaught node
  · have priced := yields_price_cases (yields_onNode_ok guarded)
    obtain ⟨rfl, concludes⟩ := yields_transaction_cases rest₂
    rw [List.append_nil] at prepares ⊢
    exact ⟨gs, _, rfl, prepares, priced, concludes⟩

/-- A build asks for the encoding of its call, and for its price. -/
theorem asks_buildTransaction {r : Except Trouble Transaction}
    (yields : Yields (buildTransaction cfg h c sender) es r) :
    ∀ e ∈ es, e.ask = .prepare c ∨ e.ask.Prices c sender := by
  rcases yields_buildTransaction_cases yields with ⟨f, prepared, -⟩ | ⟨fs, x, rfl, -, priced, -⟩
  · obtain ⟨p, -, ⟨rfl, -⟩ | rfl⟩ := yields_prepare_cases prepared
    · exact List.forall_mem_nil _
    · exact List.forall_mem_singleton.2 (.inl rfl)
  · exact List.forall_mem_cons.2 ⟨.inl rfl, fun e mem => .inr (priced.asks e mem)⟩

/-- With a usual node the fault that escapes from a build whose call is encoded is what decides its slips. -/
theorem Concludes.fault_iff {x : Except Trouble Priced} {r : Except Trouble Transaction} (concludes : Concludes x r)
    (converts : ∀ p, x = .ok p → Converts (p.built.field "value" (.int 0))) (g : Fault) :
    r = .error (.fault g) ↔ Escaping x g := by
  cases concludes with
  | caught node => exact iff_of_false (fun h => by cases h) (not_escaping node)
  | uncaught uncaught =>
    constructor
    · intro same
      cases same
      exact .inl ⟨rfl, uncaught⟩
    · rintro (⟨same, -⟩ | ⟨_, h, -⟩)
      · cases same
        rfl
      · cases h
  | lacking lacks =>
    constructor
    · intro same
      cases same
      exact .inr ⟨_, rfl, lacks⟩
    · rintro (⟨h, -⟩ | ⟨_, same, lacks'⟩)
      · cases h
      · cases same
        rw [lacks.unique lacks']
  | valueless value =>
    obtain ⟨n, number⟩ := converts _ rfl
    cases value.symm.trans number
  | built whole =>
    refine iff_of_false (fun h => by cases h) ?_
    rintro (⟨h, -⟩ | ⟨_, same, lacks⟩)
    · cases h
    · cases same
      exact whole g lacks

theorem Pricing.converts {x : Except Trouble Priced} (priced : Pricing cfg c sender es x) (usual : ∀ e ∈ es, Usual e)
    {p : Priced} (h : x = .ok p) : Converts (p.built.field "value" (.int 0)) := by
  cases priced with
  | unpriced | unestimated | unchained | unlimited => cases h
  | @built _ _ _ _ _ terms _ b =>
    have sound : Sound (fun b => Converts (b.field "value" (.int 0))) b := usual ⟨.build c terms, b⟩ (by simp)
    cases b with
    | error f => cases h
    | ok b =>
      cases h
      exact sound

end Price

section Guards

variable {α : Type} {cfg : Config} {h : Handle} {c : Call} {sender : String} {es : List (Exchange dialogue)}

theorem encodeTrouble_of_isEncoding (method : String) {f : Fault} (guarded : f.kind.isEncoding = true) :
    ∃ g, encodeTrouble method f = .failure g := ⟨_, if_pos guarded⟩

theorem encodeTrouble_of_not_isEncoding {method : String} {f : Fault} (unguarded : f.kind.isEncoding = false) :
    encodeTrouble method f = .fault f := by
  refine if_neg ?_
  rw [← Fault.Kind.isEncoding, unguarded]
  exact Bool.false_ne_true

/-- Of a build that ends with the encoding of its call, what slips past is the fault of that. -/
theorem slips_iff_of_refused {f g : Fault} (prepared : Yields (prepare h c) es (.ok (.error f))) :
    Slips cfg h c sender es g ↔ g = f ∧ f.kind.isEncoding = false := by
  have refused : Prepares h c es (.error f) := ⟨es, [], (List.append_nil es).symm, prepared⟩
  obtain ⟨p, -, shape⟩ := yields_prepare_cases prepared
  constructor
  · rintro (⟨refused', unguarded⟩ | ⟨priced, -⟩ | ⟨built, -⟩ | ⟨-, -, built, -⟩)
    · cases refused.unique refused'
      exact ⟨rfl, unguarded⟩
    · rcases shape with ⟨rfl, -⟩ | rfl <;> simp at priced
    · rcases shape with ⟨rfl, -⟩ | rfl <;> simp at built
    · rcases shape with ⟨rfl, -⟩ | rfl <;> simp at built
  · rintro ⟨rfl, unguarded⟩
    exact .refused refused unguarded

/-- Exactly what slips past the guards of a build escapes from it. -/
theorem buildTransaction_escapes_iff {r : Except Trouble Transaction}
    (yields : Yields (buildTransaction cfg h c sender) es r) (usual : ∀ e ∈ es, Usual e) (g : Fault) :
    r = .error (.fault g) ↔ Slips cfg h c sender es g := by
  rcases yields_buildTransaction_cases yields with ⟨f, prepared, rfl⟩ | ⟨fs, x, rfl, prepares, priced, concludes⟩
  · rw [slips_iff_of_refused prepared]
    cases guarded : f.kind.isEncoding with
    | true =>
      obtain ⟨_, failed⟩ := encodeTrouble_of_isEncoding c.method guarded
      simp [failed]
    | false =>
      rw [encodeTrouble_of_not_isEncoding guarded]
      simp [eq_comm]
  · have usual : ∀ e ∈ fs, Usual e := fun e he => usual e (List.mem_cons_of_mem _ he)
    rw [concludes.fault_iff (fun _ => priced.converts usual), priced.slips_iff prepares usual]

theorem buildTransaction_error {t : Trouble} (yields : Yields (buildTransaction cfg h c sender) es (.error t)) :
    (∃ f, t = .fault f) ∨ ∃ f, t = .failure f := by
  rcases yields_buildTransaction_cases yields with ⟨f, -, same⟩ | ⟨_, _, -, -, -, concludes⟩
  · cases same
    rw [encodeTrouble]
    split
    · exact .inr ⟨_, rfl⟩
    · exact .inl ⟨f, rfl⟩
  · cases concludes with
    | caught => exact .inr ⟨_, rfl⟩
    | uncaught | lacking | valueless => exact .inl ⟨_, rfl⟩

/-- A read ends with the encoding of its call, or with what the node replies. -/
theorem yields_call_reply {block : Json} {r : Except Trouble Json} (yields : Yields (call h c block) es r) :
    (∃ f, Yields (prepare h c) es (.ok (.error f)) ∧ r = .error (callTrouble c.method f)) ∨
      ∃ x, es = [⟨.prepare c, .ok ()⟩, ⟨.call c block, x⟩] ∧ Prepares h c es (.ok ()) ∧
        r = x.mapError (callTrouble c.method) := by
  rcases Attempt.yields_bind_iff.1 yields with ⟨t, prepared, rfl⟩ | ⟨p, fs, gs, rfl, prepared, rest₁⟩
  · obtain ⟨p, h, -⟩ := yields_prepare_cases prepared
    cases h
  rcases p with f | _
  · obtain ⟨rfl, rfl⟩ := Attempt.yields_ofExcept_iff.1 rest₁
    rw [List.append_nil]
    exact .inl ⟨f, prepared, rfl⟩
  obtain rfl := yields_prepare_ok prepared
  obtain ⟨x, gs, rfl, rest₂⟩ := yields_ask_bind_iff.1 rest₁
  have prepares : Prepares h c ([⟨.prepare c, .ok ()⟩] ++ ⟨.call c block, x⟩ :: gs) (.ok ()) := ⟨_, _, rfl, prepared⟩
  right
  cases x with
  | error f =>
    obtain ⟨rfl, rfl⟩ := Attempt.yields_ofExcept_iff.1 rest₂
    exact ⟨.error f, rfl, prepares, rfl⟩
  | ok v =>
    obtain ⟨rfl, rfl⟩ := Attempt.yields_pure_iff.1 rest₂
    exact ⟨.ok v, rfl, prepares, rfl⟩

/-- Nothing escapes from a read. -/
theorem call_error {block : Json} {t : Trouble} (yields : Yields (call h c block) es (.error t))
    (refusals : ∀ f, Prepares h c es (.error f) → f.kind.isRefusal = true) (usual : ∀ e ∈ es, Usual e) :
    ∃ f, t = .failure f := by
  rcases yields_call_reply yields with ⟨f, prepared, same⟩ | ⟨x, rfl, -, same⟩
  · cases same
    exact callTrouble_of_isRefusal (refusals f ⟨es, [], (List.append_nil es).symm, prepared⟩)
  · have sound : Sound (fun _ => True) x := usual ⟨.call c block, x⟩ (by simp)
    cases x with
    | error f =>
      cases same
      exact callTrouble_sound _ sound
    | ok v => cases same

/-- The encoding of the call is refused, and the operation fails without asking for anything else. -/
def Refused (h : Handle) (c : Call) (es : List (Exchange dialogue)) (result : Except Trouble α) : Prop :=
  ∃ f t, Yields (prepare h c) es (.ok (.error f)) ∧ result = .error t

/-- How an operation ends that has one kind of failure of its own, when some faults get past its guards and
its call is encoded with some result. -/
structure Contained (h : Handle) (c : Call) (kind : Failure.Kind) (slips : Fault → Prop) (encoded : Except Fault Unit)
    (es : List (Exchange dialogue)) (result : Except Trouble α) : Prop where
  declared_iff : (∀ t, result = .error t → ∃ f, t = .failure f ∧ f.kind = kind) ↔ ∀ f, ¬ slips f
  escapes_iff : ∀ f, result = .error (.fault f) ↔ slips f
  refused_iff : Refused h c es result ↔ ∃ f, encoded = .error f
  silent : ∀ e ∈ es, e.ask.isSend = false

theorem Contained.of_escapes {kind : Failure.Kind} {slips : Fault → Prop} {encoded : Except Fault Unit}
    {result : Except Trouble α} (prepares : Prepares h c es encoded)
    (errors : ∀ t, result = .error t → (∃ f, t = .fault f) ∨ ∃ f, t = .failure f ∧ f.kind = kind)
    (escapes : ∀ f, result = .error (.fault f) ↔ slips f)
    (refused : (∃ f t, Yields (prepare h c) es (.ok (.error f)) ∧ result = .error t) ∨ Prepares h c es (.ok ()))
    (silent : ∀ e ∈ es, e.ask.isSend = false) : Contained h c kind slips encoded es result := by
  refine ⟨⟨?_, ?_⟩, escapes, ⟨?_, ?_⟩, silent⟩
  · intro declared f slipped
    obtain ⟨g, h, -⟩ := declared _ ((escapes f).2 slipped)
    cases h
  · intro never t failed
    rcases errors t failed with ⟨f, rfl⟩ | declared
    · exact (never f ((escapes f).1 failed)).elim
    · exact declared
  · rintro ⟨f, t, prepared, -⟩
    exact ⟨f, prepares.unique ⟨es, [], (List.append_nil es).symm, prepared⟩⟩
  · rintro ⟨f, rfl⟩
    rcases refused with refused | encoded
    · exact refused
    · cases prepares.unique encoded

/-- With computed replies, an operation that encodes its call first has the result of that among its own. -/
theorem prepares_trace {β σ : Type} (reply : (q : Ask) → σ → Reply q × σ) (s : σ)
    (f : Except Fault Unit → Attempt dialogue β)
    {p : Except Fault Unit} (encoded : ((prepare h c).run.runWith reply s).1 = .ok p) :
    Prepares h c ((prepare h c >>= f).run.trace reply s) p := by
  have preparing : Yields (prepare h c) _ _ := Activity.path_trace reply _ s
  rw [encoded] at preparing
  rw [Attempt.run_bind]
  exact ⟨_, _, Activity.trace_bind reply (prepare h c).run _ s, preparing⟩

/-- Encoding a call has a result, however the replies are computed. -/
theorem exists_encoded {σ : Type} (h : Handle) (c : Call) (reply : (q : Ask) → σ → Reply q × σ) (s : σ) :
    ∃ p, ((prepare h c).run.runWith reply s).1 = .ok p := by
  have preparing : Yields (prepare h c) _ _ := Activity.path_trace reply _ s
  obtain ⟨p, encoded, -⟩ := yields_prepare_cases preparing
  exact ⟨p, encoded⟩

end Guards

/-- For every handle, call, sender, block and usual node: a build ends with a transaction or an estimation failure
unless something slips past its guards, and then that escapes; a read ends with what the node replied or a
call failure; both are stopped alike by a call that is not encoded, and neither sends anything. -/
theorem build_call_contained {σ : Type} (cfg : Config) (h : Handle) (c : Call) (sender : String) (block : Json)
    (reply : (q : Ask) → σ → Reply q × σ) (s : σ)
    (refusals : ∀ f, ((prepare h c).run.runWith reply s).1 = .ok (.error f) → f.kind.isRefusal = true)
    (usualBuild : ∀ e ∈ (buildTransaction cfg h c sender).run.trace reply s, Usual e)
    (usualCall : ∀ e ∈ (call h c block).run.trace reply s, Usual e) :
    ∃ encoded, ((prepare h c).run.runWith reply s).1 = .ok encoded ∧
      Contained h c .estimation (Slips cfg h c sender ((buildTransaction cfg h c sender).run.trace reply s)) encoded
        ((buildTransaction cfg h c sender).run.trace reply s)
          ((buildTransaction cfg h c sender).run.runWith reply s).1 ∧
      Contained h c .call (fun _ => False) encoded
        ((call h c block).run.trace reply s) ((call h c block).run.runWith reply s).1 ∧
      ∀ v, ((call h c block).run.runWith reply s).1 = .ok v →
        ⟨.call c block, .ok v⟩ ∈ (call h c block).run.trace reply s := by
  obtain ⟨encoded, hencoded⟩ := exists_encoded h c reply s
  have building : Yields (buildTransaction cfg h c sender) _ _ := Activity.path_trace reply _ s
  have calling : Yields (call h c block) _ _ := Activity.path_trace reply _ s
  have preparesBuild : Prepares h c ((buildTransaction cfg h c sender).run.trace reply s) encoded :=
    prepares_trace reply s _ hencoded
  have preparesCall : Prepares h c ((call h c block).run.trace reply s) encoded :=
    prepares_trace reply s _ hencoded
  generalize (buildTransaction cfg h c sender).run.trace reply s = es at *
  generalize (call h c block).run.trace reply s = fs at *
  generalize ((buildTransaction cfg h c sender).run.runWith reply s).1 = built at *
  generalize ((call h c block).run.runWith reply s).1 = called at *
  refine ⟨encoded, hencoded, ?_, ?_, ?_⟩
  · refine .of_escapes preparesBuild ?_ (buildTransaction_escapes_iff building usualBuild) ?_
      (Activity.AtMost.eq_false building (never_buildTransaction _ _ _ _))
    · rintro t rfl
      rcases buildTransaction_error building with fault | ⟨f, rfl⟩
      · exact .inl fault
      · exact .inr ⟨f, rfl, (fails_buildTransaction cfg h c sender _ f building).1⟩
    · rcases yields_buildTransaction_cases building with ⟨f, prepared, rfl⟩ | ⟨_, _, -, encodes, -⟩
      · exact .inl ⟨f, _, prepared, rfl⟩
      · exact .inr encodes
  · have guarded : ∀ f, Prepares h c fs (.error f) → f.kind.isRefusal = true := by
      intro f refused
      cases preparesCall.unique refused
      exact refusals f hencoded
    refine .of_escapes preparesCall ?_ ?_ ?_ (Activity.AtMost.eq_false calling (never_call _ _ _))
    · rintro t rfl
      obtain ⟨f, rfl⟩ := call_error calling guarded usualCall
      exact .inr ⟨f, rfl, (fails_call h c block _ f calling).1⟩
    · intro f
      refine iff_of_false ?_ id
      rintro rfl
      obtain ⟨_, h⟩ := call_error calling guarded usualCall
      cases h
    · rcases yields_call_reply calling with ⟨f, prepared, rfl⟩ | ⟨_, -, encodes, -⟩
      · exact .inl ⟨f, _, prepared, rfl⟩
      · exact .inr encodes
  · rintro v rfl
    rw [yields_call_ok calling]
    simp

/-- A node that encodes calls with some result and refuses to estimate them. -/
def reluctantNode (encoded : Except Fault Unit) (q : Ask) (n : Unit) : Reply q × Unit :=
  match q with
  | .prepare _ => (encoded, n)
  | .estimate _ _ => (.error ⟨.contractLogic, "execution reverted"⟩, n)
  | .isConnected | .chainId | .gasPrice | .pendingCount _ | .awaitReceipt _ | .call _ _ => (.ok (.int 1), n)
  | .build _ _ => (.ok (.fields []), n)
  | .send _ => (.ok (.bytes []), n)
  | .knownChainId | .lastNonce _ => (none, n)
  | .rememberChainId _ | .lock _ | .unlock _ | .rememberNonce _ _ | .forgetNonce _ => ((), n)

theorem usual_reluctantNode (encoded : Except Fault Unit) (q : Ask) : Usual ⟨q, (reluctantNode encoded q ()).1⟩ := by
  cases q with
  | chainId | gasPrice => exact ⟨1, rfl⟩
  | estimate => rfl
  | build => exact ⟨0, rfl⟩
  | _ => trivial

theorem usual_of_mem_reluctant {α : Type} {encoded : Except Fault Unit} {a : Activity dialogue α}
    {e : Exchange dialogue} (he : e ∈ a.trace (reluctantNode encoded) ()) : Usual e := by
  obtain ⟨_, same⟩ := Activity.mem_trace he
  obtain ⟨q, r⟩ := e
  have same : r = (reluctantNode encoded q ()).1 := same
  rw [same]
  exact usual_reluctantNode encoded q

/-- A handle of the registry. -/
def registryHandle : Handle := ⟨"0x00000000000000000000000000000000000000aa", Handle.registry⟩

/-- A call without the argument that it needs. -/
def bareCall : Call := ⟨"create_proof", []⟩

/-- Of a node that only refuses to estimate, a build fails as it says, and a read has its result. -/
theorem build_call_contained_reluctant :
    (∀ f, ((prepare registryHandle bareCall).run.runWith (reluctantNode (.ok ())) ()).1 = .ok (.error f) →
      f.kind.isRefusal = true) ∧
    (∀ f, ¬ Slips {} registryHandle bareCall "A"
      ((buildTransaction {} registryHandle bareCall "A").run.trace (reluctantNode (.ok ())) ()) f) ∧
    (∃ f, ((buildTransaction {} registryHandle bareCall "A").run.runWith (reluctantNode (.ok ())) ()).1 =
      .error (.failure f) ∧ f.kind = .estimation) ∧
    ⟨.call bareCall latest, .ok (.int 1)⟩ ∈
      (call registryHandle bareCall latest).run.trace (reluctantNode (.ok ())) () := by
  have refusals : ∀ f, ((prepare registryHandle bareCall).run.runWith (reluctantNode (.ok ())) ()).1 = .ok (.error f) →
      f.kind.isRefusal = true := by
    intro f h
    cases h
  obtain ⟨encoded, -, build, -, answered⟩ := build_call_contained {} registryHandle bareCall "A" latest
    (reluctantNode (.ok ())) () refusals (fun _ => usual_of_mem_reluctant) fun _ => usual_of_mem_reluctant
  have failed : ∃ f, ((buildTransaction {} registryHandle bareCall "A").run.runWith (reluctantNode (.ok ())) ()).1 =
      .error (.failure f) ∧ f.kind = .estimation := ⟨_, rfl, rfl⟩
  refine ⟨refusals, fun f slips => ?_, failed, answered _ rfl⟩
  cases (build.escapes_iff f).2 slips

/-- The fault of arguments that do not match escapes from a build, and a read fails with it. -/
theorem build_unguarded :
    (∀ f, ((prepare registryHandle bareCall).run.runWith
      (reluctantNode (.error ⟨.nodeClient, "argument mismatch"⟩)) ()).1 = .ok (.error f) → f.kind.isRefusal = true) ∧
    (∀ e ∈ (buildTransaction {} registryHandle bareCall "A").run.trace
      (reluctantNode (.error ⟨.nodeClient, "argument mismatch"⟩)) (), Usual e) ∧
    ((buildTransaction {} registryHandle bareCall "A").run.runWith
      (reluctantNode (.error ⟨.nodeClient, "argument mismatch"⟩)) ()).1 =
        .error (.fault ⟨.nodeClient, "argument mismatch"⟩) ∧
    ∃ f, ((call registryHandle bareCall latest).run.runWith
      (reluctantNode (.error ⟨.nodeClient, "argument mismatch"⟩)) ()).1 = .error (.failure f) ∧ f.kind = .call := by
  refine ⟨?_, fun _ => usual_of_mem_reluctant, rfl, _, rfl, rfl⟩
  intro f h
  cases h
  rfl

end Client

end ProofRelay
