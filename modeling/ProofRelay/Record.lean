import ProofRelay.Validation

/-!
Submission records: which transaction wrote a commitment, and at which position it can be queried.
-/

namespace ProofRelay

structure Record where
  commitment : String
  txHash : String
  blockNumber : Int
  nonce : Int
  counterBefore : Int
  counterAfter : Int
  index : Int
deriving DecidableEq, Repr

namespace Record

open Validation in
/-- A record from its fields; the position must not be negative. -/
def ofFields (fields : Json) : Except (List FieldError) Record :=
  let commitment := field fields "commitment" text
  let txHash := field fields "tx_hash" text
  let blockNumber := field fields "block_number" integer
  let nonce := field fields "nonce" integer
  let before := field fields "counter_before" integer
  let after := field fields "counter_after" integer
  let index := field fields "index" natural
  also (also (also (also (also (also (commitment.map Record.mk) txHash) blockNumber) nonce) before) after) index

/-- A record whose position is checked. -/
def checked (r : Record) : Except (List FieldError) Record :=
  if r.index < 0 then .error [{ field := "index", rule := .negative }] else .ok r

end Record

end ProofRelay
