import DropRoom.Json.Record

namespace DropRoom

/-!
# Reconnecting

What becomes of a stream whose connection broke: it stays closed, or it is opened
again after waits that double from one attempt to the next up to a bound.

* `Backoff` — the first wait, the longest wait and the number of attempts;
* `Reconnection` — the two policies;
* `Reconnection.wait?` — the wait before an attempt.
-/

/-- How attempts to reconnect are spaced, in milliseconds, and how many there are. -/
structure Backoff where
  initialDelay : UInt64
  maxDelay : UInt64
  maxAttempts : UInt32
  deriving DecidableEq, Repr

/-- What becomes of a stream whose connection broke. -/
inductive Reconnection where
  | never
  | backoff (policy : Backoff)
  deriving DecidableEq, Repr

/-- The largest number of 64 bits. -/
def maxUInt64 : Nat := UInt64.size - 1

/-- What the first wait is multiplied with before an attempt, counted from 1: a power of two
while 64 bits hold it, and the largest number of 64 bits after that. -/
def Backoff.factor (attempt : Nat) : Nat :=
  if attempt - 1 < 64 then Nat.pow 2 (attempt - 1) else maxUInt64

/-- The wait before an attempt, counted from 1, in milliseconds; none once all attempts are used
up. -/
def Backoff.wait? (policy : Backoff) (attempt : UInt32) : Option Nat :=
  if attempt = 0 ∨ policy.maxAttempts < attempt then none
  else
    let delay := min (policy.initialDelay.toNat * factor attempt.toNat) maxUInt64
    some (min delay policy.maxDelay.toNat)

/-- The wait before an attempt, counted from 1, in milliseconds, where there is another
attempt. -/
def Reconnection.wait? : Reconnection → UInt32 → Option Nat
  | .never, _ => none
  | .backoff policy, attempt => policy.wait? attempt

/-! ### Document form -/

/-- A policy as a JSON value. -/
def Reconnection.toJson : Reconnection → Json
  | .never => .object [("mode", .string "never")]
  | .backoff policy => .object [
      ("mode", .string "backoff"),
      ("initial_delay_ms", .nat policy.initialDelay.toNat),
      ("max_delay_ms", .nat policy.maxDelay.toNat),
      ("max_attempts", .nat policy.maxAttempts.toNat)]

/-- The fields of the spacing of attempts. -/
def Backoff.decoder : Json.Decoder Backoff :=
  (Json.Record.start Backoff.mk
    |>.required "initial_delay_ms" .uint64
    |>.required "max_delay_ms" .uint64
    |>.required "max_attempts" .uint32).decoder

/-- The decoder of a policy. -/
def Reconnection.decoder : Json.Decoder Reconnection :=
  Json.tagged "mode" [
    ("never", Json.unitVariant .never),
    ("backoff", .map .backoff Backoff.decoder)]

end DropRoom
