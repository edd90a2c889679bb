import Modularis.Foundation.GoInt

namespace Modularis.Shared.Durations

open Modularis.Foundation.GoInt

/-- The value of `multiplier` after `i` rounds of the loop. -/
def multiplier (backoff : Int) : Nat → Int
  | 0 => 1
  | i + 1 => wrapInt64 (multiplier backoff i * backoff)

/-- The delay before an attempt, in nanoseconds; the power and the product wrap as `int64`
does. -/
def backoffDelay (attempt base backoff : Int) : Int :=
  if attempt ≤ 1 ∨ backoff ≤ 1 then base
  else wrapInt64 (multiplier backoff (attempt - 1).toNat * base)

/-- The least duration is its own negative. -/
def absDuration (value : Int) : Int :=
  if value < 0 then wrapInt64 (-value) else value

end Modularis.Shared.Durations
