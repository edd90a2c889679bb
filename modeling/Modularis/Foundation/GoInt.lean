import Mathlib.Algebra.Ring.Int.Defs
import Mathlib.Algebra.Ring.Nat

namespace Modularis.Foundation.GoInt

/-- `math.MinInt64`. -/
def minInt64 : Int := -2 ^ 63

/-- `math.MaxInt64`. -/
def maxInt64 : Int := 2 ^ 63 - 1

/-- The representative of `n` modulo `2 ^ 64` between `minInt64` and `maxInt64`. -/
def wrapInt64 (n : Int) : Int := n.bmod (2 ^ 64)

end Modularis.Foundation.GoInt
