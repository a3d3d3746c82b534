import Mathlib.Data.Int.CardIntervalMod

/-!
# Taking turns

Counting up modulo `n`, from wherever the count starts, visits every residue equally often, give or
take one visit.
-/

namespace IotdbClient.Library

end IotdbClient.Library
