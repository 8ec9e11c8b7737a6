/-!
# Powers

The weights of decimal and of binary places.
-/

namespace RecordLogic.Number

/-- Ten to the `k`, the weight of a decimal digit with `k` digits behind it. -/
abbrev tenTo (k : Nat) : Nat := Nat.pow 10 k

/-- Two to the `k`. The naturals that fit in `k` bits are those below it. -/
abbrev twoTo (k : Nat) : Nat := Nat.pow 2 k

end RecordLogic.Number
