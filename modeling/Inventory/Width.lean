/-
# Integers of limited width

| width | integers |
| --- | --- |
| `bits` without sign | from 0 up to and without `limit bits` |
| `bits` with sign | from `-limit (bits - 1)` up to and without `limit (bits - 1)` |
-/

namespace Inventory
namespace Width

/-- The number of values that so many bits can tell apart. -/
def limit (bits : Nat) : Nat := 1 <<< bits

/-- Whether an integer fits so many bits. -/
def holdsUnsigned (bits : Nat) (n : Int) : Bool := decide (0 ≤ n ∧ n < limit bits)

/-- Whether an integer fits so many bits, one of which is its sign. -/
def holdsSigned (bits : Nat) (n : Int) : Bool :=
  decide (-(limit (bits - 1) : Int) ≤ n ∧ n < limit (bits - 1))

/-- With sign, half of the numbers are negative. -/
theorem holdsSigned_iff {bits : Nat} {n : Int} :
    holdsSigned bits n = true ↔ -(limit (bits - 1) : Int) ≤ n ∧ n < limit (bits - 1) := by
  simp only [holdsSigned, decide_eq_true_eq]

/-- Whether an integer fits so many bits in one of the two ways. -/
def holds (bits : Nat) (n : Int) : Bool := holdsUnsigned bits n || holdsSigned bits n

end Width
end Inventory
