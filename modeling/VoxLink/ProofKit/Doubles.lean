import Mathlib.Data.Nat.Log
import Mathlib.Tactic

/-! Integers as JavaScript reads them from a text: as the nearest double. A double below `2 ^ 1024`
has a significand of 53 bits. -/

namespace ProofKit

/-- The natural number with 53 significant bits that is nearest to `n`; between two the one with the
even significand. -/
def roundSignificand (n : Nat) : Nat :=
  let ulp := 2 ^ (n.log2 - 52)
  let below := n / ulp
  let rest := n % ulp
  if 2 * rest < ulp ∨ 2 * rest = ulp ∧ below % 2 = 0 then below * ulp else (below + 1) * ulp

/-- The double nearest to an integer. -/
def nearestDouble (m : Int) : Int := m.sign * roundSignificand m.natAbs

theorem roundSignificand_of_le {n : Nat} (h : n ≤ 2 ^ 53) : roundSignificand n = n := by
  rcases Nat.lt_or_eq_of_le h with hlt | rfl
  · have hlog : n.log2 - 52 = 0 := by
      by_cases hn : n = 0
      · simp [hn]
      · have := (Nat.log2_lt hn).mpr hlt
        omega
    simp [roundSignificand, hlog, Nat.mod_one]
  · decide +kernel

/-- An integer of up to 53 bits is a double. -/
theorem nearestDouble_of_le {m : Int} (h : m.natAbs ≤ 2 ^ 53) : nearestDouble m = m := by
  rw [nearestDouble, roundSignificand_of_le h]
  exact Int.sign_mul_natAbs m

end ProofKit
