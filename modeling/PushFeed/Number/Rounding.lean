/-!
# Rounding a quotient

Division of natural numbers to the nearest whole number, a half going to the
even neighbour. Binary and decimal numbers are both rounded with it.
-/

namespace PushFeed

/-- The whole number nearest to `num / den`; a half goes to the even one. -/
def divHalfEven (num den : Nat) : Nat :=
  let q := num / den
  let r := num % den
  if den < 2 * r ∨ (2 * r = den ∧ q % 2 = 1) then q + 1 else q

/-- Rounding changes nothing where there is nothing to drop. -/
@[simp] theorem divHalfEven_one (n : Nat) : divHalfEven n 1 = n := by
  simp [divHalfEven, Nat.mod_one]

/-- The rounded quotient is within half a unit of the exact one. -/
theorem divHalfEven_error (num : Nat) {den : Nat} (h : 0 < den) :
    2 * num ≤ 2 * (divHalfEven num den * den) + den ∧
      2 * (divHalfEven num den * den) ≤ 2 * num + den := by
  have hr := Nat.mod_lt num h
  have hd := Nat.div_add_mod num den
  have hc : num / den * den = den * (num / den) := Nat.mul_comm _ _
  unfold divHalfEven; dsimp only
  split
  · rename_i hs
    rw [Nat.add_mul, Nat.one_mul, hc]
    omega
  · rw [hc]; omega

end PushFeed
