import Mathlib.Tactic.IntervalCases
/-!
# Decimal numbers

What the digits of a number look like: nothing but digits, with no zero in front, and a sign before
them if the number is negative.
-/

namespace CodeChallenges.Text

theorem isDigit_of_mem_toDigits {n : Nat} {c : Char} (h : c ∈ Nat.toDigits 10 n) :
    c.isDigit = true :=
  Nat.isDigit_of_mem_toDigits (by decide) (by decide) h

/-- The digits of a number begin with zero only if it is zero. -/
theorem head?_toDigits_ne {n : Nat} (h : 0 < n) : (Nat.toDigits 10 n).head? ≠ some '0' := by
  induction n using Nat.strongRecOn with
  | ind n ih =>
      by_cases hlt : n < 10
      · rw [Nat.toDigits_of_lt_base hlt]
        interval_cases n <;> decide
      · have hge : 10 ≤ n := Nat.le_of_not_lt hlt
        have hless := ih (n / 10) (by omega) (by omega)
        obtain ⟨c, cs, hcons⟩ := List.exists_cons_of_ne_nil (@Nat.toDigits_ne_nil (n / 10) 10)
        rw [hcons] at hless
        rw [Nat.toDigits_of_base_le (by decide) hge, hcons]
        exact hless

/-- The characters of a negative number. -/
theorem toList_repr_negSucc (n : Nat) :
    (Int.negSucc n).repr.toList = '-' :: Nat.toDigits 10 (n + 1) := by
  have hsign : ("-" : String).toList = ['-'] := by decide
  show ("-" ++ Nat.repr (n + 1)).toList = _
  rw [String.toList_append, Nat.toList_repr, hsign, List.singleton_append]

/-- The characters of a number that is not negative. -/
theorem toList_repr_ofNat (n : Nat) : (Int.ofNat n).repr.toList = Nat.toDigits 10 n :=
  Nat.toList_repr

/-- A number is written with digits and at most a sign. -/
theorem mem_repr {n : Int} {c : Char} (h : c ∈ n.repr.toList) : c = '-' ∨ c.isDigit = true := by
  cases n with
  | ofNat n =>
      rw [toList_repr_ofNat] at h
      exact .inr (isDigit_of_mem_toDigits h)
  | negSucc n =>
      rw [toList_repr_negSucc] at h
      exact (List.mem_cons.mp h).imp_right isDigit_of_mem_toDigits

end CodeChallenges.Text
