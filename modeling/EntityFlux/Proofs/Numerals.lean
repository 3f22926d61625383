import EntityFlux.Text.Numeral
import Mathlib.Algebra.Group.Nat.Defs

/-!
# Reading numerals back

A run of digits is cut off whole where no digit follows it, and a run of known width wherever it
stands. A written number is such a run, and its value is the number.
-/

namespace EntityFlux.Text.Numeral

/-- No digit stands in front. -/
def StartsApart (rest : List Char) : Prop := ∀ c ∈ rest.head?, c.isDigit = false

theorem startsApart_cons {c : Char} (h : c.isDigit = false) (rest : List Char) :
    StartsApart (c :: rest) := by
  intro d hd
  obtain rfl : c = d := by simpa using hd
  exact h

section Runs

variable {digits rest : List Char} (hdigits : ∀ c ∈ digits, c.isDigit)
include hdigits

theorem span_digits (hrest : StartsApart rest) : span (digits ++ rest) = (digits, rest) := by
  have htake : rest.takeWhile Char.isDigit = [] := by
    cases rest with
    | nil => rfl
    | cons c rest => simp [hrest c (by simp)]
  have hdrop : rest.dropWhile Char.isDigit = rest := by
    cases rest with
    | nil => rfl
    | cons c rest => simp [hrest c (by simp)]
  unfold span
  rw [List.takeWhile_append_of_pos hdigits, List.dropWhile_append_of_pos hdigits, htake, hdrop,
    List.append_nil]

theorem spanUpTo_digits (rest : List Char) :
    spanUpTo digits.length (digits ++ rest) = (digits, rest) := by
  induction digits with
  | nil => cases rest <;> rfl
  | cons c digits ih =>
    have hc : c.isDigit := hdigits c (by simp)
    simp only [List.length_cons, List.cons_append, spanUpTo, hc, if_true]
    rw [ih fun d hd => hdigits d (by simp [hd])]

theorem isDigit_front {c : Char} {others : List Char} (hne : digits ≠ [])
    (h : digits ++ rest = c :: others) : c.isDigit := by
  cases digits with
  | nil => exact absurd rfl hne
  | cons d digits =>
    obtain rfl : d = c := by simpa using congrArg List.head? h
    exact hdigits d (by simp)

end Runs

section Written

variable {n width : Nat}

theorem isDigit_of_mem_toDigits {c : Char} (h : c ∈ Nat.toDigits 10 n) : c.isDigit :=
  Nat.isDigit_of_mem_toDigits (by decide) (by decide) h

theorem value_toDigits (n : Nat) : value (Nat.toDigits 10 n) = n := Nat.ofDigitChars_ten_toDigits

/-- Only zero is written with a zero in front. -/
theorem head?_toDigits (h : 0 < n) : (Nat.toDigits 10 n).head? ≠ some '0' := by
  induction n using Nat.strongRecOn with
  | ind n ih =>
    rw [Nat.toDigits_eq_if (by decide)]
    split
    · rename_i hlt
      have hdigit : ∀ m < 10, 0 < m → Nat.digitChar m ≠ '0' := by decide
      simpa using hdigit n hlt h
    · rename_i hge
      have hne := ih (n / 10) (by omega) (by omega)
      rw [List.head?_append]
      cases hhead : (Nat.toDigits 10 (n / 10)).head? with
      | none => simp at hhead
      | some c => simpa [hhead] using hne

theorem toList_ofInt_ofNat (n : Nat) : (ofInt (.ofNat n)).toList = Nat.toDigits 10 n := by
  simp [ofInt, ofNat]

theorem toList_ofInt_negSucc (n : Nat) :
    (ofInt (.negSucc n)).toList = '-' :: Nat.toDigits 10 (n + 1) := by
  simp [ofInt, ofNat]

theorem toList_padded (width n : Nat) :
    (padded width n).toList
      = List.replicate (width - (Nat.toDigits 10 n).length) '0' ++ Nat.toDigits 10 n := by
  simp [padded]

theorem isDigit_of_mem_padded {c : Char} (h : c ∈ (padded width n).toList) : c.isDigit := by
  rw [toList_padded, List.mem_append, List.mem_replicate] at h
  rcases h with ⟨-, rfl⟩ | h
  · rfl
  · exact isDigit_of_mem_toDigits h

theorem padded_ne_nil : (padded width n).toList ≠ [] := by
  simp [toList_padded]

theorem value_padded (width n : Nat) : value (padded width n).toList = n := by
  rw [toList_padded, value, Nat.ofDigitChars_append, Nat.ofDigitChars_replicate_zero, Nat.mul_zero]
  exact value_toDigits n

theorem length_padded (hwidth : 0 < width) (h : n < 10 ^ width) :
    (padded width n).toList.length = width := by
  have hlength := (Nat.length_toDigits_le_iff (b := 10) (by decide) hwidth).2 h
  rw [toList_padded, List.length_append, List.length_replicate]
  omega

end Written

end EntityFlux.Text.Numeral
