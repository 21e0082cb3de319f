import Mathlib.Algebra.Group.Nat.Defs
import Mathlib.Data.List.Basic

/-! Text printed into a buffer of fixed size, and numbers in decimal. What does not fit is cut off, so that
two texts that differ only at the end may become one. -/

namespace BoundedPrint

/-- What `snprintf` leaves in a buffer of `size` characters, before the terminating null. -/
def snprintf (size : Nat) (text : List Char) : List Char := text.take (size - 1)

/-- `%d` and `%u`, for a number that is not negative. -/
def decimal (n : Nat) : List Char := Nat.toDigits 10 n

variable {size i j k : Nat} {text stem : List Char}

theorem snprintf_eq_self (h : text.length < size) : snprintf size text = text :=
  List.take_of_length_le (by omega)

theorem length_snprintf_le (size : Nat) (text : List Char) : (snprintf size text).length ≤ text.length :=
  List.length_take_le' _ _

theorem decimal_injective : Function.Injective decimal := by
  intro i j h
  have hparsed := congrArg (fun digits => Nat.ofDigitChars 10 digits 0) h
  simpa [decimal] using hparsed

theorem length_decimal_le (hk : 0 < k) (h : i < 10 ^ k) : (decimal i).length ≤ k :=
  (Nat.length_toDigits_le_iff (by decide) hk).mpr h

/-- A number of at most ten digits after a text that leaves room for them. -/
theorem snprintf_append_decimal (hroom : stem.length + 10 < size) (hi : i < 10 ^ 10) :
    snprintf size (stem ++ decimal i) = stem ++ decimal i := by
  have hlen : (decimal i).length ≤ 10 := length_decimal_le (by decide) hi
  apply snprintf_eq_self
  rw [List.length_append]
  omega

/-- With less room the last digit is lost. -/
theorem snprintf_append_cut (hroom : size ≤ stem.length + k + 1) {digits : List Char} (hdigits : digits.length = k)
    (a b : List Char) : snprintf size (stem ++ (digits ++ a)) = snprintf size (stem ++ (digits ++ b)) := by
  have hcut : size - 1 ≤ (stem ++ digits).length := by
    rw [List.length_append]
    omega
  unfold snprintf
  rw [← List.append_assoc, ← List.append_assoc, List.take_append_of_le_length hcut,
    List.take_append_of_le_length hcut]

/-- **Numbered texts in a buffer.** The numbers from 1 to 2^31 - 1 behind a fixed text stay distinguishable if and only
if there is room for ten digits. -/
theorem distinct_numbers_iff (size : Nat) (stem : List Char) :
    (∀ i j, 1 ≤ i → i < 2 ^ 31 → 1 ≤ j → j < 2 ^ 31 → i ≠ j →
        snprintf size (stem ++ decimal i) ≠ snprintf size (stem ++ decimal j)) ↔ stem.length + 10 < size := by
  constructor
  · intro h
    by_contra hroom
    apply h 1000000000 1000000001 (by decide) (by decide) (by decide) (by decide) (by decide)
    have hfirst : decimal 1000000000 = "100000000".toList ++ ['0'] := by decide
    have hsecond : decimal 1000000001 = "100000000".toList ++ ['1'] := by decide
    rw [hfirst, hsecond]
    exact snprintf_append_cut (by omega) (k := 9) (by decide) _ _
  · intro hroom i j _ hi _ hj hne heq
    rw [snprintf_append_decimal hroom (by omega), snprintf_append_decimal hroom (by omega)] at heq
    exact hne (decimal_injective (List.append_cancel_left heq))

end BoundedPrint
