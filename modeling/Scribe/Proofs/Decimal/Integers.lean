import Scribe.Decimal.Layout
import Scribe.Decimal.Reading

set_option autoImplicit false

/-! # Written integers are read back

A natural number is written with digits only, and reading them gives the number again. So does
reading the text of any integer of 64 bits, the least one included. -/

namespace Scribe.Decimal

theorem isDigit_of_mem_natText {n : Nat} {c : Char} (h : c ∈ natText n) : c.isDigit = true :=
  Nat.isDigit_of_mem_toDigits (by decide) (by decide) h

theorem natText_ne_nil (n : Nat) : natText n ≠ [] := Nat.toDigits_ne_nil

theorem digits?_natText (n : Nat) : digits? (natText n) = some n := by
  have hdigits : (natText n).all Char.isDigit = true :=
    List.all_eq_true.2 fun _ => isDigit_of_mem_natText
  have hne : (natText n).isEmpty = false := List.isEmpty_eq_false_iff.2 (natText_ne_nil n)
  have hvalue : digitsValue (natText n) = n := Nat.ofDigitChars_ten_toDigits
  rw [digits?, hdigits, hne, hvalue]
  rfl

/-- A natural number starts with a digit. -/
theorem exists_natText_eq (n : Nat) : ∃ c u, natText n = c :: u ∧ c.isDigit = true := by
  obtain ⟨c, u, h⟩ := List.exists_cons_of_ne_nil (natText_ne_nil n)
  exact ⟨c, u, h, isDigit_of_mem_natText (h ▸ List.mem_cons_self)⟩

/-- An integer starts with a digit or a sign. -/
theorem exists_intText_eq (n : Int) :
    ∃ c u, intText n = c :: u ∧ (c = '-' ∨ c.isDigit = true) := by
  cases n with
  | ofNat k =>
    obtain ⟨c, u, h, hc⟩ := exists_natText_eq k
    exact ⟨c, u, h, Or.inr hc⟩
  | negSucc k => exact ⟨'-', _, rfl, Or.inl rfl⟩

theorem natText_append_ne_minus (n : Nat) (s r : Text) : natText n ++ s ≠ '-' :: r := by
  obtain ⟨c, u, h, hc⟩ := exists_natText_eq n
  rw [h, List.cons_append]
  intro heq
  rw [(List.cons.inj heq).1] at hc
  exact absurd hc (by decide)

theorem int64?_natText (n : Nat) :
    int64? (natText n) = ((some (n : Int)).filter fun n =>
      Int64.minValue.toInt ≤ n ∧ n ≤ Int64.maxValue.toInt).map Int64.ofInt := by
  unfold int64?
  split
  · next r h => exact absurd (h ▸ List.append_nil _) (natText_append_ne_minus n [] r)
  · rw [digits?_natText]
    rfl

/-- The text of an integer is read back as the integer of 64 bits that it is. -/
theorem int64?_intText (n : Int64) : int64? (intText n.toInt) = some n := by
  have hrange : Int64.minValue.toInt ≤ n.toInt ∧ n.toInt ≤ Int64.maxValue.toInt :=
    ⟨n.minValue_le_toInt, n.toInt_le⟩
  have hread : int64? (intText n.toInt) = ((some n.toInt).filter fun n =>
      Int64.minValue.toInt ≤ n ∧ n ≤ Int64.maxValue.toInt).map Int64.ofInt := by
    cases n.toInt with
    | ofNat k => exact int64?_natText k
    | negSucc k =>
      rw [intText, int64?, digits?_natText]
      rfl
  rw [hread, Option.filter_some, if_pos (decide_eq_true hrange), Option.map_some, n.ofInt_toInt]

end Scribe.Decimal
