import Mathlib.Algebra.Group.Nat.Defs
import StyleShield.Text.Blank
import StyleShield.Text.DecimalDigit

/-! Decimal digits and blanks are different characters, and a number written in decimal
is read back. -/
namespace StyleShield.Text

/-- Every script's digits lie between two stretches of blanks. -/
theorem digitZeros_apart : ∀ z ∈ digitZeros, (0x20 < z ∧ z + 9 < 0x85) ∨ (0xA0 < z ∧ z + 9 < 0x1680) ∨
    (0x1680 < z ∧ z + 9 < 0x2000) ∨ 0x3000 < z := by decide

theorem isBlank_of_isDecimalDigit {c : Char} (h : isDecimalDigit c = true) : isBlank c = false := by
  obtain ⟨d, hd⟩ := Option.isSome_iff_exists.1 h
  obtain ⟨z, hz, -⟩ := Option.map_eq_some_iff.1 hd
  have hr := List.find?_some hz
  have ha := digitZeros_apart z (List.mem_of_find?_eq_some hz)
  simp only [Bool.and_eq_true, decide_eq_true_eq] at hr
  simp only [isBlank, Bool.or_eq_false_iff, Bool.and_eq_false_iff, decide_eq_false_iff_not,
    beq_eq_false_iff_ne]
  omega

theorem digitValue?_digitChar : ∀ d < 10, digitValue? (Nat.digitChar d) = some d := by decide

theorem isDecimalDigit_of_mem_ofNat {n : Nat} {c : Char} (h : c ∈ ofNat n) :
    isDecimalDigit c = true := by
  induction n using Nat.strongRecOn with
  | _ n ih =>
    rw [ofNat, Nat.toDigits_eq_if (by decide)] at h
    have hl : n % 10 < 10 := Nat.mod_lt _ (by decide)
    split at h
    · rename_i hn
      have hc : c = n.digitChar := by simpa using h
      simp [hc, isDecimalDigit, digitValue?_digitChar n hn]
    · rename_i hn
      rcases List.mem_append.1 h with h | h
      · exact ih (n / 10) (by omega) h
      · have hc : c = (n % 10).digitChar := by simpa using h
        simp [hc, isDecimalDigit, digitValue?_digitChar _ hl]

theorem readDecimal_ofNat (n : Nat) : readDecimal (ofNat n) = n := by
  induction n using Nat.strongRecOn with
  | _ n ih =>
    rw [ofNat, Nat.toDigits_eq_if (by decide)]
    have hl : n % 10 < 10 := Nat.mod_lt _ (by decide)
    split
    · rename_i hn
      simpa [digitValue?_digitChar n hn] using readDecimal_append_singleton [] n.digitChar
    · rename_i hn
      have hd : readDecimal (Nat.toDigits 10 (n / 10)) = n / 10 := ih (n / 10) (by omega)
      rw [readDecimal_append_singleton, hd, digitValue?_digitChar _ hl, Option.getD_some]
      omega

theorem ofNat_ne_nil (n : Nat) : ofNat n ≠ [] := Nat.toDigits_ne_nil

theorem length_ofNat_le_digitLimit_iff {n : Nat} : (ofNat n).length ≤ digitLimit ↔ n < 10 ^ digitLimit :=
  Nat.length_toDigits_le_iff (by decide) (by decide)

end StyleShield.Text
