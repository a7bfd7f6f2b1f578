import GameShelf.Proofs.ReadsBack
import Mathlib.Data.Nat.Log

namespace GameShelf.Binary64

variable {m num den num' den' k : Nat}

/-- A quotient is rounded beyond a number if it lies beyond the middle between this and the next
one, or in the middle, and the number is odd. -/
theorem lt_roundQuotient_iff (hden : 0 < den) :
    k < roundQuotient num den ↔
      (2 * k + 1) * den < 2 * num ∨ (2 * k + 1) * den = 2 * num ∧ k % 2 = 1 := by
  have hnum : num / den * den + num % den = num := Nat.div_add_mod' num den
  have hmod : num % den < den := Nat.mod_lt num hden
  unfold roundQuotient
  dsimp only
  generalize num / den = q at hnum ⊢
  generalize num % den = r at hnum hmod ⊢
  rw [← hnum, Nat.add_mul, Nat.mul_assoc]
  rcases Nat.lt_trichotomy k q with hlt | rfl | hgt
  · have hle : (k + 1) * den ≤ q * den := Nat.mul_le_mul_right den hlt
    rw [Nat.add_mul] at hle
    refine iff_of_true ?_ (.inl (by omega))
    split <;> omega
  · by_cases hdown : 2 * r < den ∨ 2 * r = den ∧ k % 2 = 0
    · rw [if_pos (by simpa using hdown)]
      omega
    · rw [if_neg (by simpa using hdown)]
      omega
  · have hle : (q + 1) * den ≤ k * den := Nat.mul_le_mul_right den hgt
    rw [Nat.add_mul] at hle
    refine iff_of_false ?_ (by omega)
    split <;> omega

/-- A greater quotient is not rounded to less. -/
theorem roundQuotient_mono (hden : 0 < den) (hden' : 0 < den') (h : num * den' ≤ num' * den) :
    roundQuotient num den ≤ roundQuotient num' den' := by
  refine le_of_forall_lt fun k hk => ?_
  rw [lt_roundQuotient_iff hden] at hk
  rw [lt_roundQuotient_iff hden']
  have hmiddle : (2 * k + 1) * den' * den = (2 * k + 1) * den * den' := by ring
  have hquotient : 2 * num * den' ≤ 2 * num' * den := by
    rw [Nat.mul_assoc, Nat.mul_assoc]
    exact Nat.mul_le_mul_left 2 h
  rcases hk with hk | ⟨hk, hodd⟩
  · have hlt : (2 * k + 1) * den' * den < 2 * num' * den := by
      rw [hmiddle]
      exact (Nat.mul_lt_mul_of_pos_right hk hden').trans_le hquotient
    exact .inl (Nat.lt_of_mul_lt_mul_right hlt)
  · have hle : (2 * k + 1) * den' * den ≤ 2 * num' * den := by rwa [hmiddle, hk]
    rcases (Nat.le_of_mul_le_mul_right hle hden).lt_or_eq with hlt | heq
    · exact .inl hlt
    · exact .inr ⟨heq, hodd⟩

theorem roundQuotient_le (hden : 0 < den) (h : num ≤ k * den) : roundQuotient num den ≤ k := by
  rw [← roundQuotient_mul k hden]
  exact roundQuotient_mono hden hden (Nat.mul_le_mul_right den h)

theorem le_roundQuotient (hden : 0 < den) (h : k * den ≤ num) : k ≤ roundQuotient num den := by
  rw [← roundQuotient_mul k hden]
  exact roundQuotient_mono hden hden (Nat.mul_le_mul_right den h)

/-- The exponent of a magnitude, counted from the least one, in which a quotient is rounded. -/
def shift (num den : Nat) : Nat := (num * unitsPerOne / den).log2 - 52

/-- The significand to which a quotient is rounded. A carry makes it one bit too long. -/
def rounded (num den : Nat) : Nat :=
  roundQuotient (num * unitsPerOne) (den * Nat.pow 2 (shift num den))

theorem nearest_eq (num den : Nat) :
    nearest num den = min infinite (shift num den * exponentBit + rounded num den) := rfl

theorem scale_pos (hden : 0 < den) (k : Nat) : 0 < den * Nat.pow 2 k :=
  Nat.mul_pos hden (Nat.pow_pos (by decide))

theorem lt_scale_log2 (n : Nat) : n < 2 * exponentBit * Nat.pow 2 (n.log2 - 52) := by
  calc
    n < 2 ^ (n.log2 + 1) := Nat.lt_log2_self
    _ ≤ 2 ^ (53 + (n.log2 - 52)) := Nat.pow_le_pow_right (by decide) (by omega)
    _ = 2 * exponentBit * Nat.pow 2 (n.log2 - 52) := Nat.pow_add 2 53 _

theorem scale_log2_le {n : Nat} (h : 0 < n.log2 - 52) :
    exponentBit * Nat.pow 2 (n.log2 - 52) ≤ n := by
  have hne : n ≠ 0 := by
    rintro rfl
    exact absurd h (by decide)
  calc
    exponentBit * Nat.pow 2 (n.log2 - 52) = 2 ^ (52 + (n.log2 - 52)) := (Nat.pow_add 2 52 _).symm
    _ = 2 ^ n.log2 := by rw [Nat.add_sub_cancel' (by omega)]
    _ ≤ n := Nat.log2_self_le hne

theorem rounded_le (hden : 0 < den) : rounded num den ≤ 2 * exponentBit := by
  have hlt := (Nat.div_lt_iff_lt_mul hden).mp (lt_scale_log2 (num * unitsPerOne / den))
  refine roundQuotient_le (scale_pos hden _) ?_
  rw [Nat.mul_comm den, ← Nat.mul_assoc]
  exact hlt.le

theorem exponentBit_le_rounded (hden : 0 < den) (hshift : 0 < shift num den) :
    exponentBit ≤ rounded num den := by
  have hle := (Nat.le_div_iff_mul_le hden).mp (scale_log2_le hshift)
  refine le_roundQuotient (scale_pos hden _) ?_
  rw [Nat.mul_comm den, ← Nat.mul_assoc]
  exact hle

/-- A greater quotient has no lesser magnitude. -/
theorem nearest_mono (hden : 0 < den) (hden' : 0 < den') (h : num * den' ≤ num' * den) :
    nearest num den ≤ nearest num' den' := by
  have hscaled : num * unitsPerOne * den' ≤ num' * unitsPerOne * den := by
    rw [Nat.mul_right_comm, Nat.mul_right_comm num']
    exact Nat.mul_le_mul_right unitsPerOne h
  have hquotient : num * unitsPerOne / den ≤ num' * unitsPerOne / den' := by
    rw [Nat.le_div_iff_mul_le hden']
    refine Nat.le_of_mul_le_mul_right ?_ hden
    calc
      num * unitsPerOne / den * den' * den = num * unitsPerOne / den * den * den' :=
        Nat.mul_right_comm ..
      _ ≤ num * unitsPerOne * den' := Nat.mul_le_mul_right den' (Nat.div_mul_le_self ..)
      _ ≤ num' * unitsPerOne * den := hscaled
  have hshift : shift num den ≤ shift num' den' := by
    unfold shift
    rw [Nat.log2_eq_log_two, Nat.log2_eq_log_two]
    exact Nat.sub_le_sub_right (Nat.log_mono_right hquotient) 52
  rw [nearest_eq, nearest_eq]
  refine min_le_min_left infinite ?_
  rcases hshift.lt_or_eq with hlt | heq
  · -- the carry of the lesser one does not reach beyond the next exponent
    have hup : rounded num den ≤ 2 * exponentBit := rounded_le hden
    have hdown : exponentBit ≤ rounded num' den' := exponentBit_le_rounded hden' (by omega)
    have hstep : (shift num den + 1) * exponentBit ≤ shift num' den' * exponentBit :=
      Nat.mul_le_mul_right exponentBit hlt
    rw [Nat.add_mul] at hstep
    omega
  · have hround : rounded num den ≤ rounded num' den' := by
      unfold rounded
      rw [heq]
      refine roundQuotient_mono (scale_pos hden _) (scale_pos hden' _) ?_
      rw [← Nat.mul_assoc, ← Nat.mul_assoc]
      exact Nat.mul_le_mul_right _ hscaled
    rw [heq]
    omega

theorem units_normal {f : Nat} (s : Nat) (hf : f < exponentBit) :
    units ((s + 1) * exponentBit + f) = (exponentBit + f) * Nat.pow 2 s := by
  have hpos : 0 < exponentBit := by decide
  have hdiv : ((s + 1) * exponentBit + f) / exponentBit = s + 1 := by
    rw [Nat.mul_comm, Nat.mul_add_div hpos, Nat.div_eq_of_lt hf, Nat.add_zero]
  have hmod : ((s + 1) * exponentBit + f) % exponentBit = f := by
    rw [Nat.mul_comm, Nat.mul_add_mod, Nat.mod_eq_of_lt hf]
  have hnormal : ¬(s + 1) * exponentBit + f < exponentBit := by
    rw [Nat.add_mul]
    omega
  rw [units, significand, if_neg hnormal, hdiv, hmod, Nat.add_sub_cancel]

/-- A significand, and a carry out of it as well, counts units of its exponent. -/
theorem units_shifted {s r : Nat} (hle : r ≤ 2 * exponentBit) (hge : 0 < s → exponentBit ≤ r) :
    units (s * exponentBit + r) = r * Nat.pow 2 s := by
  rcases Nat.lt_or_ge r exponentBit with hr | hr
  · obtain rfl : s = 0 := by omega
    rw [Nat.zero_mul, Nat.zero_add, units, significand, if_pos hr, Nat.div_eq_of_lt hr]
  · obtain ⟨f, rfl⟩ := Nat.exists_eq_add_of_le hr
    rcases (show f ≤ exponentBit by omega).lt_or_eq with hf | rfl
    · rw [← units_normal s hf, Nat.add_mul, Nat.one_mul, Nat.add_assoc]
    · have hcarry : s * exponentBit + (exponentBit + exponentBit) =
          (s + 1 + 1) * exponentBit + 0 := by ring
      rw [hcarry, units_normal (s + 1) (by decide)]
      change _ * 2 ^ (s + 1) = _ * 2 ^ s
      ring

theorem units_nearest (hden : 0 < den) (h : nearest num den < infinite) :
    units (nearest num den) = rounded num den * Nat.pow 2 (shift num den) := by
  have hmagnitude : nearest num den = shift num den * exponentBit + rounded num den := by
    rw [nearest_eq] at h ⊢
    omega
  rw [hmagnitude]
  exact units_shifted (rounded_le hden) (exponentBit_le_rounded hden)

/-- No integer is read as a number with a fraction. -/
theorem unitsPerOne_dvd_units_nearest (n : Nat) (h : nearest n 1 < infinite) :
    unitsPerOne ∣ units (nearest n 1) := by
  obtain ⟨k, hk⟩ : ∃ k, unitsPerOne = Nat.pow 2 k := by
    -- the power must not be computed, so its exponent becomes a variable
    unfold unitsPerOne
    generalize 1074 = k
    exact ⟨k, rfl⟩
  rw [units_nearest Nat.one_pos h]
  rcases Nat.le_total k (shift n 1) with hs | hs
  · rw [hk]
    exact (Nat.pow_dvd_pow 2 hs).mul_left _
  · -- a unit of this exponent divides one, so nothing is rounded
    have hone : Nat.pow 2 (k - shift n 1) * Nat.pow 2 (shift n 1) = unitsPerOne :=
      (Nat.pow_sub_mul_pow 2 hs).trans hk.symm
    have hrounded : rounded n 1 = n * Nat.pow 2 (k - shift n 1) := by
      rw [rounded, ← hone, ← Nat.mul_assoc, Nat.one_mul]
      exact roundQuotient_mul _ (Nat.pow_pos (by decide))
    rw [hrounded, Nat.mul_assoc, hone]
    exact Nat.dvd_mul_left unitsPerOne n

end GameShelf.Binary64
