import GameShelf.Binary64.Shortest
import Mathlib.Tactic.Ring

namespace GameShelf.Binary64

variable {m num den digits places : Nat}

theorem roundQuotient_mul (q : Nat) (hden : 0 < den) : roundQuotient (q * den) den = q := by
  unfold roundQuotient
  dsimp only
  rw [Nat.mul_mod_left, Nat.mul_div_left _ hden, if_pos]
  simp [hden]

theorem roundQuotient_of_small (h : 2 * num < den) : roundQuotient num den = 0 := by
  have hlt : num < den := by omega
  unfold roundQuotient
  dsimp only
  rw [Nat.div_eq_of_lt hlt, Nat.mod_eq_of_lt hlt, if_pos]
  simp [h]

/-- The bits of a magnitude count on from one exponent to the next. -/
theorem add_significand (m : Nat) : (m / exponentBit - 1) * exponentBit + significand m = m := by
  unfold significand exponentBit
  split <;> omega

theorem log2_mul_two_pow {n : Nat} (hn : n ≠ 0) (k : Nat) : (n * 2 ^ k).log2 = n.log2 + k := by
  induction k with
  | zero => rw [Nat.pow_zero, Nat.mul_one, Nat.add_zero]
  | succ k ih =>
    have hne : n * 2 ^ k ≠ 0 := Nat.mul_ne_zero hn (Nat.two_pow_pos k).ne'
    rw [Nat.pow_succ, ← Nat.mul_assoc, Nat.mul_comm _ 2, Nat.log2_two_mul hne, ih, Nat.add_assoc]

theorem log2_significand (hm : exponentBit ≤ m) :
    significand m ≠ 0 ∧ (significand m).log2 = 52 := by
  have hmod : m % exponentBit < exponentBit := Nat.mod_lt m (by decide)
  have hsignificand : significand m = exponentBit + m % exponentBit := if_neg (Nat.not_lt.mpr hm)
  have hne : significand m ≠ 0 := by
    unfold exponentBit at *
    omega
  refine ⟨hne, (Nat.log2_eq_iff hne).mpr ?_⟩
  unfold exponentBit at *
  omega

/-- A significand has fifty-three bits, unless the exponent is the least one. -/
theorem log2_units (m : Nat) : (units m).log2 - 52 = m / exponentBit - 1 := by
  rcases Nat.lt_or_ge m exponentBit with hm | hm
  · -- with the least exponent the magnitude counts the units
    have hunits : units m = m := by
      rw [units, significand, if_pos hm, Nat.div_eq_of_lt hm]
      exact Nat.mul_one m
    have hlog : m ≠ 0 → m.log2 < 52 := fun hne => (Nat.log2_lt hne).mpr hm
    rw [hunits, Nat.div_eq_of_lt hm]
    by_cases hne : m = 0
    · rw [hne, Nat.log2_zero]
    · have := hlog hne
      omega
  · obtain ⟨hne, hlog⟩ := log2_significand hm
    change (significand m * 2 ^ (m / exponentBit - 1)).log2 - 52 = _
    rw [log2_mul_two_pow hne, hlog]
    omega

/-- A quotient that is a magnitude needs no rounding. -/
theorem nearest_of_exact (hm : m < infinite) (hden : 0 < den)
    (h : num * unitsPerOne = units m * den) : nearest num den = m := by
  unfold nearest
  dsimp only
  have hsplit : units m * den = significand m * (den * Nat.pow 2 (m / exponentBit - 1)) := by
    unfold units
    ring
  rw [h, Nat.mul_div_left _ hden, log2_units, hsplit, roundQuotient_mul, add_significand,
    Nat.min_eq_right hm.le]
  exact Nat.mul_pos hden (Nat.pow_pos (by decide))

/-- A quotient of less than half a unit is rounded to nothing. -/
theorem nearest_of_small (h : 2 * (num * unitsPerOne) < den) : nearest num den = 0 := by
  have hdiv : num * unitsPerOne / den = 0 := Nat.div_eq_of_lt (by omega)
  unfold nearest
  dsimp only
  rw [hdiv, Nat.log2_zero]
  change min infinite (0 * exponentBit + roundQuotient _ (den * 1)) = 0
  rw [Nat.mul_one, roundQuotient_of_small h, Nat.zero_mul, Nat.zero_add, Nat.min_zero]

theorem unitsPerOne_pos : 0 < unitsPerOne := by decide +kernel

theorem pow_ten_pos (places : Nat) : 0 < Nat.pow 10 places := Nat.pow_pos (by decide)

/-- So many places outweigh the digits and the units of one. -/
theorem nearest_of_log2 {k : Nat} (hk : 4 * unitsPerOne ≤ Nat.pow 10 k)
    (h : digits.log2 + k ≤ places) : nearest digits (Nat.pow 10 places) = 0 := by
  apply nearest_of_small
  have hdigits : digits * unitsPerOne < 2 ^ (digits.log2 + 1) * unitsPerOne :=
    Nat.mul_lt_mul_of_pos_right Nat.lt_log2_self unitsPerOne_pos
  calc
    2 * (digits * unitsPerOne) < 2 * (2 ^ (digits.log2 + 1) * unitsPerOne) := by omega
    _ = 2 ^ digits.log2 * (4 * unitsPerOne) := by ring
    _ ≤ 10 ^ digits.log2 * 10 ^ k := Nat.mul_le_mul (Nat.pow_le_pow_left (by decide) _) hk
    _ = 10 ^ (digits.log2 + k) := (Nat.pow_add ..).symm
    _ ≤ Nat.pow 10 places := Nat.pow_le_pow_right (by decide) h

/-- A decimal without a positive exponent is rounded from its quotient, also where its exponent
alone tells that nothing is left of it. -/
theorem ofDecimal_neg (digits places : Nat) :
    ofDecimal digits (-places) = nearest digits (Nat.pow 10 places) := by
  unfold ofDecimal
  split
  next h =>
    symm
    by_cases hzero : digits = 0
    · rw [hzero]
      apply nearest_of_small
      rw [Nat.zero_mul]
      exact pow_ten_pos places
    · have hplaces : digits.log2 + 331 ≤ places := by omega
      exact nearest_of_log2 (by decide +kernel) hplaces
  next h =>
    rw [if_neg (by omega)]
    have hup : (-(places : Int)).toNat = 0 := by omega
    have hdown : (-(-(places : Int))).toNat = places := by omega
    rw [hup, hdown]
    change nearest (digits * 1) _ = _
    rw [Nat.mul_one]

theorem of_neighbour?_eq_some {scaled d : Nat} {passes : Nat → Bool}
    (h : neighbour? scaled passes = some d) : passes d = true := by
  unfold neighbour? at h
  dsimp only at h
  generalize scaled / unitsPerOne = below at h
  cases hbelow : passes below <;> cases habove : passes (below + 1) <;> rw [hbelow, habove] at h
  case false.false => cases h
  case false.true =>
    cases h
    exact habove
  case true.false =>
    cases h
    exact hbelow
  case true.true =>
    obtain h := Option.some.inj h
    split_ifs at h
    · rw [← h]
      exact hbelow
    · rw [← h]
      exact habove

/-- What is found on a grid reads back. -/
theorem nearest_of_onGrid? {d : Nat} (h : onGrid? m places = some d) :
    nearest d (Nat.pow 10 places) = m := by
  unfold onGrid? at h
  have hpasses := of_neighbour?_eq_some h
  exact beq_iff_eq.mp hpasses

/-- Whether a decimal, given by its digits and how many of them are behind the point, has some
behind it and is read as a magnitude. -/
def ReadsBack (m : Nat) (decimal : Nat × Nat) : Prop :=
  0 < decimal.2 ∧ nearest decimal.1 (Nat.pow 10 decimal.2) = m

/-- On a grid on which a unit has a place every magnitude has one. -/
theorem readsBack_of_finest {k : Nat} (hm : m < infinite) (hpos : 0 < k)
    (hk : unitsPerOne ∣ Nat.pow 10 k) :
    ReadsBack m (units m * Nat.pow 10 k / unitsPerOne, k) :=
  ⟨hpos, nearest_of_exact hm (pow_ten_pos k) (Nat.div_mul_cancel (hk.mul_left (units m)))⟩

theorem unitsPerOne_dvd : unitsPerOne ∣ Nat.pow 10 1074 :=
  Nat.dvd_of_mod_eq_zero (by decide +kernel)

theorem readsBack_shortest (hm : m < infinite) : ReadsBack m (shortest m) := by
  unfold shortest
  dsimp only
  generalize hfound : (List.range' 1 1073).findSome? (fun places =>
    (onGrid? m places).map (·, places)) = found
  cases found with
  | none =>
    -- the power must not be computed, so its exponent becomes a variable
    have hlast : 0 < 1074 ∧ unitsPerOne ∣ Nat.pow 10 1074 := ⟨by decide, unitsPerOne_dvd⟩
    generalize 1074 = k at hlast ⊢
    exact readsBack_of_finest hm hlast.1 hlast.2
  | some decimal =>
    obtain ⟨places, hplaces, hgrid⟩ := List.exists_of_findSome?_eq_some hfound
    obtain ⟨d, hd, rfl⟩ := Option.map_eq_some_iff.mp hgrid
    exact ⟨(List.mem_range'_1.mp hplaces).1, nearest_of_onGrid? hd⟩

theorem readsBack_decimals (hm : m < infinite) : ReadsBack m (decimals m) := by
  unfold decimals
  split
  next h =>
    have hunits : units m / unitsPerOne * unitsPerOne = units m :=
      Nat.div_mul_cancel (Nat.dvd_of_mod_eq_zero h)
    refine ⟨Nat.one_pos, nearest_of_exact hm (pow_ten_pos 1) ?_⟩
    rw [Nat.mul_assoc, hunits]
    exact Nat.mul_comm 10 (units m)
  next => exact readsBack_shortest hm

end GameShelf.Binary64
