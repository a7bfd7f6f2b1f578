import GameShelf.Condition
import GameShelf.Proofs.Rounding
import GameShelf.Proofs.WrittenNumbers
import Mathlib.Data.List.Infix

namespace GameShelf

namespace Numeral

variable {s t : Text} {n : Nat}

theorem decimalValue_append (s t : Text) :
    decimalValue (s ++ t) = decimalValue s * Nat.pow 10 t.length + decimalValue t := by
  unfold decimalValue
  rw [List.reverse_append, List.map_append, Nat.ofDigits_append, List.length_map,
    List.length_reverse, Nat.add_comm, Nat.mul_comm]
  rfl

theorem decimalValue_lt (h : ∀ c ∈ t, c.isDigit = true) :
    decimalValue t < Nat.pow 10 t.length := by
  have hlt : ∀ d ∈ t.reverse.map fun c => c.toNat - '0'.toNat, d < 10 := by
    intro d hd
    obtain ⟨c, hc, rfl⟩ := List.mem_map.mp hd
    have hdigit := isDigit_iff.mp (h c (List.mem_reverse.mp hc))
    change c.toNat - 48 < 10
    omega
  have hvalue := Nat.ofDigits_lt_base_pow_length (by decide) hlt
  rwa [List.length_map, List.length_reverse] at hvalue

/-- No digits stand for more than as many digits are written for. -/
theorem length_ofNat_decimalValue_le (h : Digits t) : (ofNat (decimalValue t)).length ≤ t.length :=
  (Nat.length_toDigits_le_iff (by decide) (List.length_pos_iff.mpr h.1)).mpr (decimalValue_lt h.2)

theorem point_notMem_ofNat (n : Nat) : '.' ∉ ofNat n := fun h =>
  Bool.false_ne_true (isDigit_of_mem_ofNat h)

theorem point_notMem_ofInt (n : Int) : '.' ∉ ofInt n := by
  cases n with
  | ofNat n => exact point_notMem_ofNat n
  | negSucc n => exact List.not_mem_cons_of_ne_of_not_mem (by decide) (point_notMem_ofNat (n + 1))

end Numeral

namespace Binary64

variable {m n num den : Nat} {negative : Bool} {x : Binary64}

theorem toNat_bits_ofMagnitude (hm : m < signBit) :
    (ofMagnitude negative m).bits.toNat = if negative then signBit + m else m := by
  refine UInt64.toNat_ofNat_of_lt' ?_
  unfold signBit at *
  unfold UInt64.size
  split <;> omega

/-- A sign and a magnitude are found again in the number that they make. -/
theorem parts_ofMagnitude (negative : Bool) (hm : m < signBit) :
    (ofMagnitude negative m).isNegative = negative ∧ (ofMagnitude negative m).magnitude = m := by
  unfold isNegative magnitude
  rw [toNat_bits_ofMagnitude hm]
  cases negative
  · rw [if_neg Bool.false_ne_true, decide_eq_false_iff_not]
    exact ⟨Nat.not_le_of_lt hm, Nat.mod_eq_of_lt hm⟩
  · rw [if_pos rfl, decide_eq_true_iff, Nat.add_mod_left]
    exact ⟨Nat.le_add_right signBit m, Nat.mod_eq_of_lt hm⟩

theorem nearest_lt_signBit (num den : Nat) : nearest num den < signBit :=
  (Nat.min_le_left infinite _).trans_lt (by decide)

theorem magnitude_lt_infinite (hx : x.isFinite = true) : x.magnitude < infinite :=
  of_decide_eq_true hx

theorem isNaN_of_isFinite (hx : x.isFinite = true) : x.isNaN = false :=
  decide_eq_false (Nat.not_lt_of_lt (magnitude_lt_infinite hx))

def sign (negative : Bool) : Text := if negative then ['-'] else []

theorem text_of_isFinite (hx : x.isFinite = true) :
    x.text = sign x.isNegative ++ positional (decimals x.magnitude).1 (decimals x.magnitude).2 := by
  unfold text sign
  rw [isNaN_of_isFinite hx, if_neg Bool.false_ne_true,
    magnitudeText_of_lt (magnitude_lt_infinite hx)]
  split_ifs <;> rfl

/-- A decimal in full: a minus or none, digits, and more of them behind a point or no point. -/
structure PlainDecimal where
  negative : Bool
  whole : Text
  fraction? : Option Text
  digits_whole : Numeral.Digits whole
  digits_fraction : ∀ fraction ∈ fraction?, Numeral.Digits fraction

namespace PlainDecimal

/-- The text behind the sign. -/
def unsigned (d : PlainDecimal) : Text :=
  d.whole ++ d.fraction?.elim [] fun fraction => '.' :: fraction

def text (d : PlainDecimal) : Text := sign d.negative ++ d.unsigned

def places (d : PlainDecimal) : Nat := (d.fraction?.getD []).length

/-- What all the digits stand for, as if there were no point. -/
def digits (d : PlainDecimal) : Nat := Numeral.decimalValue (d.whole ++ d.fraction?.getD [])

variable (d : PlainDecimal)

theorem isDigit_of_mem_fraction {c : Char} (h : c ∈ d.fraction?.getD []) : c.isDigit = true := by
  cases hfraction : d.fraction? with
  | none =>
    rw [hfraction] at h
    cases h
  | some fraction =>
    rw [hfraction] at h
    exact (d.digits_fraction fraction hfraction).2 c h

theorem digits_div : d.digits / Nat.pow 10 d.places = Numeral.decimalValue d.whole := by
  have hlt := Numeral.decimalValue_lt fun _ => d.isDigit_of_mem_fraction
  unfold digits places
  rw [Numeral.decimalValue_append, Nat.mul_comm, Nat.mul_add_div (pow_ten_pos _),
    Nat.div_eq_of_lt hlt, Nat.add_zero]

theorem readDecimal_unsigned :
    readDecimal d.unsigned = some (nearest d.digits (Nat.pow 10 d.places)) := by
  have hvalue : Numeral.ofDigits? (d.whole ++ d.fraction?.getD []) = some d.digits := by
    refine Numeral.ofDigits?_eq_some_iff.mpr ⟨⟨?_, fun c hc => ?_⟩, rfl⟩
    · exact List.append_ne_nil_of_left_ne_nil d.digits_whole.1 _
    · exact (List.mem_append.mp hc).elim (d.digits_whole.2 c) d.isDigit_of_mem_fraction
  unfold unsigned places
  cases hfraction : d.fraction? with
  | none =>
    rw [hfraction] at hvalue
    have hread := readDecimal_of_digits d.digits_whole.2
    rw [← List.append_nil d.whole] at hread
    exact hread.trans (congrArg (Option.map _) hvalue)
  | some fraction =>
    rw [hfraction] at hvalue
    exact (readDecimal_pointed d.digits_whole.2 (d.digits_fraction fraction hfraction).2).trans
      (congrArg (Option.map _) hvalue)

theorem head?_unsigned : ∃ c, c.isDigit = true ∧ d.unsigned.head? = some c := by
  obtain ⟨c, rest, hwhole⟩ := List.exists_cons_of_ne_nil d.digits_whole.1
  refine ⟨c, d.digits_whole.2 c (hwhole ▸ List.mem_cons_self), ?_⟩
  rw [unsigned, hwhole]
  rfl

/-- A decimal in full is read as the number nearest to it. -/
theorem read_text :
    read d.text = some (ofMagnitude d.negative (nearest d.digits (Nat.pow 10 d.places))) := by
  obtain ⟨c, hc, hhead⟩ := d.head?_unsigned
  have hread (negative : Bool) := readUnsigned_of_head hc hhead negative
  rw [readDecimal_unsigned] at hread
  unfold text
  cases d.negative with
  | true => exact hread true
  | false =>
    refine (read_of_unsigned ?_ ?_).trans (hread false)
    · exact head?_ne_of_isDigit hc hhead rfl
    · exact head?_ne_of_isDigit hc hhead rfl

/-- A number that a decimal in full is read as tells what the decimal means. -/
theorem of_read_text {d : PlainDecimal} (h : read d.text = some x) :
    d.negative = x.isNegative ∧ nearest d.digits (Nat.pow 10 d.places) = x.magnitude := by
  rw [read_text] at h
  obtain ⟨hsign, hmagnitude⟩ := parts_ofMagnitude d.negative
    (nearest_lt_signBit d.digits (Nat.pow 10 d.places))
  rw [Option.some.inj h] at hsign hmagnitude
  exact ⟨hsign.symm, hmagnitude.symm⟩

end PlainDecimal

section

variable {digits places : Nat}

theorem nearest_units (hm : m < infinite) : nearest (units m) unitsPerOne = m :=
  nearest_of_exact hm unitsPerOne_pos rfl

/-- What lies between two quotients that are rounded to one magnitude is rounded to it too. -/
theorem nearest_of_between {low lowDen high highDen : Nat} (hlow : nearest low lowDen = m)
    (hhigh : nearest high highDen = m) (hlowDen : 0 < lowDen) (hhighDen : 0 < highDen)
    (hden : 0 < den) (hle : low * den ≤ num * lowDen) (hge : num * highDen ≤ high * den) :
    nearest num den = m :=
  Nat.le_antisymm ((nearest_mono hden hhighDen hge).trans hhigh.le)
    (hlow.ge.trans (nearest_mono hlowDen hden hle))

theorem neighbour?_ne_none {scaled : Nat} {passes : Nat → Bool}
    (h : passes (scaled / unitsPerOne) = true ∨ passes (scaled / unitsPerOne + 1) = true) :
    neighbour? scaled passes ≠ none := by
  unfold neighbour?
  dsimp only
  generalize scaled / unitsPerOne = below at h ⊢
  cases hbelow : passes below <;> cases habove : passes (below + 1)
  case false.false => simp [hbelow, habove] at h
  all_goals exact Option.some_ne_none _

/-- A grid that has a place for a magnitude has one beside it. -/
theorem onGrid?_ne_none (hm : m < infinite) (h : nearest digits (Nat.pow 10 places) = m) :
    onGrid? m places ≠ none := by
  have hpow := pow_ten_pos places
  have hsplit := Nat.div_add_mod' (units m * Nat.pow 10 places) unitsPerOne
  have hmod := Nat.mod_lt (units m * Nat.pow 10 places) unitsPerOne_pos
  unfold onGrid?
  apply neighbour?_ne_none
  generalize units m * Nat.pow 10 places / unitsPerOne = below at hsplit ⊢
  generalize units m * Nat.pow 10 places % unitsPerOne = r at hsplit hmod
  rw [beq_iff_eq, beq_iff_eq]
  rcases Nat.lt_or_ge below digits with hlt | hge
  · refine .inr (nearest_of_between (nearest_units hm) h unitsPerOne_pos hpow hpow ?_
      (Nat.mul_le_mul_right _ hlt))
    rw [← hsplit, Nat.add_mul]
    omega
  · refine .inl (nearest_of_between h (nearest_units hm) hpow unitsPerOne_pos hpow
      (Nat.mul_le_mul_right _ hge) ?_)
    omega

/-- Of an ascending list no earlier element is left out. -/
theorem le_of_findSome?_eq_some {B : Type} {l : List Nat} {f : Nat → Option B} {b : B} {q : Nat}
    (hl : l.Pairwise (· < ·)) (hq : q ∈ l) (hf : f q ≠ none) (h : l.findSome? f = some b) :
    ∃ p ≤ q, f p = some b := by
  obtain ⟨before, p, after, rfl, hp, hnone⟩ := List.findSome?_eq_some_iff.mp h
  refine ⟨p, ?_, hp⟩
  rcases List.mem_append.mp hq with hbefore | hafter
  · exact absurd (hnone q hbefore) hf
  · rcases List.mem_cons.mp hafter with rfl | hafter
    · exact le_rfl
    · exact (List.rel_of_pairwise_cons (List.pairwise_append.mp hl).2.1 hafter).le

theorem shortest_eq (m : Nat) :
    shortest m = ((List.range' 1 1073).findSome? fun places =>
      (onGrid? m places).map (·, places)).getD (units m * Nat.pow 10 1074 / unitsPerOne, 1074) :=
  rfl

/-- The shortest form has no more places than any other decimal with a point. -/
theorem shortest_le (hm : m < infinite) (hpos : 0 < places)
    (h : nearest digits (Nat.pow 10 places) = m) : (shortest m).2 ≤ places := by
  have hgrid : (onGrid? m places).map (·, places) ≠ none := by
    rw [ne_eq, Option.map_eq_none_iff]
    exact onGrid?_ne_none hm h
  rw [shortest_eq]
  generalize hfound : (List.range' 1 1073).findSome? (fun places =>
    (onGrid? m places).map (·, places)) = found
  rcases Nat.lt_or_ge places 1074 with hlt | hge
  · have hmem : places ∈ List.range' 1 1073 := List.mem_range'_1.mpr ⟨hpos, by omega⟩
    cases found with
    | none => exact absurd (List.findSome?_eq_none_iff.mp hfound places hmem) hgrid
    | some decimal =>
      obtain ⟨p, hp, hdecimal⟩ :=
        le_of_findSome?_eq_some List.pairwise_lt_range' hmem hgrid hfound
      obtain ⟨d, -, rfl⟩ := Option.map_eq_some_iff.mp hdecimal
      exact hp
  · cases found with
    | none => exact hge
    | some decimal =>
      obtain ⟨p, hp, hdecimal⟩ := List.exists_of_findSome?_eq_some hfound
      obtain ⟨d, -, rfl⟩ := Option.map_eq_some_iff.mp hdecimal
      have := (List.mem_range'_1.mp hp).2
      change p ≤ places
      omega

/-- No integer lies between two decimals of one number with a fraction. -/
theorem div_pow_le_div_pow {digits' places' : Nat} (hm : m < infinite)
    (hwhole : ¬unitsPerOne ∣ units m) (h : nearest digits (Nat.pow 10 places) = m)
    (h' : nearest digits' (Nat.pow 10 places') = m) :
    digits / Nat.pow 10 places ≤ digits' / Nat.pow 10 places' := by
  by_contra hlt
  have hlow : digits' < digits / Nat.pow 10 places * Nat.pow 10 places' :=
    (Nat.div_lt_iff_lt_mul (pow_ten_pos places')).mp (Nat.lt_of_not_le hlt)
  have hhigh := Nat.div_mul_le_self digits (Nat.pow 10 places)
  have hbetween : nearest (digits / Nat.pow 10 places) 1 = m := by
    refine nearest_of_between h' h (pow_ten_pos places') (pow_ten_pos places) Nat.one_pos ?_ ?_
    · rw [Nat.mul_one]
      exact hlow.le
    · rw [Nat.mul_one]
      exact hhigh
  rw [← hbetween] at hwhole hm
  exact hwhole (unitsPerOne_dvd_units_nearest _ hm)

theorem div_pow_eq_div_pow {digits' places' : Nat} (hm : m < infinite)
    (hwhole : ¬unitsPerOne ∣ units m) (h : nearest digits (Nat.pow 10 places) = m)
    (h' : nearest digits' (Nat.pow 10 places') = m) :
    digits / Nat.pow 10 places = digits' / Nat.pow 10 places' :=
  Nat.le_antisymm (div_pow_le_div_pow hm hwhole h h') (div_pow_le_div_pow hm hwhole h' h)

end

theorem length_positional {digits places : Nat} (hpos : 0 < places) :
    (positional digits places).length =
      (Numeral.ofNat (digits / Nat.pow 10 places)).length + (places + 1) := by
  rw [positional, List.length_append, List.length_cons,
    length_leftpad_ofNat hpos (Nat.mod_lt digits (pow_ten_pos places))]

namespace PlainDecimal

variable {d : PlainDecimal}

theorem places_pos_iff : 0 < d.places ↔ d.fraction?.isSome = true := by
  unfold places
  cases hfraction : d.fraction? with
  | none => decide
  | some fraction =>
    exact iff_of_true (List.length_pos_iff.mpr (d.digits_fraction fraction hfraction).1) rfl

theorem length_unsigned (h : d.fraction?.isSome = true) :
    d.unsigned.length = d.whole.length + (d.places + 1) := by
  obtain ⟨fraction, hfraction⟩ := Option.isSome_iff_exists.mp h
  unfold unsigned places
  rw [hfraction, List.length_append]
  rfl

/-- A number that is no integer cannot do without a point and digits behind it. -/
theorem has_fraction (hx : x.isFinite = true) (hwhole : ¬unitsPerOne ∣ units x.magnitude)
    (h : read d.text = some x) : d.fraction?.isSome = true := by
  have hread := (of_read_text h).2
  have hm := magnitude_lt_infinite hx
  rw [← places_pos_iff]
  by_contra hplaces
  rw [Nat.eq_zero_of_not_pos hplaces] at hread
  rw [← hread] at hwhole hm
  exact hwhole (unitsPerOne_dvd_units_nearest d.digits hm)

/-- The digits before the point are those of every other decimal, and those behind it the fewest. -/
theorem length_text_le (hx : x.isFinite = true) (hwhole : ¬unitsPerOne ∣ units x.magnitude)
    (h : read d.text = some x) : x.text.length ≤ d.text.length := by
  have hm := magnitude_lt_infinite hx
  have hfraction := has_fraction hx hwhole h
  obtain ⟨hsign, hread⟩ := of_read_text h
  obtain ⟨hpos, hshort⟩ := readsBack_shortest hm
  have hbehind := shortest_le hm (places_pos_iff.mpr hfraction) hread
  have hfront : (Numeral.ofNat ((shortest x.magnitude).1 /
      Nat.pow 10 (shortest x.magnitude).2)).length ≤ d.whole.length := by
    rw [div_pow_eq_div_pow hm hwhole hshort hread, digits_div]
    exact Numeral.length_ofNat_decimalValue_le d.digits_whole
  have hdecimals : decimals x.magnitude = shortest x.magnitude :=
    if_neg fun h => hwhole (Nat.dvd_of_mod_eq_zero h)
  rw [text_of_isFinite hx, text, hsign, List.length_append, List.length_append, hdecimals,
    length_positional hpos, length_unsigned hfraction]
  omega

end PlainDecimal

/-- The text of a finite number has digits on both sides of a point and a minus at most in front. -/
theorem exists_pointed_text (hx : x.isFinite = true) :
    ∃ whole fraction, Numeral.Digits whole ∧ Numeral.Digits fraction ∧
      x.text = sign x.isNegative ++ (whole ++ '.' :: fraction) := by
  obtain ⟨hpos, -⟩ := readsBack_decimals (magnitude_lt_infinite hx)
  refine ⟨_, _, Numeral.digits_ofNat _, ⟨?_, fun _ => isDigit_of_mem_leftpad⟩, text_of_isFinite hx⟩
  apply List.ne_nil_of_length_pos
  rwa [length_leftpad_ofNat hpos (Nat.mod_lt _ (pow_ten_pos _))]

/-- An integer is written in full, whatever its magnitude, with one zero behind the point. -/
theorem text_of_units_eq_mul (hx : x.isFinite = true)
    (hn : units x.magnitude = n * unitsPerOne) :
    x.text = sign x.isNegative ++ (Numeral.ofNat n ++ ".0".toList) := by
  have hdecimals : decimals x.magnitude = (10 * n, 1) := by
    unfold decimals
    rw [hn, Nat.mul_mod_left, if_pos rfl, Nat.mul_div_left n unitsPerOne_pos]
  have hwhole : 10 * n / Nat.pow 10 1 = n := Nat.mul_div_right n (by decide)
  have hbehind : 10 * n % Nat.pow 10 1 = 0 := Nat.mul_mod_right 10 n
  rw [text_of_isFinite hx, hdecimals, positional, hwhole, hbehind]
  rfl

end Binary64

namespace Number

open Binary64 (PlainDecimal sign units unitsPerOne)

variable {x : Binary64}

theorem point_mem_text_real (hx : x.isFinite = true) : '.' ∈ (real x).text := by
  obtain ⟨whole, fraction, -, -, htext⟩ := Binary64.exists_pointed_text hx
  change '.' ∈ x.text
  rw [htext]
  exact List.mem_append_right _ (List.mem_append_right _ List.mem_cons_self)

/-- A finite real is written in full, with digits on both sides of a point. An integral one has the
digits of its integer and one zero. Any other reads back, and no decimal that reads as this number
lacks a fraction or is shorter. So each of them contains a point, which no integer does. -/
theorem text_real_has_point (hx : x.isFinite = true) :
    (∃ whole fraction, Numeral.Digits whole ∧ Numeral.Digits fraction ∧
      (real x).text = sign x.isNegative ++ (whole ++ '.' :: fraction)) ∧
    (∀ n, units x.magnitude = n * unitsPerOne →
      (real x).text = sign x.isNegative ++ (Numeral.ofNat n ++ ".0".toList)) ∧
    (¬unitsPerOne ∣ units x.magnitude →
      Binary64.read (real x).text = some x ∧
        ∀ d : PlainDecimal, Binary64.read d.text = some x →
          d.fraction?.isSome = true ∧ (real x).text.length ≤ d.text.length) ∧
    (∀ {R : Type} [HasAttributes R] (c : Condition) (r : R), c.field.kind = .real →
      c.operator = .contains → c.value = ['.'] →
      HasAttributes.value r c.field = .number (real x) → c.accepts r = true) ∧
    ∀ n : Int, '.' ∉ (integer n).text := by
  refine ⟨Binary64.exists_pointed_text hx, fun n hn => Binary64.text_of_units_eq_mul hx hn,
    fun hwhole => ⟨?_, fun d hd => ?_⟩, fun c r hkind hoperator hvalue hr => ?_,
    Numeral.point_notMem_ofInt⟩
  · exact Binary64.read_text (Binary64.isNaN_of_isFinite hx)
  · exact ⟨PlainDecimal.has_fraction hx hwhole hd, PlainDecimal.length_text_le hx hwhole hd⟩
  · rw [Condition.accepts, hr, Condition.acceptsValue, hkind, Condition.acceptsNumber, hoperator,
      hvalue]
    exact Text.occursIn_iff.mpr ((List.singleton_infix_iff '.' _).mpr (point_mem_text_real hx))

example : (real (.ofMagnitude true 0)).text = "-0.0".toList := by decide +kernel

/-- The greatest real that is no integer. -/
def greatestHalf : Binary64 := ⟨0x432FFFFFFFFFFFFF⟩

theorem greatestHalf_written :
    (real greatestHalf).text = "4503599627370495.5".toList ∧
      ∀ d : PlainDecimal, Binary64.read d.text = some greatestHalf →
        d.fraction?.isSome = true ∧ 18 ≤ d.text.length := by
  have hx : greatestHalf.isFinite = true := by decide
  have hwhole : ¬unitsPerOne ∣ units greatestHalf.magnitude := by decide +kernel
  have htext : (real greatestHalf).text = "4503599627370495.5".toList := by decide +kernel
  obtain ⟨-, -, hshort, -⟩ := text_real_has_point hx
  refine ⟨htext, fun d hd => ?_⟩
  obtain ⟨hfraction, hlength⟩ := (hshort hwhole).2 d hd
  rw [htext] at hlength
  exact ⟨hfraction, hlength⟩

end Number

end GameShelf
