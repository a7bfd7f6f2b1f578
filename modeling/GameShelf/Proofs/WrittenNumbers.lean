import GameShelf.Proofs.Numerals
import GameShelf.Proofs.ReadsBack
import GameShelf.Proofs.Selection
import GameShelf.Proofs.SortedBlocks

namespace GameShelf

namespace Numeral

variable {n : Int} {c : Char}

theorem digits_ofNat (n : Nat) : Digits (ofNat n) :=
  ⟨ofNat_ne_nil n, fun _ => isDigit_of_mem_ofNat⟩

theorem decimalValue_ofNat (n : Nat) : decimalValue (ofNat n) = n :=
  (ofDigitChars_eq _).symm.trans Nat.ofDigitChars_ten_toDigits

/-- An integer denotes itself as it is written. -/
theorem denotes_ofInt (n : Int) : Denotes (ofInt n) n := by
  cases n with
  | ofNat n =>
    have h := Denotes.plain (digits_ofNat n)
    rwa [decimalValue_ofNat] at h
  | negSucc n =>
    have h := Denotes.minus (digits_ofNat (n + 1))
    rwa [decimalValue_ofNat] at h

theorem readLong_ofInt (hmin : -2 ^ 63 ≤ n) (hmax : n ≤ 2 ^ 63 - 1) : readLong (ofInt n) = some n :=
  readLong_eq_some_iff.mpr ⟨denotes_ofInt n, hmin, hmax⟩

theorem isBlank_of_mem_ofInt (h : c ∈ ofInt n) : Text.isBlank c = false := by
  cases n with
  | ofNat n => exact (plain_of_mem_ofNat h).1
  | negSucc n =>
    rcases List.mem_cons.mp h with rfl | h
    · rfl
    · exact (plain_of_mem_ofNat h).1

end Numeral

namespace Binary64

variable {digits places n : Nat} {c : Char} {x : Binary64}

theorem isDigit_of_mem_leftpad (h : c ∈ (Numeral.ofNat n).leftpad places '0') :
    c.isDigit = true := by
  rw [List.leftpad, List.mem_append] at h
  rcases h with h | h
  · rw [List.eq_of_mem_replicate h]
    rfl
  · exact Numeral.isDigit_of_mem_ofNat h

theorem length_leftpad_ofNat (hpos : 0 < places) (h : n < Nat.pow 10 places) :
    ((Numeral.ofNat n).leftpad places '0').length = places := by
  rw [List.length_leftpad]
  exact Nat.max_eq_left ((Nat.length_toDigits_le_iff (by decide) hpos).mpr h)

/-- Digits that are parted at the point are put together again. -/
theorem ofDigits?_append_leftpad (hpos : 0 < places) (digits : Nat) :
    Numeral.ofDigits? (Numeral.ofNat (digits / Nat.pow 10 places) ++
      (Numeral.ofNat (digits % Nat.pow 10 places)).leftpad places '0') = some digits := by
  have hlength := length_leftpad_ofNat hpos (Nat.mod_lt digits (pow_ten_pos places))
  have hdigits : ∀ c ∈ Numeral.ofNat (digits / Nat.pow 10 places) ++
      (Numeral.ofNat (digits % Nat.pow 10 places)).leftpad places '0', c.isDigit = true := by
    intro c hc
    rcases List.mem_append.mp hc with hc | hc
    · exact Numeral.isDigit_of_mem_ofNat hc
    · exact isDigit_of_mem_leftpad hc
  have hvalue : Nat.ofDigitChars 10 (Numeral.ofNat (digits / Nat.pow 10 places) ++
      (Numeral.ofNat (digits % Nat.pow 10 places)).leftpad places '0') 0 = digits := by
    rw [Nat.ofDigitChars_append, Nat.ofDigitChars_eq_ofDigitChars_zero, hlength, List.leftpad,
      Nat.ofDigitChars_append, Nat.ofDigitChars_replicate_zero, Nat.mul_zero]
    unfold Numeral.ofNat
    rw [Nat.ofDigitChars_ten_toDigits, Nat.ofDigitChars_ten_toDigits]
    exact Nat.div_add_mod digits (Nat.pow 10 places)
  rw [Numeral.ofDigits?, List.all_eq_true.mpr hdigits, hvalue]
  simp [Numeral.ofNat_ne_nil]

/-- Digits around a point are read as the quotient of all of them. -/
theorem readDecimal_pointed {whole fraction : Text} (hwhole : ∀ c ∈ whole, c.isDigit = true)
    (hfraction : ∀ c ∈ fraction, c.isDigit = true) :
    readDecimal (whole ++ '.' :: fraction) =
      (Numeral.ofDigits? (whole ++ fraction)).map fun n =>
        nearest n (Nat.pow 10 fraction.length) := by
  have hpoint : (whole ++ '.' :: fraction).dropWhile Char.isDigit = '.' :: fraction :=
    List.dropWhile_append_of_pos hwhole
  have hfront : (whole ++ '.' :: fraction).takeWhile Char.isDigit = whole :=
    (List.takeWhile_append_of_pos hwhole).trans (List.append_nil _)
  rw [readDecimal_of_point hpoint, hfront, List.takeWhile_eq_self_iff.mpr hfraction,
    List.dropWhile_eq_nil_iff.mpr hfraction, scaled, Option.map_eq_bind]
  simp only [ofDecimal_neg]
  rfl

theorem readDecimal_of_digits {whole : Text} (h : ∀ c ∈ whole, c.isDigit = true) :
    readDecimal whole = (Numeral.ofDigits? whole).map fun n => nearest n 1 := by
  have hrest : whole.dropWhile Char.isDigit = [] := List.dropWhile_eq_nil_iff.mpr h
  have hnone : (whole.dropWhile Char.isDigit).head? ≠ some '.' := by
    rw [hrest]
    exact Option.some_ne_none '.' ∘ Eq.symm
  rw [readDecimal_of_no_point hnone, hrest, List.takeWhile_eq_self_iff.mpr h, scaled,
    Option.map_eq_bind]
  simp only [ofDecimal_neg]
  rfl

theorem readDecimal_positional (hpos : 0 < places) (digits : Nat) :
    readDecimal (positional digits places) = some (nearest digits (Nat.pow 10 places)) := by
  rw [positional, readDecimal_pointed (fun _ => Numeral.isDigit_of_mem_ofNat)
    (fun _ => isDigit_of_mem_leftpad), ofDigits?_append_leftpad hpos,
    length_leftpad_ofNat hpos (Nat.mod_lt digits (pow_ten_pos places)), Option.map_some]

theorem head?_ne_of_isDigit {t : Text} {d : Char} (hc : c.isDigit = true) (h : t.head? = some c)
    (hd : d.isDigit = false) : t.head? ≠ some d := by
  rw [h]
  rintro heq
  rw [Option.some.inj heq, hd] at hc
  cases hc

/-- A text that starts with a digit is none of the words for numbers without digits. -/
theorem readUnsigned_of_head {t : Text} (hc : c.isDigit = true) (h : t.head? = some c)
    (negative : Bool) : readUnsigned negative t = (readDecimal t).map (ofMagnitude negative) := by
  obtain ⟨rest, rfl⟩ := List.head?_eq_some_iff.mp h
  have hword {word : Text} (hhead : word.head?.map Char.isDigit = some false) :
      Text.asciiLower (c :: rest) ≠ word := by
    rintro rfl
    rw [Text.asciiLower_cons, Numeral.toLower_of_isDigit hc, List.head?_cons, Option.map_some,
      hc] at hhead
    cases hhead
  unfold readUnsigned
  dsimp only
  refine (if_neg (not_or.mpr ⟨hword ?_, hword ?_⟩)).trans (if_neg (hword ?_))
  all_goals rfl

theorem head?_positional (digits places : Nat) :
    ∃ c, c.isDigit = true ∧ (positional digits places).head? = some c := by
  cases hwhole : Numeral.ofNat (digits / Nat.pow 10 places) with
  | nil => exact absurd hwhole (Numeral.ofNat_ne_nil _)
  | cons c rest =>
    refine ⟨c, Numeral.isDigit_of_mem_ofNat (hwhole ▸ List.mem_cons_self), ?_⟩
    rw [positional, hwhole]
    rfl

theorem magnitudeText_of_lt {m : Nat} (hm : m < infinite) :
    magnitudeText m = positional (decimals m).1 (decimals m).2 := by
  unfold magnitudeText
  rw [if_neg (Nat.not_le_of_lt hm)]

/-- A magnitude, infinity included, is read back behind any sign. -/
theorem readUnsigned_magnitudeText {m : Nat} (hm : m ≤ infinite) (negative : Bool) :
    readUnsigned negative (magnitudeText m) = some (ofMagnitude negative m) := by
  rcases hm.lt_or_eq with hm | rfl
  · obtain ⟨hpos, hreads⟩ := readsBack_decimals hm
    obtain ⟨c, hc, hhead⟩ := head?_positional (decimals m).1 (decimals m).2
    rw [magnitudeText_of_lt hm, readUnsigned_of_head hc hhead, readDecimal_positional hpos, hreads,
      Option.map_some]
  · unfold magnitudeText
    rw [if_pos (Nat.le_refl infinite)]
    rfl

theorem head?_magnitudeText_ne {m : Nat} (hm : m ≤ infinite) {d : Char} (hd : d.isDigit = false)
    (hi : d ≠ 'i') : (magnitudeText m).head? ≠ some d := by
  rcases hm.lt_or_eq with hm | rfl
  · obtain ⟨c, hc, hhead⟩ := head?_positional (decimals m).1 (decimals m).2
    rw [magnitudeText_of_lt hm]
    exact head?_ne_of_isDigit hc hhead hd
  · unfold magnitudeText
    rw [if_pos (Nat.le_refl infinite)]
    exact fun h => hi (Option.some.inj h).symm

theorem ofMagnitude_self (x : Binary64) : ofMagnitude x.isNegative x.magnitude = x := by
  have hbits := x.bits.toNat_lt
  have hsame : (if x.isNegative then signBit + x.magnitude else x.magnitude) = x.bits.toNat := by
    unfold isNegative magnitude signBit
    split_ifs with hsign
    · have := of_decide_eq_true hsign
      omega
    · have := of_decide_eq_false (eq_false_of_ne_true hsign)
      omega
  rw [ofMagnitude, hsame, UInt64.ofNat_toNat]

/-- A number is read back from its text, the sign of a zero included. -/
theorem read_text (h : x.isNaN = false) : read x.text = some x := by
  have hm : x.magnitude ≤ infinite := by simpa [isNaN] using h
  unfold text
  rw [h, if_neg Bool.false_ne_true]
  cases hsign : x.isNegative with
  | true =>
    rw [if_pos rfl, read, readUnsigned_magnitudeText hm, ← hsign, ofMagnitude_self]
  | false =>
    rw [if_neg Bool.false_ne_true, read_of_unsigned (head?_magnitudeText_ne hm rfl (by decide))
      (head?_magnitudeText_ne hm rfl (by decide)), readUnsigned_magnitudeText hm, ← hsign,
      ofMagnitude_self]

theorem isBlank_of_mem_positional (h : c ∈ positional digits places) : Text.isBlank c = false := by
  rw [positional, List.mem_append, List.mem_cons] at h
  rcases h with h | rfl | h
  · exact (Numeral.plain_of_mem_ofNat h).1
  · rfl
  · exact Numeral.isBlank_of_isDigit (isDigit_of_mem_leftpad h)

theorem isBlank_of_mem_magnitudeText {m : Nat} (h : c ∈ magnitudeText m) :
    Text.isBlank c = false := by
  unfold magnitudeText at h
  split at h
  · have hplain : "inf".toList.Forall fun c => Text.isBlank c = false := by decide
    exact List.forall_iff_forall_mem.mp hplain c h
  · exact isBlank_of_mem_positional h

theorem isBlank_of_mem_text (h : c ∈ x.text) : Text.isBlank c = false := by
  unfold text at h
  split at h
  · have hplain : "NaN".toList.Forall fun c => Text.isBlank c = false := by decide
    exact List.forall_iff_forall_mem.mp hplain c h
  · split at h
    · rcases List.mem_cons.mp h with rfl | h
      · rfl
      · exact isBlank_of_mem_magnitudeText h
    · exact isBlank_of_mem_magnitudeText h

end Binary64

namespace Number

variable {n : Number}

/-- Whether a number has no more bits than are read: sixty-four. -/
def IsLong : Number → Prop
  | integer n => -2 ^ 63 ≤ n ∧ n ≤ 2 ^ 63 - 1
  | real _ => True

/-- The numbers that can be compared are read back from their texts. -/
theorem read_text (hlong : n.IsLong) (hnan : n.isNaN = false) : read n.kind n.text = some n := by
  cases n with
  | integer n => exact congrArg (Option.map integer) (Numeral.readLong_ofInt hlong.1 hlong.2)
  | real x => exact congrArg (Option.map real) (Binary64.read_text hnan)

theorem dropBlanks_text (n : Number) : Text.dropBlanks n.text = n.text := by
  refine List.filter_eq_self.mpr fun c hc => ?_
  rw [Bool.not_eq_true']
  cases n with
  | integer n => exact Numeral.isBlank_of_mem_ofInt hc
  | real x => exact Binary64.isBlank_of_mem_text hc

end Number

end GameShelf
