import GameShelf.Proofs.LetterCase
import GameShelf.Value
import Mathlib.Data.List.TakeDrop

namespace GameShelf

/-- A numeral starts with a minus, with a plus, or with neither. -/
theorem Text.signed_cases (t : Text) :
    (∃ rest, t = '-' :: rest) ∨ (∃ rest, t = '+' :: rest) ∨
      t.head? ≠ some '-' ∧ t.head? ≠ some '+' := by
  cases t with
  | nil => exact .inr (.inr ⟨by simp, by simp⟩)
  | cons c rest =>
    by_cases hm : c = '-'
    · exact .inl ⟨rest, by rw [hm]⟩
    by_cases hp : c = '+'
    · exact .inr (.inl ⟨rest, by rw [hp]⟩)
    exact .inr (.inr ⟨by simpa using hm, by simpa using hp⟩)

theorem Text.head?_asciiLower_ne {t : Text} {c : Char} (hc : c.isAlpha = false)
    (h : t.head? ≠ some c) : (asciiLower t).head? ≠ some c := by
  cases t with
  | nil => simp [asciiLower]
  | cons d t =>
    rw [List.head?_cons, ne_eq, Option.some.injEq] at h
    rwa [asciiLower_cons, List.head?_cons, ne_eq, Option.some.injEq, toLower_eq_iff hc]

/-- A reader that looks at the sign first is blind to case if it is so behind every sign. -/
theorem Text.apply_asciiLower_of_signed {A : Type} {f plain : Text → A}
    (hminus : ∀ t, f ('-' :: asciiLower t) = f ('-' :: t))
    (hplus : ∀ t, f ('+' :: asciiLower t) = f ('+' :: t))
    (hplain : ∀ t, t.head? ≠ some '-' → t.head? ≠ some '+' → f t = plain t)
    (h : ∀ t, plain (asciiLower t) = plain t) (t : Text) : f (asciiLower t) = f t := by
  rcases signed_cases t with ⟨rest, rfl⟩ | ⟨rest, rfl⟩ | ⟨hm, hp⟩
  · exact hminus rest
  · exact hplus rest
  · rw [hplain _ (head?_asciiLower_ne (by decide) hm) (head?_asciiLower_ne (by decide) hp),
      hplain t hm hp, h]

namespace Numeral

open Text

theorem toLower_of_isDigit {c : Char} (h : c.isDigit = true) : c.toLower = c := by
  have hcapitals : capitals.Forall fun c => c.isDigit = false := by decide
  by_contra hc
  have hdigit := List.forall_iff_forall_mem.mp hcapitals c (mem_capitals hc)
  exact Bool.noConfusion (h.symm.trans hdigit)

@[simp]
theorem ofDigits?_asciiLower (t : Text) : ofDigits? (asciiLower t) = ofDigits? t := by
  have hall : (asciiLower t).all Char.isDigit = t.all Char.isDigit := by
    simp [asciiLower, Function.comp_def]
  by_cases hdigits : t.all Char.isDigit = true
  · have hself : asciiLower t = t :=
      (List.map_congr_left fun c hc =>
        toLower_of_isDigit (List.all_eq_true.mp hdigits c hc)).trans (List.map_id t)
    rw [hself]
  · unfold ofDigits?
    rw [hall, eq_false_of_ne_true hdigits]
    simp

theorem readInt_of_unsigned {min max : Int} {t : Text} (hm : t.head? ≠ some '-')
    (hp : t.head? ≠ some '+') :
    readInt min max t =
      ((ofDigits? t).map Int.ofNat).filter fun n => min ≤ n ∧ n ≤ max := by
  unfold readInt
  split
  next => exact absurd rfl hm
  next => exact absurd rfl hp
  next => rfl

theorem readInt_asciiLower (min max : Int) (t : Text) :
    readInt min max (asciiLower t) = readInt min max t := by
  refine apply_asciiLower_of_signed (fun t => ?_) (fun t => ?_) (fun _ => readInt_of_unsigned)
    (fun t => ?_) t
  · rw [readInt, readInt, ofDigits?_asciiLower]
  · rw [readInt, readInt, ofDigits?_asciiLower]
  · rw [ofDigits?_asciiLower]

end Numeral

namespace Binary64

open Text

theorem readExponent_of_unsigned {t : Text} (hm : t.head? ≠ some '-') (hp : t.head? ≠ some '+') :
    readExponent t = (Numeral.ofDigits? t).map Int.ofNat := by
  unfold readExponent
  split
  next => exact absurd rfl hm
  next => exact absurd rfl hp
  next => rfl

theorem readExponent_asciiLower (t : Text) : readExponent (asciiLower t) = readExponent t := by
  refine apply_asciiLower_of_signed (fun t => ?_) (fun t => ?_) (fun _ => readExponent_of_unsigned)
    (fun t => ?_) t
  · rw [readExponent, readExponent, Numeral.ofDigits?_asciiLower]
  · rw [readExponent, readExponent, Numeral.ofDigits?_asciiLower]
  · rw [Numeral.ofDigits?_asciiLower]

/-- The decimal of some digits, of which so many stand behind the point, and an exponent. -/
def scaled (digits : Text) (decimals : Nat) (exponent : Text) : Option Nat :=
  (Numeral.ofDigits? digits).bind fun n =>
    match exponent with
    | [] => some (ofDecimal n (-decimals))
    | e :: rest =>
      if e = 'e' ∨ e = 'E' then (readExponent rest).map fun k => ofDecimal n (k - decimals)
      else none

theorem scaled_asciiLower (digits : Text) (decimals : Nat) (exponent : Text) :
    scaled (asciiLower digits) decimals (asciiLower exponent) = scaled digits decimals exponent := by
  have hmark (e : Char) : (e.toLower = 'e' ∨ e.toLower = 'E') = (e = 'e' ∨ e = 'E') := by
    have h := apply_toLower (f := fun e => decide (e = 'e' ∨ e = 'E')) (by decide) e
    exact propext (decide_eq_decide.mp h)
  unfold scaled
  rw [Numeral.ofDigits?_asciiLower]
  cases exponent with
  | nil => rfl
  | cons e rest => simp only [asciiLower_cons, hmark, readExponent_asciiLower]

/-- A point may follow the digits that a text starts with, and behind it more of them. -/
theorem readDecimal_of_point {t rest : Text} (h : t.dropWhile Char.isDigit = '.' :: rest) :
    readDecimal t =
      scaled (t.takeWhile Char.isDigit ++ rest.takeWhile Char.isDigit)
        (rest.takeWhile Char.isDigit).length (rest.dropWhile Char.isDigit) := by
  unfold readDecimal
  rw [List.span_eq_takeWhile_dropWhile, h]
  simp only [List.span_eq_takeWhile_dropWhile]
  rfl

theorem readDecimal_of_no_point {t : Text} (h : (t.dropWhile Char.isDigit).head? ≠ some '.') :
    readDecimal t = scaled (t.takeWhile Char.isDigit) 0 (t.dropWhile Char.isDigit) := by
  unfold readDecimal
  rw [List.span_eq_takeWhile_dropWhile]
  dsimp only
  split
  next rest hrest =>
    rw [hrest] at h
    exact absurd rfl h
  next =>
    dsimp only
    rw [List.append_nil]
    rfl

theorem readDecimal_asciiLower (t : Text) : readDecimal (asciiLower t) = readDecimal t := by
  have hdrop := dropWhile_asciiLower isDigit_toLower t
  by_cases hpoint : (t.dropWhile Char.isDigit).head? = some '.'
  · obtain ⟨rest, hrest⟩ := List.head?_eq_some_iff.mp hpoint
    have hrest' : (asciiLower t).dropWhile Char.isDigit = '.' :: asciiLower rest := by
      rw [hdrop, hrest]
      rfl
    have hdigits (a b : Text) : asciiLower a ++ asciiLower b = asciiLower (a ++ b) :=
      List.map_append.symm
    have hlength (a : Text) : (asciiLower a).length = a.length := List.length_map _
    rw [readDecimal_of_point hrest, readDecimal_of_point hrest',
      takeWhile_asciiLower isDigit_toLower, takeWhile_asciiLower isDigit_toLower,
      dropWhile_asciiLower isDigit_toLower, hdigits, hlength, scaled_asciiLower]
  · have hpoint' : ((asciiLower t).dropWhile Char.isDigit).head? ≠ some '.' := by
      rw [hdrop]
      exact head?_asciiLower_ne (by decide) hpoint
    rw [readDecimal_of_no_point hpoint, readDecimal_of_no_point hpoint', hdrop,
      takeWhile_asciiLower isDigit_toLower, scaled_asciiLower]

theorem readUnsigned_asciiLower (negative : Bool) (t : Text) :
    readUnsigned negative (asciiLower t) = readUnsigned negative t := by
  rw [readUnsigned, readUnsigned, asciiLower_asciiLower, readDecimal_asciiLower]

theorem read_of_unsigned {t : Text} (hm : t.head? ≠ some '-') (hp : t.head? ≠ some '+') :
    read t = readUnsigned false t := by
  unfold read
  split
  next => exact absurd rfl hm
  next => exact absurd rfl hp
  next => rfl

theorem read_asciiLower (t : Text) : read (asciiLower t) = read t :=
  apply_asciiLower_of_signed (readUnsigned_asciiLower true) (readUnsigned_asciiLower false)
    (fun _ => read_of_unsigned) (readUnsigned_asciiLower false) t

end Binary64

/-- The letters of a numeral may have any case. -/
theorem Number.read_asciiLower (k : Kind) (t : Text) :
    read k (Text.asciiLower t) = read k t := by
  cases k with
  | text => rfl
  | integer => exact congrArg (Option.map integer) (Numeral.readInt_asciiLower _ _ t)
  | real => exact congrArg (Option.map real) (Binary64.read_asciiLower t)

end GameShelf
