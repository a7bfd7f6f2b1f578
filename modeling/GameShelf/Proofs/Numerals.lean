import GameShelf.Proofs.NumberCase
import Mathlib.Data.List.Induction
import Mathlib.Data.Nat.Digits.Defs

namespace GameShelf.Numeral

/-- One or more decimal digits of ASCII. -/
def Digits (t : Text) : Prop := t ≠ [] ∧ ∀ c ∈ t, c.isDigit = true

instance (t : Text) : Decidable (Digits t) :=
  decidable_of_iff (t ≠ [] ∧ t.all Char.isDigit = true) (and_congr_right fun _ => List.all_eq_true)

/-- The number that digits stand for by their places. -/
def decimalValue (digits : Text) : Nat :=
  Nat.ofDigits 10 (digits.reverse.map fun c => c.toNat - '0'.toNat)

/-- Integers are written as digits, with or without a sign in front. -/
inductive Denotes : Text → Int → Prop where
  | plain {digits : Text} (h : Digits digits) : Denotes digits (decimalValue digits)
  | plus {digits : Text} (h : Digits digits) : Denotes ('+' :: digits) (decimalValue digits)
  | minus {digits : Text} (h : Digits digits) : Denotes ('-' :: digits) (-decimalValue digits)

theorem decimalValue_append_singleton (t : Text) (c : Char) :
    decimalValue (t ++ [c]) = 10 * decimalValue t + (c.toNat - '0'.toNat) := by
  unfold decimalValue
  rw [List.reverse_append, List.reverse_singleton, List.singleton_append, List.map_cons,
    Nat.ofDigits_cons, Nat.add_comm]

theorem ofDigitChars_eq (t : Text) : Nat.ofDigitChars 10 t 0 = decimalValue t := by
  induction t using List.reverseRecOn with
  | nil => rfl
  | append_singleton t c ih =>
    rw [Nat.ofDigitChars_append, ih, decimalValue_append_singleton]
    rfl

theorem ofDigits?_eq_some_iff {t : Text} {n : Nat} :
    ofDigits? t = some n ↔ Digits t ∧ decimalValue t = n := by
  unfold ofDigits?
  rw [ofDigitChars_eq, Option.ite_none_left_eq_some, Bool.or_eq_true, not_or, List.isEmpty_iff,
    Bool.not_eq_true', Bool.not_eq_false, List.all_eq_true, Option.some.injEq, Digits]

section

variable {t digits : Text} {n min max : Int}

theorem not_digits_cons {c : Char} (hc : c.isDigit = false) (t : Text) : ¬Digits (c :: t) :=
  fun h => Bool.false_ne_true (hc.symm.trans (h.2 c List.mem_cons_self))

theorem denotes_minus_iff :
    Denotes ('-' :: digits) n ↔ Digits digits ∧ -Int.ofNat (decimalValue digits) = n := by
  constructor
  · rintro (h | h | h)
    · exact absurd h (not_digits_cons (by decide) _)
    · exact ⟨h, rfl⟩
  · rintro ⟨h, rfl⟩
    exact .minus h

theorem denotes_plus_iff :
    Denotes ('+' :: digits) n ↔ Digits digits ∧ Int.ofNat (decimalValue digits) = n := by
  constructor
  · rintro (h | h | h)
    · exact absurd h (not_digits_cons (by decide) _)
    · exact ⟨h, rfl⟩
  · rintro ⟨h, rfl⟩
    exact .plus h

theorem denotes_iff_of_unsigned (hm : t.head? ≠ some '-') (hp : t.head? ≠ some '+') :
    Denotes t n ↔ Digits t ∧ Int.ofNat (decimalValue t) = n := by
  constructor
  · rintro (h | h | h)
    · exact ⟨h, rfl⟩
    · exact absurd rfl hp
    · exact absurd rfl hm
  · rintro ⟨h, rfl⟩
    exact .plain h

theorem readInt_minus (min max : Int) (digits : Text) :
    readInt min max ('-' :: digits) =
      ((ofDigits? digits).map fun k => -Int.ofNat k).filter fun n => min ≤ n ∧ n ≤ max := by
  rw [readInt]
  cases ofDigits? digits <;> rfl

theorem readInt_plus (min max : Int) (digits : Text) :
    readInt min max ('+' :: digits) =
      ((ofDigits? digits).map Int.ofNat).filter fun n => min ≤ n ∧ n ≤ max := by
  rw [readInt]

theorem filter_map_ofDigits?_eq_some_iff {f : Nat → Int} :
    ((ofDigits? digits).map f).filter (fun n => min ≤ n ∧ n ≤ max) = some n ↔
      (Digits digits ∧ f (decimalValue digits) = n) ∧ min ≤ n ∧ n ≤ max := by
  rw [Option.filter_eq_some_iff, Option.map_eq_some_iff, decide_eq_true_iff]
  simp only [ofDigits?_eq_some_iff, and_assoc, exists_eq_left', exists_and_left]

/-- A numeral is read just where it denotes an integer within the bounds. -/
theorem readInt_eq_some_iff :
    readInt min max t = some n ↔ Denotes t n ∧ min ≤ n ∧ n ≤ max := by
  rcases t.signed_cases with ⟨digits, rfl⟩ | ⟨digits, rfl⟩ | ⟨hm, hp⟩
  · rw [denotes_minus_iff, readInt_minus, filter_map_ofDigits?_eq_some_iff]
  · rw [denotes_plus_iff, readInt_plus, filter_map_ofDigits?_eq_some_iff]
  · rw [denotes_iff_of_unsigned hm hp, readInt_of_unsigned hm hp, filter_map_ofDigits?_eq_some_iff]

theorem readLong_eq_some_iff :
    readLong t = some n ↔ Denotes t n ∧ -2 ^ 63 ≤ n ∧ n ≤ 2 ^ 63 - 1 := by
  rw [readLong, readInt_eq_some_iff]
  norm_num

end

end GameShelf.Numeral
