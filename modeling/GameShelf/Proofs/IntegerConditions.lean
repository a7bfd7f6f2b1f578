import GameShelf.Proofs.Comparable
import GameShelf.Proofs.Numerals

namespace GameShelf

namespace Operator

/-- The relation between integers that an operator asks for, if it asks for one. -/
def Relates : Operator → Int → Int → Prop
  | equal, m, n => m = n
  | different, m, n => m ≠ n
  | greater, m, n => m > n
  | less, m, n => m < n
  | atLeast, m, n => m ≥ n
  | atMost, m, n => m ≤ n
  | contains, _, _ => False

theorem holds_compare_iff {o : Operator} {m n : Int} :
    o.holds (compare m n) = true ↔ o.Relates m n := by
  cases o with
  | equal => simp [holds, Relates]
  | different => simp [holds, Relates]
  | greater => simp [holds, Relates, Int.compare_eq_gt]
  | less => simp [holds, Relates, Int.compare_eq_lt]
  | atLeast => simp [holds, Relates, Int.compare_eq_lt]
  | atMost => simp [holds, Relates, Int.compare_eq_gt]
  | contains => simp [holds, Relates]

end Operator

/-- A field of a game that holds a whole number, of whatever width. -/
def Game.integer? (g : Game) : Attribute → Option Int
  | .id => some g.id.toInt
  | .rank => some g.rank.toNat
  | .minPlayers => some g.minPlayers.toNat
  | .maxPlayers => some g.maxPlayers.toNat
  | .minPlayTime => some g.minPlayTime.toNat
  | .maxPlayTime => some g.maxPlayTime.toNat
  | .year => some g.year.toInt
  | .name | .rating | .difficulty => none

namespace Condition

variable {a : Attribute} {v : Text} {o : Operator} {g : Game}

theorem exists_integer (ha : a.kind = .integer) (g : Game) :
    ∃ m, g.integer? a = some m ∧ HasAttributes.value g a = .number (.integer m) := by
  cases a
  case name => cases ha
  case rating => cases ha
  case difficulty => cases ha
  all_goals exact ⟨_, rfl, rfl⟩

theorem relation?_integer_eq_some_iff (ha : a.kind = .integer) {m : Int} {s : Ordering} :
    relation? a v (.number (.integer m)) = some s ↔
      ∃ n, Numeral.readLong (Text.dropBlanks v) = some n ∧ compare m n = s := by
  rw [relation?, read_normalize, ha, Number.read, Option.bind_map, Option.bind_eq_some_iff]
  simp [Number.compare?]

/-- On a field with whole numbers a condition is a relation between integers, however they are
stored, provided its text denotes one of sixty-four bits. -/
theorem accepts_integer_iff (ha : a.kind = .integer) (ho : o ≠ .contains) (g : Game) (v : Text) :
    (make a o v).accepts g = true ↔
      ∃ m n : Int, g.integer? a = some m ∧ Numeral.Denotes (Text.dropBlanks v) n ∧
        -2 ^ 63 ≤ n ∧ n ≤ 2 ^ 63 - 1 ∧ o.Relates m n := by
  obtain ⟨m, hm, hvalue⟩ := exists_integer ha g
  rw [accepts_make_iff ho, hvalue]
  simp only [relation?_integer_eq_some_iff ha, Numeral.readLong_eq_some_iff]
  constructor
  · rintro ⟨s, ⟨n, ⟨hn, hmin, hmax⟩, rfl⟩, hs⟩
    exact ⟨m, n, hm, hn, hmin, hmax, Operator.holds_compare_iff.mp hs⟩
  · rintro ⟨m', n, hm', hn, hmin, hmax, hrel⟩
    obtain rfl : m = m' := Option.some.inj (hm.symm.trans hm')
    exact ⟨_, ⟨n, ⟨hn, hmin, hmax⟩, rfl⟩, Operator.holds_compare_iff.mpr hrel⟩

/-- A game with the least id there is. -/
def leastGame : Game := { Game.ofName [] with id := Int64.minValue }

theorem leastGame_accepted :
    Attribute.id.kind = .integer ∧ Operator.atMost ≠ .contains ∧ Operator.different ≠ .contains ∧
    (make .id .atMost " - 92233720368547758 08".toList).accepts leastGame = true ∧
    (make .id .different "9223372036854775808".toList).accepts leastGame = false := by
  have hdigits : Numeral.Digits "9223372036854775808".toList := by decide
  have hvalue : Numeral.decimalValue "9223372036854775808".toList = 2 ^ 63 := by decide
  refine ⟨rfl, by decide, by decide, ?_, ?_⟩
  · have htext : Text.dropBlanks " - 92233720368547758 08".toList =
        '-' :: "9223372036854775808".toList := by decide
    have hminus := Numeral.Denotes.minus hdigits
    rw [hvalue, ← htext, Nat.cast_pow, Nat.cast_ofNat] at hminus
    exact (accepts_integer_iff rfl (by decide) leastGame _).mpr
      ⟨-2 ^ 63, -2 ^ 63, rfl, hminus, by decide, by decide, le_refl _⟩
  · refine eq_false_of_ne_true fun haccepts => ?_
    -- the text denotes an integer, but one that is too large
    obtain ⟨-, n, -, hn, -, hmax, -⟩ :=
      (accepts_integer_iff rfl (by decide) leastGame _).mp haccepts
    obtain ⟨-, rfl⟩ := (Numeral.denotes_iff_of_unsigned (by decide) (by decide)).mp hn
    exact absurd hmax (by decide)

end Condition

end GameShelf
