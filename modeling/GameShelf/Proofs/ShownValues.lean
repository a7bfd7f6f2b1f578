import GameShelf.Proofs.Comparable
import GameShelf.Proofs.WrittenNumbers

namespace GameShelf

theorem Operator.holds_eq_iff {o : Operator} :
    o.holds .eq = true ↔ o ∈ [Operator.equal, .atLeast, .atMost] := by
  cases o <;> decide

theorem Number.compare?_self {n : Number} (h : n.isNaN = false) : n.compare? n = some .eq := by
  rw [compare?_eq rfl h h, Std.ReflOrd.compare_self]

/-- Whether a value has the kind of a number, but is none. -/
def Value.isNaN : Value → Bool
  | .number n => n.isNaN
  | _ => false

/-- What a game has for an attribute is of the attribute's kind, and no number of it is too long. -/
theorem Game.kind_eq_and_isLong {g : Game} {a : Attribute} {n : Number}
    (h : HasAttributes.value g a = .number n) : n.kind = a.kind ∧ n.IsLong := by
  have hlong (n : Int64) : -2 ^ 63 ≤ n.toInt ∧ n.toInt ≤ 2 ^ 63 - 1 :=
    ⟨n.le_toInt, Int.le_sub_one_of_lt n.toInt_lt⟩
  have hword (n : UInt32) : -2 ^ 63 ≤ (n.toNat : Int) ∧ (n.toNat : Int) ≤ 2 ^ 63 - 1 := by
    have := n.toNat_lt
    omega
  have hyear : -2 ^ 63 ≤ g.year.toInt ∧ g.year.toInt ≤ 2 ^ 63 - 1 := by
    have := g.year.le_toInt
    have := g.year.toInt_lt
    omega
  cases a
  case name => cases h
  case rating | difficulty =>
    cases h
    exact ⟨rfl, trivial⟩
  case id =>
    cases h
    exact ⟨rfl, hlong g.id⟩
  case year =>
    cases h
    exact ⟨rfl, hyear⟩
  all_goals
    cases h
    exact ⟨rfl, hword _⟩

theorem Game.written_infix_describe (g : Game) (a : Attribute) :
    (HasAttributes.value g a).written <:+: g.describe a := by
  by_cases ha : a = .name
  · rw [ha]
    exact List.infix_refl g.name
  · have hdescribe : g.describe a =
        g.name ++ " (".toList ++ a.label ++ ": ".toList ++ (HasAttributes.value g a).written ++
          [')'] := by
      cases a
      case name => exact absurd rfl ha
      all_goals rfl
    rw [hdescribe]
    exact List.infix_append _ _ _

namespace Condition

variable {R : Type} [HasAttributes R] {a : Attribute} {v : Text} {r : R}

/-- The operators that accept a record whose value is equal to that of the clause, and contains its
text. -/
theorem accepts_iff_of_relation?_eq (hcontains : (make a .contains v).accepts r = true)
    (h : relation? a v (HasAttributes.value r a) = some .eq) (o : Operator) :
    (make a o v).accepts r = true ↔
      o = .contains ∨ o ∈ [Operator.equal, .atLeast, .atMost] := by
  by_cases ho : o = .contains
  · rw [ho]
    exact iff_of_true hcontains (.inl rfl)
  · rw [accepts_make_iff ho, h, ← Operator.holds_eq_iff]
    simp [ho]

/-- A text without blanks around it finds the records that have it. -/
theorem accepts_own_text {t : Text} (ha : a.kind = .text) (htrim : Text.trim t = t)
    (hr : HasAttributes.value r a = .text t) (o : Operator) :
    (make a o t).accepts r = true ↔ o = .contains ∨ o ∈ [Operator.equal, .atLeast, .atMost] := by
  have hnormal : normalize a.kind t = t := by rw [ha, normalize, htrim]
  have hcontains : (make a .contains t).accepts r = true := by
    have hiff := accepts_contains_of_text (v := t) ha hr
    rw [htrim] at hiff
    exact hiff.mpr (List.infix_refl _)
  refine accepts_iff_of_relation?_eq hcontains ?_ o
  rw [hr, relation?, if_pos ha, hnormal, Std.ReflOrd.compare_self]

/-- The text of a number finds the records that have the number, though not by its place in the
order if it is NaN. -/
theorem accepts_own_number {n : Number} (hkind : n.kind = a.kind) (hlong : n.IsLong)
    (hr : HasAttributes.value r a = .number n) (o : Operator) :
    (make a o n.text).accepts r = true ↔
      o = .contains ∨ n.isNaN = false ∧ o ∈ [Operator.equal, .atLeast, .atMost] := by
  have hcontains : (make a .contains n.text).accepts r = true := by
    rw [accepts_contains_of_number hr, n.dropBlanks_text, ← hkind]
    exact ⟨by cases n <;> rfl, List.infix_refl _⟩
  cases hnan : n.isNaN with
  | false =>
    have hequal : relation? a n.text (HasAttributes.value r a) = some .eq := by
      rw [hr, relation?, read_normalize, n.dropBlanks_text, ← hkind, Number.read_text hlong hnan,
        Option.bind_some, Number.compare?_self hnan]
    rw [accepts_iff_of_relation?_eq hcontains hequal]
    simp
  | true =>
    -- the text may be read as NaN, but that is in no order, not even with itself
    have hnone : ¬Comparable a n.text (HasAttributes.value r a) := by
      rw [hr]
      exact fun h => Bool.false_ne_true (h.2.1.symm.trans hnan)
    by_cases ho : o = .contains
    · rw [ho]
      exact iff_of_true hcontains (.inl rfl)
    · rw [accepts_of_not_comparable hnone ho]
      simp [ho]

end Condition

namespace Game

open Condition

/-- The text that is shown of a game finds the game, for every attribute: by containment, and by
each operator that accepts equal values unless the value is NaN. -/
theorem accepts_shown_value (g : Game) (hname : Text.trim g.name = g.name) (a : Attribute) :
    (HasAttributes.value g a).written <:+: g.describe a ∧
    ∀ o, (make a o (HasAttributes.value g a).written).accepts g = true ↔
      o = .contains ∨
        (HasAttributes.value g a).isNaN = false ∧ o ∈ [Operator.equal, .atLeast, .atMost] := by
  refine ⟨written_infix_describe g a, fun o => ?_⟩
  cases h : HasAttributes.value g a with
  | missing => cases a <;> cases h
  | number n =>
    obtain ⟨hkind, hlong⟩ := kind_eq_and_isLong h
    exact accepts_own_number hkind hlong h o
  | text t =>
    obtain ⟨ha, ht⟩ : a = .name ∧ t = g.name := by
      cases a <;> cases h
      exact ⟨rfl, rfl⟩
    rw [ht] at h ⊢
    rw [Value.written, accepts_own_text (by rw [ha]; rfl) hname h o]
    exact or_congr_right (iff_and_self.mpr fun _ => rfl)

/-- The numbers at the ends of their ranges, a negative zero and a NaN. -/
def extreme : Game :=
  ⟨"Go".toList, Int64.minValue, .ofMagnitude true 0, .notANumber false, 0xFFFFFFFF, 0, 0, 0, 0,
    Int32.minValue⟩

theorem extreme_found :
    Text.trim extreme.name = extreme.name ∧
    (make .id .atMost "-9223372036854775808".toList).accepts extreme = true ∧
    (make .rating .equal "-0.0".toList).accepts extreme = true ∧
    (make .difficulty .contains "NaN".toList).accepts extreme = true ∧
    (make .difficulty .equal "NaN".toList).accepts extreme = false := by
  have hname : Text.trim extreme.name = extreme.name := by decide
  have hshown := extreme.accepts_shown_value hname
  have hid : "-9223372036854775808".toList = (HasAttributes.value extreme .id).written := by decide
  have hrating : "-0.0".toList = (HasAttributes.value extreme .rating).written := by
    decide +kernel
  have hdifficulty : "NaN".toList = (HasAttributes.value extreme .difficulty).written := by decide
  rw [hid, hrating, hdifficulty]
  refine ⟨hname, ?_, ?_, ?_, ?_⟩
  · exact ((hshown .id).2 .atMost).mpr (.inr ⟨rfl, by decide⟩)
  · exact ((hshown .rating).2 .equal).mpr (.inr ⟨by decide, by decide⟩)
  · exact ((hshown .difficulty).2 .contains).mpr (.inl rfl)
  · exact eq_false_of_ne_true (mt ((hshown .difficulty).2 .equal).mp (by decide))

end Game

end GameShelf
