import GameShelf.Proofs.SortedBlocks
import GameShelf.Proofs.Text

namespace GameShelf

/-- What belongs to one of some classes is found class by class, each of it once. -/
theorem flatMap_filter_perm {A B : Type} [BEq B] [LawfulBEq B] (f : A → B) (classes : List B)
    (hnodup : classes.Nodup) (l : List A) :
    (classes.flatMap fun o => l.filter fun a => f a == o).Perm
      (l.filter fun a => classes.contains (f a)) := by
  induction classes with
  | nil => simp
  | cons o classes ih =>
    obtain ⟨ho, hnodup'⟩ := List.nodup_cons.mp hnodup
    have hfirst : (l.filter fun a => (o :: classes).contains (f a)).filter (fun a => f a == o) =
        l.filter fun a => f a == o := by
      rw [List.filter_filter]
      refine List.filter_congr fun a _ => ?_
      by_cases ha : f a = o <;> simp [ha]
    have hothers :
        (l.filter fun a => (o :: classes).contains (f a)).filter (fun a => !(f a == o)) =
          l.filter fun a => classes.contains (f a) := by
      rw [List.filter_filter]
      refine List.filter_congr fun a _ => ?_
      by_cases ha : f a = o <;> simp [ha, ho]
    have hcut := List.filter_append_perm (fun a => f a == o)
      (l.filter fun a => (o :: classes).contains (f a))
    rw [hfirst, hothers] at hcut
    rw [List.flatMap_cons]
    exact ((ih hnodup').append_left _).trans hcut

namespace Number

theorem isSome_compare?_iff {m n : Number} :
    (m.compare? n).isSome = true ↔ m.kind = n.kind ∧ m.isNaN = false ∧ n.isNaN = false := by
  cases m <;> cases n
  case integer.integer => simp [compare?, kind, isNaN]
  case real.real x y => simp [compare?, Binary64.compare?, kind, isNaN]
  all_goals simp [compare?, kind]

end Number

namespace Condition

variable {R : Type} [HasAttributes R] {a : Attribute} {v : Text} {r : R}

/-- Whether a value can be compared with that of a clause. It must have the kind of the attribute,
and a number has to meet a text that denotes one of the same kind, neither of them NaN. -/
def Comparable (a : Attribute) (v : Text) : Value → Prop
  | .text _ => a.kind = .text
  | .number m =>
    m.kind = a.kind ∧ m.isNaN = false ∧
      ∃ n, Number.read a.kind (Text.dropBlanks v) = some n ∧ n.isNaN = false
  | .missing => False

theorem normalize_of_isNumeric {k : Kind} (h : k.isNumeric = true) (t : Text) :
    normalize k t = Text.dropBlanks t := by
  cases k with
  | text => cases h
  | integer => rfl
  | real => rfl

theorem read_normalize (k : Kind) (t : Text) :
    Number.read k (normalize k t) = Number.read k (Text.dropBlanks t) := by
  cases k <;> rfl

theorem isSome_relation?_iff {w : Value} :
    (relation? a v w).isSome = true ↔ Comparable a v w := by
  cases w with
  | missing => exact iff_of_false Bool.false_ne_true id
  | text t =>
    rw [relation?, Option.isSome_ite]
    rfl
  | number m =>
    rw [relation?, read_normalize, Comparable]
    cases hread : Number.read a.kind (Text.dropBlanks v) with
    | none => simp
    | some n =>
      rw [Option.bind_some, Number.isSome_compare?_iff, Query.kind_of_read hread]
      simp

instance (w : Value) : Decidable (Comparable a v w) :=
  decidable_of_iff _ isSome_relation?_iff

theorem accepts_of_not_comparable (h : ¬Comparable a v (HasAttributes.value r a)) {o : Operator}
    (ho : o ≠ .contains) : (make a o v).accepts r = false := by
  rw [← isSome_relation?_iff, Option.not_isSome_iff_eq_none] at h
  rw [accepts_make ho, h]
  rfl

/-- The three relations exclude each other, and one of them holds if there is anything to compare. -/
theorem countP_accepts (a : Attribute) (v : Text) (r : R) :
    [Operator.less, .equal, .greater].countP (fun o => (make a o v).accepts r) =
      if Comparable a v (HasAttributes.value r a) then 1 else 0 := by
  simp only [← isSome_relation?_iff]
  rw [List.countP_cons, List.countP_cons, List.countP_cons, List.countP_nil,
    accepts_make (by decide), accepts_make (by decide), accepts_make (by decide)]
  rcases relation? a v (HasAttributes.value r a) with _ | _ | _ | _ <;> rfl

theorem accepts_different_iff :
    (make a .different v).accepts r = !(make a .equal v).accepts r ↔
      Comparable a v (HasAttributes.value r a) := by
  rw [← isSome_relation?_iff, accepts_make (by decide), accepts_make (by decide)]
  rcases relation? a v (HasAttributes.value r a) with _ | _ | _ | _ <;> decide

/-- The other three operators are made up of those. -/
theorem accepts_unions (a : Attribute) (v : Text) (r : R) :
    (make a .atMost v).accepts r = ((make a .less v).accepts r || (make a .equal v).accepts r) ∧
    (make a .atLeast v).accepts r =
      ((make a .greater v).accepts r || (make a .equal v).accepts r) ∧
    (make a .different v).accepts r =
      ((make a .less v).accepts r || (make a .greater v).accepts r) := by
  simp (disch := decide) only [accepts_make]
  rcases relation? a v (HasAttributes.value r a) with _ | _ | _ | _ <;> decide

theorem Comparable.kind?_eq {w : Value} (h : Comparable a v w) : w.kind? = some a.kind := by
  cases w with
  | missing => cases h
  | text t => exact congrArg some (Eq.symm h)
  | number m => exact congrArg some h.1

theorem accepts_contains_of_number {n : Number} (h : HasAttributes.value r a = .number n) :
    (make a .contains v).accepts r = true ↔
      a.kind.isNumeric = true ∧ Text.dropBlanks v <:+: n.text := by
  rw [accepts, show (make a .contains v).field = a from rfl, h, acceptsValue, Bool.and_eq_true]
  refine and_congr_right fun hnum => ?_
  rw [← normalize_of_isNumeric hnum, ← Text.occursIn_iff]
  rfl

theorem accepts_contains_of_text {t : Text} (ha : a.kind = .text)
    (h : HasAttributes.value r a = .text t) :
    (make a .contains v).accepts r = true ↔ Text.lower (Text.trim v) <:+: Text.lower t := by
  have hvalue : (make a .contains v).value = Text.trim v := by
    rw [make, ha]
    rfl
  have hfield : ((make a .contains v).field.kind == .text) = true := beq_iff_eq.mpr ha
  rw [accepts, show (make a .contains v).field = a from rfl, h, acceptsValue, hfield, Bool.true_and,
    acceptsText, hvalue]
  exact Text.occursIn_iff

/-- Values of another kind than that of the attribute are accepted by no operator but containment,
which looks for its text in that of any number. -/
theorem accepts_other_kind (h : (HasAttributes.value r a).kind? ≠ some a.kind) (v : Text) :
    (∀ o : Operator, o ≠ .contains → (make a o v).accepts r = false) ∧
    ((make a .contains v).accepts r = true ↔
      a.kind.isNumeric = true ∧
        ∃ n, HasAttributes.value r a = .number n ∧ Text.dropBlanks v <:+: n.text) := by
  refine ⟨fun o ho => accepts_of_not_comparable (mt Comparable.kind?_eq h) ho, ?_⟩
  cases hr : HasAttributes.value r a with
  | missing =>
    have hnot : (make a .contains v).accepts r = false := congrArg (acceptsValue _) hr
    simp [hnot]
  | text t =>
    have hkind : (a.kind == .text) = false := by
      rw [hr] at h
      exact beq_false_of_ne fun hkind => h (congrArg some hkind.symm)
    have hnot : (make a .contains v).accepts r = (a.kind == .text && _) :=
      congrArg (acceptsValue _) hr
    rw [hkind] at hnot
    simp [hnot]
  | number n =>
    rw [accepts_contains_of_number hr]
    simp

/-- A whole number where a rating belongs is read as a rating by containment alone. -/
theorem wholeRating_contained :
    (HasAttributes.value (Value.number (.integer 8)) .rating).kind? ≠ some Attribute.rating.kind ∧
    (make .rating .different "9".toList).accepts (Value.number (.integer 8)) = false ∧
    (make .rating .contains " 8".toList).accepts (Value.number (.integer 8)) = true := by
  have h : (HasAttributes.value (Value.number (.integer 8)) .rating).kind? ≠
      some Attribute.rating.kind := by decide
  refine ⟨h, (accepts_other_kind h "9".toList).1 .different (by decide), ?_⟩
  refine (accepts_other_kind h " 8".toList).2.mpr ⟨rfl, .integer 8, rfl, ?_⟩
  exact List.infix_refl _

/-- A condition on one kind of number that accepts one of another kind. -/
theorem wholeRating_not_refused :
    ¬∀ (c : Attribute) (o : Operator) (v : Text) (w : Value),
      (HasAttributes.value w c).kind? ≠ some c.kind → (make c o v).accepts w = false := by
  intro h
  have hfalse := h .rating .contains "8".toList (.number (.integer 8)) (by decide)
  have htrue : (make .rating .contains "8".toList).accepts (Value.number (.integer 8)) = true := by
    decide +kernel
  rw [htrue] at hfalse
  cases hfalse

end Condition

namespace Query

open Condition

variable {R : Type} [HasAttributes R]

variable {a : Attribute} {v : Text} {records : List R} {key : SortKey}

theorem view_ofOrdering_perm (o : Ordering) :
    ((only (make a (.ofOrdering o) v)).view records key).entries.Perm
      (records.zipIdx.filter fun e => relation? a v (HasAttributes.value e.1 a) == some o) := by
  have h := view_perm (only (make a (.ofOrdering o) v)) records key
  rw [chosen] at h
  refine h.trans (.of_eq (List.filter_congr fun e _ => ?_))
  rw [Bool.eq_iff_iff, accepts_only, accepts_ofOrdering_iff, beq_iff_eq]

/-- Every entry that can be compared is in one of the three views, and in that view once. -/
theorem view_parts_perm (a : Attribute) (v : Text) (records : List R) (key : SortKey) :
    (((only (make a .less v)).view records key).entries ++
      ((only (make a .equal v)).view records key).entries ++
      ((only (make a .greater v)).view records key).entries).Perm
      (records.zipIdx.filter fun e => Comparable a v (HasAttributes.value e.1 a)) := by
  have hclasses := flatMap_filter_perm
    (fun e : R × Nat => relation? a v (HasAttributes.value e.1 a))
    [some .lt, some .eq, some .gt] (by decide) records.zipIdx
  have hcomparable (w : Value) : [some .lt, some .eq, some .gt].contains (relation? a v w) =
      decide (Comparable a v w) := by
    rw [Bool.eq_iff_iff, decide_eq_true_iff, ← isSome_relation?_iff]
    rcases relation? a v w with _ | _ | _ | _ <;> decide
  simp only [List.flatMap_cons, List.flatMap_nil, List.append_nil, hcomparable] at hclasses
  rw [List.append_assoc]
  exact ((view_ofOrdering_perm .lt).append
    ((view_ofOrdering_perm .eq).append (view_ofOrdering_perm .gt))).trans hclasses

/-- What the six operators by order have to do with each other: three of them exclude each other,
the others are made up of those, and one of the three holds just where there are two things to
compare. So the three cut the records that can be compared into parts. -/
theorem ordered_conditions_partition (a : Attribute) (v : Text) :
    (∀ r : R,
      (make a .atMost v).accepts r = ((make a .less v).accepts r || (make a .equal v).accepts r) ∧
      (make a .atLeast v).accepts r =
        ((make a .greater v).accepts r || (make a .equal v).accepts r) ∧
      (make a .different v).accepts r =
        ((make a .less v).accepts r || (make a .greater v).accepts r) ∧
      [Operator.less, .equal, .greater].countP (fun o => (make a o v).accepts r) =
        (if Comparable a v (HasAttributes.value r a) then 1 else 0) ∧
      (¬Comparable a v (HasAttributes.value r a) →
        ∀ o : Operator, o ≠ .contains → (make a o v).accepts r = false) ∧
      ((make a .different v).accepts r = !(make a .equal v).accepts r ↔
        Comparable a v (HasAttributes.value r a))) ∧
    ∀ (records : List R) (key : SortKey),
      (((only (make a .less v)).view records key).entries ++
        ((only (make a .equal v)).view records key).entries ++
        ((only (make a .greater v)).view records key).entries).Perm
        (records.zipIdx.filter fun e => Comparable a v (HasAttributes.value e.1 a)) := by
  refine ⟨fun r => ?_, view_parts_perm a v⟩
  obtain ⟨hatMost, hatLeast, hdifferent⟩ := accepts_unions a v r
  exact ⟨hatMost, hatLeast, hdifferent, countP_accepts a v r,
    fun h _ => accepts_of_not_comparable h, accepts_different_iff⟩

/-- Values of every kind where a rating belongs: NaN, 8.0, 7.5, a whole number, a text, nothing. -/
def oddRatings : List Value :=
  [.number (.real (.notANumber false)), .number (.real (.ofMagnitude false 0x4020000000000000)),
    .number (.real (.ofMagnitude false 0x401E000000000000)), .number (.integer 8),
    .text "8".toList, .missing]

theorem oddRatings_parts :
    (((only (make .rating .less " 8".toList)).view oddRatings ⟨.rating, .ascending, rfl⟩).entries ++
      ((only (make .rating .equal " 8".toList)).view oddRatings ⟨.rating, .ascending, rfl⟩).entries ++
      ((only (make .rating .greater " 8".toList)).view oddRatings
        ⟨.rating, .ascending, rfl⟩).entries).Perm
      [(.number (.real (.ofMagnitude false 0x4020000000000000)), 1),
        (.number (.real (.ofMagnitude false 0x401E000000000000)), 2)] ∧
    (make .rating .different " 8".toList).accepts (Value.number (.integer 8)) = false := by
  obtain ⟨hrecord, hviews⟩ := ordered_conditions_partition (R := Value) .rating " 8".toList
  have hwhole : ¬Comparable .rating " 8".toList (.number (.integer 8)) := by decide
  have hparts := hviews oddRatings ⟨.rating, .ascending, rfl⟩
  have hcomparable : (oddRatings.zipIdx.filter fun e => Comparable .rating " 8".toList e.1) =
      [(.number (.real (.ofMagnitude false 0x4020000000000000)), 1),
        (.number (.real (.ofMagnitude false 0x401E000000000000)), 2)] := by decide +kernel
  obtain ⟨-, -, -, -, hnone, -⟩ := hrecord (.number (.integer 8))
  exact ⟨hparts.trans (.of_eq hcomparable), hnone hwhole .different (by decide)⟩

end Query

end GameShelf
