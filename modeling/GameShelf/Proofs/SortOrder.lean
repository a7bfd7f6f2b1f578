import GameShelf.Game
import GameShelf.SortKey
import Mathlib.Data.Set.Defs

namespace GameShelf
open Std

/-- Among the elements of a set a comparison is a total preorder. -/
structure PreorderOn {A : Type} (cmp : A → A → Ordering) (S : Set A) : Prop where
  refl : ∀ a ∈ S, cmp a a = .eq
  swap : ∀ a ∈ S, ∀ b ∈ S, cmp b a = (cmp a b).swap
  trans : ∀ a ∈ S, ∀ b ∈ S, ∀ c ∈ S, cmp a b ≠ .gt → cmp b c ≠ .gt → cmp a c ≠ .gt

theorem PreorderOn.of_transCmp {A : Type} {cmp cmp' : A → A → Ordering} [TransCmp cmp']
    {S : Set A} (h : ∀ a ∈ S, ∀ b ∈ S, cmp a b = cmp' a b) : PreorderOn cmp S where
  refl a ha := by
    rw [h a ha a ha]
    exact ReflCmp.compare_self
  swap a ha b hb := by
    rw [h b hb a ha, h a ha b hb]
    exact OrientedCmp.eq_swap
  trans a ha b hb c hc := by
    rw [h a ha b hb, h b hb c hc, h a ha c hc]
    simp only [ne_eq, Ordering.ne_gt_iff_isLE]
    exact TransCmp.isLE_trans

namespace Binary64

/-- The place of every bit pattern in a sorted list: one place for all that is not a number, above
those of the total order. -/
def sortRank (x : Binary64) : Int := if x.isNaN then signBit else x.totalRank

theorem magnitude_lt (x : Binary64) : x.magnitude < signBit := Nat.mod_lt _ (by decide)

theorem totalRank_lt (x : Binary64) : x.totalRank < signBit := by
  have := x.magnitude_lt
  unfold totalRank
  split <;> omega

theorem sortCompare_eq (x y : Binary64) : x.sortCompare y = compare x.sortRank y.sortRank := by
  have hx := x.totalRank_lt
  have hy := y.totalRank_lt
  unfold sortCompare sortRank
  cases x.isNaN <;> cases y.isNaN
  · rfl
  · exact (Int.compare_eq_lt.mpr hx).symm
  · exact (Int.compare_eq_gt.mpr hy).symm
  · exact ReflOrd.compare_self.symm

end Binary64

namespace Number

/-- What numbers are sorted by, among those of their kind. -/
def sortRank : Number → Int
  | integer n => n
  | real x => x.sortRank

theorem sortCompare?_eq {m n : Number} (h : m.kind = n.kind) :
    m.sortCompare? n = some (compare m.sortRank n.sortRank) := by
  cases m <;> cases n
  case integer.integer => rfl
  case real.real x y => exact congrArg some (x.sortCompare_eq y)
  all_goals exact Kind.noConfusion h

end Number

namespace Value

/-- What texts are sorted by, and nothing for all else. -/
def sortText : Value → Text
  | text t => t.flatMap Text.lowerChar
  | _ => []

/-- What numbers are sorted by, and nothing for all else. -/
def sortRank : Value → Int
  | number n => n.sortRank
  | _ => 0

/-- A total preorder on the values of all kinds, in which the missing ones come last. -/
def order : Value → Value → Ordering :=
  compareLex (compareOn isMissing) (compareLex (compareOn sortText) (compareOn sortRank))

instance : TransCmp order := by
  unfold order
  infer_instance

/-- Whether a value is of one kind, unless it is missing. -/
def Fits (k : Kind) (v : Value) : Prop := v = missing ∨ v.kind? = some k

instance (k : Kind) (v : Value) : Decidable (v.Fits k) := inferInstanceAs (Decidable (_ ∨ _))

@[simp]
theorem fits_text {k : Kind} {t : Text} : (text t).Fits k ↔ k = .text := by
  simp [Fits, kind?, eq_comm]

@[simp]
theorem fits_number {k : Kind} {n : Number} : (number n).Fits k ↔ k = n.kind := by
  simp [Fits, kind?, eq_comm]

/-- Among the values of one kind, and missing ones, sorted lists follow the preorder. -/
theorem sortCompare?_eq {k : Kind} {v w : Value} (hv : v.Fits k) (hw : w.Fits k) :
    v.sortCompare? w = some (order v w) := by
  cases v with
  | missing => cases w <;> rfl
  | text s =>
    cases w with
    | missing => rfl
    | text t => exact congrArg some Ordering.then_eq.symm
    | number n => cases n <;> simp_all [Number.kind]
  | number m =>
    cases w with
    | missing => rfl
    | text t => cases m <;> simp_all [Number.kind]
    | number n =>
      rw [fits_number] at hv hw
      exact Number.sortCompare?_eq (hv.symm.trans hw)

end Value

/-- Whether the records have values of one kind for an attribute, or none. -/
def Attribute.OneKind {R : Type} [HasAttributes R] (a : Attribute) (S : Set R) : Prop :=
  ∃ k, ∀ r ∈ S, (HasAttributes.value r a).Fits k

theorem Game.oneKind (a : Attribute) (S : Set Game) : a.OneKind S :=
  ⟨a.kind, fun _ _ => .inr (by cases a <;> rfl)⟩

/-- A game of which only the name is known. -/
def Game.ofName (name : Text) : Game :=
  ⟨name, 0, .ofMagnitude false 0, .ofMagnitude false 0, 0, 0, 0, 0, 0, 0⟩

namespace Direction

theorem apply_opposite (d : Direction) (o : Ordering) : d.opposite.apply o = (d.apply o).swap := by
  cases d
  · rfl
  · exact Ordering.swap_swap.symm

instance (d : Direction) {A : Type} (cmp : A → A → Ordering) [TransCmp cmp] :
    TransCmp fun a b => d.apply (cmp a b) := by
  cases d with
  | ascending => exact ‹TransCmp cmp›
  | descending =>
    have h : (fun a b => descending.apply (cmp a b)) = fun a b => cmp b a := by
      funext a b
      exact OrientedCmp.eq_swap.symm
    rw [h]
    exact TransCmp.opposite

end Direction

namespace SortKey

variable {R : Type} [HasAttributes R]

/-- The preorder on records of all kinds that a key stands for. -/
def order (key : SortKey) (r s : R) : Ordering :=
  key.direction.apply
    (Value.order (HasAttributes.value r key.field) (HasAttributes.value s key.field))

instance (key : SortKey) : TransCmp (key.order (R := R)) :=
  have h : TransCmp fun v w => key.direction.apply (Value.order v w) := inferInstance
  { eq_swap := h.eq_swap, isLE_trans := h.isLE_trans }

theorem compare_eq_order {key : SortKey} {k : Kind} {r s : R}
    (hr : (HasAttributes.value r key.field).Fits k)
    (hs : (HasAttributes.value s key.field).Fits k) : key.compare r s = key.order r s := by
  rw [compare, order, Value.sortCompare?_eq hr hs, Option.getD_some]

theorem compare_preorderOn (key : SortKey) {S : Set R} (hS : key.field.OneKind S) :
    PreorderOn key.compare S := by
  obtain ⟨k, hk⟩ := hS
  exact PreorderOn.of_transCmp fun r hr s hs => compare_eq_order (hk r hr) (hk s hs)

theorem compare_reversed (key : SortKey) (r s : R) :
    key.reversed.compare r s = (key.compare r s).swap :=
  key.direction.apply_opposite _

theorem compare_missing {key : SortKey} (hkey : key.direction = .ascending) {r s : R}
    (hr : HasAttributes.value r key.field = .missing)
    (hs : HasAttributes.value s key.field ≠ .missing) :
    key.compare s r = .lt ∧ key.compare r s = .gt := by
  unfold compare
  rw [hkey, hr]
  cases hv : HasAttributes.value s key.field with
  | missing => exact absurd hv hs
  | text t => exact ⟨rfl, rfl⟩
  | number n => exact ⟨rfl, rfl⟩

theorem compare_reals {key : SortKey} (hkey : key.direction = .ascending) {r s : R}
    {x y : Binary64} (hr : HasAttributes.value r key.field = .number (.real x))
    (hs : HasAttributes.value s key.field = .number (.real y)) :
    key.compare r s = x.sortCompare y := by
  rw [compare, hkey, hr, hs]
  rfl

/-- A key orders records whose values are of one kind, or missing. Ascending, what is not a number
comes behind all that is, and a missing value behind every other. -/
theorem compare_total_preorder (key : SortKey) (S : Set R) (hS : key.field.OneKind S) :
    PreorderOn key.compare S ∧
    (∀ r s : R, key.reversed.compare r s = (key.compare r s).swap) ∧
    (key.direction = .ascending →
      (∀ r s : R, HasAttributes.value r key.field = .missing →
        HasAttributes.value s key.field ≠ .missing →
        key.compare s r = .lt ∧ key.compare r s = .gt) ∧
      ∀ (r s : R) (x y : Binary64), HasAttributes.value r key.field = .number (.real x) →
        HasAttributes.value s key.field = .number (.real y) → x.isNaN = true →
        (y.isNaN = true → key.compare r s = .eq) ∧
        (y.isNaN = false → key.compare s r = .lt ∧ key.compare r s = .gt)) := by
  refine ⟨key.compare_preorderOn hS, key.compare_reversed, fun hkey => ⟨?_, ?_⟩⟩
  · intro r s hr hs
    exact compare_missing hkey hr hs
  · intro r s x y hr hs hx
    rw [compare_reals hkey hr hs, compare_reals hkey hs hr, Binary64.sortCompare,
      Binary64.sortCompare, hx]
    exact ⟨fun hy => by rw [hy], fun hy => by rw [hy]; exact ⟨rfl, rfl⟩⟩

/-- A value by itself is a record that has it for every attribute. -/
instance : HasAttributes Value := ⟨fun v _ => v⟩

/-- All bit patterns, and a missing value, in one set. -/
theorem reals_total_preorder :
    Attribute.rating.OneKind {v : Value | v.Fits .real} ∧
    PreorderOn (compare ⟨.rating, .ascending, rfl⟩) {v : Value | v.Fits .real} ∧
    compare ⟨.rating, .ascending, rfl⟩ (Value.number (.real (.notANumber true)))
      (Value.number (.real (.ofMagnitude false Binary64.infinite))) = .gt := by
  have hS : Attribute.rating.OneKind {v : Value | v.Fits .real} := ⟨.real, fun _ h => h⟩
  have h := compare_total_preorder ⟨.rating, .ascending, rfl⟩ _ hS
  exact ⟨hS, h.1, (((h.2.2 rfl).2 _ _ _ _ rfl rfl (by decide)).2 (by decide)).2⟩

end SortKey

end GameShelf
