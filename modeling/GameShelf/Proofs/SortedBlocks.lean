import GameShelf.Proofs.View

namespace GameShelf
open Std

section

variable {A : Type} {l : List A}

/-- A list in which what `p` accepts comes before all else falls into two blocks. -/
theorem filter_append_filter_not {p : A → Bool}
    (h : l.Pairwise fun a b => p b = true → p a = true) :
    l.filter p ++ l.filter (fun a => !p a) = l := by
  induction l with
  | nil => rfl
  | cons a l ih =>
    obtain ⟨ha, hl⟩ := List.pairwise_cons.mp h
    cases hp : p a with
    | true => simp [hp, ih hl]
    | false =>
      -- nothing behind the first element is accepted either
      have hnone : ∀ b ∈ l, p b = false := fun b hb =>
        Bool.eq_false_iff.mpr fun hb' => by simp [ha b hb hb'] at hp
      have hempty : l.filter p = [] := List.filter_eq_nil_iff.mpr fun b hb => by simp [hnone b hb]
      have hrest : l.filter (fun b => !p b) = l :=
        List.filter_eq_self.mpr fun b hb => by simp [hnone b hb]
      simp [hp, hempty, hrest]

/-- A list whose elements stand in the order of their classes is made of one block a class. -/
theorem flatMap_filter_classes {B : Type} [BEq B] [LawfulBEq B] {f : A → B}
    {before : B → B → Prop} {classes : List B} (hnodup : classes.Nodup)
    (hclasses : classes.Pairwise fun o o' => ¬before o' o) (hmem : ∀ a ∈ l, f a ∈ classes)
    (h : l.Pairwise fun a b => before (f a) (f b)) :
    (classes.flatMap fun o => l.filter fun a => f a == o) = l := by
  induction classes generalizing l with
  | nil => rw [List.eq_nil_iff_forall_not_mem.mpr fun a ha => nomatch hmem a ha]; rfl
  | cons o classes ih =>
    obtain ⟨ho, hnodup'⟩ := List.nodup_cons.mp hnodup
    obtain ⟨hfirst, hclasses'⟩ := List.pairwise_cons.mp hclasses
    have hcut : l.Pairwise fun a b => (f b == o) = true → (f a == o) = true := by
      refine h.imp_of_mem fun {a b} ha _ hab hb => ?_
      rw [beq_iff_eq] at hb ⊢
      exact (List.mem_cons.mp (hmem a ha)).resolve_right fun ha' => hfirst _ ha' (hb ▸ hab)
    -- the other classes are found among what the first one leaves
    have hrest : (classes.flatMap fun o' => l.filter fun a => f a == o') =
        l.filter fun a => !(f a == o) := by
      rw [← ih hnodup' hclasses' (l := l.filter fun a => !(f a == o)) ?_ (h.filter _)]
      · refine List.flatMap_congr fun o' ho' => ?_
        rw [List.filter_filter]
        refine List.filter_congr fun a _ => ?_
        rw [Bool.eq_iff_iff, Bool.and_eq_true, beq_iff_eq, Bool.not_eq_true', beq_eq_false_iff_ne]
        exact ⟨fun ha => ⟨ha, fun ha' => ho (ha' ▸ ha ▸ ho')⟩, And.left⟩
      · intro a ha
        obtain ⟨hal, hao⟩ := List.mem_filter.mp ha
        rw [Bool.not_eq_true', beq_eq_false_iff_ne] at hao
        exact (List.mem_cons.mp (hmem a hal)).resolve_left hao
    rw [List.flatMap_cons, hrest]
    exact filter_append_filter_not hcut

end

/-- The operator that asks for an order. -/
def Operator.ofOrdering : Ordering → Operator
  | .lt => less
  | .eq => equal
  | .gt => greater

namespace Condition

/-- How a value stands to that of a clause on an attribute, if the two can be compared. -/
def relation? (a : Attribute) (v : Text) : Value → Option Ordering
  | .text t =>
    if a.kind = .text then some (compare (Text.lower t) (Text.lower (normalize a.kind v))) else none
  | .number m => (Number.read a.kind (normalize a.kind v)).bind m.compare?
  | .missing => none

/-- All but containment is decided by how the values stand to each other. -/
theorem acceptsValue_make (a : Attribute) {o : Operator} (ho : o ≠ .contains) (v : Text)
    (w : Value) : (make a o v).acceptsValue w = ((relation? a v w).map o.holds).getD false := by
  cases w with
  | missing => rfl
  | text t =>
    have htext : (make a o v).acceptsText t =
        o.holds (compare (Text.lower t) (Text.lower (normalize a.kind v))) := by
      cases o <;> first | rfl | exact absurd rfl ho
    rw [acceptsValue, relation?, htext]
    cases h : a.kind <;> simp [make, h]
  | number m =>
    have hnumber : (make a o v).acceptsNumber m = ((relation? a v (.number m)).map o.holds).getD false := by
      cases o <;> first | rfl | exact absurd rfl ho
    rw [acceptsValue, hnumber, relation?]
    cases h : a.kind <;> simp [make, h, Kind.isNumeric, Number.read]

section

variable {R : Type} [HasAttributes R] {a : Attribute} {v : Text} {r : R}

theorem accepts_make {o : Operator} (ho : o ≠ .contains) :
    (make a o v).accepts r =
      ((relation? a v (HasAttributes.value r a)).map o.holds).getD false :=
  acceptsValue_make a ho v (HasAttributes.value r a)

theorem accepts_make_iff {o : Operator} (ho : o ≠ .contains) :
    (make a o v).accepts r = true ↔
      ∃ s, relation? a v (HasAttributes.value r a) = some s ∧ o.holds s = true := by
  rw [accepts_make ho]
  cases relation? a v (HasAttributes.value r a) <;> simp

theorem accepts_ofOrdering_iff {o : Ordering} :
    (make a (.ofOrdering o) v).accepts r = true ↔
      relation? a v (HasAttributes.value r a) = some o := by
  have ho : Operator.ofOrdering o ≠ .contains := by cases o <;> decide
  have hholds : ∀ o' : Ordering, (Operator.ofOrdering o).holds o' = true ↔ o' = o := by
    cases o <;> decide
  simp only [accepts_make_iff ho, hholds, exists_eq_right]

/-- A record that is neither less than a value nor equal to it nor greater. -/
def aside (a : Attribute) (v : Text) (r : R) : Bool :=
  [Operator.less, .equal, .greater].all fun o => !(make a o v).accepts r

theorem aside_iff : aside a v r = true ↔ relation? a v (HasAttributes.value r a) = none := by
  have h (o : Ordering) : (make a (.ofOrdering o) v).accepts r = false ↔
      relation? a v (HasAttributes.value r a) ≠ some o := by
    rw [← Bool.not_eq_true, accepts_ofOrdering_iff]
  rw [aside, List.all_cons, List.all_cons, List.all_cons, List.all_nil]
  simp only [Bool.and_eq_true, Bool.not_eq_true', and_true]
  rw [show Operator.less = .ofOrdering .lt from rfl, show Operator.equal = .ofOrdering .eq from rfl,
    show Operator.greater = .ofOrdering .gt from rfl, h, h, h]
  rcases relation? a v (HasAttributes.value r a) with _ | _ | _ | _ <;> simp

end

/-- The block that a record belongs to, by how it stands to a value. -/
def block : Option Ordering → Nat
  | some .lt => 0
  | some .eq => 1
  | some .gt => 2
  | none => 3

/-- Every relation, block by block. -/
def blocks : List (Option Ordering) := [some .lt, some .eq, some .gt, none]

theorem mem_blocks (o : Option Ordering) : o ∈ blocks := by
  rcases o with _ | _ | _ | _ <;> decide

/-- What stands further up in an order belongs to no earlier block. -/
theorem block_le_of_isLE {A : Type} {cmp : A → A → Ordering} [TransCmp cmp] {x y : A} (z : A)
    (h : (cmp x y).isLE = true) : block (some (cmp x z)) ≤ block (some (cmp y z)) := by
  cases hy : cmp y z with
  | lt => rw [TransCmp.lt_of_isLE_of_lt h hy]
  | eq =>
    have hx : (cmp x z).isLE = true := TransCmp.isLE_trans h (by rw [hy]; rfl)
    cases hxz : cmp x z with
    | lt => decide
    | eq => decide
    | gt => rw [hxz] at hx; exact Bool.noConfusion hx
  | gt => cases cmp x z <;> decide

end Condition

namespace Query

variable {R : Type} [HasAttributes R] {records : List R} {key : SortKey}

/-- The query that asks for one condition. -/
def only (c : Condition) : Query := ⟨[c], none⟩

theorem accepts_only (c : Condition) (r : R) : (only c).accepts r = c.accepts r := by
  rw [accepts, only, List.all_cons, List.all_nil, Bool.and_true]

theorem chosen_all (records : List R) : all.chosen records = records.zipIdx :=
  List.filter_true _

/-- Records may be sorted before or after they are selected. -/
theorem view_entries_eq_filter (hp : PreorderOn key.compare {r | r ∈ records}) {q : Query}
    (hq : q.sort? = none) :
    (q.view records key).entries =
      (all.view records key).entries.filter fun e => q.accepts e.1 := by
  have hkey : q.sortOr key = key := by rw [sortOr, hq, Option.getD_none]
  rw [view_entries, view_entries, hkey, chosen, ← chosen_all]
  exact (Sorting.filter_sort (SortKey.orders_of_preorderOn hp Prod.fst)
    (fun e he => mem_records_of_mem_chosen he) (chosen_pairwise all records)
    (fun _ _ => Nat.lt_asymm) _).symm

/-- What the key puts in order stands in order in the view of all records. -/
theorem view_all_pairwise (hp : PreorderOn key.compare {r | r ∈ records}) {rel : R → R → Prop}
    (h : ∀ r ∈ records, ∀ s ∈ records, key.compare r s ≠ .gt → rel r s) :
    (all.view records key).entries.Pairwise fun e f => rel e.1 f.1 := by
  have hview : (all.view records key).entries.Pairwise (MayPrecede key) :=
    view_mayPrecede (q := all) hp
  refine hview.imp_of_mem fun {e f} he hf hef => ?_
  have hmem {e : R × Nat} (he : e ∈ (all.view records key).entries) : e.1 ∈ records :=
    mem_records_of_mem_chosen ((view_perm all records key).mem_iff.mp he)
  exact h _ (hmem he) _ (hmem hf) ((mayPrecede_iff hp (hmem he) (hmem hf)).mp hef).1

section

open Condition

variable {a : Attribute} {v : Text}

/-- The entries of a view whose records stand to a value in one relation, or in none. -/
def part (a : Attribute) (v : Text) (records : List R) (key : SortKey) :
    Option Ordering → List (R × Nat)
  | some o => ((only (make a (.ofOrdering o) v)).view records key).entries
  | none => (all.view records key).entries.filter fun e => aside a v e.1

theorem part_eq_filter (hp : PreorderOn key.compare {r | r ∈ records}) (o : Option Ordering) :
    part a v records key o = (all.view records key).entries.filter fun e =>
      relation? a v (HasAttributes.value e.1 a) == o := by
  cases o with
  | none =>
    refine List.filter_congr fun e _ => ?_
    rw [Bool.eq_iff_iff, aside_iff, beq_iff_eq]
  | some o =>
    rw [part, view_entries_eq_filter hp rfl]
    refine List.filter_congr fun e _ => ?_
    rw [Bool.eq_iff_iff, accepts_only, accepts_ofOrdering_iff, beq_iff_eq]

/-- A key that follows the relation to a value cuts the view of all records along it. -/
theorem view_all_eq_parts (hp : PreorderOn key.compare {r | r ∈ records})
    (before : Option Ordering → Option Ordering → Prop) (relations : List (Option Ordering))
    (hnodup : relations.Nodup) (hrelations : relations.Pairwise fun o o' => ¬before o' o)
    (hmem : ∀ o, o ∈ relations)
    (h : ∀ r ∈ records, ∀ s ∈ records, key.compare r s ≠ .gt →
      before (relation? a v (HasAttributes.value r a)) (relation? a v (HasAttributes.value s a))) :
    (all.view records key).entries = relations.flatMap (part a v records key) := by
  rw [funext (part_eq_filter hp)]
  exact (flatMap_filter_classes hnodup hrelations (fun _ _ => hmem _) (view_all_pairwise hp h)).symm

/-- Where sorting by an attribute goes from block to block, the blocks follow each other, from
either end. -/
theorem view_all_blocks (ha : a.isSortable = true) (hk : a.OneKind {r | r ∈ records})
    (h : ∀ r ∈ records, ∀ s ∈ records, SortKey.compare ⟨a, .ascending, ha⟩ r s ≠ .gt →
      block (relation? a v (HasAttributes.value r a)) ≤
        block (relation? a v (HasAttributes.value s a))) :
    (all.view records ⟨a, .ascending, ha⟩).entries =
      ((only (.make a .less v)).view records ⟨a, .ascending, ha⟩).entries ++
        ((only (.make a .equal v)).view records ⟨a, .ascending, ha⟩).entries ++
        ((only (.make a .greater v)).view records ⟨a, .ascending, ha⟩).entries ++
        (all.view records ⟨a, .ascending, ha⟩).entries.filter (fun e => aside a v e.1) ∧
    (all.view records ⟨a, .descending, ha⟩).entries =
      (all.view records ⟨a, .descending, ha⟩).entries.filter (fun e => aside a v e.1) ++
        ((only (.make a .greater v)).view records ⟨a, .descending, ha⟩).entries ++
        ((only (.make a .equal v)).view records ⟨a, .descending, ha⟩).entries ++
        ((only (.make a .less v)).view records ⟨a, .descending, ha⟩).entries := by
  have hp (d : Direction) : PreorderOn (SortKey.compare ⟨a, d, ha⟩) {r | r ∈ records} :=
    SortKey.compare_preorderOn _ hk
  constructor
  · have hparts := view_all_eq_parts (hp .ascending) (block · ≤ block ·) blocks (by decide)
      (by decide) mem_blocks h
    simpa only [blocks, List.flatMap_cons, List.flatMap_nil, List.append_nil, List.append_assoc,
      part, Operator.ofOrdering] using hparts
  · have hdown : ∀ r ∈ records, ∀ s ∈ records, SortKey.compare ⟨a, .descending, ha⟩ r s ≠ .gt →
        SortKey.compare ⟨a, .ascending, ha⟩ s r ≠ .gt := by
      intro r hr s hs hle
      rwa [(hp .ascending).swap r hr s hs]
    have hparts := view_all_eq_parts (hp .descending) (fun o o' => block o' ≤ block o)
      blocks.reverse (by decide) (by decide) (fun o => List.mem_reverse.mpr (mem_blocks o))
      fun r hr s hs hle => h s hs r hr (hdown r hr s hs hle)
    simpa only [blocks, List.reverse_cons, List.reverse_nil, List.nil_append, List.cons_append,
      List.flatMap_cons, List.flatMap_nil, List.append_nil, List.append_assoc, part,
      Operator.ofOrdering] using hparts

end

end Query

namespace Binary64

/-- The total order keeps to the order of numbers, except that it tells the zeros apart. -/
theorem rank_le_rank {x y : Binary64} (h : x.totalRank ≤ y.totalRank) : x.rank ≤ y.rank := by
  unfold totalRank at h
  unfold rank
  split at h <;> split at h <;> simp_all; omega

end Binary64

namespace Number

def isNaN : Number → Bool
  | integer _ => false
  | real x => x.isNaN

/-- The place of a number in the order of its kind, with both zeros in one place. -/
def rank : Number → Int
  | integer n => n
  | real x => x.rank

variable {m n : Number}

theorem compare?_of_isNaN (hm : m.isNaN = true) : m.compare? n = none := by
  cases m with
  | integer i => exact Bool.noConfusion hm
  | real x =>
    cases n with
    | integer j => rfl
    | real y => exact if_pos (by rw [show x.isNaN = true from hm]; rfl)

theorem compare?_eq (h : m.kind = n.kind) (hm : m.isNaN = false) (hn : n.isNaN = false) :
    m.compare? n = some (compare m.rank n.rank) := by
  cases m <;> cases n
  case integer.integer => rfl
  case real.real x y =>
    exact if_neg (by rw [show x.isNaN = false from hm, show y.isNaN = false from hn]; decide)
  all_goals exact Kind.noConfusion h

/-- Sorting refines the order of numbers, and puts what is not a number behind all of them. -/
theorem le_of_sortRank_le (h : m.kind = n.kind) (hle : m.sortRank ≤ n.sortRank)
    (hn : n.isNaN = false) : m.isNaN = false ∧ m.rank ≤ n.rank := by
  cases m <;> cases n
  case integer.integer => exact ⟨rfl, hle⟩
  case real.real x y =>
    change x.isNaN = false ∧ x.rank ≤ y.rank
    change y.isNaN = false at hn
    have hy := y.totalRank_lt
    unfold sortRank Binary64.sortRank at hle
    cases hx : x.isNaN with
    | true => simp only [hx, hn, if_true, Bool.false_eq_true, if_false] at hle; omega
    | false =>
      simp only [hx, hn, Bool.false_eq_true, if_false] at hle
      exact ⟨rfl, Binary64.rank_le_rank hle⟩
  all_goals exact Kind.noConfusion h

/-- A number further up in a sorted list belongs to no earlier block. -/
theorem block_le_of_sortRank_le {k : Number} (h : m.kind = n.kind) (hk : n.kind = k.kind)
    (hkn : k.isNaN = false) (hle : m.sortRank ≤ n.sortRank) :
    Condition.block (m.compare? k) ≤ Condition.block (n.compare? k) := by
  cases hn : n.isNaN with
  | true =>
    rw [compare?_of_isNaN hn]
    rcases m.compare? k with _ | _ | _ | _ <;> decide
  | false =>
    obtain ⟨hm, hrank⟩ := le_of_sortRank_le h hle hn
    rw [compare?_eq (h.trans hk) hm hkn, compare?_eq hk hn hkn]
    exact Condition.block_le_of_isLE _ (Int.isLE_compare.mpr hrank)

end Number

theorem Attribute.isNumeric_of_ne_name {a : Attribute} (ha : a ≠ .name) :
    a.kind.isNumeric = true := by
  cases a
  case name => exact absurd rfl ha
  all_goals rfl

theorem Game.exists_number {a : Attribute} (ha : a ≠ .name) (g : Game) :
    ∃ m, HasAttributes.value g a = .number m ∧ m.kind = a.kind := by
  cases a
  case name => exact absurd rfl ha
  all_goals exact ⟨_, rfl, rfl⟩

namespace Query

section

open Condition

variable {a : Attribute} {v : Text} {n : Number}

theorem ne_name_of_read (hn : Number.read a.kind (normalize a.kind v) = some n) : a ≠ .name := by
  rintro rfl
  cases hn

theorem kind_of_read {k : Kind} {t : Text} (hn : Number.read k t = some n) : n.kind = k := by
  cases k with
  | text => cases hn
  | integer =>
    obtain ⟨i, -, rfl⟩ := Option.map_eq_some_iff.mp hn
    rfl
  | real =>
    obtain ⟨x, -, rfl⟩ := Option.map_eq_some_iff.mp hn
    rfl

theorem relation?_number (hn : Number.read a.kind (normalize a.kind v) = some n) (m : Number) :
    relation? a v (.number m) = m.compare? n := by
  rw [relation?, hn, Option.bind_some]

/-- What is further up in a list sorted by a number belongs to no earlier block. -/
theorem block_of_compare (hn : Number.read a.kind (normalize a.kind v) = some n)
    (hnan : n.isNaN = false) (ha : a.isSortable = true) {g h : Game}
    (hle : SortKey.compare ⟨a, .ascending, ha⟩ g h ≠ .gt) :
    block (relation? a v (HasAttributes.value g a)) ≤
      block (relation? a v (HasAttributes.value h a)) := by
  obtain ⟨m, hg, hm⟩ := g.exists_number (ne_name_of_read hn)
  obtain ⟨m', hh, hm'⟩ := h.exists_number (ne_name_of_read hn)
  have hsort : (Value.number m).sortCompare? (.number m') =
      some (compare m.sortRank m'.sortRank) :=
    Number.sortCompare?_eq (hm.trans hm'.symm)
  unfold SortKey.compare at hle
  rw [hg, hh, hsort] at hle
  rw [hg, hh, relation?_number hn, relation?_number hn]
  exact Number.block_le_of_sortRank_le (hm.trans hm'.symm) (hm'.trans (kind_of_read hn).symm) hnan
    (Int.compare_ne_gt.mp hle)

/-- Sorted by a numeric attribute, the games below a number, those at it, those above it and those
that have no number make up one block each, in this order or, descending, in the opposite one. -/
theorem view_numeric_blocks (games : List Game) (ha : a.isSortable = true)
    (hn : Number.read a.kind (normalize a.kind v) = some n) (hnan : n.isNaN = false) :
    (all.view games ⟨a, .ascending, ha⟩).entries =
      ((only (.make a .less v)).view games ⟨a, .ascending, ha⟩).entries ++
        ((only (.make a .equal v)).view games ⟨a, .ascending, ha⟩).entries ++
        ((only (.make a .greater v)).view games ⟨a, .ascending, ha⟩).entries ++
        (all.view games ⟨a, .ascending, ha⟩).entries.filter (fun e => aside a v e.1) ∧
    (all.view games ⟨a, .descending, ha⟩).entries =
      (all.view games ⟨a, .descending, ha⟩).entries.filter (fun e => aside a v e.1) ++
        ((only (.make a .greater v)).view games ⟨a, .descending, ha⟩).entries ++
        ((only (.make a .equal v)).view games ⟨a, .descending, ha⟩).entries ++
        ((only (.make a .less v)).view games ⟨a, .descending, ha⟩).entries ∧
    ∀ g : Game, aside a v g = true ↔
      ∃ m, HasAttributes.value g a = .number m ∧ m.isNaN = true := by
  obtain ⟨hup, hdown⟩ := view_all_blocks ha (Game.oneKind a {g | g ∈ games})
    fun g _ h _ hle => block_of_compare hn hnan ha hle
  refine ⟨hup, hdown, fun g => ?_⟩
  obtain ⟨m, hg, hm⟩ := g.exists_number (ne_name_of_read hn)
  rw [aside_iff, hg, relation?_number hn]
  constructor
  · intro hnone
    refine ⟨m, rfl, eq_true_of_ne_false fun hm' => ?_⟩
    rw [Number.compare?_eq (hm.trans (kind_of_read hn).symm) hm' hnan] at hnone
    cases hnone
  · rintro ⟨_, ⟨⟩, hm'⟩
    exact Number.compare?_of_isNaN hm'

/-- Ratings on both sides of zero, both zeros, and one that is no number. -/
def zeroRatings : List Game :=
  [.ofMagnitude false 0, .notANumber true, .ofMagnitude true 0, .ofMagnitude true 1,
    .ofMagnitude false Binary64.infinite, .ofMagnitude true 0].map fun x =>
      ⟨[], 0, x, x, 0, 0, 0, 0, 0, 0⟩

theorem zeroRatings_blocks :
    Attribute.rating.isSortable = true ∧
    Number.read .real (normalize .real " - 0 ".toList) = some (.real (.ofMagnitude true 0)) ∧
    ((all.view zeroRatings ⟨.rating, .ascending, rfl⟩).positions = [3, 2, 5, 0, 4, 1]) ∧
    (all.view zeroRatings ⟨.rating, .descending, rfl⟩).positions = [1, 4, 0, 2, 5, 3] := by
  have hn : Number.read Attribute.rating.kind (normalize Attribute.rating.kind " - 0 ".toList) =
      some (.real (.ofMagnitude true 0)) := by decide +kernel
  obtain ⟨hup, hdown, -⟩ := view_numeric_blocks zeroRatings rfl hn (by decide)
  refine ⟨rfl, hn, ?_, ?_⟩
  · rw [View.positions, hup]
    decide +kernel
  · rw [View.positions, hdown]
    decide +kernel

end

end Query

end GameShelf
