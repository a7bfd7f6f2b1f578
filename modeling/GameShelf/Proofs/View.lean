import GameShelf.Proofs.SortOrder
import GameShelf.Proofs.StableSort
import GameShelf.Query
import Mathlib.Data.List.Chain
import Mathlib.Data.List.Nodup

namespace GameShelf

namespace SortKey

variable {R : Type} [HasAttributes R]

theorem orders_of_preorderOn {key : SortKey} {S : Set R} (h : PreorderOn key.compare S)
    {A : Type} (record : A → R) :
    Sorting.Orders (fun a b => (key.compare (record a) (record b)).isLE)
      (fun a => record a ∈ S) where
  total {a b} ha hb := by
    rw [h.swap (record a) ha (record b) hb]
    cases key.compare (record a) (record b) <;> decide
  trans {a b c} ha hb hc hab hbc := by
    rw [Ordering.isLE_iff_ne_gt] at *
    exact h.trans _ ha _ hb _ hc hab hbc

/-- Records that compare alike are sorted alike. -/
theorem sortOn_congr {A S : Type} [HasAttributes S] {key : SortKey} {record : A → R}
    {record' : A → S} {items : List A}
    (h : ∀ a ∈ items, ∀ b ∈ items,
      key.compare (record a) (record b) = key.compare (record' a) (record' b)) :
    key.sortOn record items = key.sortOn record' items := by
  have hmap : (key.sortOn record items).map id = key.sortOn record' (items.map id) :=
    Sorting.map_sort id fun a ha b hb => congrArg Ordering.isLE (h a ha b hb)
  rwa [List.map_id, List.map_id] at hmap

end SortKey

namespace Query

variable {R : Type} [HasAttributes R]

/-- What entries must be to show the outcome of a query in the order of a key: each record that is
accepted is there once, and of records that compare equal the earlier one stands ahead. -/
structure Shows (q : Query) (records : List R) (key : SortKey) (entries : List (R × Nat)) :
    Prop where
  nodup : (entries.map (·.2)).Nodup
  mem_iff : ∀ r i, (r, i) ∈ entries ↔ records[i]? = some r ∧ q.accepts r = true
  sorted : entries.IsChain fun e f => key.compare e.1 f.1 ≠ .gt
  stable : entries.Pairwise fun e f => key.compare e.1 f.1 = .eq → e.2 < f.2

/-- The accepted records with their positions, in order. -/
def chosen (q : Query) (records : List R) : List (R × Nat) :=
  records.zipIdx.filter fun e => q.accepts e.1

theorem narrow_eq_filter (conditions : List Condition) (entries : List (R × Nat)) :
    narrow conditions entries = entries.filter fun e => conditions.all (·.accepts e.1) := by
  induction conditions generalizing entries with
  | nil => exact (List.filter_true entries).symm
  | cons c conditions ih =>
    -- the first condition narrows the entries that the others start from
    change narrow conditions (entries.filter fun e => c.accepts e.1) = _
    rw [ih, List.filter_filter]
    congr 1
    funext e
    rw [List.all_cons, Bool.and_comm]

theorem view_entries (q : Query) (records : List R) (fallback : SortKey) :
    (q.view records fallback).entries = (q.sortOr fallback).sortOn (·.1) (q.chosen records) := by
  rw [chosen, view, narrow_eq_filter]
  rfl

theorem mem_chosen {q : Query} {records : List R} {r : R} {i : Nat} :
    (r, i) ∈ q.chosen records ↔ records[i]? = some r ∧ q.accepts r = true := by
  rw [chosen, List.mem_filter, List.mk_mem_zipIdx_iff_getElem?]

theorem chosen_pairwise (q : Query) (records : List R) :
    (q.chosen records).Pairwise fun e f => e.2 < f.2 := by
  apply List.Pairwise.filter
  apply List.pairwise_map.mp
  rw [List.zipIdx_map_snd]
  exact List.pairwise_lt_range'

theorem chosen_records (q : Query) (records : List R) :
    (q.chosen records).map (·.1) = records.filter q.accepts := by
  conv_rhs => rw [← List.zipIdx_map_fst 0 records, List.filter_map]
  rfl

theorem view_perm (q : Query) (records : List R) (fallback : SortKey) :
    (q.view records fallback).entries.Perm (q.chosen records) := by
  rw [view_entries]
  exact Sorting.sort_perm _ _

theorem mem_view {q : Query} {records : List R} {fallback : SortKey} {r : R} {i : Nat} :
    (r, i) ∈ (q.view records fallback).entries ↔ records[i]? = some r ∧ q.accepts r = true := by
  rw [(view_perm q records fallback).mem_iff, mem_chosen]

theorem mem_positions {q : Query} {records : List R} {fallback : SortKey} {i : Nat} :
    i ∈ (q.view records fallback).positions ↔ ∃ r, records[i]? = some r ∧ q.accepts r = true := by
  rw [View.positions, List.mem_map]
  constructor
  · rintro ⟨⟨r, j⟩, he, rfl⟩
    exact ⟨r, mem_view.mp he⟩
  · rintro ⟨r, hr⟩
    exact ⟨(r, i), mem_view.mpr hr, rfl⟩

theorem view_records (q : Query) (records : List R) (fallback : SortKey) :
    (q.view records fallback).records = (q.sortOr fallback).sort (records.filter q.accepts) := by
  rw [View.records, view_entries, ← chosen_records]
  exact Sorting.map_sort _ fun _ _ _ _ => rfl

theorem view_length (q : Query) (records : List R) (fallback : SortKey) :
    (q.view records fallback).entries.length = q.count records := by
  rw [(view_perm q records fallback).length_eq, ← List.length_map (·.1), chosen_records, count,
    List.countP_eq_length_filter]

theorem accepts_congr {q q' : Query} (h : ∀ c, c ∈ q'.conditions ↔ c ∈ q.conditions) (r : R) :
    q'.accepts r = q.accepts r := by
  rw [accepts, accepts, Bool.eq_iff_iff, List.all_eq_true, List.all_eq_true]
  exact forall_congr' fun c => imp_congr_left (h c)

theorem view_congr {q q' : Query} (h : ∀ c, c ∈ q'.conditions ↔ c ∈ q.conditions)
    (hs : q'.sort? = q.sort?) (records : List R) (fallback : SortKey) :
    q'.view records fallback = q.view records fallback := by
  have hchosen : q'.chosen records = q.chosen records := by
    unfold chosen
    congr 1
    funext e
    exact accepts_congr h e.1
  have hkey : q'.sortOr fallback = q.sortOr fallback := by rw [sortOr, sortOr, hs]
  have hentries : (q'.view records fallback).entries = (q.view records fallback).entries := by
    rw [view_entries, view_entries, hchosen, hkey]
  exact View.mk.injEq .. ▸ ⟨hentries, hkey⟩

/-- The view of records that belong to some items selects and sorts the items. -/
theorem view_map_positions {A : Type} (q : Query) (record : A → R) (items : List A)
    (key : SortKey) :
    (q.view (items.map record) key).positions =
      ((q.sortOr key).sortOn (fun e => record e.1)
        (items.zipIdx.filter fun e => q.accepts (record e.1))).map (·.2) := by
  have hchosen : q.chosen (items.map record) =
      (items.zipIdx.filter fun e => q.accepts (record e.1)).map (Prod.map record id) := by
    rw [chosen, List.zipIdx_map, List.filter_map]
    rfl
  have hsort (entries : List (A × Nat)) :
      ((q.sortOr key).sortOn (fun e => record e.1) entries).map (Prod.map record id) =
        (q.sortOr key).sortOn (·.1) (entries.map (Prod.map record id)) :=
    Sorting.map_sort _ fun _ _ _ _ => rfl
  rw [View.positions, view_entries, hchosen, ← hsort, List.map_map]
  rfl

/-- Views agree on the positions if their queries do on the records, and their keys on the order. -/
theorem view_positions_congr {A S : Type} [HasAttributes S] {q q' : Query} {key : SortKey}
    {record : A → R} {record' : A → S} {items : List A} (hkey : q.sortOr key = q'.sortOr key)
    (haccepts : ∀ a ∈ items, q.accepts (record a) = q'.accepts (record' a))
    (hcompare : ∀ a ∈ items, ∀ b ∈ items, (q'.sortOr key).compare (record a) (record b) =
      (q'.sortOr key).compare (record' a) (record' b)) :
    (q.view (items.map record) key).positions = (q'.view (items.map record') key).positions := by
  have hmem {e : A × Nat} (he : e ∈ items.zipIdx) : e.1 ∈ items := List.fst_mem_of_mem_zipIdx he
  have hchosen : (items.zipIdx.filter fun e => q.accepts (record e.1)) =
      items.zipIdx.filter fun e => q'.accepts (record' e.1) :=
    List.filter_congr fun e he => haccepts e.1 (hmem he)
  rw [view_map_positions, view_map_positions, hkey, hchosen]
  congr 1
  apply SortKey.sortOn_congr
  intro e he f hf
  exact hcompare _ (hmem (List.mem_of_mem_filter he)) _ (hmem (List.mem_of_mem_filter hf))

section Sorted

variable {q : Query} {records : List R} {key fallback : SortKey} {entries : List (R × Nat)}

/-- Whether an entry may stand ahead of another, neighbour or not, in a stable sort. -/
def MayPrecede (key : SortKey) (e f : R × Nat) : Prop :=
  Sorting.Ahead (fun e f => (key.compare e.1 f.1).isLE) (fun e f => e.2 < f.2) e f

theorem mayPrecede_iff {S : Set R} (h : PreorderOn key.compare S) {e f : R × Nat} (he : e.1 ∈ S)
    (hf : f.1 ∈ S) :
    MayPrecede key e f ↔
      key.compare e.1 f.1 ≠ .gt ∧ (key.compare e.1 f.1 = .eq → e.2 < f.2) := by
  unfold MayPrecede Sorting.Ahead
  simp only [h.swap e.1 he f.1 hf]
  cases key.compare e.1 f.1 <;> simp

theorem Shows.perm (h : q.Shows records key entries) : entries.Perm (q.chosen records) := by
  have hc : (q.chosen records).Nodup :=
    (chosen_pairwise q records).imp fun hlt heq => absurd (heq ▸ hlt) (Nat.lt_irrefl _)
  rw [List.perm_ext_iff_of_nodup (List.Nodup.of_map _ h.nodup) hc]
  intro e
  exact (h.mem_iff e.1 e.2).trans mem_chosen.symm

theorem mem_records_of_mem_chosen {e : R × Nat} (he : e ∈ q.chosen records) : e.1 ∈ records :=
  List.mem_of_getElem? (mem_chosen.mp he).1

theorem Shows.mem_records (h : q.Shows records key entries) {e : R × Nat} (he : e ∈ entries) :
    e.1 ∈ records :=
  mem_records_of_mem_chosen (h.perm.mem_iff.mp he)

/-- What holds of neighbours carries over to all pairs, since not being greater is transitive. -/
theorem Shows.pairwise (hp : PreorderOn key.compare {r | r ∈ records})
    (h : q.Shows records key entries) : entries.Pairwise (MayPrecede key) := by
  -- the relation carries membership along, since there is no order outside of the records
  have htrans : Trans (fun e f : R × Nat => e ∈ entries ∧ f ∈ entries ∧ key.compare e.1 f.1 ≠ .gt)
      (fun e f => e ∈ entries ∧ f ∈ entries ∧ key.compare e.1 f.1 ≠ .gt)
      (fun e f => e ∈ entries ∧ f ∈ entries ∧ key.compare e.1 f.1 ≠ .gt) :=
    ⟨fun ⟨he, hf, hef⟩ ⟨_, hg, hfg⟩ => ⟨he, hg, hp.trans _ (h.mem_records he) _
      (h.mem_records hf) _ (h.mem_records hg) hef hfg⟩⟩
  have hsorted := List.isChain_iff_pairwise.mp (List.IsChain.iff_mem.mp h.sorted)
  refine (hsorted.and h.stable).imp fun {e f} hef => ?_
  obtain ⟨⟨he, hf, hgt⟩, hlt⟩ := hef
  exact (mayPrecede_iff hp (h.mem_records he) (h.mem_records hf)).mpr ⟨hgt, hlt⟩

theorem view_mayPrecede
    (hp : PreorderOn (q.sortOr fallback).compare {r | r ∈ records}) :
    (q.view records fallback).entries.Pairwise (MayPrecede (q.sortOr fallback)) := by
  rw [view_entries]
  exact Sorting.sort_ahead (SortKey.orders_of_preorderOn hp Prod.fst)
    (fun e he => mem_records_of_mem_chosen he) (chosen_pairwise q records)

theorem view_shows
    (hp : PreorderOn (q.sortOr fallback).compare {r | r ∈ records}) :
    q.Shows records (q.sortOr fallback) (q.view records fallback).entries := by
  have hmem {e : R × Nat} (he : e ∈ (q.view records fallback).entries) : e.1 ∈ records :=
    mem_records_of_mem_chosen ((view_perm q records fallback).mem_iff.mp he)
  have hpair := (view_mayPrecede hp).imp_of_mem fun {e f} he hf hef =>
    (mayPrecede_iff hp (hmem he) (hmem hf)).mp hef
  have hnodup := (chosen_pairwise q records).imp Nat.ne_of_lt
  exact {
    nodup := ((view_perm q records fallback).map _).nodup_iff.mpr (List.pairwise_map.mpr hnodup)
    mem_iff := fun r i => mem_view
    sorted := (hpair.imp And.left).isChain
    stable := hpair.imp And.right }

/-- Games can be sorted by every key. -/
theorem view_shows_games (q : Query) (games : List Game) (fallback : SortKey) :
    q.Shows games (q.sortOr fallback) (q.view games fallback).entries :=
  view_shows (SortKey.compare_preorderOn _ (Game.oneKind _ _))

theorem Shows.eq_view (hp : PreorderOn (q.sortOr fallback).compare {r | r ∈ records})
    (h : q.Shows records (q.sortOr fallback) entries) :
    entries = (q.view records fallback).entries := by
  rw [view_entries]
  exact Sorting.eq_sort_of_perm (SortKey.orders_of_preorderOn hp Prod.fst)
    (fun e he => mem_records_of_mem_chosen he) (chosen_pairwise q records)
    (fun _ _ => Nat.lt_asymm) h.perm (h.pairwise hp)

end Sorted

/-- A view shows what its query accepts, sorted stably, and nothing else would: the order in which
conditions stand, and how often, leaves it as it is. Games can be sorted by every attribute. -/
theorem view_unique_stable_selection (q : Query) (records : List R) (fallback : SortKey)
    (h : (q.sortOr fallback).field.OneKind {r | r ∈ records}) :
    (q.view records fallback).sort = q.sortOr fallback ∧
    q.Shows records (q.sortOr fallback) (q.view records fallback).entries ∧
    (∀ entries, q.Shows records (q.sortOr fallback) entries →
      entries = (q.view records fallback).entries) ∧
    (q.view records fallback).entries.length = q.count records ∧
    (∀ q' : Query, (∀ c, c ∈ q'.conditions ↔ c ∈ q.conditions) → q'.sort? = q.sort? →
      q'.view records fallback = q.view records fallback) ∧
    (q.view records fallback).records = (q.sortOr fallback).sort (records.filter q.accepts) ∧
    ∀ (games : List Game) (a : Attribute), a.OneKind {g | g ∈ games} := by
  have hp := (q.sortOr fallback).compare_preorderOn h
  refine ⟨rfl, view_shows hp, fun entries he => he.eq_view hp, view_length q records fallback, ?_,
    view_records q records fallback, fun games a => Game.oneKind a _⟩
  intro q' hc hs
  exact view_congr hc hs records fallback

/-- Both zeros, what is not a number, and no value at all. -/
def mixedRatings : List Value :=
  [.number (.real (.ofMagnitude true 0)), .missing, .number (.real (.notANumber true)),
    .number (.real (.ofMagnitude false 0)), .missing]

theorem mixedRatings_selection :
    Attribute.rating.OneKind {v | v ∈ mixedRatings} ∧
    Shows ⟨[], some ⟨.rating, .descending, rfl⟩⟩ mixedRatings ⟨.rating, .descending, rfl⟩
      [(.missing, 1), (.missing, 4), (.number (.real (.notANumber true)), 2),
        (.number (.real (.ofMagnitude false 0)), 3),
        (.number (.real (.ofMagnitude true 0)), 0)] := by
  have h : Attribute.rating.OneKind {v | v ∈ mixedRatings} := by
    refine ⟨.real, ?_⟩
    change ∀ v ∈ mixedRatings, v.Fits .real
    decide
  have hv := view_unique_stable_selection ⟨[], some ⟨.rating, .descending, rfl⟩⟩ _ .byName h
  exact ⟨h, hv.2.1⟩

end Query

end GameShelf
