import GameShelf.Sorting

namespace GameShelf.Sorting

/-- Among the elements of `S` the comparison is total and transitive. Outside of `S` it may relate
anything to anything. -/
structure Orders {A : Type} (le : A → A → Bool) (S : A → Prop) : Prop where
  total : ∀ {a b}, S a → S b → le a b = true ∨ le b a = true
  trans : ∀ {a b c}, S a → S b → S c → le a b = true → le b c = true → le a c = true

/-- One element may stand ahead of another in a stable sort: it is not greater, and if neither is
greater it came before the other. -/
def Ahead {A : Type} (le : A → A → Bool) (before : A → A → Prop) (a b : A) : Prop :=
  le a b = true ∧ (le b a = true → before a b)

variable {A : Type} {le : A → A → Bool} {S : A → Prop} {before : A → A → Prop}

theorem ahead_of_le (h : Orders le S) {x y : A} {ys : List A} (hx : S x)
    (hys : ∀ z ∈ y :: ys, S z) (hb : ∀ z ∈ y :: ys, before x z)
    (hy : ∀ z ∈ ys, Ahead le before y z) (hxy : le x y = true) :
    ∀ z ∈ y :: ys, Ahead le before x z := by
  intro z hz
  refine ⟨?_, fun _ => hb z hz⟩
  rcases List.mem_cons.mp hz with rfl | hz'
  · exact hxy
  · exact h.trans hx (hys y List.mem_cons_self) (hys z hz) hxy (hy z hz').1

/-- A smaller element of the second list overtakes the first list, and equals nothing in it. -/
theorem ahead_of_not_le (h : Orders le S) {x y : A} {xs : List A} (hy : S y)
    (hxs : ∀ z ∈ x :: xs, S z) (hx : ∀ z ∈ xs, Ahead le before x z) (hxy : ¬le x y = true) :
    ∀ z ∈ x :: xs, Ahead le before y z := by
  have hSx : S x := hxs x List.mem_cons_self
  have hyx : le y x = true := (h.total hSx hy).resolve_left hxy
  intro z hz
  rcases List.mem_cons.mp hz with rfl | hz'
  · exact ⟨hyx, fun hzy => absurd hzy hxy⟩
  · have hxz : le x z = true := (hx z hz').1
    exact ⟨h.trans hy hSx (hxs z hz) hyx hxz,
      fun hzy => absurd (h.trans hSx (hxs z hz) hy hxz hzy) hxy⟩

/-- Merging keeps stability if all of the first list came before all of the second. -/
theorem merge_ahead (h : Orders le S) {xs ys : List A}
    (hxs : ∀ x ∈ xs, S x) (hys : ∀ y ∈ ys, S y) (hb : ∀ x ∈ xs, ∀ y ∈ ys, before x y)
    (px : xs.Pairwise (Ahead le before)) (py : ys.Pairwise (Ahead le before)) :
    (merge le xs ys).Pairwise (Ahead le before) := by
  rw [merge_eq]
  fun_induction List.merge xs ys le with
  | case1 ys => exact py
  | case2 xs => exact px
  | case3 x xs y ys hxy ih =>
    -- `x` goes first, so it has to stand ahead of what is left of both lists
    obtain ⟨hx, px'⟩ := List.pairwise_cons.mp px
    have hxs' := (List.forall_mem_cons.mp hxs).2
    have hb' := List.forall_mem_cons.mp hb
    refine List.pairwise_cons.mpr ⟨fun z hz => ?_, ih hxs' hys hb'.2 px' py⟩
    rcases List.mem_merge.mp hz with hz | hz
    · exact hx z hz
    · exact ahead_of_le h (hxs x List.mem_cons_self) hys hb'.1 (List.pairwise_cons.mp py).1 hxy z hz
  | case4 x xs y ys hxy ih =>
    obtain ⟨hy, py'⟩ := List.pairwise_cons.mp py
    have hys' := (List.forall_mem_cons.mp hys).2
    have hb' := fun z hz => (List.forall_mem_cons.mp (hb z hz)).2
    refine List.pairwise_cons.mpr ⟨fun z hz => ?_, ih hxs hys' hb' px py'⟩
    rcases List.mem_merge.mp hz with hz | hz
    · exact ahead_of_not_le h (hys y List.mem_cons_self) hxs (List.pairwise_cons.mp px).1 hxy z hz
    · exact hy z hz

theorem mem_halving {n : Nat} {l : List A} (hn : l.length ≤ n) {a : A} :
    a ∈ halving le n l ↔ a ∈ l := by
  rw [halving_eq le hn, List.mem_mergeSort]

theorem halving_ahead (h : Orders le S) {n : Nat} {l : List A} (hn : l.length ≤ n)
    (hl : ∀ a ∈ l, S a) (hb : l.Pairwise before) :
    (halving le n l).Pairwise (Ahead le before) := by
  induction n generalizing l with
  | zero =>
    have hnil : l = [] := by simpa using hn
    rw [hnil, halving]
    exact .nil
  | succ n ih =>
    rw [halving]
    split
    next hshort =>
      rcases l with _ | ⟨a, _ | ⟨b, l⟩⟩
      · exact .nil
      · exact List.pairwise_singleton _ a
      · exact absurd hshort (Nat.not_lt_of_le (Nat.le_add_left 2 l.length))
    next hlong =>
      have hk : 0 < (l.length + 1) / 2 ∧ (l.length + 1) / 2 < l.length := by omega
      generalize (l.length + 1) / 2 = k at *
      have ht : (l.take k).length ≤ n := by rw [List.length_take]; omega
      have hd : (l.drop k).length ≤ n := by rw [List.length_drop]; omega
      have hSt : ∀ a ∈ l.take k, S a := fun a ha => hl a (List.mem_of_mem_take ha)
      have hSd : ∀ a ∈ l.drop k, S a := fun a ha => hl a (List.mem_of_mem_drop ha)
      -- all of the first half came before all of the second, which is what merging asks for
      rw [← List.take_append_drop k l] at hb
      obtain ⟨bt, bd, hcross⟩ := List.pairwise_append.mp hb
      exact merge_ahead h (fun a ha => hSt a ((mem_halving ht).mp ha))
        (fun b hb => hSd b ((mem_halving hd).mp hb))
        (fun a ha b hb => hcross a ((mem_halving ht).mp ha) b ((mem_halving hd).mp hb))
        (ih ht hSt bt) (ih hd hSd bd)

theorem sort_perm (le : A → A → Bool) (l : List A) : (sort le l).Perm l := by
  rw [sort_eq_mergeSort]
  exact List.mergeSort_perm l le

/-- A list in which each element came before those behind it is sorted stably. -/
theorem sort_ahead (h : Orders le S) {l : List A} (hl : ∀ a ∈ l, S a) (hb : l.Pairwise before) :
    (sort le l).Pairwise (Ahead le before) :=
  halving_ahead h (Nat.le_refl _) hl hb

/-- No other arrangement of the list is stable. -/
theorem eq_sort_of_perm (h : Orders le S) {l l' : List A} (hl : ∀ a ∈ l, S a)
    (hb : l.Pairwise before) (hasymm : ∀ a b, before a b → ¬before b a) (hp : l'.Perm l)
    (hl' : l'.Pairwise (Ahead le before)) : l' = sort le l := by
  refine List.Perm.eq_of_pairwise ?_ hl' (sort_ahead h hl hb) (hp.trans (sort_perm le l).symm)
  -- two elements that may stand either way would both have come before the other
  intro a b _ _ hab hba
  exact absurd (hba.2 hab.1) (hasymm a b (hab.2 hba.1))

/-- What is left of a sorted list is sorted, and in the same way. -/
theorem filter_sort (h : Orders le S) {l : List A} (hl : ∀ a ∈ l, S a) (hb : l.Pairwise before)
    (hasymm : ∀ a b, before a b → ¬before b a) (p : A → Bool) :
    (sort le l).filter p = sort le (l.filter p) := by
  refine eq_sort_of_perm h (fun a ha => hl a (List.mem_filter.mp ha).1) (hb.filter p) hasymm ?_ ?_
  · exact (sort_perm le l).filter p
  · exact (sort_ahead h hl hb).filter p

theorem map_sort {B : Type} {le' : B → B → Bool} (f : A → B) {l : List A}
    (h : ∀ a ∈ l, ∀ b ∈ l, le a b = le' (f a) (f b)) :
    (sort le l).map f = sort le' (l.map f) := by
  rw [sort_eq_mergeSort, sort_eq_mergeSort]
  exact List.map_mergeSort h

end GameShelf.Sorting
