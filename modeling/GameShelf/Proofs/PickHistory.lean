import GameShelf.Proofs.Picking
import GameShelf.Proofs.View
import Mathlib.Data.List.Induction

namespace GameShelf

namespace SortKey

variable (key : SortKey)

/-- The comparison that sorting games goes by. -/
def le (g h : Game) : Bool := (key.compare g h).isLE

theorem le_iff {g h : Game} : key.le g h = true ↔ key.compare g h ≠ .gt :=
  Ordering.isLE_iff_ne_gt

/-- Any two games can be compared by every key. -/
theorem orders_games : Sorting.Orders key.le fun _ => True := by
  have h := orders_of_preorderOn (key.compare_preorderOn (Game.oneKind key.field Set.univ)) id
  exact ⟨fun _ _ => h.total trivial trivial, fun _ _ _ => h.trans trivial trivial trivial⟩

theorem le_trans (f g h : Game) (hfg : key.le f g = true) (hgh : key.le g h = true) :
    key.le f h = true :=
  key.orders_games.trans trivial trivial trivial hfg hgh

theorem le_total (g h : Game) : (key.le g h || key.le h g) = true := by
  rw [Bool.or_eq_true]
  exact key.orders_games.total trivial trivial

theorem sort_games_eq_mergeSort (games : List Game) : key.sort games = games.mergeSort key.le :=
  Sorting.sort_eq_mergeSort _ games

theorem sort_games_perm (games : List Game) : (key.sort games).Perm games :=
  Sorting.sort_perm _ games

theorem sort_games_pairwise (games : List Game) :
    (key.sort games).Pairwise fun g h => key.compare g h ≠ .gt := by
  rw [sort_games_eq_mergeSort]
  exact (List.pairwise_mergeSort key.le_trans key.le_total games).imp key.le_iff.mp

variable {key}

theorem sort_games_of_pairwise {games : List Game}
    (h : games.Pairwise fun g h => key.compare g h ≠ .gt) : key.sort games = games := by
  rw [sort_games_eq_mergeSort]
  exact List.mergeSort_of_pairwise (h.imp key.le_iff.mpr)

theorem sublist_sort_games {games some : List Game}
    (h : some.Pairwise fun g h => key.compare g h ≠ .gt) (hs : some.Sublist games) :
    some.Sublist (key.sort games) := by
  rw [sort_games_eq_mergeSort]
  exact List.sublist_mergeSort key.le_trans key.le_total (h.imp key.le_iff.mpr) hs

end SortKey

namespace PickList

/-- What a list always is: a set of games, in the order of their names. -/
structure Kept (p : PickList) : Prop where
  nodup : p.games.Nodup
  sorted : p.games.Pairwise fun g h => SortKey.byName.compare g h ≠ .gt

/-- The list with some games put in that it lacks. -/
def including (p : PickList) (chosen : List Game) : PickList :=
  ⟨SortKey.byName.sort (chosen.foldl insertNew p.games)⟩

/-- The picked games that a list lacks, each of them once. -/
def newcomers (p : PickList) (chosen : List Game) : List Game :=
  (chosen.filter fun g => g ∉ p.games).eraseDups

/-- What can be done to a list. -/
inductive Edit where
  | add (selector : Text) (candidates : List Game)
  | remove (selector : Text)
  | clear

def Edit.perform (p : PickList) : Edit → Except PickFault PickList
  | add selector candidates => (p.add selector candidates).map Change.picks
  | remove selector => (p.remove selector).map Change.picks
  | clear => .ok .empty

/-- The games that an edit can add. -/
def Edit.candidates : Edit → List Game
  | add _ candidates => candidates
  | remove _ | clear => []

/-- The list after an edit. One that fails leaves the list that it was asked of. -/
def step (p : PickList) (e : Edit) : PickList :=
  match e.perform p with
  | .ok p' => p'
  | .error _ => p

/-- The list after some edits of an empty one. -/
def after (edits : List Edit) : PickList := edits.foldl step .empty

section

variable {p p' : PickList} {selector t : Text} {s : Selector} {candidates chosen games : List Game}
  {change : Change} {fault : PickFault} {g : Game}

theorem nodup_insertNew {listed : List Game} (h : listed.Nodup) (g : Game) :
    (insertNew listed g).Nodup := by
  unfold insertNew
  split
  next => exact h
  next hm =>
    refine List.nodup_append.mpr ⟨h, List.nodup_singleton g, ?_⟩
    rintro a ha b hb rfl
    exact hm (List.mem_singleton.mp hb ▸ ha)

theorem nodup_insertAll {listed : List Game} (h : listed.Nodup) (chosen : List Game) :
    (chosen.foldl insertNew listed).Nodup := by
  induction chosen generalizing listed with
  | nil => exact h
  | cons g chosen ih => exact ih (nodup_insertNew h g)

/-- Games that are put in one by one come behind the others, in their order. -/
theorem foldl_insertNew (chosen listed : List Game) :
    chosen.foldl insertNew listed = listed ++ (chosen.filter fun g => g ∉ listed).eraseDups := by
  induction chosen generalizing listed with
  | nil => simp
  | cons g chosen ih =>
    rw [List.foldl_cons, ih, insertNew]
    by_cases hg : g ∈ listed
    · simp [hg]
    · have hrest : (chosen.filter fun h => h ∉ listed ++ [g]) =
          (chosen.filter fun h => h ∉ listed).filter fun h => !(h == g) := by
        rw [List.filter_filter]
        refine List.filter_congr fun h _ => ?_
        rw [Bool.eq_iff_iff]
        simp [and_comm]
      rw [if_neg hg, List.filter_cons_of_pos (by simpa using hg), List.eraseDups_cons, hrest,
        List.append_assoc, List.singleton_append]

theorem including_eq (p : PickList) (chosen : List Game) :
    p.including chosen = ⟨SortKey.byName.sort (p.games ++ p.newcomers chosen)⟩ := by
  rw [including, foldl_insertNew, newcomers]

theorem count_including (p : PickList) (chosen : List Game) :
    (p.including chosen).count = p.count + (p.newcomers chosen).length := by
  rw [including_eq, count, (SortKey.byName.sort_games_perm _).length_eq, List.length_append, count]

theorem mem_newcomers : g ∈ p.newcomers chosen ↔ g ∈ chosen ∧ g ∉ p.games := by
  rw [newcomers, List.mem_eraseDups, List.mem_filter, decide_eq_true_iff]

/-- All that were picked are there already. -/
theorem newcomers_eq_nil (h : chosen ⊆ p.games) : p.newcomers chosen = [] := by
  have hnone : (chosen.filter fun g => g ∉ p.games) = [] :=
    List.filter_eq_nil_iff.mpr fun g hg => by simpa using h hg
  rw [newcomers, hnone]
  rfl

theorem mem_including : g ∈ (p.including chosen).games ↔ g ∈ p.games ∨ g ∈ chosen := by
  rw [including_eq, (SortKey.byName.sort_games_perm _).mem_iff, List.mem_append, mem_newcomers]
  by_cases hg : g ∈ p.games <;> simp [hg]

theorem kept_including (h : p.games.Nodup) (chosen : List Game) : (p.including chosen).Kept := by
  constructor
  · rw [including, (SortKey.byName.sort_games_perm _).nodup_iff]
    exact nodup_insertAll h chosen
  · exact SortKey.byName.sort_games_pairwise _

/-- Games that are put in leave the others in their order. -/
theorem sublist_including (h : p.Kept) (chosen : List Game) :
    p.games.Sublist (p.including chosen).games := by
  rw [including_eq]
  exact SortKey.sublist_sort_games h.sorted (List.sublist_append_left _ _)

theorem including_of_mem (h : p.Kept) (hg : g ∈ p.games) : p.including [g] = p := by
  rw [including, List.foldl_cons, List.foldl_nil, insertNew, if_pos hg,
    SortKey.sort_games_of_pairwise h.sorted]

theorem including_perm_cons (hg : g ∉ p.games) : (p.including [g]).games.Perm (g :: p.games) := by
  rw [including, List.foldl_cons, List.foldl_nil, insertNew, if_neg hg]
  exact (SortKey.byName.sort_games_perm _).trans List.perm_append_comm

theorem add_eq_ok_iff :
    p.add selector candidates = .ok change ↔
      ∃ chosen, picked selector candidates = .ok chosen ∧
        change = ⟨p.including chosen, (p.including chosen).count - p.count⟩ := by
  unfold add
  rw [bind_eq_ok_iff]
  constructor
  · rintro ⟨chosen, hc, he⟩
    cases he
    exact ⟨chosen, hc, rfl⟩
  · rintro ⟨chosen, hc, rfl⟩
    exact ⟨chosen, hc, rfl⟩

theorem exists_of_remove (h : p.remove selector = .ok change) :
    p.remaining selector = .ok change.picks.games ∧
      change.changed = p.count - change.picks.count := by
  unfold remove at h
  rw [bind_eq_ok_iff] at h
  obtain ⟨games, hg, he⟩ := h
  cases he
  exact ⟨hg, rfl⟩

theorem remove_of_remaining (h : p.remaining selector = .ok games) :
    p.remove selector = .ok ⟨⟨games⟩, p.count - games.length⟩ := by
  rw [remove, h]
  rfl

theorem remove_of_error (h : p.remaining selector = .error fault) :
    p.remove selector = .error fault := by
  rw [remove, h]
  rfl

theorem remaining_eq_bind_pick (hs : Selector.read selector = .ok s) (hname : ∀ t, s ≠ .name t) :
    p.remaining selector =
      s.pick p.games >>= fun doomed => .ok (p.games.filter fun g => !doomed.contains g) := by
  rw [remaining, hs]
  cases s with
  | name t => exact absurd rfl (hname t)
  | _ => rfl

theorem remaining_of_name (hs : Selector.read selector = .ok (.name t)) :
    p.remaining selector =
      if (p.games.filter fun g => !Text.sameLetters g.name t).length = p.count then
        .error (.gameNotFound t)
      else .ok (p.games.filter fun g => !Text.sameLetters g.name t) := by
  rw [remaining, hs]
  rfl

/-- Removing keeps what stays in its order. -/
theorem remaining_sublist (h : p.remaining selector = .ok games) : games.Sublist p.games := by
  unfold remaining at h
  rw [bind_eq_ok_iff] at h
  obtain ⟨s, -, h⟩ := h
  split at h
  next t =>
    dsimp only at h
    split at h
    · cases h
    · cases h
      exact List.filter_sublist
  next =>
    rw [bind_eq_ok_iff] at h
    obtain ⟨doomed, -, he⟩ := h
    cases he
    exact List.filter_sublist

theorem mem_of_add (h : p.add selector candidates = .ok change) (hg : g ∈ change.picks.games) :
    g ∈ p.games ∨ g ∈ candidates := by
  obtain ⟨chosen, hc, rfl⟩ := add_eq_ok_iff.mp h
  exact (mem_including.mp hg).imp_right fun hg => picked_subset hc hg

theorem count_of_add (h : p.add selector candidates = .ok change) :
    change.picks.count = p.count + change.changed := by
  obtain ⟨chosen, -, rfl⟩ := add_eq_ok_iff.mp h
  dsimp only
  rw [count_including]
  omega

theorem count_of_remove (h : p.remove selector = .ok change) :
    change.picks.count + change.changed = p.count := by
  obtain ⟨hr, hk⟩ := exists_of_remove h
  have hshrunk : change.picks.count ≤ p.count := (remaining_sublist hr).length_le
  omega

/-- A removal by name fails only after it has looked at all games and found none to drop. -/
theorem filter_of_remove_eq_error (hs : Selector.read selector = .ok (.name t))
    (h : p.remove selector = .error fault) :
    (p.games.filter fun g => !Text.sameLetters g.name t) = p.games := by
  have hr : p.remaining selector = .error fault := by
    unfold remove at h
    rw [bind_eq_error_iff] at h
    rcases h with h | ⟨games, -, he⟩
    · exact h
    · cases he
  rw [remaining_of_name hs] at hr
  split at hr
  next hlength => exact List.filter_sublist.eq_of_length hlength
  next => cases hr

theorem Kept.empty : PickList.empty.Kept := ⟨List.nodup_nil, List.Pairwise.nil⟩

theorem Kept.add (hp : p.Kept) (h : p.add selector candidates = .ok change) :
    change.picks.Kept := by
  obtain ⟨chosen, -, rfl⟩ := add_eq_ok_iff.mp h
  exact kept_including hp.nodup chosen

theorem Kept.remove (hp : p.Kept) (h : p.remove selector = .ok change) : change.picks.Kept := by
  have hs := remaining_sublist (exists_of_remove h).1
  exact ⟨hp.nodup.sublist hs, hp.sorted.sublist hs⟩

end

section

variable {p : PickList} {e : Edit} {fault : PickFault}

theorem step_of_add {selector : Text} {candidates : List Game} {change : Change}
    (h : p.add selector candidates = .ok change) :
    p.step (.add selector candidates) = change.picks := by
  rw [step, Edit.perform, h]
  rfl

theorem step_of_remove {selector : Text} {change : Change} (h : p.remove selector = .ok change) :
    p.step (.remove selector) = change.picks := by
  rw [step, Edit.perform, h]
  rfl

theorem step_of_error (h : e.perform p = .error fault) : p.step e = p := by
  rw [step, h]

theorem perform_add_of_error {selector : Text} {candidates : List Game}
    (h : p.add selector candidates = .error fault) :
    (Edit.add selector candidates).perform p = .error fault := by
  rw [Edit.perform, h]
  rfl

theorem perform_remove_of_error {selector : Text} (h : p.remove selector = .error fault) :
    (Edit.remove selector).perform p = .error fault := by
  rw [Edit.perform, h]
  rfl

/-- All that an edit can do: add, remove, clear, or fail. -/
theorem step_cases (p : PickList) (e : Edit) :
    (∃ selector candidates change, e = .add selector candidates ∧
      p.add selector candidates = .ok change ∧ p.step e = change.picks) ∨
    (∃ selector change, e = .remove selector ∧ p.remove selector = .ok change ∧
      p.step e = change.picks) ∨
    (e = .clear ∧ p.step e = .empty) ∨
    ∃ fault, e.perform p = .error fault ∧ p.step e = p := by
  cases e with
  | clear => exact .inr (.inr (.inl ⟨rfl, rfl⟩))
  | add selector candidates =>
    cases h : p.add selector candidates with
    | ok change => exact .inl ⟨_, _, _, rfl, h, step_of_add h⟩
    | error fault =>
      have he := perform_add_of_error h
      exact .inr (.inr (.inr ⟨fault, he, step_of_error he⟩))
  | remove selector =>
    cases h : p.remove selector with
    | ok change => exact .inr (.inl ⟨_, _, rfl, h, step_of_remove h⟩)
    | error fault =>
      have he := perform_remove_of_error h
      exact .inr (.inr (.inr ⟨fault, he, step_of_error he⟩))

/-- A list only ever grows by games that were there to be added. -/
theorem mem_of_step {g : Game} (hg : g ∈ (p.step e).games) : g ∈ p.games ∨ g ∈ e.candidates := by
  rcases p.step_cases e with ⟨selector, candidates, change, rfl, h, hs⟩ |
    ⟨selector, change, rfl, h, hs⟩ | ⟨rfl, hs⟩ | ⟨fault, -, hs⟩
  · rw [hs] at hg
    exact mem_of_add h hg
  · rw [hs] at hg
    exact .inl ((remaining_sublist (exists_of_remove h).1).subset hg)
  · rw [hs] at hg
    cases hg
  · rw [hs] at hg
    exact .inl hg

theorem Kept.step (hp : p.Kept) (e : Edit) : (p.step e).Kept := by
  rcases p.step_cases e with ⟨selector, candidates, change, -, h, hs⟩ |
    ⟨selector, change, -, h, hs⟩ | ⟨-, hs⟩ | ⟨fault, -, hs⟩
  · rw [hs]
    exact hp.add h
  · rw [hs]
    exact hp.remove h
  · rw [hs]
    exact .empty
  · rw [hs]
    exact hp

theorem after_append (edits : List Edit) (e : Edit) :
    after (edits ++ [e]) = (after edits).step e := List.foldl_append

theorem kept_after (edits : List Edit) : (after edits).Kept := by
  -- from the back, because each edit acts on the list that all earlier ones left
  induction edits using List.reverseRecOn with
  | nil => exact .empty
  | append_singleton edits e ih =>
    rw [after_append]
    exact ih.step e

end

end PickList

end GameShelf
