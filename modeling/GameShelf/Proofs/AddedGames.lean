import GameShelf.Proofs.PickHistory

namespace GameShelf

namespace PickList

variable {p : PickList} {selector : Text} {candidates chosen : List Game}
  {r : Except PickFault (List Game)} {change : Change} {fault : PickFault}

theorem add_eq_error_iff :
    p.add selector candidates = .error fault ↔ Picks selector candidates (.error fault) := by
  rw [← picked_eq_iff, add, bind_eq_error_iff]
  exact or_iff_left fun ⟨chosen, _, h⟩ => nomatch h

theorem add_eq_ok_iff_picks :
    p.add selector candidates = .ok change ↔
      ∃ chosen, Picks selector candidates (.ok chosen) ∧
        change = ⟨⟨SortKey.byName.sort (p.games ++ p.newcomers chosen)⟩,
          (p.newcomers chosen).length⟩ := by
  rw [add_eq_ok_iff]
  refine exists_congr fun chosen => ?_
  rw [picked_eq_iff, count_including, Nat.add_sub_cancel_left, including_eq]

/-- What was added once is there to stay. -/
theorem add_again (h : p.add selector candidates = .ok change) :
    change.picks.add selector candidates = .ok ⟨change.picks, 0⟩ := by
  obtain ⟨chosen, hc, rfl⟩ := add_eq_ok_iff.mp h
  have hnone : (p.including chosen).newcomers chosen = [] :=
    newcomers_eq_nil fun g hg => mem_including.mpr (.inr hg)
  have hsame : (p.including chosen).including chosen = p.including chosen := by
    rw [including_eq (p.including chosen), hnone, List.append_nil]
    exact congrArg mk (SortKey.sort_games_of_pairwise (SortKey.byName.sort_games_pairwise _))
  exact add_eq_ok_iff.mpr ⟨chosen, hc, by rw [hsame, Nat.sub_self]⟩

/-- Adding picks by name first and by place otherwise, and fails for the reason for which nothing
is picked. What is new comes behind the old games, and all are sorted stably by their names. To add
the same again changes nothing. -/
theorem add_picks_newcomers (edits : List Edit) (selector : Text) (candidates : List Game)
    {p : PickList} (hp : p = after edits) :
    (∀ r, picked selector candidates = r ↔ Picks selector candidates r) ∧
    (∀ fault, p.add selector candidates = .error fault ↔
      Picks selector candidates (.error fault)) ∧
    (∀ change, p.add selector candidates = .ok change ↔
      ∃ chosen, Picks selector candidates (.ok chosen) ∧
        change = ⟨⟨SortKey.byName.sort (p.games ++ p.newcomers chosen)⟩,
          (p.newcomers chosen).length⟩) ∧
    (∀ games, (SortKey.byName.sort games).Perm games ∧
      (SortKey.byName.sort games).Pairwise (fun g h => SortKey.byName.compare g h ≠ .gt) ∧
      ∀ part : List Game, part.Sublist games →
        part.Pairwise (fun g h => SortKey.byName.compare g h ≠ .gt) →
        part.Sublist (SortKey.byName.sort games)) ∧
    ∀ change, p.add selector candidates = .ok change →
      change.picks = after (edits ++ [.add selector candidates]) ∧
      change.picks.add selector candidates = .ok ⟨change.picks, 0⟩ := by
  refine ⟨fun r => picked_eq_iff, fun fault => add_eq_error_iff, fun change => add_eq_ok_iff_picks,
    fun games => ⟨SortKey.byName.sort_games_perm games, SortKey.byName.sort_games_pairwise games,
      fun part hsub hsorted => SortKey.sublist_sort_games hsorted hsub⟩, fun change h => ?_⟩
  refine ⟨?_, add_again h⟩
  rw [after_append, ← hp, step_of_add h]

/-- Games whose names read as numbers, and a game in two cases. -/
def numberGames : List Game := ["1830", "2", "go", "Go"].map fun name => .ofName name.toList

/-- The name 2 is no place in the list. A number that no candidate bears is one, up to the greatest
that can be read. -/
theorem numberGames_added :
    (∃ change, (after [.add "GO".toList numberGames]).add " 2 ".toList numberGames = .ok change ∧
      change.picks.names = ["2".toList, "go".toList, "Go".toList] ∧ change.changed = 1 ∧
      change.picks.add " 2 ".toList numberGames = .ok ⟨change.picks, 0⟩) ∧
    (after [.add "GO".toList numberGames]).add "3-4".toList numberGames =
      .ok ⟨after [.add "GO".toList numberGames], 0⟩ ∧
    (after [.add "GO".toList numberGames]).add "18446744073709551615".toList numberGames =
      .error (.indexOutOfRange 18446744073709551615 4) := by
  have hspec := fun selector =>
    add_picks_newcomers [.add "GO".toList numberGames] selector numberGames rfl
  refine ⟨?_, ?_, ?_⟩
  · obtain ⟨-, -, hok, -, hagain⟩ := hspec " 2 ".toList
    have hadd := (hok _).mpr ⟨_, .named (by decide) (by decide), rfl⟩
    exact ⟨_, hadd, by decide +kernel, by decide +kernel, (hagain _ hadd).2⟩
  · obtain ⟨-, -, hok, -, -⟩ := hspec "3-4".toList
    have hcovers : (Selector.range 3 4).Covers numberGames
        (.ok [.ofName "go".toList, .ofName "Go".toList]) :=
      Selector.covers_pick numberGames (.range 3 4)
    refine (hok _).mpr ⟨_, .covered (by decide) (by decide) hcovers, ?_⟩
    decide +kernel
  · obtain ⟨-, herror, -, -, -⟩ := hspec "18446744073709551615".toList
    exact (herror _).mpr (.covered (by decide) (by decide) (.noIndex (.inr (by decide))))

end PickList

end GameShelf
