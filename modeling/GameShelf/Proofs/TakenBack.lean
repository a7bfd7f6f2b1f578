import GameShelf.Proofs.AddedGames
import GameShelf.Proofs.RemovedGames

namespace GameShelf

namespace PickList

variable {p : PickList} {selector : Text} {candidates chosen : List Game} {test : Game → Bool}

/-- Where a test tells new games from old ones, the old ones are left in their order. -/
theorem filter_including (hp : p.Kept) (hold : ∀ g ∈ p.games, test g = false)
    (hnew : ∀ g ∈ chosen, test g = true) :
    (p.including chosen).games.filter (fun g => !test g) = p.games := by
  have hself : p.games.filter (fun g => !test g) = p.games :=
    List.filter_eq_self.mpr fun g hg => by rw [hold g hg, Bool.not_false]
  have hnone : (p.newcomers chosen).filter (fun g => !test g) = [] := by
    refine List.filter_eq_nil_iff.mpr fun g hg => ?_
    rw [hnew g (mem_newcomers.mp hg).1, Bool.not_true]
    exact Bool.false_ne_true
  have hperm : (p.including chosen).games.Perm (p.games ++ p.newcomers chosen) := by
    rw [including_eq]
    exact SortKey.byName.sort_games_perm _
  have hsub := (sublist_including hp chosen).filter fun g => !test g
  have hlength := (hperm.filter fun g => !test g).length_eq
  rw [List.filter_append, hself, hnone, List.append_nil] at hlength
  rw [hself] at hsub
  exact (hsub.eq_of_length hlength.symm).symm

theorem countP_including (hp : p.Kept) (hold : ∀ g ∈ p.games, test g = false)
    (hnew : ∀ g ∈ chosen, test g = true) :
    (p.including chosen).games.countP test = (p.newcomers chosen).length := by
  have hcut := length_eq_countP_add_filter_not test (p.including chosen).games
  have hcount := count_including p chosen
  rw [filter_including hp hold hnew] at hcut
  rw [count, count] at hcount
  omega

/-- Where the games of a name are all new, a removal by that name is what undoes adding them. -/
theorem remove_including_of_name {t : Text} {g : Game} (hp : p.Kept) (hg : g ∈ chosen)
    (hold : ∀ g ∈ p.games, Text.sameLetters g.name t = false)
    (hnew : ∀ g ∈ chosen, Text.sameLetters g.name t = true)
    (hs : Selector.read selector = .ok (.name t)) :
    (p.including chosen).remove selector = .ok ⟨p, (p.newcomers chosen).length⟩ := by
  have hborne : ∃ g ∈ (p.including chosen).games, Text.sameLetters g.name t = true :=
    ⟨g, mem_including.mpr (.inr hg), hnew g hg⟩
  rw [remove_of_name hs, without, if_pos hborne, filter_including hp hold hnew,
    countP_including hp hold hnew]

theorem length_newcomers_pos {g : Game} (hg : g ∈ chosen) (hnot : g ∉ p.games) :
    0 < (p.newcomers chosen).length :=
  List.length_pos_of_mem (mem_newcomers.mpr ⟨hg, hnot⟩)

/-- A removal by places undoes adding the games of a name just where it covers those in the new
list. -/
theorem remove_including_of_place_iff {t : Text} {s : Selector} (hp : p.Kept)
    (hold : ∀ g ∈ p.games, Text.sameLetters g.name t = false)
    (hnew : ∀ g ∈ chosen, Text.sameLetters g.name t = true)
    (hs : Selector.read selector = .ok s) (hname : ∀ t, s ≠ .name t) :
    (p.including chosen).remove selector = .ok ⟨p, (p.newcomers chosen).length⟩ ↔
      s.Covers (p.including chosen).games
        (.ok ((p.including chosen).games.filter fun g => Text.sameLetters g.name t)) := by
  have hnodup := (kept_including hp.nodup chosen).nodup
  have hold' := filter_including hp hold hnew
  rw [← Selector.pick_eq_iff]
  constructor
  · intro h
    cases hpick : s.pick (p.including chosen).games with
    | error fault =>
      rw [remove_of_pick_error hs hname hpick] at h
      cases h
    | ok doomed =>
      -- what is dropped is none of the old games, and what is left is all of them
      obtain ⟨before, behind, hsplit⟩ := Selector.exists_of_pick hpick
      rw [remove_of_pick hnodup hs hname hpick hsplit] at h
      have hleft : before ++ behind = p.games :=
        congrArg (fun change : Change => change.picks.games) (Except.ok.inj h)
      rw [hsplit] at hnodup
      have hdoomed : ∀ g ∈ doomed, Text.sameLetters g.name t = true := by
        intro g hg
        have hnot : g ∉ p.games := by
          rw [← hleft]
          exact not_mem_of_mem_piece hnodup hg
        exact hnew g ((mem_including.mp (Selector.pick_subset hpick hg)).resolve_left hnot)
      rw [hsplit, filter_piece (hleft ▸ hold) hdoomed]
  · intro hpick
    obtain ⟨before, behind, hsplit⟩ := Selector.exists_of_pick hpick
    have hleft : before ++ behind = p.games := by
      rw [← hold', ← filter_not_contains_piece (hsplit ▸ hnodup), ← hsplit]
      refine List.filter_congr fun g hg => ?_
      rw [Bool.eq_iff_iff]
      simp [hg]
    rw [remove_of_pick hnodup hs hname hpick hsplit, hleft, ← List.countP_eq_length_filter,
      countP_including hp hold hnew]

/-- A name that some candidates bear and no game on the list adds those candidates. The same
selector takes them back if it reads as a name. If it reads as places, these are places in the list,
and it takes the games back just where they are the ones that it covers there. -/
theorem remove_undoes_add (edits : List Edit) (selector : Text) (candidates : List Game)
    {p : PickList} (hp : p = after edits)
    (hall : Text.sameLetters (Text.trim selector) "all".toList = false)
    (hborne : ∃ g ∈ candidates, Text.sameLetters g.name (Text.trim selector) = true)
    (hfree : ∀ g ∈ p.games, Text.sameLetters g.name (Text.trim selector) = false) :
    ∃ change, p.add selector candidates = .ok change ∧ 1 ≤ change.changed ∧
      (change.picks.remove selector = .ok ⟨p, change.changed⟩ ↔
        Selector.read selector = .ok (.name (Text.trim selector)) ∨
        ∃ s, Selector.read selector = .ok s ∧ s.Covers change.picks.games
          (.ok (change.picks.games.filter fun g =>
            Text.sameLetters g.name (Text.trim selector)))) := by
  have hkept : p.Kept := hp ▸ kept_after edits
  obtain ⟨g, hg, hname⟩ := hborne
  have hmem : g ∈ named selector candidates := mem_named.mpr ⟨hg, hname⟩
  have hnew : ∀ h ∈ named selector candidates,
      Text.sameLetters h.name (Text.trim selector) = true := fun h hh => (mem_named.mp hh).2
  have hnot : g ∉ p.games := fun hgp => Bool.noConfusion (hname.symm.trans (hfree g hgp))
  refine ⟨⟨p.including (named selector candidates), (p.newcomers (named selector candidates)).length⟩,
    ?_, length_newcomers_pos hmem hnot, ?_⟩
  · refine add_eq_ok_iff_picks.mpr ⟨_, .named hall ⟨g, hg, hname⟩, ?_⟩
    rw [including_eq]
  · dsimp only
    cases hs : Selector.read selector with
    | error fault =>
      rw [remove_eq_bind_without (kept_including hkept.nodup _).nodup, hs]
      simp [bind, Except.bind]
    | ok s =>
      cases s with
      | name t =>
        obtain rfl := Selector.name_of_read hs
        exact iff_of_true (remove_including_of_name hkept hmem hfree hnew hs) (.inl rfl)
      | _ =>
        rw [remove_including_of_place_iff hkept hfree hnew hs (by simp)]
        simp

/-- Games to be added behind another one, the second of them at the first place of the list. -/
def placedGames : List Game := ["Go", "1"].map fun name => .ofName name.toList

theorem placedGames_taken_back :
    (∃ change, (after [.add "Azul".toList [.ofName "Azul".toList]]).add " GO".toList placedGames =
        .ok change ∧
      change.picks.remove " GO".toList =
        .ok ⟨after [.add "Azul".toList [.ofName "Azul".toList]], change.changed⟩) ∧
    ∃ change, (after [.add "Azul".toList [.ofName "Azul".toList]]).add "1".toList placedGames =
        .ok change ∧
      change.picks.remove "1".toList =
        .ok ⟨after [.add "Azul".toList [.ofName "Azul".toList]], change.changed⟩ := by
  constructor
  · obtain ⟨change, hadd, -, htaken⟩ :=
      remove_undoes_add [.add "Azul".toList [.ofName "Azul".toList]] " GO".toList placedGames rfl
        (by decide) (by decide) (by decide +kernel)
    exact ⟨change, hadd, htaken.mpr (.inl (by decide))⟩
  · obtain ⟨change, hadd, -, htaken⟩ :=
      remove_undoes_add [.add "Azul".toList [.ofName "Azul".toList]] "1".toList placedGames rfl
        (by decide) (by decide) (by decide +kernel)
    have hlist : (after [.add "Azul".toList [.ofName "Azul".toList]]).add "1".toList placedGames =
        .ok ⟨⟨[.ofName "1".toList, .ofName "Azul".toList]⟩, 1⟩ := by decide +kernel
    obtain rfl := Except.ok.inj (hadd.symm.trans hlist)
    have hcovers := Selector.covers_pick [Game.ofName "1".toList, .ofName "Azul".toList] (.index 1)
    exact ⟨_, hadd, htaken.mpr (.inr ⟨.index 1, by decide, hcovers⟩)⟩

/-- A game can be added by a name of digits, but to a removal these are a place that is not there. -/
theorem digitName_not_taken_back :
    Text.sameLetters (Text.trim "7".toList) "all".toList = false ∧ Text.trim "7".toList ≠ [] ∧
    (∃ g ∈ [Game.ofName "7".toList],
      Text.sameLetters g.name (Text.trim "7".toList) = true) ∧
    (∀ g ∈ (after []).games, Text.sameLetters g.name (Text.trim "7".toList) = false) ∧
    (after []).add "7".toList [.ofName "7".toList] = .ok ⟨⟨[.ofName "7".toList]⟩, 1⟩ ∧
    PickList.remove ⟨[.ofName "7".toList]⟩ "7".toList = .error (.indexOutOfRange 7 1) := by
  decide +kernel

end PickList

end GameShelf
