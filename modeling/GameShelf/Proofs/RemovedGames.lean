import GameShelf.Proofs.SessionHistory
import Mathlib.Data.List.Perm.Basic

namespace GameShelf

/-- In a list without repetitions, what is in one piece of it is nowhere else. -/
theorem not_mem_of_mem_piece {A : Type} {before piece behind : List A} {a : A}
    (h : (before ++ piece ++ behind).Nodup) (ha : a ∈ piece) : a ∉ before ++ behind := by
  rw [List.append_assoc, List.nodup_append] at h
  obtain ⟨-, hrest, hbefore⟩ := h
  rw [List.mem_append]
  rintro (hmem | hmem)
  · exact hbefore a hmem a (List.mem_append_left _ ha) rfl
  · exact (List.nodup_append.mp hrest).2.2 a ha a hmem rfl

theorem filter_piece {A : Type} {before piece behind : List A} {test : A → Bool}
    (hrest : ∀ a ∈ before ++ behind, test a = false) (hpiece : ∀ a ∈ piece, test a = true) :
    (before ++ piece ++ behind).filter test = piece := by
  have hnone {l : List A} (hl : l ⊆ before ++ behind) : l.filter test = [] :=
    List.filter_eq_nil_iff.mpr fun a ha => Bool.eq_false_iff.mp (hrest a (hl ha))
  rw [List.filter_append, List.filter_append, hnone (List.subset_append_left _ _),
    hnone (List.subset_append_right _ _), List.filter_eq_self.mpr hpiece, List.nil_append,
    List.append_nil]

/-- A piece of a list without repetitions can be dropped by its values. -/
theorem filter_not_contains_piece {A : Type} [BEq A] [LawfulBEq A] {before piece behind : List A}
    (h : (before ++ piece ++ behind).Nodup) :
    (before ++ piece ++ behind).filter (fun a => !piece.contains a) = before ++ behind := by
  have hdrop : piece.filter (fun a => !piece.contains a) = [] :=
    List.filter_eq_nil_iff.mpr fun a ha => by simpa using ha
  have hkeep : (before ++ behind).filter (fun a => !piece.contains a) = before ++ behind :=
    List.filter_eq_self.mpr fun a ha => by
      simpa using fun hpiece => not_mem_of_mem_piece h hpiece ha
  rw [List.filter_append, List.filter_append, hdrop, List.append_nil, ← List.filter_append, hkeep]

theorem length_eq_countP_add_filter_not {A : Type} (test : A → Bool) (l : List A) :
    l.length = l.countP test + (l.filter fun a => !test a).length := by
  rw [← List.countP_eq_length_filter]
  simpa using List.length_eq_countP_add_countP test (l := l)

namespace PickList

variable {p : PickList} {selector t : Text} {s : Selector} {doomed games : List Game}
  {fault : PickFault}

/-- The games that a list shows, each with the number in front of it. -/
def shown (p : PickList) : List (Game × Nat) := p.games.zipIdx 1

/-- A list without what a selector stands for in it, and how many games that takes away. -/
def without (p : PickList) : Selector → Except PickFault Change
  | .all => .ok ⟨.empty, p.count⟩
  | .index i =>
    if 1 ≤ i ∧ i ≤ p.count then .ok ⟨⟨p.games.eraseIdx (i - 1)⟩, 1⟩
    else .error (.indexOutOfRange i p.count)
  | .range first last =>
    if 1 ≤ first ∧ first ≤ last ∧ last ≤ p.count then
      .ok ⟨⟨p.games.take (first - 1) ++ p.games.drop last⟩, last - first + 1⟩
    else .error (.invalidRange first last p.count)
  | .name t =>
    if ∃ g ∈ p.games, Text.sameLetters g.name t = true then
      .ok ⟨⟨p.games.filter fun g => !Text.sameLetters g.name t⟩,
        p.games.countP fun g => Text.sameLetters g.name t⟩
    else .error (.gameNotFound t)

theorem listing_eq (p : PickList) :
    p.listing = p.shown.flatMap fun e =>
      Text.line (Numeral.ofNat e.2 ++ ": ".toList ++ e.1.name) :=
  Text.numbered_map Game.name p.games

/-- What is picked by places is dropped there and nowhere else, since no game comes twice. -/
theorem remove_of_pick {before behind : List Game} (hp : p.games.Nodup)
    (hs : Selector.read selector = .ok s) (hname : ∀ t, s ≠ .name t)
    (hpick : s.pick p.games = .ok doomed) (hsplit : p.games = before ++ doomed ++ behind) :
    p.remove selector = .ok ⟨⟨before ++ behind⟩, doomed.length⟩ := by
  have hleft : p.games.filter (fun g => !doomed.contains g) = before ++ behind := by
    rw [hsplit] at hp ⊢
    exact filter_not_contains_piece hp
  have hcount : p.count - (before ++ behind).length = doomed.length := by
    rw [count, hsplit]
    simp only [List.length_append]
    omega
  have hremaining : p.remaining selector = .ok (before ++ behind) := by
    rw [remaining_eq_bind_pick hs hname, hpick, ← hleft]
    rfl
  rw [remove_of_remaining hremaining, hcount]

theorem remove_of_pick_error (hs : Selector.read selector = .ok s) (hname : ∀ t, s ≠ .name t)
    (hpick : s.pick p.games = .error fault) : p.remove selector = .error fault := by
  apply remove_of_error
  rw [remaining_eq_bind_pick hs hname, hpick]
  rfl

theorem remove_of_name (hs : Selector.read selector = .ok (.name t)) :
    p.remove selector = p.without (.name t) := by
  have hcut : p.count = p.games.countP (fun g => Text.sameLetters g.name t) +
      (p.games.filter fun g => !Text.sameLetters g.name t).length :=
    length_eq_countP_add_filter_not _ p.games
  have hborne : (∃ g ∈ p.games, Text.sameLetters g.name t = true) ↔
      0 < p.games.countP fun g => Text.sameLetters g.name t := List.countP_pos_iff.symm
  rw [without]
  split
  next h =>
    have hpos := hborne.mp h
    have hremaining := remaining_of_name (p := p) hs
    rw [if_neg (by omega)] at hremaining
    rw [remove_of_remaining hremaining, hcut, Nat.add_sub_cancel]
  next h =>
    have hzero := mt hborne.mpr h
    have hremaining := remaining_of_name (p := p) hs
    rw [if_pos (by omega)] at hremaining
    exact remove_of_error hremaining

theorem without_index {before behind : List Game} {g : Game} {i : Nat}
    (hgames : p.games = before ++ g :: behind) (hi : before.length + 1 = i) :
    p.without (.index i) = .ok ⟨⟨before ++ behind⟩, 1⟩ := by
  have herase : p.games.eraseIdx (i - 1) = before ++ behind := by
    rw [hgames, ← hi, Nat.add_sub_cancel, List.eraseIdx_append_of_length_le (Nat.le_refl _),
      Nat.sub_self]
    rfl
  have hfits : 1 ≤ i ∧ i ≤ p.count := by
    rw [count, hgames, List.length_append, List.length_cons]
    omega
  rw [without, if_pos hfits, herase]

theorem without_range {before behind : List Game} {first last : Nat}
    (hgames : p.games = before ++ doomed ++ behind) (hfirst : before.length + 1 = first)
    (hle : first ≤ last) (hlast : before.length + doomed.length = last) :
    p.without (.range first last) = .ok ⟨⟨before ++ behind⟩, doomed.length⟩ := by
  have hfits : 1 ≤ first ∧ first ≤ last ∧ last ≤ p.count := by
    rw [count, hgames, List.length_append, List.length_append]
    omega
  have htake : p.games.take (first - 1) = before := by
    rw [hgames, ← hfirst, Nat.add_sub_cancel, List.append_assoc, List.take_left]
  have hdrop : p.games.drop last = behind := by
    rw [hgames, ← hlast, ← List.length_append, List.drop_left]
  have hlength : last - first + 1 = doomed.length := by omega
  rw [without, if_pos hfits, htake, hdrop, hlength]

theorem remove_eq_bind_without (hp : p.games.Nodup) :
    p.remove selector = Selector.read selector >>= p.without := by
  cases hs : Selector.read selector with
  | error fault =>
    rw [remove, remaining, hs]
    rfl
  | ok s =>
    change _ = p.without s
    have hcovers := Selector.covers_pick p.games s
    generalize hpick : s.pick p.games = r at hcovers
    cases hcovers with
    | name => exact remove_of_name hs
    | all =>
      have hgames : p.games = [] ++ p.games ++ [] := by simp
      rw [remove_of_pick hp hs (by simp) hpick hgames]
      rfl
    | @index i before g behind hgames hi =>
      have hsplit : p.games = before ++ [g] ++ behind := by simpa using hgames
      rw [without_index hgames hi, remove_of_pick hp hs (by simp) hpick hsplit]
      rfl
    | range hgames hfirst hle hlast =>
      rw [without_range hgames hfirst hle hlast, remove_of_pick hp hs (by simp) hpick hgames]
    | noIndex hi =>
      rw [without, if_neg (by rw [count]; omega)]
      exact remove_of_pick_error hs (by simp) hpick
    | noRange hr =>
      rw [without, if_neg (by rw [count]; omega)]
      exact remove_of_pick_error hs (by simp) hpick

/-- A name that is no game's name is refused, so some game bears one that is not. -/
theorem changed_of_name {change : Change} (hs : Selector.read selector = .ok (.name t))
    (h : p.remove selector = .ok change) : 1 ≤ change.changed := by
  rw [remove_of_name hs, without] at h
  split at h
  next hborne =>
    cases h
    exact List.countP_pos_iff.mpr hborne
  next => cases h

/-- The number in front of a game takes that game off the list. -/
theorem remove_shown {g : Game} {n : Nat} (hp : p.games.Nodup) (h : (g, n) ∈ p.shown)
    (hn : n ≤ Selector.maxIndex) :
    p.remove (Numeral.ofNat n) = .ok ⟨⟨p.games.eraseIdx (n - 1)⟩, 1⟩ ∧
      p.games.Perm (g :: p.games.eraseIdx (n - 1)) := by
  obtain ⟨h1, hg⟩ := List.mk_mem_zipIdx_iff_le_and_getElem?_sub.mp h
  obtain ⟨hlt, hget⟩ := List.getElem?_eq_some_iff.mp hg
  have hfits : 1 ≤ n ∧ n ≤ p.count := ⟨h1, by rw [count]; omega⟩
  constructor
  · rw [remove_eq_bind_without hp, Selector.read_ofNat hn]
    exact if_pos hfits
  · rw [← hget]
    exact (List.getElem_cons_eraseIdx_perm hlt).symm

end PickList

namespace Desk

variable {settings : Settings} {d : Desk} {line args rest : Text}

theorem answer_of_show (h : Command.Calls line "list" args)
    (hshow : args = [] ∨ ∃ rest, Command.Calls args "show" rest) :
    d.answer settings line =
      (d, if d.session.picks.games = [] then Text.line Help.emptyList
        else d.session.picks.listing) := by
  rw [d.answer_of_asks settings (.listShow h hshow), step, Session.perform]
  dsimp only
  rw [PickList.isEmpty]
  simp only [List.isEmpty_iff]

theorem answer_remove {change : PickList.Change} (h : Command.CallsList line "remove" rest)
    (hne : rest ≠ []) (hremove : d.session.picks.remove rest = .ok change) :
    d.answer settings line = (⟨⟨d.session.catalog, change.picks⟩, d.files⟩, []) := by
  rw [d.answer_of_asks settings (.listRemove h hne), step, Session.perform, hremove]

end Desk

namespace PickList

/-- A list loses just what a selector stands for in it: the games at these places, though they are
looked for by value, or those of the name. Whatever else it says is refused, and changes nothing. In
a session the places are the numbers that the list is shown with. -/
theorem remove_selected (edits : List Edit) (selector : Text) {p : PickList}
    (hp : p = after edits) :
    p.remove selector = Selector.read selector >>= p.without ∧
    (∀ change, p.remove selector = .ok change →
      after (edits ++ [.remove selector]) = change.picks ∧
      ∀ t, Selector.read selector = .ok (.name t) → 1 ≤ change.changed) ∧
    (∀ fault, p.remove selector = .error fault →
      after (edits ++ [.remove selector]) = p ∧
      ∀ t, Selector.read selector = .ok (.name t) →
        (p.games.filter fun g => !Text.sameLetters g.name t) = p.games) ∧
    ∀ settings games calls files earlier d,
      d = (Desk.opening games calls files).after settings earlier →
      (∀ line args, Command.Calls line "list" args →
        (args = [] ∨ ∃ rest, Command.Calls args "show" rest) →
        d.answer settings line =
          (d, if d.session.picks.games = [] then Text.line Help.emptyList
            else d.session.picks.shown.flatMap fun e =>
              Text.line (Numeral.ofNat e.2 ++ ": ".toList ++ e.1.name))) ∧
      ∀ g n, (g, n) ∈ d.session.picks.shown → n ≤ Selector.maxIndex →
        ∀ line, Command.CallsList line "remove" (Numeral.ofNat n) →
          d.answer settings line =
            (⟨⟨d.session.catalog, ⟨d.session.picks.games.eraseIdx (n - 1)⟩⟩, d.files⟩, []) ∧
          d.session.picks.games.Perm (g :: d.session.picks.games.eraseIdx (n - 1)) := by
  have hkept : p.Kept := hp ▸ kept_after edits
  refine ⟨remove_eq_bind_without hkept.nodup, fun change h => ⟨?_, fun t ht => changed_of_name ht h⟩,
    fun fault h => ⟨?_, fun t ht => filter_of_remove_eq_error ht h⟩, ?_⟩
  · rw [after_append, ← hp, step_of_remove h]
  · rw [after_append, ← hp, step_of_error (perform_remove_of_error h)]
  · rintro settings games calls files earlier d rfl
    refine ⟨fun line args hline hshow => ?_, fun g n hg hn line hline => ?_⟩
    · rw [Desk.answer_of_show hline hshow, listing_eq]
    · have hsound := Desk.sound_after settings (.start games calls) earlier
        (d := Desk.opening games calls files)
      obtain ⟨hremove, hperm⟩ := remove_shown hsound.kept.nodup hg hn
      exact ⟨Desk.answer_remove hline (Numeral.ofNat_ne_nil n) hremove, hperm⟩

/-- Two games of one name, and one more. -/
def twinGames : List Game :=
  [.ofName "Go".toList, { Game.ofName "go".toList with id := 1 }, .ofName "Azul".toList]

/-- The places are those of the list, where the games are in the order of their names. -/
theorem twinGames_removed :
    (after [.add "all".toList twinGames]).names = ["Azul".toList, "Go".toList, "go".toList] ∧
    (after [.add "all".toList twinGames]).remove "2".toList =
      .ok ⟨⟨[.ofName "Azul".toList, { Game.ofName "go".toList with id := 1 }]⟩, 1⟩ ∧
    (after [.add "all".toList twinGames]).remove "1-2".toList =
      .ok ⟨⟨[{ Game.ofName "go".toList with id := 1 }]⟩, 2⟩ ∧
    (after [.add "all".toList twinGames]).remove "GO".toList =
      .ok ⟨⟨[.ofName "Azul".toList]⟩, 2⟩ ∧
    (after [.add "all".toList twinGames]).remove "3-1".toList = .error (.invalidRange 3 1 3) ∧
    (((Desk.opening twinGames [] .empty).after .standard ["list add all".toList]).answer .standard
      "List Remove 1".toList).1.session.picks.names = ["Go".toList, "go".toList] := by
  have hspec := fun selector => remove_selected [.add "all".toList twinGames] selector rfl
  refine ⟨by decide +kernel, ?_, ?_, ?_, ?_, ?_⟩
  · rw [(hspec _).1]
    decide +kernel
  · rw [(hspec _).1]
    decide +kernel
  · rw [(hspec _).1]
    decide +kernel
  · rw [(hspec _).1]
    decide +kernel
  · obtain ⟨-, -, -, hsession⟩ := hspec []
    obtain ⟨-, hremove⟩ := hsession .standard twinGames [] .empty ["list add all".toList] _ rfl
    have hfirst : (Game.ofName "Azul".toList, 1) ∈
        ((Desk.opening twinGames [] .empty).after .standard
          ["list add all".toList]).session.picks.shown := by decide +kernel
    have hline : Command.CallsList "List Remove 1".toList "remove" (Numeral.ofNat 1) :=
      ⟨"Remove 1".toList, by decide +kernel, by decide +kernel⟩
    rw [(hremove _ _ hfirst (by decide) _ hline).1]
    decide +kernel

end PickList

end GameShelf
