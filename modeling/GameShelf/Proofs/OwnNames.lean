import GameShelf.Proofs.SessionHistory
import GameShelf.Proofs.SheetHeader
import GameShelf.Proofs.TypedLine

namespace GameShelf

namespace PickList

variable {p : PickList} {selector : Text} {candidates : List Game} {g : Game}

theorem add_of_borne (hg : g ∈ named selector candidates)
    (hall : Text.sameLetters (Text.trim selector) "all".toList = false) :
    ∃ change, p.add selector candidates = .ok change ∧
      change.picks = p.including (named selector candidates) :=
  ⟨_, add_eq_ok_iff.mpr ⟨_, picked_of_borne hg hall, rfl⟩, rfl⟩

end PickList

theorem Session.Sound.mem_games {games : List Game} {s : Session} (hs : s.Sound games) {g : Game}
    (hg : g ∈ s.catalog.current.records) : g ∈ games := by
  obtain ⟨calls, hcalls⟩ := hs.catalog
  rw [hcalls] at hg
  exact List.mem_eraseDups.mp (Catalog.current_records_subset games calls hg)

namespace Desk

/-- Every game that is shown can be added by its own name, whatever else that could be read as, if
the name fits on a line and does not ask for all games. With it come just the games that are shown
under the same name. -/
theorem add_own_name (settings : Settings) {bytes : List UInt8} {games : List Game}
    (hgames : Sheet.games bytes = .ok games) (calls : List Catalog.Call) (files : Files)
    (earlier : List Text) {d : Desk}
    (hd : d = (opening games calls files).after settings earlier) {g : Game}
    (hg : g ∈ d.session.catalog.current.records) (hline : '\n' ∉ g.name)
    (hall : Text.sameLetters g.name "all".toList = false) :
    (∃ change, d.session.picks.add g.name d.session.catalog.current.records = .ok change ∧
      d.answer settings (Command.addLine g.name) =
        (⟨⟨d.session.catalog, change.picks⟩, d.files⟩, [])) ∧
    (∀ script, Script.answer settings d
        (Script.lines (Text.Utf8.encode (Text.line (Command.addLine g.name)) ++ script)) =
      (Script.answer settings (d.answer settings (Command.addLine g.name)).1
        (Script.lines script)).behind Help.prompt) ∧
    g ∈ (d.answer settings (Command.addLine g.name)).1.session.picks.games ∧
    ∀ h, h ∈ (d.answer settings (Command.addLine g.name)).1.session.picks.games ↔
      h ∈ d.session.picks.games ∨
        h ∈ d.session.catalog.current.records ∧ Text.sameLetters h.name g.name = true := by
  have hsound : d.session.Sound games := by
    rw [hd]
    exact sound_after settings (.start games calls) earlier
  obtain ⟨hne, htrim⟩ := Sheet.name_of_mem_games hgames (hsound.mem_games hg)
  have hnamed {h : Game} : h ∈ PickList.named g.name d.session.catalog.current.records ↔
      h ∈ d.session.catalog.current.records ∧ Text.sameLetters h.name g.name = true := by
    rw [PickList.mem_named, htrim]
  have hborne := hnamed.mpr ⟨hg, beq_self_eq_true _⟩
  obtain ⟨change, hadd, hpicks⟩ :=
    PickList.add_of_borne (p := d.session.picks) hborne (by rwa [htrim])
  have hasks := Command.callsList_addLine htrim hne
  have hanswer : d.answer settings (Command.addLine g.name) = _ := answer_add hasks hne hadd
  have hmem {h : Game} : h ∈ change.picks.games ↔ h ∈ d.session.picks.games ∨
      h ∈ d.session.catalog.current.records ∧ Text.sameLetters h.name g.name = true := by
    rw [hpicks, PickList.mem_including, hnamed]
  refine ⟨⟨change, hadd, hanswer⟩, fun script => ?_, ?_, fun h => ?_⟩
  · have hend := Command.not_ends_of_read? (Command.read?_eq_some_iff.mpr (.listAdd hasks hne))
    have hfits : '\n' ∉ Command.addLine g.name := by simp [Command.addLine, hline]
    have hscript := Script.answer_typed settings d hfits hend script
    rw [hanswer] at hscript ⊢
    exact hscript
  · rw [hanswer]
    exact hmem.mpr (.inr ⟨hg, beq_self_eq_true _⟩)
  · rw [hanswer]
    exact hmem

/-- Names that read as a range, as no selector at all, and as a command. -/
def dashNames : List Text := ["1-2".toList, "-2".toList, "list  add".toList]

/-- A desk with a game of each of these names. -/
def dashDesk : Desk := opening (dashNames.map Game.ofName) [] .empty

theorem add_dash_names :
    Sheet.games (Sheet.ofLines (dashNames.map (· ++ ",0,0,0,0,0,0,0,0,0".toList))) =
      .ok (dashNames.map Game.ofName) ∧
    Selector.read "1-2".toList = .ok (.range 1 2) ∧
    (∀ h ∈ dashNames.map Game.ofName,
      h ∈ (dashDesk.answer .standard "list add 1-2".toList).1.session.picks.games ↔
        h = .ofName "1-2".toList) ∧
    Selector.read "-2".toList = .error (.invalidSelection "-2".toList) ∧
    (∀ h ∈ dashNames.map Game.ofName,
      h ∈ (dashDesk.answer .standard "list add -2".toList).1.session.picks.games ↔
        h = .ofName "-2".toList) ∧
    (∀ h ∈ dashNames.map Game.ofName,
      h ∈ (dashDesk.answer .standard "list add list  add".toList).1.session.picks.games ↔
        h = .ofName "list  add".toList) := by
  have hgames : Sheet.games (Sheet.ofLines (dashNames.map (· ++ ",0,0,0,0,0,0,0,0,0".toList))) =
      .ok (dashNames.map Game.ofName) := by decide +kernel
  have hadd {n : Text} (hn : Game.ofName n ∈ dashDesk.session.catalog.current.records)
      (hline : '\n' ∉ n) (hall : Text.sameLetters n "all".toList = false)
      (hsame : ∀ h ∈ dashNames.map Game.ofName,
        h ∈ dashDesk.session.catalog.current.records ∧ Text.sameLetters h.name n = true ↔
          h = .ofName n) :
      ∀ h ∈ dashNames.map Game.ofName,
        h ∈ (dashDesk.answer .standard (Command.addLine n)).1.session.picks.games ↔
          h = .ofName n := by
    intro h hh
    have hmem := (add_own_name .standard hgames [] .empty [] rfl hn hline hall).2.2.2 h
    exact (hmem.trans (or_iff_right List.not_mem_nil)).trans (hsame h hh)
  refine ⟨hgames, by decide +kernel, ?_, by decide +kernel, ?_, ?_⟩
  · exact hadd (by decide +kernel) (by decide) (by decide) (by decide +kernel)
  · exact hadd (by decide +kernel) (by decide) (by decide) (by decide +kernel)
  · exact hadd (by decide +kernel) (by decide) (by decide) (by decide +kernel)

end Desk

end GameShelf
