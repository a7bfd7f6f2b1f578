import GameShelf.Proofs.History
import GameShelf.Proofs.PickHistory
import GameShelf.Proofs.ScriptRun

namespace GameShelf

namespace Command

theorem candidates_of_edit? {candidates : List Game} {c : Command} {e : PickList.Edit}
    (h : c.edit? candidates = some e) : e.candidates ⊆ candidates := by
  cases c with
  | listAdd selector =>
    cases h
    exact List.Subset.refl candidates
  | listClear =>
    cases h
    exact List.nil_subset candidates
  | listRemove selector =>
    cases h
    exact List.nil_subset candidates
  | _ => cases h

end Command

theorem Query.view_records_subset (q : Query) (games : List Game) (fallback : SortKey) :
    (q.view games fallback).records ⊆ games := by
  intro g hg
  rw [view_records, (SortKey.sort_games_perm _ _).mem_iff] at hg
  exact List.mem_of_mem_filter hg

theorem Catalog.current_records_subset (games : List Game) (calls : List Call) :
    (after games calls).current.records ⊆ (ofGames games).games := by
  rw [(after_reflects games calls).current_eq]
  exact Query.view_records_subset _ _ _

namespace Session

variable (settings : Settings) {games : List Game} {s : Session}

/-- What a session about some games always is: their catalog, as some calls left it, and what some
edits of an empty list gave, with no other games in it. -/
structure Sound (games : List Game) (s : Session) : Prop where
  catalog : ∃ calls, s.catalog = Catalog.after games calls
  picks : ∃ edits, s.picks = PickList.after edits
  listed : s.picks.games ⊆ (Catalog.ofGames games).games

theorem Sound.start (games : List Game) (calls : List Catalog.Call) :
    Sound games ⟨.after games calls, .empty⟩ :=
  ⟨⟨calls, rfl⟩, ⟨[], rfl⟩, List.nil_subset _⟩

theorem Sound.perform (h : s.Sound games) (c : Command) :
    (s.perform settings c).1.Sound games := by
  obtain ⟨calls, hcalls⟩ := h.catalog
  obtain ⟨edits, hedits⟩ := h.picks
  obtain ⟨hcatalog, hpicks⟩ := s.perform_parts settings c
  constructor
  · rw [hcatalog]
    cases c.call? with
    | none => exact h.catalog
    | some call =>
      refine ⟨calls ++ [call], ?_⟩
      rw [Catalog.after, List.foldl_append, hcalls]
      rfl
  · rw [hpicks]
    cases c.edit? s.catalog.current.records with
    | none => exact h.picks
    | some e =>
      refine ⟨edits ++ [e], ?_⟩
      rw [PickList.after_append, hedits]
      rfl
  · rw [hpicks]
    cases he : c.edit? s.catalog.current.records with
    | none => exact h.listed
    | some e =>
      intro g hg
      rcases PickList.mem_of_step hg with hg | hg
      · exact h.listed hg
      · have hshown := Command.candidates_of_edit? he hg
        rw [hcalls] at hshown
        exact Catalog.current_records_subset games calls hshown

theorem Sound.kept (h : s.Sound games) : s.picks.Kept := by
  obtain ⟨edits, he⟩ := h.picks
  rw [he]
  exact PickList.kept_after edits

theorem Sound.catalog_games (h : s.Sound games) :
    s.catalog.games = (Catalog.ofGames games).games := by
  obtain ⟨calls, hcalls⟩ := h.catalog
  rw [hcalls]
  exact (Catalog.after_reflects games calls).games_eq

end Session

namespace Desk

variable (settings : Settings) {games : List Game} {d : Desk}

/-- The desk at which a session begins, with nothing picked. -/
def opening (games : List Game) (calls : List Catalog.Call) (files : Files) : Desk :=
  ⟨⟨.after games calls, .empty⟩, files⟩

theorem sound_answer (h : d.session.Sound games) (line : Text) :
    (d.answer settings line).1.session.Sound games := by
  rcases d.answer_cases settings line with ⟨-, he⟩ | ⟨c, -, he⟩
  · rw [he]
    exact h
  · rw [he, step_session]
    exact h.perform settings c

theorem sound_after (h : d.session.Sound games) (lines : List Text) :
    (d.after settings lines).session.Sound games := by
  induction lines generalizing d with
  | nil => exact h
  | cons line lines ih => exact ih (sound_answer settings h line)

theorem sound_run (h : d.session.Sound games) (script : List UInt8) :
    (Script.run settings d script).desk.session.Sound games := by
  rw [Script.run_desk]
  exact sound_after settings h _

end Desk

namespace PickList

/-- Whatever is done to a list, it stays a set in the order of the names, and grows and shrinks as
it is told. What fails leaves it as it was. In a session it holds games of the catalog only. -/
theorem after_is_sorted_set :
    (∀ edits, (after edits).games.Nodup ∧
      (after edits).games.IsChain fun g h => SortKey.byName.compare g h ≠ .gt) ∧
    (∀ edits selector candidates,
      (∀ change, (after edits).add selector candidates = .ok change →
        after (edits ++ [.add selector candidates]) = change.picks ∧
        change.picks.count = (after edits).count + change.changed) ∧
      ∀ fault, (after edits).add selector candidates = .error fault →
        after (edits ++ [.add selector candidates]) = after edits) ∧
    (∀ edits selector,
      (∀ change, (after edits).remove selector = .ok change →
        after (edits ++ [.remove selector]) = change.picks ∧
        change.picks.count + change.changed = (after edits).count) ∧
      ∀ fault, (after edits).remove selector = .error fault →
        after (edits ++ [.remove selector]) = after edits ∧
        ∀ t, Selector.read selector = .ok (.name t) →
          ((after edits).games.filter fun g => !Text.sameLetters g.name t) = (after edits).games) ∧
    (∀ edits, after (edits ++ [.clear]) = .empty) ∧
    ∀ settings games calls files,
      (∀ lines d, d = (Desk.opening games calls files).after settings lines →
        (∃ edits, d.session.picks = after edits) ∧
        d.session.picks.games ⊆ d.session.catalog.games) ∧
      ∀ lines script d,
        d = (Script.run settings ((Desk.opening games calls files).after settings lines)
          script).desk →
        (∃ edits, d.session.picks = after edits) ∧
        d.session.picks.games ⊆ d.session.catalog.games := by
  refine ⟨fun edits => ⟨(kept_after edits).nodup, (kept_after edits).sorted.isChain⟩, ?_, ?_, ?_,
    ?_⟩
  · intro edits selector candidates
    rw [after_append]
    exact ⟨fun change h => ⟨step_of_add h, count_of_add h⟩,
      fun fault h => step_of_error (perform_add_of_error h)⟩
  · intro edits selector
    rw [after_append]
    exact ⟨fun change h => ⟨step_of_remove h, count_of_remove h⟩,
      fun fault h => ⟨step_of_error (perform_remove_of_error h),
        fun t ht => filter_of_remove_eq_error ht h⟩⟩
  · intro edits
    rw [after_append]
    rfl
  · intro settings games calls files
    have hstart : (Desk.opening games calls files).session.Sound games := .start games calls
    have hlisted {s : Session} (h : s.Sound games) :
        (∃ edits, s.picks = after edits) ∧ s.picks.games ⊆ s.catalog.games := by
      refine ⟨h.picks, ?_⟩
      rw [h.catalog_games]
      exact h.listed
    constructor
    · rintro lines d rfl
      exact hlisted (Desk.sound_after settings hstart lines)
    · rintro lines script d rfl
      exact hlisted (Desk.sound_run settings (Desk.sound_after settings hstart lines) script)

/-- The same game twice counts once, and there is no second one to remove. -/
theorem after_equal_candidates :
    (∃ change, (after []).add "all".toList [.ofName ['A'], .ofName ['A']] = .ok change ∧
      after [.add "all".toList [.ofName ['A'], .ofName ['A']]] = change.picks ∧
      change.picks.count = 1) ∧
    after [.add "all".toList [.ofName ['A']], .remove ['2']] =
      after [.add "all".toList [.ofName ['A']]] ∧
    after [.add "all".toList [.ofName ['A']], .remove ['a']] = .empty ∧
    ((Desk.opening [.ofName ['A']] [] .empty).after .standard
      ["filter".toList, "list add 1".toList]).session.picks.games ⊆ [.ofName ['A']] := by
  obtain ⟨-, hadd, hremove, -, hsession⟩ := after_is_sorted_set
  refine ⟨?_, ?_, ?_, ?_⟩
  · have h : (after []).add "all".toList [.ofName ['A'], .ofName ['A']] =
        .ok ⟨⟨[.ofName ['A']]⟩, 1⟩ := by decide +kernel
    obtain ⟨hlist, hcount⟩ := (hadd [] "all".toList _).1 _ h
    exact ⟨_, h, hlist, hcount⟩
  · have h : (after [.add "all".toList [.ofName ['A']]]).remove ['2'] =
        .error (.indexOutOfRange 2 1) := by decide +kernel
    exact ((hremove [.add "all".toList [.ofName ['A']]] ['2']).2 _ h).1
  · have h : (after [.add "all".toList [.ofName ['A']]]).remove ['a'] = .ok ⟨.empty, 1⟩ := by
      decide +kernel
    exact ((hremove [.add "all".toList [.ofName ['A']]] ['a']).1 _ h).1
  · exact ((hsession .standard [.ofName ['A']] [] .empty).1 _ _ rfl).2

end PickList

end GameShelf
