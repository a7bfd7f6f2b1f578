import GameShelf.Proofs.CommandGrammar
import GameShelf.Proofs.History
import GameShelf.Proofs.PickHistory
import GameShelf.Proofs.WrittenFile
import GameShelf.Session.Script

namespace GameShelf

namespace Command

/-- What a command asks of the catalog. -/
def call? : Command → Option Catalog.Call
  | filterAll => some (.filter [])
  | filterClear => some .reset
  | filter t => some (.filter t)
  | _ => none

/-- What a command does to the list, if these are the games that it can add. -/
def edit? (candidates : List Game) : Command → Option PickList.Edit
  | listClear => some .clear
  | listAdd selector => some (.add selector candidates)
  | listRemove selector => some (.remove selector)
  | _ => none

/-- Whether a command is to write a file. -/
def saves : Command → Bool
  | listSave _ => true
  | _ => false

variable {line : Text} {c : Command}

theorem Asks.calls_filter {call : Catalog.Call} (h : Asks line c) (hc : c.call? = some call) :
    ∃ args, Calls line "filter" args ∧ args ≠ ['?'] := by
  cases h with
  | filterAll hf => exact ⟨_, hf, by decide⟩
  | filterClear hf hclear =>
    refine ⟨_, hf, ?_⟩
    rintro rfl
    exact absurd hclear (by decide)
  | filter hf _ hq _ => exact ⟨_, hf, hq⟩
  | _ => cases hc

theorem Asks.callsList_of_edit {candidates : List Game} {e : PickList.Edit} (h : Asks line c)
    (hc : c.edit? candidates = some e) :
    ∃ name ∈ ["add", "remove", "clear"], ∃ rest, CallsList line name rest := by
  cases h with
  | listAdd hl _ => exact ⟨"add", by simp, _, hl⟩
  | listRemove hl _ => exact ⟨"remove", by simp, _, hl⟩
  | listClear hl => exact ⟨"clear", by simp, _, hl⟩
  | _ => cases hc

theorem Asks.callsList_of_saves (h : Asks line c) (hc : c.saves = true) :
    ∃ rest, CallsList line "save" rest := by
  cases h with
  | listSave hl => exact ⟨_, hl⟩
  | _ => cases hc

theorem read?_of_filter_ne_help {args : Text} (h : Calls line "filter" args) (hq : args ≠ ['?']) :
    read? line =
      some (if args = [] then filterAll else if keyword args "clear" then filterClear
        else filter args) := by
  rw [read?_of_filter h, readFilter]
  cases args with
  | nil => rfl
  | cons a args =>
    rw [if_neg (by simp), if_neg hq, if_neg (List.cons_ne_nil a args)]

end Command

namespace Session

variable (settings : Settings) (s : Session) {c : Command}

/-- A session passes on what a command asks of its catalog and of its list. -/
theorem perform_parts (c : Command) :
    (s.perform settings c).1.catalog = c.call?.elim s.catalog s.catalog.step ∧
    (s.perform settings c).1.picks =
      (c.edit? s.catalog.current.records).elim s.picks s.picks.step := by
  cases c with
  | listAdd selector =>
    cases h : s.picks.add selector s.catalog.current.records with
    | ok change =>
      rw [perform, h]
      exact ⟨rfl, (PickList.step_of_add h).symm⟩
    | error fault =>
      rw [perform, h]
      exact ⟨rfl, (PickList.step_of_error (PickList.perform_add_of_error h)).symm⟩
  | listRemove selector =>
    cases h : s.picks.remove selector with
    | ok change =>
      rw [perform, h]
      exact ⟨rfl, (PickList.step_of_remove h).symm⟩
    | error fault =>
      rw [perform, h]
      exact ⟨rfl, (PickList.step_of_error (PickList.perform_remove_of_error h)).symm⟩
  | _ => exact ⟨rfl, rfl⟩

theorem exists_perform_say (h : c.saves = false) :
    ∃ s' t, s.perform settings c = (s', .say t) := by
  cases c with
  | listSave path => cases h
  | listAdd selector => unfold perform; dsimp only; split <;> exact ⟨_, _, rfl⟩
  | listRemove selector => unfold perform; dsimp only; split <;> exact ⟨_, _, rfl⟩
  | _ => exact ⟨_, _, rfl⟩

end Session

namespace Desk

variable (settings : Settings) (d : Desk) {line : Text} {c : Command}

/-- What a line does at a desk, and what is shown for it. A line that ends the session does
nothing. -/
def answer (line : Text) : Desk × Text :=
  match Command.read? line with
  | some c => d.step settings c
  | none => (d, [])

theorem step_session (c : Command) :
    (d.step settings c).1.session = (d.session.perform settings c).1 := by
  unfold step
  obtain ⟨s, reply⟩ := d.session.perform settings c
  cases reply with
  | say t => rfl
  | save path content =>
    dsimp only
    split <;> rfl

theorem step_files (h : c.saves = false) : (d.step settings c).1.files = d.files := by
  obtain ⟨s', t, hp⟩ := d.session.exists_perform_say settings h
  unfold step
  rw [hp]

theorem answer_of_asks (h : Command.Asks line c) : d.answer settings line = d.step settings c := by
  unfold answer
  rw [Command.read?_eq_some_iff.mpr h]

/-- A line either ends the session or does what it asks for. -/
theorem answer_cases (line : Text) :
    (Command.Ends line ∧ d.answer settings line = (d, [])) ∨
      ∃ c, Command.Asks line c ∧ d.answer settings line = d.step settings c := by
  cases h : Command.read? line with
  | none =>
    refine .inl ⟨Command.read?_eq_none_iff.mp h, ?_⟩
    unfold answer
    rw [h]
  | some c =>
    have ha := Command.read?_eq_some_iff.mp h
    exact .inr ⟨c, ha, d.answer_of_asks settings ha⟩

theorem eq_of_parts {d d' : Desk} (hcatalog : d'.session.catalog = d.session.catalog)
    (hpicks : d'.session.picks = d.session.picks) (hfiles : d'.files = d.files) : d' = d := by
  obtain ⟨⟨catalog, picks⟩, files⟩ := d
  obtain ⟨⟨catalog', picks'⟩, files'⟩ := d'
  cases hcatalog
  cases hpicks
  cases hfiles
  rfl

/-- When a line is answered with an error, and with which. -/
inductive Refuses (line : Text) : Text → Prop where
  | unknown : Command.Asks line .unknown → Refuses line (Text.line Help.invalid)
  | listUnknown : Command.Asks line .listUnknown →
      Refuses line (Text.line Help.invalid ++ Text.line Help.list)
  | add {selector fault} : Command.Asks line (.listAdd selector) →
      d.session.picks.add selector d.session.catalog.current.records = .error fault →
      Refuses line (Session.couldNotAdd selector fault)
  | remove {selector fault} : Command.Asks line (.listRemove selector) →
      d.session.picks.remove selector = .error fault →
      Refuses line (Session.couldNotRemove selector fault)
  | save {path fault} : Command.Asks line (.listSave path) →
      d.files.write (path.getD settings.listFile) (Text.Utf8.encode d.session.picks.written) =
        .error fault →
      Refuses line (Session.notSaved fault.message)

variable {settings d}

theorem answer_of_refuses {message : Text} (h : d.Refuses settings line message) :
    d.answer settings line = (d, message) := by
  cases h with
  | unknown ha => exact d.answer_of_asks settings ha
  | listUnknown ha => exact d.answer_of_asks settings ha
  | add ha hadd =>
    rw [d.answer_of_asks settings ha, step, Session.perform, hadd]
  | remove ha hremove =>
    rw [d.answer_of_asks settings ha, step, Session.perform, hremove]
  | save ha hwrite =>
    rw [d.answer_of_asks settings ha, step, Session.perform]
    dsimp only
    rw [hwrite]

theorem catalog_answer_of_filter {args : Text} (h : Command.Calls line "filter" args)
    (hq : args ≠ ['?']) :
    (d.answer settings line).1.session.catalog =
      if Command.keyword args "clear" then d.session.catalog.reset
      else d.session.catalog.filter args := by
  unfold answer
  rw [Command.read?_of_filter_ne_help h hq]
  dsimp only
  rw [step_session]
  by_cases hnil : args = []
  · subst hnil
    rfl
  · rw [if_neg hnil]
    split <;> rfl

theorem catalog_answer (h : ∀ args, Command.Calls line "filter" args → args = ['?']) :
    (d.answer settings line).1.session.catalog = d.session.catalog := by
  rcases d.answer_cases settings line with ⟨-, he⟩ | ⟨c, ha, he⟩
  · rw [he]
  · rw [he, step_session, (d.session.perform_parts settings c).1]
    cases hc : c.call? with
    | none => rfl
    | some call =>
      obtain ⟨args, hf, hq⟩ := ha.calls_filter hc
      exact absurd (h args hf) hq

theorem picks_answer
    (h : ∀ name ∈ ["add", "remove", "clear"], ∀ rest, ¬Command.CallsList line name rest) :
    (d.answer settings line).1.session.picks = d.session.picks := by
  rcases d.answer_cases settings line with ⟨-, he⟩ | ⟨c, ha, he⟩
  · rw [he]
  · rw [he, step_session, (d.session.perform_parts settings c).2]
    cases hc : c.edit? d.session.catalog.current.records with
    | none => rfl
    | some e =>
      obtain ⟨name, hname, rest, hl⟩ := ha.callsList_of_edit hc
      exact absurd hl (h name hname rest)

theorem files_answer (h : ∀ rest, ¬Command.CallsList line "save" rest) :
    (d.answer settings line).1.files = d.files := by
  rcases d.answer_cases settings line with ⟨-, he⟩ | ⟨c, ha, he⟩
  · rw [he]
  · rw [he]
    apply step_files
    apply eq_false_of_ne_true
    intro hc
    obtain ⟨rest, hl⟩ := ha.callsList_of_saves hc
    exact h rest hl

/-- Whatever a selector adds is added without a word. -/
theorem answer_add {rest : Text} {change : PickList.Change}
    (h : Command.CallsList line "add" rest) (hne : rest ≠ [])
    (hadd : d.session.picks.add rest d.session.catalog.current.records = .ok change) :
    d.answer settings line = (⟨⟨d.session.catalog, change.picks⟩, d.files⟩, []) := by
  rw [d.answer_of_asks settings (.listAdd h hne), step, Session.perform, hadd]

/-- A list is saved under the path that is given, or else under the one that the settings name. -/
theorem answer_save {rest : Text} (h : Command.CallsList line "save" rest) :
    (∃ files, d.answer settings line =
        (⟨d.session, files⟩, Session.saved (if rest = [] then settings.listFile else rest)) ∧
      d.files.Replaces files (if rest = [] then settings.listFile else rest)
        (Text.Utf8.encode d.session.picks.written)) ∨
    ∃ message, d.Refuses settings line message := by
  have ha := Command.Asks.listSave h
  have hpath : (if rest.isEmpty then none else some rest).getD settings.listFile =
      if rest = [] then settings.listFile else rest := by
    cases rest <;> rfl
  cases hw : d.files.write (if rest = [] then settings.listFile else rest)
      (Text.Utf8.encode d.session.picks.written) with
  | error fault =>
    rw [← hpath] at hw
    exact .inr ⟨_, .save ha hw⟩
  | ok files =>
    refine .inl ⟨files, ?_, Files.replaces_of_write hw⟩
    rw [d.answer_of_asks settings ha, step, Session.perform]
    dsimp only
    rw [hpath, hw]

/-- What a line can change. The catalog shows something else only after a filter request, and then
what that asks for. The list changes only by adding, removing and clearing, and of the files only
the one that the list is saved in. A line that is answered with an error changes nothing. -/
theorem answer_effects (settings : Settings) (d : Desk) (line : Text) :
    (∀ args, Command.Calls line "filter" args → args ≠ ['?'] →
      (d.answer settings line).1.session.catalog =
        if Command.keyword args "clear" then d.session.catalog.reset
        else d.session.catalog.filter args) ∧
    ((∀ args, Command.Calls line "filter" args → args = ['?']) →
      (d.answer settings line).1.session.catalog = d.session.catalog) ∧
    ((∀ name ∈ ["add", "remove", "clear"], ∀ rest, ¬Command.CallsList line name rest) →
      (d.answer settings line).1.session.picks = d.session.picks) ∧
    ((∀ rest, ¬Command.CallsList line "save" rest) →
      (d.answer settings line).1.files = d.files) ∧
    (∀ rest, Command.CallsList line "save" rest →
      (∃ files, d.answer settings line =
          (⟨d.session, files⟩, Session.saved (if rest = [] then settings.listFile else rest)) ∧
        d.files.Replaces files (if rest = [] then settings.listFile else rest)
          (Text.Utf8.encode d.session.picks.written)) ∨
      ∃ message, d.Refuses settings line message) ∧
    ((∀ args, Command.Calls line "filter" args → args = ['?']) →
      (∀ name ∈ ["add", "remove", "clear", "save"], ∀ rest, ¬Command.CallsList line name rest) →
      (d.answer settings line).1 = d) ∧
    ∀ message, d.Refuses settings line message → d.answer settings line = (d, message) := by
  refine ⟨fun args => catalog_answer_of_filter, catalog_answer, picks_answer, files_answer,
    fun rest => answer_save, fun hfilter hlist => ?_, fun message => answer_of_refuses⟩
  simp only [List.forall_mem_cons] at hlist
  obtain ⟨hadd, hremove, hclear, hsave, -⟩ := hlist
  apply eq_of_parts (catalog_answer hfilter) _ (files_answer hsave)
  apply picks_answer
  simp only [List.forall_mem_cons]
  exact ⟨hadd, hremove, hclear, List.forall_mem_nil _⟩

/-- Saving from an empty folder, with the words in capitals and no path. -/
theorem answer_capital_save :
    Command.CallsList " LIST\tSave ".toList "save" [] ∧
    (∃ files,
      (Desk.mk (.ofGames []) .empty).answer .standard " LIST\tSave ".toList =
        (⟨.ofGames [], files⟩, Session.saved "games_list.txt".toList) ∧
      Files.empty.Replaces files "games_list.txt".toList []) ∧
    Command.Calls "FILTER sort:year".toList "filter" "sort:year".toList ∧
    ((Desk.mk (.ofGames []) .empty).answer .standard
      "FILTER sort:year".toList).1.session.catalog =
        (Catalog.ofGames []).filter "sort:year".toList := by
  have hsave : Command.CallsList " LIST\tSave ".toList "save" [] :=
    ⟨"Save".toList, by decide, by decide⟩
  have hfilter : Command.Calls "FILTER sort:year".toList "filter" "sort:year".toList := by decide
  refine ⟨hsave, ?_, hfilter, ?_⟩
  · obtain ⟨-, -, -, -, h, -⟩ :=
      answer_effects .standard ⟨.ofGames [], .empty⟩ " LIST\tSave ".toList
    rcases h [] hsave with h | ⟨message, h⟩
    · exact h
    · -- nothing stands in the way of the file
      cases h with
      | unknown ha => cases ha.unique (.listSave hsave)
      | listUnknown ha => cases ha.unique (.listSave hsave)
      | add ha _ => cases ha.unique (.listSave hsave)
      | remove ha _ => cases ha.unique (.listSave hsave)
      | save ha hw =>
        cases ha.unique (.listSave hsave)
        cases hw
  · have h := (answer_effects .standard ⟨.ofGames [], .empty⟩ "FILTER sort:year".toList).1 _ hfilter
      (by decide)
    exact h

end Desk

end GameShelf
