import GameShelf.CommandLine.Basic
import GameShelf.Proofs.FilterText
import GameShelf.Proofs.ShownResults
import GameShelf.Proofs.TypedLine

namespace GameShelf

namespace ValueOption

/-- What an option is called behind two dashes. -/
def word : ValueOption → Text
  | games => "games".toList
  | listFile => "list-file".toList
  | filter => "filter".toList
  | sort => "sort".toList

theorem ofWord?_word (s : ValueOption) : ofWord? s.word = some s := by
  cases s <;> decide

theorem equals_not_mem_word (s : ValueOption) : '=' ∉ s.word := by
  cases s <;> decide

/-- The argument that gives an option its value. -/
def given (s : ValueOption) (value : Text) : Text := '-' :: '-' :: (s.word ++ '=' :: value)

end ValueOption

namespace Arguments

variable {a b c : Arguments} {s : ValueOption} {t value : Text}

/-- Whatever is set in `a` is set to the same in `b`. -/
def Le (a b : Arguments) : Prop := ∀ s value, a.get s = some value → b.get s = some value

theorem Le.refl (a : Arguments) : a.Le a := fun _ _ h => h

theorem Le.trans (hab : a.Le b) (hbc : b.Le c) : a.Le c :=
  fun s value h => hbc s value (hab s value h)

theorem get_of_set (h : a.set s value = some b) : b.get s = some value := by
  unfold set at h
  split at h
  · cases h
  · cases s <;> cases h <;> rfl

theorem le_of_set (h : a.set s value = some b) : a.Le b := by
  unfold set at h
  split at h
  · cases h
  next hfree =>
    -- only `s` changes, and it was not set before
    intro s' v hv
    have hne : s' ≠ s := by
      rintro rfl
      simp [hv] at hfree
    cases s <;> cases h <;> cases s' <;> first | exact hv | exact absurd rfl hne

theorem le_of_setDescending (h : a.setDescending = some b) : a.Le b := by
  unfold setDescending at h
  split at h
  · cases h
  · cases h
    exact fun s _ hv => by cases s <;> exact hv

theorem le_setVerbose (a : Arguments) : a.Le a.setVerbose :=
  fun s _ hv => by cases s <;> exact hv

theorem le_of_readLetters {r : Option ValueOption} (h : a.readLetters t = some (b, r)) :
    a.Le b := by
  fun_induction readLetters a t with
  | case1 a =>
    cases h
    exact .refl _
  | case2 a t ih => exact a.le_setVerbose.trans (ih h)
  | case3 => cases h
  | case4 =>
    cases h
    exact .refl _
  | case5 | case6 =>
    obtain ⟨b', hset, he⟩ := Option.map_eq_some_iff.mp h
    cases he
    exact le_of_set hset

theorem readWord_given (a : Arguments) (s : ValueOption) (value : Text) :
    a.readWord (s.word ++ '=' :: value) = (a.set s value).map (·, none) := by
  have hword : ∀ c ∈ s.word, (c == '=') = false :=
    fun c hc => beq_false_of_ne (ne_of_mem_of_not_mem hc s.equals_not_mem_word)
  rw [readWord, Text.splitFirst_append hword (beq_self_eq_true '=')]
  simp only [s.ofWord?_word, Option.bind_eq_bind, Option.bind_some, Option.map_eq_bind]
  rfl

theorem le_of_readWord {r : Option ValueOption} (h : a.readWord t = some (b, r)) : a.Le b := by
  unfold readWord at h
  split at h
  next word value hsplit =>
    obtain ⟨s, -, h⟩ := Option.bind_eq_some_iff.mp h
    obtain ⟨b', hset, he⟩ := Option.bind_eq_some_iff.mp h
    cases he
    exact le_of_set hset
  next =>
    split at h
    · obtain ⟨b', hset, he⟩ := Option.map_eq_some_iff.mp h
      cases he
      exact le_of_setDescending hset
    · split at h
      · cases h
        exact a.le_setVerbose
      · obtain ⟨s, -, he⟩ := Option.map_eq_some_iff.mp h
        cases he
        exact .refl _

theorem le_of_readOption {r : Option ValueOption} (h : a.readOption t = some (b, r)) :
    a.Le b := by
  unfold readOption at h
  split at h
  · exact le_of_readWord h
  · exact le_of_readLetters h
  · cases h

theorem readOption_given (a : Arguments) (s : ValueOption) (value : Text) :
    a.readOption (s.given value) = (a.set s value).map (·, none) :=
  a.readWord_given s value

theorem of_readOption_given {r : Option ValueOption}
    (h : a.readOption (s.given value) = some (b, r)) : a.set s value = some b ∧ r = none := by
  rw [readOption_given] at h
  obtain ⟨b', hset, he⟩ := Option.map_eq_some_iff.mp h
  cases he
  exact ⟨hset, rfl⟩

/-- An option that has a value keeps it, whatever arguments follow. -/
theorem le_of_readFrom {args : List Text} (h : a.readFrom args = some b) : a.Le b := by
  fun_induction readFrom a args with
  | case1 | case2 =>
    cases h
    exact .refl _
  | case3 | case4 | case6 | case7 => cases h
  | case5 a arg hdash a' args hread ih => exact (le_of_readOption hread).trans (ih h)
  | case8 a arg hdash a' s value args hread hvalue ih =>
    obtain ⟨b', hset, hrest⟩ := Option.bind_eq_some_iff.mp h
    exact ((le_of_readOption hread).trans (le_of_set hset)).trans (ih b' hrest)

/-- Every value that is given is taken. -/
theorem get_of_given_mem {args : List Text} (h : a.readFrom args = some b)
    (hmem : s.given value ∈ args) : b.get s = some value := by
  fun_induction readFrom a args with
  | case1 => cases hmem
  | case2 a args hempty =>
    rw [List.isEmpty_iff.mp hempty] at hmem
    have hdashes := List.mem_singleton.mp hmem
    simp [ValueOption.given] at hdashes
  | case3 | case4 | case6 | case7 => cases h
  | case5 a arg hdash a' args hread ih =>
    rcases List.mem_cons.mp hmem with rfl | hmem
    · exact le_of_readFrom h s value (get_of_set (of_readOption_given hread).1)
    · exact ih h hmem
  | case8 a arg hdash a' s' value' args hread hvalue ih =>
    obtain ⟨b', hset, hrest⟩ := Option.bind_eq_some_iff.mp h
    rcases List.mem_cons.mp hmem with rfl | hmem
    · cases (of_readOption_given hread).2
    · rcases List.mem_cons.mp hmem with rfl | hmem
      · exact absurd rfl hvalue
      · exact ih b' hrest hmem

end Arguments

namespace Options

variable {args : List Text} {environment : Option Text} {o : Options} {value : Text}

/-- A catalog that the environment names is set like a given one; the rest stays as it is. -/
theorem exists_le_of_complete {a : Arguments} (h : complete a environment = some o) :
    ∃ b, a.Le b ∧ o.filter = b.filter := by
  unfold complete at h
  split at h
  · obtain ⟨b, hb, h⟩ := Option.bind_eq_some_iff.mp h
    refine ⟨b, Arguments.le_of_set hb, ?_⟩
    dsimp only at h
    split at h <;> cases h
    rfl
  · refine ⟨a, .refl a, ?_⟩
    obtain ⟨b, hb, h⟩ := Option.bind_eq_some_iff.mp h
    cases hb
    dsimp only at h
    split at h <;> cases h
    rfl

theorem filter_of_given_mem (h : read args environment = some o)
    (hmem : ValueOption.filter.given value ∈ args) : o.filter = some value := by
  obtain ⟨a, ha, hcomplete⟩ := Option.bind_eq_some_iff.mp h
  obtain ⟨b, hle, hfilter⟩ := exists_le_of_complete hcomplete
  exact hfilter.trans (hle .filter value (Arguments.get_of_given_mem ha hmem))

theorem read_filter (t : Text) :
    read [ValueOption.filter.given t] none = some ⟨.standard, some t, none, false, 0⟩ := rfl

theorem read_games_filter {path : Text} (h : path ≠ []) (t : Text) (environment : Option Text) :
    read [ValueOption.games.given path, ValueOption.filter.given t] environment =
      some ⟨.ofCatalog path, some t, none, false, 0⟩ := by
  cases path with
  | nil => exact absurd rfl h
  | cons c path => rfl

end Options

namespace Catalog

/-- What a filter text asks for does not depend on what was looked at before, nor on the blanks
around the text. -/
theorem filter_trim_current {c c' : Catalog} (h : c.games = c'.games) (t : Text) :
    (c.filter (Text.trim t)).current = (c'.filter t).current := by
  change (Query.read (Text.trim t)).view c.games .byName = (Query.read t).view c'.games .byName
  rw [Query.read_trim, h]

end Catalog

namespace CommandLine

variable {args : List Text} {environment : Option Text} {o : Options} {t : Text} {fs : Files}
  {games : List Game}

theorem run_of_filter (hread : Options.read args environment = some o) (hfilter : o.filter = some t)
    (hsort : o.sort = none) (hload : Sheet.load fs o.settings.catalog = .ok games)
    (input : List UInt8) :
    run args environment input fs =
      success ((Catalog.ofGames games).filter t).current.listing fs := by
  rw [run, hread]
  simp only [runOptions, hload, hfilter, runFilter, filtered, hsort]

/-- A filter on the command line is answered like one that is asked for in a session: it succeeds,
and shows what the session shows before it prompts again, whatever the session has seen before. -/
theorem filter_option_agrees (hline : '\n' ∉ t) (hne : Text.trim t ≠ [])
    (hq : Text.trim t ≠ ['?']) (hclear : Command.keyword (Text.trim t) "clear" = false)
    (hfilter : "--filter=".toList ++ t ∈ args)
    (hread : Options.read args environment = some o) (hsort : o.sort = none)
    (hload : Sheet.load fs o.settings.catalog = .ok games) (input : List UInt8) :
    Options.read ["--filter=".toList ++ t] none = some ⟨.standard, some t, none, false, 0⟩ ∧
    (∀ path named, path ≠ [] →
      Options.read ["--games=".toList ++ path, "--filter=".toList ++ t] named =
        some ⟨.ofCatalog path, some t, none, false, 0⟩) ∧
    (run args environment input fs).code = 0 ∧
    (run args environment input fs).files = fs ∧
    ∀ settings calls files earlier d,
      d = (Desk.opening games calls files).after settings earlier →
      (d.answer settings (Command.filterLine t)).2 = (run args environment input fs).output ∧
      ∀ script,
        Script.answer settings d
          (Script.lines (Text.Utf8.encode (Text.line (Command.filterLine t)) ++ script)) =
        (Script.answer settings (d.answer settings (Command.filterLine t)).1
          (Script.lines script)).behind
            ((run args environment input fs).output ++ Help.prompt) := by
  rw [run_of_filter hread (Options.filter_of_given_mem hread hfilter) hsort hload]
  refine ⟨Options.read_filter t, fun path named h => Options.read_games_filter h t named, rfl, rfl,
    ?_⟩
  rintro settings calls files earlier d rfl
  have hanswer : (((Desk.opening games calls files).after settings earlier).answer settings
      (Command.filterLine t)).2 = ((Catalog.ofGames games).filter t).current.listing := by
    rw [Desk.answer_of_filter (Command.calls_filterLine t) hq hclear, if_neg hne, List.nil_append,
      Catalog.filter_trim_current
        (Desk.sound_after settings (.start games calls) earlier).catalog_games]
  refine ⟨hanswer, fun script => ?_⟩
  have htyped : '\n' ∉ Command.filterLine t := by
    simpa [Command.filterLine] using hline
  have hend := Command.not_ends_of_read?
    (Command.read?_of_filter_ne_help (Command.calls_filterLine t) hq)
  rw [Script.answer_typed settings _ htyped hend, hanswer]
  rfl

/-- Two games of different years. -/
def yearGames : List Game :=
  [{ Game.ofName ['B'] with year := 1999 }, { Game.ofName ['A'] with year := 2001 }]

/-- A folder with a catalog of them. -/
def yearFolder : Files :=
  Files.empty.addFile ["games.csv".toList]
    (Sheet.ofLines ["B,0,0,0,0,0,0,0,0,1999".toList, "A,0,0,0,0,0,0,0,0,2001".toList])

/-- What a session about them has been asked. -/
def yearLines : List Text := ["filter name==b".toList, "list add all".toList]

/-- A filter with blanks around it, for a session that has another one behind it. -/
theorem filter_option_padded :
    Sheet.load yearFolder "games.csv".toList = .ok yearGames ∧
    (run ["-v".toList, "--filter= Year>1999 ,sort:year".toList] none [] yearFolder).code = 0 ∧
    (((Desk.opening yearGames [.reset] .empty).after .standard yearLines).answer .standard
      "filter  Year>1999 ,sort:year".toList).2 =
        (run ["-v".toList, "--filter= Year>1999 ,sort:year".toList] none [] yearFolder).output ∧
    (run ["-v".toList, "--filter= Year>1999 ,sort:year".toList] none [] yearFolder).output =
      Text.line "1: A (year: 2001)".toList := by
  have hload : Sheet.load yearFolder "games.csv".toList = .ok yearGames := by decide +kernel
  have hread : Options.read ["-v".toList, "--filter= Year>1999 ,sort:year".toList] none =
      some ⟨.standard, " Year>1999 ,sort:year".toList, none, false, 1⟩ := by decide
  obtain ⟨-, -, hcode, -, hsession⟩ := filter_option_agrees (t := " Year>1999 ,sort:year".toList)
    (by decide) (by decide) (by decide) (by decide) (by decide) hread rfl hload []
  exact ⟨hload, hcode, (hsession .standard [.reset] .empty yearLines _ rfl).1, by decide +kernel⟩

end CommandLine

end GameShelf
