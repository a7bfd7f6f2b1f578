import GameShelf.Proofs.Schema
import GameShelf.Proofs.Text
import GameShelf.Session.Command

namespace GameShelf

namespace Text

/-- Whether a text is a word and, behind a gap, a rest, blanks at its ends aside. A text that is
blank has neither. -/
def Opens (t word rest : Text) : Prop :=
  ∃ l gap r, Blank l ∧ Blank gap ∧ Blank r ∧ t = l ++ (word ++ gap ++ rest) ++ r ∧
    (∀ c ∈ word, isBlank c = false) ∧ trim rest = rest ∧ (rest ≠ [] → word ≠ [] ∧ gap ≠ [])

theorem not_blank_of_append_cons {s : Text} (hs : s ≠ []) (h : ∀ c ∈ s, isBlank c = false)
    (t : Text) : ¬Blank (s ++ t) := by
  obtain ⟨c, s, rfl⟩ := List.exists_cons_of_ne_nil hs
  intro hb
  have hc := h c List.mem_cons_self
  rw [hb c (by simp)] at hc
  exact Bool.noConfusion hc

theorem Opens.splitWord_eq {t word rest : Text} (h : Opens t word rest) :
    splitWord t = (word, rest) := by
  obtain ⟨l, gap, r, hl, hgap, hr, rfl, hword, hrest, hne⟩ := h
  have hw : trim word = word := trim_eq_self hword
  unfold splitWord
  rw [trim_padded hl hr]
  by_cases hnil : rest = []
  · subst hnil
    have ht : trim (word ++ gap ++ []) = word := by
      rw [List.append_nil, ← List.nil_append (word ++ gap), ← List.append_assoc,
        trim_padded (by simp [Blank]) hgap, hw]
    rw [ht, splitFirst_eq_none_iff.mpr hword]
  · obtain ⟨hword', hgap'⟩ := hne hnil
    obtain ⟨c, gap, rfl⟩ := List.exists_cons_of_ne_nil hgap'
    obtain ⟨hc, hgap⟩ := List.forall_mem_cons.mp hgap
    rw [trim_append_append hw hword' hrest hnil, List.append_assoc, List.cons_append,
      splitFirst_append hword hc]
    have ht : trim (gap ++ rest) = rest := by
      rw [← List.append_nil (gap ++ rest), trim_padded hgap (by simp [Blank]), hrest]
    simp only [ht]

theorem opens_splitWord (t : Text) : Opens t (splitWord t).1 (splitWord t).2 := by
  obtain ⟨l, r, hl, hr, ht⟩ := exists_blank_trim t
  unfold splitWord
  cases h : splitFirst isBlank (trim t) with
  | none =>
    refine ⟨l, [], r, hl, by simp [Blank], hr, ?_, splitFirst_eq_none_iff.mp h, rfl, by simp⟩
    simpa using ht
  | some parts =>
    obtain ⟨word, behind⟩ := parts
    obtain ⟨c, he, hc, hword⟩ := splitFirst_eq_some_iff.mp h
    obtain ⟨gap, r', hgap, hr', hbehind⟩ := exists_blank_trim behind
    refine ⟨l, c :: gap, r' ++ r, hl, List.forall_mem_cons.mpr ⟨hc, hgap⟩,
      fun d hd => (List.mem_append.mp hd).elim (hr' d) (hr d), ?_, hword, trim_trim behind, ?_⟩
    · rw [ht, he]
      conv_lhs => rw [hbehind]
      simp
    · intro _
      refine ⟨?_, List.cons_ne_nil c gap⟩
      -- without a word the trimmed text would start with a blank
      rintro rfl
      have hstart := trimStart_trim t
      rw [he, List.nil_append, trimStart, List.dropWhile_cons_of_pos hc] at hstart
      have hle := (List.dropWhile_suffix isBlank (l := behind)).length_le
      rw [hstart, List.length_cons] at hle
      omega

theorem Opens.word_eq_nil_iff {t word rest : Text} (h : Opens t word rest) :
    word = [] ↔ Blank t := by
  obtain ⟨l, gap, r, hl, hgap, hr, rfl, hword, hrest, hne⟩ := h
  constructor
  · rintro rfl
    have hnil : rest = [] := by_contra fun hn => (hne hn).1 rfl
    subst hnil
    intro c hc
    simp only [List.nil_append, List.append_nil, List.mem_append] at hc
    rcases hc with (hc | hc) | hc
    · exact hl c hc
    · exact hgap c hc
    · exact hr c hc
  · intro hb
    by_contra hn
    apply not_blank_of_append_cons hn hword (gap ++ rest)
    intro c hc
    apply hb c
    simp only [List.mem_append] at hc ⊢
    tauto

end Text

namespace Command

/-- Whether the first word of a text is the given one, in any case, and what follows it. -/
def Calls (t : Text) (name : String) (args : Text) : Prop :=
  ∃ word, Text.Opens t word args ∧ keyword word name = true

theorem calls_iff {t : Text} {name : String} {args : Text} :
    Calls t name args ↔
      keyword (Text.splitWord t).1 name = true ∧ (Text.splitWord t).2 = args := by
  constructor
  · rintro ⟨word, ho, hk⟩
    rw [ho.splitWord_eq]
    exact ⟨hk, rfl⟩
  · rintro ⟨hk, rfl⟩
    exact ⟨_, Text.opens_splitWord t, hk⟩

instance (t : Text) (name : String) (args : Text) : Decidable (Calls t name args) :=
  decidable_of_iff _ calls_iff.symm

/-- A word that is one name stands for any other only if that one does. -/
theorem keyword_eq {word : Text} {name : String} (h : keyword word name = true) (other : String) :
    keyword word other = keyword name.toList other := by
  unfold keyword Text.sameLetters
  rw [Text.sameLetters_iff.mp h]

theorem isEmpty_of_keyword {word : Text} {name : String} (h : keyword word name = true) :
    word.isEmpty = name.toList.isEmpty := by
  have hl := congrArg List.length (Text.sameLetters_iff.mp h)
  unfold Text.asciiLower at hl
  rw [List.length_map, List.length_map] at hl
  rw [Bool.eq_iff_iff, List.isEmpty_iff_length_eq_zero, List.isEmpty_iff_length_eq_zero, hl]

/-- Whether a line ends the session: it is blank, or its first word is exit. -/
def Ends (line : Text) : Prop := Text.Blank line ∨ ∃ args, Calls line "exit" args

/-- Whether a line is about the list of picked games, with a word for what is to be done to it. -/
def CallsList (line : Text) (name : String) (rest : Text) : Prop :=
  ∃ args, Calls line "list" args ∧ Calls args name rest

/-- What the lines that do not end the session ask for. -/
inductive Asks (line : Text) : Command → Prop where
  | help {args topic} : Calls line "help" args ∨ Calls line "?" args →
      readHelp args = .help topic → Asks line (.help topic)
  | filterAll : Calls line "filter" [] → Asks line .filterAll
  | filterHelp : Calls line "filter" ['?'] → Asks line (.help .filter)
  | filterClear {args} : Calls line "filter" args → keyword args "clear" = true →
      Asks line .filterClear
  | filter {args} : Calls line "filter" args → args ≠ [] → args ≠ ['?'] →
      keyword args "clear" = false → Asks line (.filter args)
  | listShow {args} : Calls line "list" args → args = [] ∨ (∃ rest, Calls args "show" rest) →
      Asks line .listShow
  | listClear {rest} : CallsList line "clear" rest → Asks line .listClear
  | listAdd {rest} : CallsList line "add" rest → rest ≠ [] → Asks line (.listAdd rest)
  | listRemove {rest} : CallsList line "remove" rest → rest ≠ [] → Asks line (.listRemove rest)
  | listNothing : CallsList line "add" [] ∨ CallsList line "remove" [] → Asks line .listNothing
  | listSave {rest} : CallsList line "save" rest →
      Asks line (.listSave (if rest.isEmpty then none else some rest))
  | listHelp {rest} : CallsList line "help" rest ∨ CallsList line "?" rest →
      Asks line (.help .list)
  | listUnknown {args} : Calls line "list" args → args ≠ [] →
      (∀ name ∈ ["show", "clear", "add", "remove", "save", "help", "?"], ∀ rest,
        ¬Calls args name rest) → Asks line .listUnknown
  | unknown : ¬Ends line →
      (∀ name ∈ ["help", "?", "filter", "list"], ∀ args, ¬Calls line name args) →
      Asks line .unknown

theorem calls_splitWord {t : Text} {name : String} (h : keyword (Text.splitWord t).1 name = true) :
    Calls t name (Text.splitWord t).2 :=
  calls_iff.mpr ⟨h, rfl⟩

theorem not_calls {t : Text} {name : String} (h : ¬keyword (Text.splitWord t).1 name = true)
    (args : Text) : ¬Calls t name args :=
  fun hc => h (calls_iff.mp hc).1

theorem trim_of_calls {t args : Text} {name : String} (h : Calls t name args) :
    Text.trim args = args := by
  obtain ⟨word, ⟨l, gap, r, -, -, -, -, -, hargs, -⟩, -⟩ := h
  exact hargs

theorem splitWord_isEmpty_iff {t : Text} :
    (Text.splitWord t).1.isEmpty = true ↔ Text.Blank t := by
  rw [List.isEmpty_iff]
  exact (Text.opens_splitWord t).word_eq_nil_iff

theorem readFilter_asks {line args : Text} (h : Calls line "filter" args) :
    Asks line (readFilter args) := by
  unfold readFilter
  split
  next he =>
    rw [List.isEmpty_iff.mp he] at h
    exact .filterAll h
  next he =>
    split
    next hq =>
      rw [hq] at h
      exact .filterHelp h
    next hq =>
      split
      next hc => exact .filterClear h hc
      next hc =>
        exact .filter h (mt List.isEmpty_iff.mpr he) hq (eq_false_of_ne_true hc)

theorem readList_asks {line args : Text} (h : Calls line "list" args) :
    Asks line (readList args) := by
  have hsub {name : String} (hk : keyword (Text.splitWord args).1 name = true) :
      CallsList line name (Text.splitWord args).2 := ⟨args, h, calls_splitWord hk⟩
  unfold readList
  dsimp only
  split
  next hshow =>
    rw [Bool.or_eq_true, splitWord_isEmpty_iff] at hshow
    apply Asks.listShow h
    rcases hshow with hb | hk
    · left
      rw [← trim_of_calls h, Text.trim_eq_nil_iff.mpr hb]
    · exact .inr ⟨_, calls_splitWord hk⟩
  next hshow =>
    split
    next hk => exact .listClear (hsub hk)
    next hclear =>
      split
      next hk =>
        split
        next hrest => exact .listNothing (.inl (List.isEmpty_iff.mp hrest ▸ hsub hk))
        next hrest => exact .listAdd (hsub hk) (mt List.isEmpty_iff.mpr hrest)
      next hadd =>
        split
        next hk =>
          split
          next hrest => exact .listNothing (.inr (List.isEmpty_iff.mp hrest ▸ hsub hk))
          next hrest => exact .listRemove (hsub hk) (mt List.isEmpty_iff.mpr hrest)
        next hremove =>
          split
          next hk => exact .listSave (hsub hk)
          next hsave =>
            split
            next hk =>
              rw [Bool.or_eq_true] at hk
              exact .listHelp (hk.imp hsub hsub)
            next hhelp =>
              rw [Bool.or_eq_true, not_or] at hshow hhelp
              apply Asks.listUnknown h
              · rintro rfl
                exact hshow.1 rfl
              · simp only [List.forall_mem_cons]
                exact ⟨not_calls hshow.2, not_calls hclear, not_calls hadd, not_calls hremove,
                  not_calls hsave, not_calls hhelp.1, not_calls hhelp.2, List.forall_mem_nil _⟩

theorem ends_iff {line : Text} :
    Ends line ↔
      ((Text.splitWord line).1.isEmpty || keyword (Text.splitWord line).1 "exit") = true := by
  rw [Bool.or_eq_true, splitWord_isEmpty_iff]
  apply or_congr_right
  exact ⟨fun ⟨_, h⟩ => (calls_iff.mp h).1, fun h => ⟨_, calls_splitWord h⟩⟩

theorem exists_readHelp (args : Text) : ∃ topic, readHelp args = .help topic := by
  unfold readHelp
  dsimp only
  split
  · exact ⟨_, rfl⟩
  · split <;> exact ⟨_, rfl⟩

theorem asks_of_read? {line : Text} {c : Command} (h : read? line = some c) : Asks line c := by
  unfold read? at h
  dsimp only at h
  split at h
  next => cases h
  next hend =>
    rw [← ends_iff] at hend
    split at h
    next hk =>
      cases h
      obtain ⟨topic, ht⟩ := exists_readHelp (Text.splitWord line).2
      rw [ht]
      rw [Bool.or_eq_true] at hk
      exact .help (hk.imp calls_splitWord calls_splitWord) ht
    next hhelp =>
      split at h
      next hk =>
        cases h
        exact readFilter_asks (calls_splitWord hk)
      next hfilter =>
        split at h
        next hk =>
          cases h
          exact readList_asks (calls_splitWord hk)
        next hlist =>
          cases h
          rw [Bool.or_eq_true, not_or] at hhelp
          apply Asks.unknown hend
          simp only [List.forall_mem_cons]
          exact ⟨not_calls hhelp.1, not_calls hhelp.2, not_calls hfilter, not_calls hlist,
            List.forall_mem_nil _⟩

theorem read?_eq_none_iff {line : Text} : read? line = none ↔ Ends line := by
  rw [ends_iff]
  unfold read?
  dsimp only
  constructor
  · intro h
    by_contra hn
    rw [if_neg hn] at h
    split at h
    · cases h
    · split at h
      · cases h
      · split at h <;> cases h
  · intro h
    rw [if_pos h]

/-- A line reads as if its first word were spelled the way the name is. -/
theorem read?_eq {line args : Text} {name : String} (h : Calls line name args) :
    read? line =
      if name.toList.isEmpty || keyword name.toList "exit" then none
      else if keyword name.toList "help" || keyword name.toList "?" then some (readHelp args)
      else if keyword name.toList "filter" then some (readFilter args)
      else if keyword name.toList "list" then some (readList args)
      else some .unknown := by
  obtain ⟨word, ho, hk⟩ := h
  unfold read?
  rw [ho.splitWord_eq]
  simp only [keyword_eq hk, isEmpty_of_keyword hk]

theorem read?_of_filter {line args : Text} (h : Calls line "filter" args) :
    read? line = some (readFilter args) := (read?_eq h).trans rfl

theorem read?_of_list {line args : Text} (h : Calls line "list" args) :
    read? line = some (readList args) := (read?_eq h).trans rfl

theorem readList_eq {args rest : Text} {name : String} (h : Calls args name rest) :
    readList args =
      if name.toList.isEmpty || keyword name.toList "show" then .listShow
      else if keyword name.toList "clear" then .listClear
      else if keyword name.toList "add" then
        if rest.isEmpty then .listNothing else .listAdd rest
      else if keyword name.toList "remove" then
        if rest.isEmpty then .listNothing else .listRemove rest
      else if keyword name.toList "save" then
        .listSave (if rest.isEmpty then none else some rest)
      else if keyword name.toList "help" || keyword name.toList "?" then .help .list
      else .listUnknown := by
  obtain ⟨word, ho, hk⟩ := h
  unfold readList
  rw [ho.splitWord_eq]
  simp only [keyword_eq hk, isEmpty_of_keyword hk]

theorem readList_of_no_name {args : Text} (hne : args ≠ []) (htrim : Text.trim args = args)
    (h : ∀ name ∈ ["show", "clear", "add", "remove", "save", "help", "?"], ∀ rest,
      ¬Calls args name rest) : readList args = .listUnknown := by
  have hword : (Text.splitWord args).1.isEmpty = false := by
    apply eq_false_of_ne_true
    rw [splitWord_isEmpty_iff, ← Text.trim_eq_nil_iff, htrim]
    exact hne
  have hk : ∀ name ∈ ["show", "clear", "add", "remove", "save", "help", "?"],
      keyword (Text.splitWord args).1 name = false := by
    intro name hname
    apply eq_false_of_ne_true
    exact fun hk => h name hname _ (calls_splitWord hk)
  simp only [List.forall_mem_cons] at hk
  obtain ⟨h1, h2, h3, h4, h5, h6, h7, -⟩ := hk
  unfold readList
  simp only [hword, h1, h2, h3, h4, h5, h6, h7]
  rfl

theorem read?_of_no_name {line : Text} (hend : ¬Ends line)
    (h : ∀ name ∈ ["help", "?", "filter", "list"], ∀ args, ¬Calls line name args) :
    read? line = some .unknown := by
  have hk : ∀ name ∈ ["help", "?", "filter", "list"],
      keyword (Text.splitWord line).1 name = false := by
    intro name hname
    apply eq_false_of_ne_true
    exact fun hk => h name hname _ (calls_splitWord hk)
  simp only [List.forall_mem_cons] at hk
  obtain ⟨h1, h2, h3, h4, -⟩ := hk
  unfold read?
  dsimp only
  rw [if_neg (mt ends_iff.mpr hend)]
  simp only [h1, h2, h3, h4]
  rfl

theorem read?_of_asks {line : Text} {c : Command} (h : Asks line c) : read? line = some c := by
  cases h with
  | help h ht =>
    rw [← ht]
    rcases h with h | h
    · exact (read?_eq h).trans rfl
    · exact (read?_eq h).trans rfl
  | filterAll h => exact (read?_of_filter h).trans rfl
  | filterHelp h => exact (read?_of_filter h).trans rfl
  | filterClear h hc =>
    have hne := isEmpty_of_keyword hc
    rw [read?_of_filter h, readFilter, hne, if_neg (by decide), if_neg, if_pos hc]
    rintro rfl
    exact absurd hc (by decide)
  | filter h hne hq hc =>
    rw [read?_of_filter h, readFilter, if_neg (mt List.isEmpty_iff.mp hne), if_neg hq, hc]
    rfl
  | listShow h hs =>
    rw [read?_of_list h]
    rcases hs with rfl | ⟨rest, hs⟩
    · rfl
    · rw [readList_eq hs]
      rfl
  | listClear h =>
    obtain ⟨args, hl, hs⟩ := h
    rw [read?_of_list hl, readList_eq hs]
    rfl
  | listAdd h hne =>
    obtain ⟨args, hl, hs⟩ := h
    rw [read?_of_list hl, readList_eq hs]
    exact congrArg some (if_neg (mt List.isEmpty_iff.mp hne))
  | listRemove h hne =>
    obtain ⟨args, hl, hs⟩ := h
    rw [read?_of_list hl, readList_eq hs]
    exact congrArg some (if_neg (mt List.isEmpty_iff.mp hne))
  | listNothing h =>
    rcases h with ⟨args, hl, hs⟩ | ⟨args, hl, hs⟩
    · rw [read?_of_list hl, readList_eq hs]
      rfl
    · rw [read?_of_list hl, readList_eq hs]
      rfl
  | listSave h =>
    obtain ⟨args, hl, hs⟩ := h
    rw [read?_of_list hl, readList_eq hs]
    rfl
  | listHelp h =>
    rcases h with ⟨args, hl, hs⟩ | ⟨args, hl, hs⟩
    · rw [read?_of_list hl, readList_eq hs]
      rfl
    · rw [read?_of_list hl, readList_eq hs]
      rfl
  | listUnknown h hne hn =>
    rw [read?_of_list h, readList_of_no_name hne (trim_of_calls h) hn]
  | unknown hend hn => exact read?_of_no_name hend hn

theorem read?_eq_some_iff {line : Text} {c : Command} : read? line = some c ↔ Asks line c :=
  ⟨asks_of_read?, read?_of_asks⟩

theorem Asks.unique {line : Text} {c c' : Command} (h : Asks line c) (h' : Asks line c') :
    c = c' :=
  Option.some.inj ((read?_eq_some_iff.mpr h).symm.trans (read?_eq_some_iff.mpr h'))

end Command

end GameShelf
