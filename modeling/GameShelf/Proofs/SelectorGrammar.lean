import GameShelf.Proofs.Numerals
import GameShelf.Proofs.Selection

namespace GameShelf

namespace Numeral

variable {t : Text} {n m max : Nat} {c : Char}

/-- Places are written as digits, with or without a plus sign in front. -/
inductive Counts : Text → Nat → Prop where
  | plain {digits : Text} (h : Digits digits) : Counts digits (decimalValue digits)
  | plus {digits : Text} (h : Digits digits) : Counts ('+' :: digits) (decimalValue digits)

theorem counts_plus_iff {digits : Text} :
    Counts ('+' :: digits) n ↔ Digits digits ∧ decimalValue digits = n := by
  constructor
  · rintro (h | h)
    · exact absurd h (not_digits_cons (by decide) _)
    · exact ⟨h, rfl⟩
  · rintro ⟨h, rfl⟩
    exact .plus h

theorem counts_iff_of_unsigned (hp : t.head? ≠ some '+') :
    Counts t n ↔ Digits t ∧ decimalValue t = n := by
  constructor
  · rintro (h | h)
    · exact ⟨h, rfl⟩
    · exact absurd rfl hp
  · rintro ⟨h, rfl⟩
    exact .plain h

theorem filter_ofDigits?_eq_some_iff {digits : Text} :
    (ofDigits? digits).filter (· ≤ max) = some n ↔
      (Digits digits ∧ decimalValue digits = n) ∧ n ≤ max := by
  rw [Option.filter_eq_some_iff, ofDigits?_eq_some_iff, decide_eq_true_iff]

/-- A numeral is read just where it denotes a number within the bound. -/
theorem readNat_eq_some_iff : readNat max t = some n ↔ Counts t n ∧ n ≤ max := by
  unfold readNat
  split
  next digits => rw [counts_plus_iff, filter_ofDigits?_eq_some_iff]
  next hplus =>
    have hp : t.head? ≠ some '+' := by
      intro hhead
      obtain ⟨rest, rfl⟩ := List.head?_eq_some_iff.mp hhead
      exact hplus rest rfl
    rw [counts_iff_of_unsigned hp, filter_ofDigits?_eq_some_iff]

theorem Counts.unique (h : Counts t n) (h' : Counts t m) : n = m := by
  have hn := readNat_eq_some_iff.mpr ⟨h, Nat.le_max_left n m⟩
  have hm := readNat_eq_some_iff.mpr ⟨h', Nat.le_max_right n m⟩
  exact Option.some.inj (hn.symm.trans hm)

theorem Counts.ne_nil (h : Counts t n) : t ≠ [] := by
  cases h with
  | plain h => exact h.1
  | plus h => exact List.cons_ne_nil _ _

theorem Counts.isDigit_or (h : Counts t n) (hc : c ∈ t) : c.isDigit = true ∨ c = '+' := by
  cases h with
  | plain h => exact .inl (h.2 c hc)
  | plus h =>
    rcases List.mem_cons.mp hc with rfl | hc
    · exact .inr rfl
    · exact .inl (h.2 c hc)

theorem Counts.dash_not_mem (h : Counts t n) : '-' ∉ t := by
  intro hmem
  rcases h.isDigit_or hmem with hdigit | hplus
  · exact absurd hdigit (by decide)
  · exact absurd hplus (by decide)

end Numeral

namespace Selector

variable {t input : Text} {i first last : Nat} {r : Except PickFault Selector}

/-- What denotes a place, if it is not too great for one. -/
def IsIndex (t : Text) (i : Nat) : Prop := Numeral.Counts t i ∧ i ≤ 2 ^ 64 - 1

/-- The first dash of a range parts two places, with blanks around them or without. -/
def IsRange (t : Text) (first last : Nat) : Prop :=
  ∃ before behind, t = before ++ '-' :: behind ∧ '-' ∉ before ∧
    IsIndex (Text.trim before) first ∧ IsIndex (Text.trim behind) last

/-- What is neither nothing nor everything, neither a place nor a range. -/
structure Unplaced (t : Text) : Prop where
  ne_nil : t ≠ []
  not_all : Text.sameLetters t "all".toList = false
  not_index : ∀ i, ¬IsIndex t i
  not_range : ∀ first last, ¬IsRange t first last

/-- Only digits, dashes and blanks. -/
def Numeric (t : Text) : Prop := ∀ c ∈ t, c.isDigit = true ∨ c = '-' ∨ Text.isBlank c = true

/-- What a text without blanks around it asks for. -/
inductive Means (t : Text) : Except PickFault Selector → Prop where
  | nothing : t = [] → Means t (.error .emptySelection)
  | all : Text.sameLetters t "all".toList = true → Means t (.ok .all)
  | index {i : Nat} : IsIndex t i → Means t (.ok (.index i))
  | range {first last : Nat} : IsRange t first last → Means t (.ok (.range first last))
  | junk : Unplaced t → Numeric t → Means t (.error (.invalidSelection t))
  | name : Unplaced t → ¬Numeric t → Means t (.ok (.name t))

theorem readIndex_eq_some_iff : readIndex t = some i ↔ IsIndex t i := Numeral.readNat_eq_some_iff

theorem readIndex_eq_none_iff : readIndex t = none ↔ ∀ i, ¬IsIndex t i := by
  rw [Option.eq_none_iff_forall_ne_some]
  exact forall_congr' fun i => not_congr readIndex_eq_some_iff

theorem readRange_eq_some_iff : readRange t = some (first, last) ↔ IsRange t first last := by
  unfold readRange
  simp only [Option.bind_eq_bind, Option.bind_eq_some_iff, Prod.exists, Text.splitFirst_eq_some_iff,
    readIndex_eq_some_iff, Option.pure_def, Option.some.injEq, Prod.mk.injEq]
  constructor
  · rintro ⟨before, behind, ⟨c, ht, hc, hbefore⟩, _, hfirst, _, hlast, rfl, rfl⟩
    obtain rfl := beq_iff_eq.mp hc
    refine ⟨before, behind, ht, fun hmem => ?_, hfirst, hlast⟩
    exact Bool.noConfusion (hbefore _ hmem)
  · rintro ⟨before, behind, ht, hbefore, hfirst, hlast⟩
    refine ⟨before, behind, ⟨'-', ht, rfl, fun d hd => ?_⟩, first, hfirst, last, hlast, rfl, rfl⟩
    exact beq_false_of_ne fun h => hbefore (h ▸ hd)

theorem looksNumeric_iff : looksNumeric t = true ↔ Numeric t := by
  unfold looksNumeric Numeric
  simp [or_assoc]

theorem readRange_eq_none_iff : readRange t = none ↔ ∀ first last, ¬IsRange t first last := by
  simp only [Option.eq_none_iff_forall_ne_some, Prod.forall, ne_eq, readRange_eq_some_iff]

theorem IsRange.dash_mem (h : IsRange t first last) : '-' ∈ t := by
  obtain ⟨before, behind, rfl, -⟩ := h
  simp

theorem not_isIndex_of_dash (h : '-' ∈ t) (i : Nat) : ¬IsIndex t i :=
  fun hi => hi.1.dash_not_mem h

theorem not_all_of_dash (h : '-' ∈ t) : Text.sameLetters t "all".toList = false := by
  refine eq_false_of_ne_true fun hall => ?_
  have hlower : ('-' : Char).toLower ∈ Text.asciiLower "all".toList :=
    Text.sameLetters_iff.mp hall ▸ List.mem_map_of_mem h
  exact absurd hlower (by decide)

theorem IsIndex.not_all (h : IsIndex t i) : Text.sameLetters t "all".toList = false := by
  refine not_sameLetters_all fun c hc => ?_
  rcases h.1.isDigit_or hc with hdigit | rfl
  · exact Numeral.isAlpha_of_isDigit hdigit
  · decide

theorem unplaced_iff :
    Unplaced t ↔ t ≠ [] ∧ Text.sameLetters t "all".toList = false ∧ readIndex t = none ∧
      readRange t = none := by
  rw [readIndex_eq_none_iff, readRange_eq_none_iff]
  exact ⟨fun h => ⟨h.ne_nil, h.not_all, h.not_index, h.not_range⟩,
    fun ⟨hne, hall, hindex, hrange⟩ => ⟨hne, hall, hindex, hrange⟩⟩

/-- The readings exclude each other, so that the order in which they are tried is of no matter. -/
theorem readsAs_iff_means : ReadsAs t r ↔ Means t r := by
  constructor
  · intro h
    cases h with
    | blank hnil => exact .nothing hnil
    | all hall => exact .all hall
    | index _ _ hindex => exact .index (readIndex_eq_some_iff.mp hindex)
    | range _ _ _ hrange => exact .range (readRange_eq_some_iff.mp hrange)
    | junk hne hall hindex hrange hnumeric =>
      exact .junk (unplaced_iff.mpr ⟨hne, hall, hindex, hrange⟩) (looksNumeric_iff.mp hnumeric)
    | name hne hall hindex hrange hnumeric =>
      refine .name (unplaced_iff.mpr ⟨hne, hall, hindex, hrange⟩) fun h => ?_
      exact Bool.false_ne_true (hnumeric.symm.trans (looksNumeric_iff.mpr h))
  · intro h
    cases h with
    | nothing hnil => exact .blank hnil
    | all hall => exact .all hall
    | index hi => exact .index hi.1.ne_nil hi.not_all (readIndex_eq_some_iff.mpr hi)
    | range hr =>
      have hdash := hr.dash_mem
      exact .range (List.ne_nil_of_mem hdash) (not_all_of_dash hdash)
        (readIndex_eq_none_iff.mpr (not_isIndex_of_dash hdash)) (readRange_eq_some_iff.mpr hr)
    | junk hu hnumeric =>
      obtain ⟨hne, hall, hindex, hrange⟩ := unplaced_iff.mp hu
      exact .junk hne hall hindex hrange (looksNumeric_iff.mpr hnumeric)
    | name hu hnumeric =>
      obtain ⟨hne, hall, hindex, hrange⟩ := unplaced_iff.mp hu
      exact .name hne hall hindex hrange (eq_false_of_ne_true (mt looksNumeric_iff.mp hnumeric))

theorem read_eq_iff : read input = r ↔ Means (Text.trim input) r := by
  rw [← readsAs_iff_means]
  constructor
  · rintro rfl
    exact readsAs_read input
  · exact ReadsAs.read_eq

/-- What is too great a number for a place. -/
def TooGreat (t : Text) : Prop := Numeral.Digits t ∧ 2 ^ 64 - 1 < Numeral.decimalValue t

/-- What keeps digits and dashes from denoting places. -/
inductive Defect (t : Text) : Prop where
  | great : TooGreat t → Defect t
  | greatFirst {before behind : Text} : t = before ++ '-' :: behind →
      TooGreat (Text.trim before) → Defect t
  | greatLast {before behind : Text} : t = before ++ '-' :: behind →
      TooGreat (Text.trim behind) → Defect t
  | leading : t.head? = some '-' → Defect t
  | trailing : t.getLast? = some '-' → Defect t
  | several : 2 ≤ t.count '-' → Defect t

theorem TooGreat.not_isIndex (h : TooGreat t) (i : Nat) : ¬IsIndex t i := by
  rintro ⟨hcounts, hle⟩
  have hi := hcounts.unique (.plain h.1)
  have := h.2
  omega

theorem dash_mem_trim (h : '-' ∈ t) : '-' ∈ Text.trim t := by
  obtain ⟨l, r, hl, hr, ht⟩ := Text.exists_blank_trim t
  rw [ht, List.mem_append, List.mem_append] at h
  rcases h with (h | h) | h
  · exact absurd h (hl.not_mem rfl)
  · exact h
  · exact absurd h (hr.not_mem rfl)

/-- A range has one dash, with something before it and behind it. -/
theorem IsRange.one_dash (h : IsRange t first last) :
    t.count '-' = 1 ∧ t.head? ≠ some '-' ∧ t.getLast? ≠ some '-' := by
  obtain ⟨before, behind, rfl, hbefore, hfirst, hlast⟩ := h
  have hbehind : '-' ∉ behind := fun hmem => hlast.1.dash_not_mem (dash_mem_trim hmem)
  have hne {s : Text} {i : Nat} (hi : IsIndex (Text.trim s) i) : s ≠ [] := by
    rintro rfl
    exact hi.1.ne_nil rfl
  refine ⟨?_, ?_, ?_⟩
  · rw [List.count_append, List.count_cons_self, List.count_eq_zero_of_not_mem hbefore,
      List.count_eq_zero_of_not_mem hbehind]
  · rw [List.head?_append_of_ne_nil _ (hne hfirst)]
    exact fun h => hbefore (List.mem_of_mem_head? h)
  · rw [List.getLast?_append_of_ne_nil _ (List.cons_ne_nil _ _),
      List.getLast?_cons_of_ne_nil (hne hlast)]
    exact fun h => hbehind (List.mem_of_getLast? h)

/-- The parts of a range can be told by any dash of it. -/
theorem IsRange.parts {before behind : Text} (h : IsRange (before ++ '-' :: behind) first last) :
    IsIndex (Text.trim before) first ∧ IsIndex (Text.trim behind) last := by
  have hdash {s : Text} (hs : '-' ∉ s) : ∀ c ∈ s, (c == '-') = false :=
    fun c hc => beq_false_of_ne fun heq => hs (heq ▸ hc)
  have hcount := h.one_dash.1
  rw [List.count_append, List.count_cons_self] at hcount
  have hbefore : '-' ∉ before := List.count_eq_zero.mp (by omega)
  have hsplit := Text.splitFirst_append (hdash hbefore) (beq_self_eq_true '-') behind
  obtain ⟨before', behind', heq, hbefore', hfirst, hlast⟩ := h
  rw [heq, Text.splitFirst_append (hdash hbefore') (beq_self_eq_true '-') behind'] at hsplit
  cases hsplit
  exact ⟨hfirst, hlast⟩

theorem Defect.unplaced (h : Defect t) : Unplaced t := by
  have hdashed (hmem : '-' ∈ t) (hrange : ∀ first last, ¬IsRange t first last) : Unplaced t :=
    ⟨List.ne_nil_of_mem hmem, not_all_of_dash hmem, not_isIndex_of_dash hmem, hrange⟩
  cases h with
  | great h =>
    refine ⟨h.1.1, ?_, h.not_isIndex, fun first last hr => ?_⟩
    · exact not_sameLetters_all fun c hc => Numeral.isAlpha_of_isDigit (h.1.2 c hc)
    · exact absurd (h.1.2 _ hr.dash_mem) (by decide)
  | greatFirst ht h =>
    rw [ht] at hdashed ⊢
    exact hdashed (by simp) fun first last hr => h.not_isIndex first hr.parts.1
  | greatLast ht h =>
    rw [ht] at hdashed ⊢
    exact hdashed (by simp) fun first last hr => h.not_isIndex last hr.parts.2
  | leading h => exact hdashed (List.mem_of_mem_head? h) fun first last hr => hr.one_dash.2.1 h
  | trailing h => exact hdashed (List.mem_of_getLast? h) fun first last hr => hr.one_dash.2.2 h
  | several h =>
    refine hdashed (List.count_pos_iff.mp (by omega)) fun first last hr => ?_
    have := hr.one_dash.1
    omega

/-- What a selector is read as depends on the text without the blanks around it alone: nothing, the
word for all, a place, two of them with a dash in between, what looks like them but is not, or else
a name. -/
theorem read_classifies (input : Text) :
    (read input = .error .emptySelection ↔ Text.trim input = []) ∧
    (read input = .ok .all ↔ Text.sameLetters (Text.trim input) "all".toList = true) ∧
    (∀ i, read input = .ok (.index i) ↔ IsIndex (Text.trim input) i) ∧
    (∀ first last, read input = .ok (.range first last) ↔ IsRange (Text.trim input) first last) ∧
    (∀ t, read input = .error (.invalidSelection t) ↔
      t = Text.trim input ∧ Unplaced t ∧ Numeric t) ∧
    (∀ t, read input = .ok (.name t) ↔ t = Text.trim input ∧ Unplaced t ∧ ¬Numeric t) ∧
    (read input = .error .emptySelection ∨ read input = .ok .all ∨
      (∃ i, read input = .ok (.index i)) ∨ (∃ first last, read input = .ok (.range first last)) ∨
      read input = .error (.invalidSelection (Text.trim input)) ∨
      read input = .ok (.name (Text.trim input))) ∧
    (Numeric (Text.trim input) → Defect (Text.trim input) →
      read input = .error (.invalidSelection (Text.trim input))) := by
  simp only [read_eq_iff]
  refine ⟨⟨?_, .nothing⟩, ⟨?_, .all⟩, fun i => ⟨?_, .index⟩, fun first last => ⟨?_, .range⟩,
    fun t => ⟨?_, ?_⟩, fun t => ⟨?_, ?_⟩, ?_, fun hnumeric h => .junk h.unplaced hnumeric⟩
  · intro h
    cases h with | nothing hnil => exact hnil
  · intro h
    cases h with | all hall => exact hall
  · intro h
    cases h with | index hi => exact hi
  · intro h
    cases h with | range hr => exact hr
  · intro h
    cases h with | junk hu hnumeric => exact ⟨rfl, hu, hnumeric⟩
  · rintro ⟨rfl, hu, hnumeric⟩
    exact .junk hu hnumeric
  · intro h
    cases h with | name hu hname => exact ⟨rfl, hu, hname⟩
  · rintro ⟨rfl, hu, hname⟩
    exact .name hu hname
  · obtain ⟨r, hr⟩ : ∃ r, Means (Text.trim input) r := ⟨_, read_eq_iff.mp rfl⟩
    cases hr with
    | nothing h => exact .inl (.nothing h)
    | all h => exact .inr (.inl (.all h))
    | index h => exact .inr (.inr (.inl ⟨_, .index h⟩))
    | range h => exact .inr (.inr (.inr (.inl ⟨_, _, .range h⟩)))
    | junk hu hnumeric => exact .inr (.inr (.inr (.inr (.inl (.junk hu hnumeric)))))
    | name hu hname => exact .inr (.inr (.inr (.inr (.inr (.name hu hname)))))

/-- A range with signs and blanks, one whose end is too great, and a name with dashes. -/
theorem read_dashes :
    read " +7 - 0018446744073709551615".toList = .ok (.range 7 18446744073709551615) ∧
    read "7-18446744073709551616 ".toList =
      .error (.invalidSelection "7-18446744073709551616".toList) ∧
    read "Ticket-to-Ride".toList = .ok (.name "Ticket-to-Ride".toList) := by
  refine ⟨?_, ?_, ?_⟩
  · obtain ⟨-, -, -, hrange, -⟩ := read_classifies " +7 - 0018446744073709551615".toList
    refine (hrange _ _).mpr ⟨"+7 ".toList, " 0018446744073709551615".toList, by decide, by decide,
      ⟨.plus (by decide), by decide⟩, ⟨.plain (by decide), by decide⟩⟩
  · obtain ⟨-, -, -, -, -, -, -, hdefect⟩ := read_classifies "7-18446744073709551616 ".toList
    exact hdefect (looksNumeric_iff.mp (by decide))
      (@Defect.greatLast _ ['7'] "18446744073709551616".toList (by decide)
        ⟨by decide, by decide⟩)
  · obtain ⟨-, -, -, -, -, hname, -⟩ := read_classifies "Ticket-to-Ride".toList
    refine (hname _).mpr ⟨by decide, ?_, mt looksNumeric_iff.mpr (by decide)⟩
    exact unplaced_iff.mpr ⟨by decide, by decide, by decide, by decide⟩

end Selector

end GameShelf
