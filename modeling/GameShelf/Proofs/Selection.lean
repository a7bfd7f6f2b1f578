import GameShelf.Proofs.Except
import GameShelf.Proofs.LetterCase
import GameShelf.Proofs.Text
import GameShelf.Selector
import Mathlib.Data.List.Basic

namespace GameShelf

namespace Numeral

theorem ofNat_ne_nil (n : Nat) : ofNat n ≠ [] := Nat.toDigits_ne_nil

theorem isDigit_of_mem_ofNat {n : Nat} {c : Char} (h : c ∈ ofNat n) : c.isDigit = true :=
  Nat.isDigit_of_mem_toDigits (by decide) (by decide) h

theorem ofDigits?_ofNat (n : Nat) : ofDigits? (ofNat n) = some n := by
  have hall : (ofNat n).all Char.isDigit = true :=
    List.all_eq_true.mpr fun c hc => isDigit_of_mem_ofNat hc
  unfold ofDigits?
  rw [hall, List.isEmpty_eq_false_iff.mpr (ofNat_ne_nil n)]
  exact congrArg some Nat.ofDigitChars_ten_toDigits

theorem head?_ofNat_ne (n : Nat) {c : Char} (hc : c.isDigit = false) :
    (ofNat n).head? ≠ some c := by
  intro h
  have hd := isDigit_of_mem_ofNat (List.mem_of_mem_head? h)
  rw [hc] at hd
  exact Bool.noConfusion hd

theorem readNat_ofNat {max n : Nat} (h : n ≤ max) : readNat max (ofNat n) = some n := by
  unfold readNat
  split
  next rest he => exact absurd (congrArg List.head? he) (head?_ofNat_ne n (by decide))
  next => simp [ofDigits?_ofNat, h]

theorem readNat_eq_none_of_mem {max : Nat} {t : Text} {c : Char} (hc : c ∈ t)
    (hdigit : c.isDigit = false) (hplus : c ≠ '+') : readNat max t = none := by
  have hnone {s : Text} (hs : c ∈ s) : ofDigits? s = none := by
    unfold ofDigits?
    have hall : s.all Char.isDigit = false := by
      rw [List.all_eq_false]
      exact ⟨c, hs, by simp [hdigit]⟩
    simp [hall]
  unfold readNat
  split
  next rest =>
    dsimp only
    rw [hnone ((List.mem_cons.mp hc).resolve_left hplus), Option.filter_none]
  next =>
    dsimp only
    rw [hnone hc, Option.filter_none]

theorem isDigit_iff {c : Char} : c.isDigit = true ↔ 48 ≤ c.toNat ∧ c.toNat ≤ 57 := by
  simp [Char.isDigit, UInt32.le_iff_toNat_le]

/-- No digit is a blank. -/
theorem isBlank_of_isDigit {c : Char} (h : c.isDigit = true) : Text.isBlank c = false := by
  rw [isDigit_iff] at h
  simp only [Text.isBlank, Bool.or_eq_false_iff, Bool.and_eq_false_iff, decide_eq_false_iff_not,
    beq_eq_false_iff_ne, ne_eq]
  omega

theorem isAlpha_of_isDigit {c : Char} (h : c.isDigit = true) : c.isAlpha = false := by
  rw [isDigit_iff] at h
  rw [← Bool.not_eq_true, Text.isAlpha_iff]
  omega

theorem plain_of_mem_ofNat {n : Nat} {c : Char} (h : c ∈ ofNat n) :
    Text.isBlank c = false ∧ c.isAlpha = false :=
  ⟨isBlank_of_isDigit (isDigit_of_mem_ofNat h), isAlpha_of_isDigit (isDigit_of_mem_ofNat h)⟩

theorem trim_ofNat (n : Nat) : Text.trim (ofNat n) = ofNat n :=
  Text.trim_eq_self fun _ hc => (plain_of_mem_ofNat hc).1

end Numeral

namespace Selector

variable {A : Type} {items picked : List A}

theorem pick_index_eq_ok_iff {i : Nat} :
    pick items (.index i) = .ok picked ↔
      (1 ≤ i ∧ i ≤ items.length) ∧ picked = (items.drop (i - 1)).take 1 := by
  rw [pick, ite_error_eq_ok_iff]
  apply and_congr_left
  omega

theorem pick_range_eq_ok_iff {first last : Nat} :
    pick items (.range first last) = .ok picked ↔
      (1 ≤ first ∧ first ≤ last ∧ last ≤ items.length) ∧
        picked = (items.take last).drop (first - 1) := by
  rw [pick, ite_error_eq_ok_iff]
  apply and_congr_left
  omega

/-- What a selector covers of a list whose places are counted from one, or why it covers nothing. -/
inductive Covers (items : List A) : Selector → Except PickFault (List A) → Prop where
  | all : Covers items .all (.ok items)
  | index {i before a behind} : items = before ++ a :: behind → before.length + 1 = i →
      Covers items (.index i) (.ok [a])
  | range {first last before chosen behind} : items = before ++ chosen ++ behind →
      before.length + 1 = first → first ≤ last → before.length + chosen.length = last →
      Covers items (.range first last) (.ok chosen)
  | noIndex {i} : i = 0 ∨ items.length < i →
      Covers items (.index i) (.error (.indexOutOfRange i items.length))
  | noRange {first last} : first = 0 ∨ items.length < last ∨ last < first →
      Covers items (.range first last) (.error (.invalidRange first last items.length))
  | name {t} : Covers items (.name t) (.error (.gameNotFound t))

theorem covers_pick (items : List A) (s : Selector) : s.Covers items (s.pick items) := by
  cases s with
  | all => exact .all
  | name t => exact .name
  | index i =>
    rw [pick]
    split
    next h => exact .noIndex h
    next h =>
      have hlt : i - 1 < items.length := by omega
      have hchosen : (items.drop (i - 1)).take 1 = [items[i - 1]] := by
        rw [List.drop_eq_getElem_cons hlt]
        rfl
      rw [hchosen]
      refine @Covers.index A items i (items.take (i - 1)) _ (items.drop (i - 1 + 1)) ?_ ?_
      · rw [← List.drop_eq_getElem_cons hlt, List.take_append_drop]
      · rw [List.length_take]
        omega
  | range first last =>
    rw [pick]
    split
    next h => exact .noRange h
    next h =>
      refine @Covers.range A items first last (items.take (first - 1)) _ (items.drop last) ?_ ?_ ?_ ?_
      · have htake : items.take (first - 1) = (items.take last).take (first - 1) := by
          rw [List.take_take, Nat.min_eq_left (by omega)]
        rw [htake, List.take_append_drop, List.take_append_drop]
      · rw [List.length_take]
        omega
      · omega
      · simp only [List.length_take, List.length_drop]
        omega

theorem Covers.pick_eq {s : Selector} {r : Except PickFault (List A)} (h : s.Covers items r) :
    s.pick items = r := by
  cases h with
  | all => rfl
  | name => rfl
  | noIndex hi => rw [pick, if_pos hi]
  | noRange hr => rw [pick, if_pos hr]
  | @index i before a behind hitems hi =>
    refine pick_index_eq_ok_iff.mpr ⟨?_, ?_⟩
    · rw [hitems, List.length_append, List.length_cons]
      omega
    · have hbefore : i - 1 = before.length := by omega
      rw [hitems, hbefore, List.drop_left]
      rfl
  | @range first last before chosen behind hitems hfirst hle hlast =>
    refine pick_range_eq_ok_iff.mpr ⟨?_, ?_⟩
    · rw [hitems, List.length_append, List.length_append]
      omega
    · have hbefore : first - 1 = before.length := by omega
      rw [hitems, ← hlast, ← List.length_append, List.take_left, hbefore, List.drop_left]

/-- The places that are given decide what is picked, and no others are looked at. -/
theorem pick_eq_iff {s : Selector} {r : Except PickFault (List A)} :
    s.pick items = r ↔ s.Covers items r :=
  ⟨fun h => h ▸ covers_pick items s, Covers.pick_eq⟩

/-- What is picked by places lies in one piece. -/
theorem exists_of_pick {s : Selector} (h : s.pick items = .ok picked) :
    ∃ before behind, items = before ++ picked ++ behind := by
  cases pick_eq_iff.mp h with
  | all => exact ⟨[], [], by simp⟩
  | @index i before a behind hitems _ => exact ⟨before, behind, by simp [hitems]⟩
  | @range first last before chosen behind hitems _ _ _ => exact ⟨before, behind, hitems⟩

theorem pick_subset {s : Selector} (h : s.pick items = .ok picked) : picked ⊆ items := by
  obtain ⟨before, behind, rfl⟩ := exists_of_pick h
  exact List.subset_append_of_subset_left _ (List.subset_append_right before picked)

/-- What a text without blanks around it is read as. -/
inductive ReadsAs (t : Text) : Except PickFault Selector → Prop where
  | blank : t = [] → ReadsAs t (.error .emptySelection)
  | all : Text.sameLetters t "all".toList = true → ReadsAs t (.ok .all)
  | index {i} : t ≠ [] → Text.sameLetters t "all".toList = false → readIndex t = some i →
      ReadsAs t (.ok (.index i))
  | range {first last} : t ≠ [] → Text.sameLetters t "all".toList = false → readIndex t = none →
      readRange t = some (first, last) → ReadsAs t (.ok (.range first last))
  | junk : t ≠ [] → Text.sameLetters t "all".toList = false → readIndex t = none →
      readRange t = none → looksNumeric t = true → ReadsAs t (.error (.invalidSelection t))
  | name : t ≠ [] → Text.sameLetters t "all".toList = false → readIndex t = none →
      readRange t = none → looksNumeric t = false → ReadsAs t (.ok (.name t))

theorem readsAs_read (input : Text) : ReadsAs (Text.trim input) (read input) := by
  unfold read
  dsimp only
  generalize Text.trim input = t
  split
  next hnil => exact .blank (List.isEmpty_iff.mp hnil)
  next hnil =>
    have hne : t ≠ [] := mt List.isEmpty_iff.mpr hnil
    split
    next hall => exact .all hall
    next hall =>
      rw [Bool.not_eq_true] at hall
      split
      next hindex => exact .index hne hall hindex
      next hindex hrange => exact .range hne hall hindex hrange
      next hindex hrange =>
        split
        next hjunk => exact .junk hne hall hindex hrange hjunk
        next hname => exact .name hne hall hindex hrange (eq_false_of_ne_true hname)

theorem ReadsAs.read_eq {input : Text} {r : Except PickFault Selector}
    (h : ReadsAs (Text.trim input) r) : read input = r := by
  unfold read
  dsimp only
  generalize Text.trim input = t at h
  cases h with
  | blank hnil =>
    rw [hnil]
    rfl
  | all hall =>
    have hne : t ≠ [] := by
      rintro rfl
      exact Bool.noConfusion hall
    rw [List.isEmpty_eq_false_iff.mpr hne, hall]
    rfl
  | index hne hall hindex =>
    rw [List.isEmpty_eq_false_iff.mpr hne, hall, hindex]
    rfl
  | range hne hall hindex hrange =>
    rw [List.isEmpty_eq_false_iff.mpr hne, hall, hindex, hrange]
    rfl
  | junk hne hall hindex hrange hjunk =>
    rw [List.isEmpty_eq_false_iff.mpr hne, hall, hindex, hrange, hjunk]
    rfl
  | name hne hall hindex hrange hname =>
    rw [List.isEmpty_eq_false_iff.mpr hne, hall, hindex, hrange, hname]
    rfl

theorem name_of_read {input n : Text} (h : read input = .ok (.name n)) : n = Text.trim input := by
  have hread := readsAs_read input
  rw [h] at hread
  cases hread
  rfl

theorem sameLetters_all_of_read {input : Text} (h : read input = .ok .all) :
    Text.sameLetters (Text.trim input) "all".toList = true := by
  have hread := readsAs_read input
  rw [h] at hread
  cases hread with
  | all hall => exact hall

/-- There is nothing to read, or what looks like a number and is none. -/
theorem read_eq_error_cases {input : Text} {fault : PickFault} (h : read input = .error fault) :
    Text.trim input = [] ∧ fault = .emptySelection ∨
      Text.trim input ≠ [] ∧ fault = .invalidSelection (Text.trim input) := by
  have hread := readsAs_read input
  rw [h] at hread
  cases hread with
  | blank hnil => exact .inl ⟨hnil, rfl⟩
  | junk hne _ _ _ _ => exact .inr ⟨hne, rfl⟩

/-- The greatest number that a selector can hold. -/
def maxIndex : Nat := 0xFFFFFFFFFFFFFFFF

theorem readIndex_ofNat {n : Nat} (h : n ≤ maxIndex) : readIndex (Numeral.ofNat n) = some n :=
  Numeral.readNat_ofNat h

/-- The text of a range as it is typed. -/
def rangeText (first last : Nat) : Text := Numeral.ofNat first ++ '-' :: Numeral.ofNat last

theorem readRange_rangeText {first last : Nat} (hf : first ≤ maxIndex) (hl : last ≤ maxIndex) :
    readRange (rangeText first last) = some (first, last) := by
  have hdash : ∀ c ∈ Numeral.ofNat first, (c == '-') = false := by
    intro c hc
    apply beq_false_of_ne
    rintro rfl
    exact absurd (Numeral.isDigit_of_mem_ofNat hc) (by decide)
  unfold readRange rangeText
  rw [Text.splitFirst_append hdash rfl]
  simp only [Option.bind_eq_bind, Option.bind_some, Numeral.trim_ofNat, readIndex_ofNat hf,
    readIndex_ofNat hl]
  rfl

/-- Neither the text of a number nor that of a range has blanks or letters. -/
theorem plain_of_mem_rangeText {first last : Nat} {c : Char} (h : c ∈ rangeText first last) :
    Text.isBlank c = false ∧ c.isAlpha = false := by
  rw [rangeText, List.mem_append, List.mem_cons] at h
  rcases h with h | rfl | h
  · exact Numeral.plain_of_mem_ofNat h
  · exact ⟨by decide, by decide⟩
  · exact Numeral.plain_of_mem_ofNat h

theorem not_sameLetters_all {t : Text} (h : ∀ c ∈ t, c.isAlpha = false) :
    Text.sameLetters t "all".toList = false := by
  apply eq_false_of_ne_true
  intro hs
  have hsame : Text.sameLetters "all".toList t = true :=
    Text.sameLetters_iff.mpr (Text.sameLetters_iff.mp hs).symm
  rw [Text.sameLetters_iff_eq h] at hsame
  exact absurd (h 'a' (hsame ▸ by decide)) (by decide)

theorem read_ofNat {n : Nat} (h : n ≤ maxIndex) : read (Numeral.ofNat n) = .ok (.index n) := by
  apply ReadsAs.read_eq
  rw [Numeral.trim_ofNat]
  exact .index (Numeral.ofNat_ne_nil n)
    (not_sameLetters_all fun c hc => (Numeral.plain_of_mem_ofNat hc).2) (readIndex_ofNat h)

theorem read_rangeText {first last : Nat} (hf : first ≤ maxIndex) (hl : last ≤ maxIndex) :
    read (rangeText first last) = .ok (.range first last) := by
  have hindex : readIndex (rangeText first last) = none :=
    Numeral.readNat_eq_none_of_mem (c := '-') (by simp [rangeText]) (by decide) (by decide)
  have hne : rangeText first last ≠ [] := by simp [rangeText]
  apply ReadsAs.read_eq
  rw [Text.trim_eq_self fun c hc => (plain_of_mem_rangeText hc).1]
  exact .range hne (not_sameLetters_all fun c hc => (plain_of_mem_rangeText hc).2) hindex
    (readRange_rangeText hf hl)

end Selector

end GameShelf
