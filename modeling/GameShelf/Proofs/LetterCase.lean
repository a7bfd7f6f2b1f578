import GameShelf.Text.Case
import Mathlib.Data.List.Basic
import Mathlib.Data.List.Forall2

namespace GameShelf.Text

theorem sameLetters_iff {s t : Text} : sameLetters s t = true ↔ asciiLower s = asciiLower t :=
  beq_iff_eq

theorem isAlpha_iff {c : Char} :
    c.isAlpha = true ↔ 65 ≤ c.toNat ∧ c.toNat ≤ 90 ∨ 97 ≤ c.toNat ∧ c.toNat ≤ 122 := by
  have hupper : c.isUpper = true ↔ 65 ≤ c.toNat ∧ c.toNat ≤ 90 := by
    unfold Char.isUpper
    simp [UInt32.le_iff_toNat_le]
  have hlower : c.isLower = true ↔ 97 ≤ c.toNat ∧ c.toNat ≤ 122 := by
    unfold Char.isLower
    simp [UInt32.le_iff_toNat_le]
  unfold Char.isAlpha
  rw [Bool.or_eq_true, hupper, hlower]

theorem toNat_toLower (c : Char) :
    c.toLower.toNat = if 65 ≤ c.toNat ∧ c.toNat ≤ 90 then c.toNat + 32 else c.toNat := by
  have hupper : (c.val ≥ 'A'.val ∧ c.val ≤ 'Z'.val) ↔ 65 ≤ c.toNat ∧ c.toNat ≤ 90 := by
    simp [UInt32.le_iff_toNat_le]
  unfold Char.toLower
  split
  next hc =>
    have hle := hupper.mp hc
    rw [if_pos hle]
    change (c.val + 32).toNat = c.toNat + 32
    rw [UInt32.toNat_add]
    change (c.toNat + 32) % 4294967296 = _
    omega
  next hc => rw [if_neg (mt hupper.mpr hc)]

theorem toLower_eq_iff {c d : Char} (h : d.isAlpha = false) : c.toLower = d ↔ c = d := by
  rw [← Bool.not_eq_true, isAlpha_iff] at h
  rw [← Char.toNat_inj, ← Char.toNat_inj, toNat_toLower]
  split <;> omega

/-- Case does not matter where there are no letters. -/
theorem sameLetters_iff_eq {s t : Text} (h : ∀ c ∈ t, c.isAlpha = false) :
    sameLetters s t = true ↔ s = t := by
  rw [sameLetters_iff]
  unfold asciiLower
  induction t generalizing s with
  | nil => simp
  | cons d t ih =>
    obtain ⟨hd, ht⟩ := List.forall_mem_cons.mp h
    cases s with
    | nil => simp
    | cons c s =>
      rw [List.map_cons, List.map_cons, List.cons.injEq, List.cons.injEq,
        (toLower_eq_iff hd).mpr rfl, toLower_eq_iff hd, ih ht]

/-- The letters that have another form in ASCII's lower case. -/
def capitals : Text := "ABCDEFGHIJKLMNOPQRSTUVWXYZ".toList

theorem mem_capitals {c : Char} (h : c.toLower ≠ c) : c ∈ capitals := by
  have hrange : 65 ≤ c.toNat ∧ c.toNat ≤ 90 := by
    by_contra hout
    exact h (Char.toNat_inj.mp (by rw [toNat_toLower, if_neg hout]))
  have hall : ∀ n < 26, Char.ofNat (n + 65) ∈ capitals := by decide
  have hc := hall (c.toNat - 65) (by omega)
  rwa [Nat.sub_add_cancel hrange.1, Char.ofNat_toNat] at hc

/-- What does not tell the capitals from their small letters is blind to the case of ASCII. -/
theorem apply_toLower {A : Type} {f : Char → A}
    (h : capitals.Forall fun c => f c.toLower = f c) (c : Char) : f c.toLower = f c := by
  by_cases hc : c.toLower = c
  · rw [hc]
  · exact List.forall_iff_forall_mem.mp h c (mem_capitals hc)

@[simp]
theorem isBlank_toLower (c : Char) : isBlank c.toLower = isBlank c := apply_toLower (by decide) c

@[simp]
theorem isDigit_toLower (c : Char) : c.toLower.isDigit = c.isDigit := apply_toLower (by decide) c

@[simp]
theorem isCased_toLower (c : Char) : isCased c.toLower = isCased c :=
  apply_toLower (by decide +kernel) c

/-- Case mapping passes over no letter of ASCII: none of the runs reaches into the alphabet. -/
theorem isCaseIgnorable_of_isAlpha {c : Char} (h : c.isAlpha = true) :
    isCaseIgnorable c = false := by
  have hruns : caseIgnorableRanges.all fun run =>
      decide (run.2 < 65 ∨ 90 < run.1 ∧ run.2 < 97 ∨ 122 < run.1) := by decide +kernel
  rw [isAlpha_iff] at h
  rw [isCaseIgnorable, inRanges, List.any_eq_false]
  intro run hrun
  have hout := List.all_eq_true.mp hruns run hrun
  simp only [decide_eq_true_eq, Bool.and_eq_true] at hout ⊢
  omega

@[simp]
theorem isCaseIgnorable_toLower (c : Char) : isCaseIgnorable c.toLower = isCaseIgnorable c := by
  have hletters : capitals.Forall fun c => c.isAlpha = true ∧ c.toLower.isAlpha = true := by decide
  by_cases hc : c.toLower = c
  · rw [hc]
  · obtain ⟨hcapital, hsmall⟩ := List.forall_iff_forall_mem.mp hletters c (mem_capitals hc)
    rw [isCaseIgnorable_of_isAlpha hcapital, isCaseIgnorable_of_isAlpha hsmall]

@[simp]
theorem lowerChar_toLower (c : Char) : lowerChar c.toLower = lowerChar c :=
  apply_toLower (by decide) c

@[simp]
theorem asciiLower_cons (c : Char) (t : Text) : asciiLower (c :: t) = c.toLower :: asciiLower t :=
  rfl

@[simp]
theorem asciiLower_asciiLower (t : Text) : asciiLower (asciiLower t) = asciiLower t := by
  have htwice (c : Char) : c.toLower.toLower = c.toLower := apply_toLower (by decide) c
  simp only [asciiLower, List.map_map, Function.comp_def, htwice]

@[simp]
theorem sameLetters_asciiLower_left (s t : Text) :
    sameLetters (asciiLower s) t = sameLetters s t := by
  rw [sameLetters, asciiLower_asciiLower, sameLetters]

@[simp]
theorem sameLetters_asciiLower_right (s t : Text) :
    sameLetters s (asciiLower t) = sameLetters s t := by
  rw [sameLetters, asciiLower_asciiLower, sameLetters]

theorem sameLetters_symm {s t : Text} (h : sameLetters s t = true) : sameLetters t s = true :=
  sameLetters_iff.mpr (sameLetters_iff.mp h).symm

/-- What a text is used for in the same way as its lower case, it is used for in any case. -/
theorem apply_eq_of_sameLetters {A : Type} {f : Text → A} (hf : ∀ t, f (asciiLower t) = f t)
    {s t : Text} (h : sameLetters s t = true) : f s = f t := by
  rw [← hf s, sameLetters_iff.mp h, hf]

theorem dropWhile_asciiLower {p : Char → Bool} (hp : ∀ c : Char, p c.toLower = p c) (t : Text) :
    (asciiLower t).dropWhile p = asciiLower (t.dropWhile p) := by
  rw [asciiLower, List.dropWhile_map]
  exact congrArg (fun q => (t.dropWhile q).map Char.toLower) (funext hp)

theorem takeWhile_asciiLower {p : Char → Bool} (hp : ∀ c : Char, p c.toLower = p c) (t : Text) :
    (asciiLower t).takeWhile p = asciiLower (t.takeWhile p) := by
  rw [asciiLower, List.takeWhile_map]
  exact congrArg (fun q => (t.takeWhile q).map Char.toLower) (funext hp)

theorem trim_asciiLower (t : Text) : trim (asciiLower t) = asciiLower (trim t) := by
  have hreverse (s : Text) : (asciiLower s).reverse = asciiLower s.reverse := List.map_reverse.symm
  unfold trim trimEnd trimStart
  rw [dropWhile_asciiLower isBlank_toLower, hreverse, dropWhile_asciiLower isBlank_toLower, hreverse]

theorem sameLetters_trim {s t : Text} (h : sameLetters s t = true) :
    sameLetters (trim s) (trim t) = true := by
  rw [sameLetters_iff] at h ⊢
  rw [← trim_asciiLower, h, trim_asciiLower]

theorem dropBlanks_asciiLower (t : Text) : dropBlanks (asciiLower t) = asciiLower (dropBlanks t) := by
  simp [dropBlanks, asciiLower, List.filter_map, Function.comp_def]

/-- A text's order among sorted ones does not depend on its case. -/
theorem flatMap_lowerChar_asciiLower (t : Text) :
    (asciiLower t).flatMap lowerChar = t.flatMap lowerChar := by
  simp [asciiLower, List.flatMap_map]

theorem nearestIsCased_asciiLower (t : Text) : nearestIsCased (asciiLower t) = nearestIsCased t := by
  unfold nearestIsCased
  rw [dropWhile_asciiLower isCaseIgnorable_toLower]
  cases t.dropWhile isCaseIgnorable with
  | nil => rfl
  | cons c rest => exact isCased_toLower c

/-- The neighbours of a sigma may have any case. -/
theorem lowerFrom_asciiLower (before t : Text) :
    lowerFrom (asciiLower before) (asciiLower t) = lowerFrom before t := by
  induction t generalizing before with
  | nil => rfl
  | cons c t ih =>
    have hsigma : c.toLower = 'Σ' ↔ c = 'Σ' := toLower_eq_iff (by decide)
    rw [asciiLower_cons, lowerFrom, lowerFrom, ← asciiLower_cons, ih, nearestIsCased_asciiLower,
      nearestIsCased_asciiLower, lowerChar_toLower]
    simp only [hsigma]

@[simp]
theorem lower_asciiLower (t : Text) : lower (asciiLower t) = lower t := lowerFrom_asciiLower [] t

theorem lowerFrom_of_ascii {before t : Text} (h : ∀ c ∈ t, c.toNat < 0x80) :
    lowerFrom before t = asciiLower t := by
  induction t generalizing before with
  | nil => rfl
  | cons c t ih =>
    obtain ⟨hc, ht⟩ := List.forall_mem_cons.mp h
    have hsigma : c ≠ 'Σ' := by
      rintro rfl
      exact absurd hc (by decide)
    have hchar : lowerChar c = [c.toLower] := if_pos hc
    rw [lowerFrom, if_neg hsigma, hchar, ih ht, asciiLower_cons, List.singleton_append]

/-- Within ASCII there is no other lower case than its own. -/
theorem lower_of_ascii {t : Text} (h : ∀ c ∈ t, c.toNat < 0x80) : lower t = asciiLower t :=
  lowerFrom_of_ascii h

theorem lower_eq_of_sameLetters {s t : Text} (h : sameLetters s t = true) : lower s = lower t :=
  apply_eq_of_sameLetters lower_asciiLower h

theorem splitFirst_asciiLower {p : Char → Bool} (hp : ∀ c : Char, p c.toLower = p c) (t : Text) :
    splitFirst p (asciiLower t) = (splitFirst p t).map (Prod.map asciiLower asciiLower) := by
  induction t with
  | nil => rfl
  | cons c t ih =>
    rw [asciiLower_cons, splitFirst, splitFirst, hp, ih]
    cases p c with
    | true => rfl
    | false => cases splitFirst p t <;> rfl

theorem splitOn_asciiLower {separator : Char} (hs : separator.isAlpha = false) (t : Text) :
    splitOn separator (asciiLower t) = (splitOn separator t).map asciiLower := by
  induction t with
  | nil => rfl
  | cons c t ih =>
    rw [asciiLower_cons, splitOn, splitOn, ih]
    by_cases hc : c = separator
    · rw [if_pos hc, if_pos ((toLower_eq_iff hs).mpr hc)]
      rfl
    · rw [if_neg hc, if_neg (mt (toLower_eq_iff hs).mp hc)]
      cases splitOn separator t <;> rfl

/-- Texts that differ in case only are cut into pieces that do. -/
theorem sameLetters_splitOn {separator : Char} (hs : separator.isAlpha = false) {s t : Text}
    (h : sameLetters s t = true) :
    List.Forall₂ (fun a b => sameLetters a b = true) (splitOn separator s)
      (splitOn separator t) := by
  have hmap : (splitOn separator s).map asciiLower = (splitOn separator t).map asciiLower := by
    rw [← splitOn_asciiLower hs, ← splitOn_asciiLower hs, sameLetters_iff.mp h]
  rw [← List.forall₂_eq_eq_eq, List.forall₂_map_left_iff, List.forall₂_map_right_iff] at hmap
  exact hmap.imp fun _ _ => sameLetters_iff.mpr

end GameShelf.Text
