import GameShelf.Text.Numbered
import Mathlib.Data.List.DropRight

namespace GameShelf.Text

theorem splitOn_ne_nil (separator : Char) (t : Text) : splitOn separator t ≠ [] := by
  induction t with
  | nil => exact List.cons_ne_nil _ _
  | cons c t ih =>
    rw [splitOn]
    split
    · exact List.cons_ne_nil _ _
    · exact fun h => ih (List.modifyHead_eq_nil_iff.mp h)

/-- A separator parts the pieces on its left from those on its right. -/
theorem splitOn_append (separator : Char) (s t : Text) :
    splitOn separator (s ++ separator :: t) = splitOn separator s ++ splitOn separator t := by
  induction s with
  | nil => exact if_pos rfl
  | cons c s ih =>
    rw [List.cons_append, splitOn, splitOn, ih]
    split
    · rfl
    · obtain ⟨piece, pieces, h⟩ := List.exists_cons_of_ne_nil (splitOn_ne_nil separator s)
      rw [h]
      rfl

@[simp]
theorem trimStart_trim (t : Text) : trimStart (trim t) = trim t := by
  cases h : trim t with
  | nil => rfl
  | cons c rest =>
    -- what is trimmed at its end still starts as before, with no blank
    have hprefix : c :: rest <+: trimStart t := h ▸ List.rdropWhile_prefix isBlank (trimStart t)
    obtain ⟨behind, hbehind⟩ := hprefix
    have hc := List.head?_dropWhile_not isBlank t
    rw [← trimStart, ← hbehind] at hc
    exact List.dropWhile_cons_of_neg (by simpa using hc)

@[simp]
theorem trim_trim (t : Text) : trim (trim t) = trim t := by
  conv_lhs => rw [trim, trimStart_trim]
  exact List.rdropWhile_idempotent isBlank (trimStart t)

/-- A text that is all blank, such as what trimming cuts off. -/
def Blank (t : Text) : Prop := ∀ c ∈ t, isBlank c = true

instance (t : Text) : Decidable (Blank t) :=
  decidable_of_iff (t.all isBlank = true) List.all_eq_true

theorem Blank.not_mem {t : Text} (h : Blank t) {c : Char} (hc : isBlank c = false) : c ∉ t :=
  fun hmem => Bool.false_ne_true (hc.symm.trans (h c hmem))

theorem trimStart_append {s : Text} (h : trimStart s ≠ []) (t : Text) :
    trimStart (s ++ t) = trimStart s ++ t :=
  List.dropWhile_append.trans (if_neg (mt List.isEmpty_iff.mp h))

theorem trimEnd_append {t : Text} (h : trimEnd t ≠ []) (s : Text) :
    trimEnd (s ++ t) = s ++ trimEnd t := by
  have h' : t.reverse.dropWhile isBlank ≠ [] := fun hnil => h (List.reverse_eq_nil_iff.mpr hnil)
  rw [trimEnd, List.reverse_append, List.dropWhile_append, if_neg (mt List.isEmpty_iff.mp h'),
    List.reverse_append, List.reverse_reverse, trimEnd]

theorem trimEnd_append_blank (t : Text) {r : Text} (hr : Blank r) :
    trimEnd (t ++ r) = trimEnd t := by
  rw [trimEnd, List.reverse_append, List.dropWhile_append_of_pos, trimEnd]
  exact fun c hc => hr c (List.mem_reverse.mp hc)

theorem trim_eq_nil_iff {t : Text} : trim t = [] ↔ Blank t := by
  have h : trim t = [] ↔ Blank (trimStart t) := List.rdropWhile_eq_nil_iff
  rw [h]
  constructor
  · intro hs c hc
    rw [← List.takeWhile_append_dropWhile (p := isBlank) (l := t), List.mem_append] at hc
    rcases hc with hc | hc
    · exact List.mem_takeWhile_imp hc
    · exact hs c hc
  · intro ht c hc
    exact ht c ((List.dropWhile_suffix isBlank).mem hc)

/-- Trimming cuts off what is blank at the ends. -/
theorem exists_blank_trim (t : Text) :
    ∃ l r, Blank l ∧ Blank r ∧ t = l ++ trim t ++ r := by
  refine ⟨t.takeWhile isBlank, (trimStart t).rtakeWhile isBlank,
    fun c => List.mem_takeWhile_imp, fun c => List.mem_rtakeWhile_imp, ?_⟩
  calc
    t = t.takeWhile isBlank ++ trimStart t := List.takeWhile_append_dropWhile.symm
    _ = t.takeWhile isBlank ++
          (trim t ++ (trimStart t).rtakeWhile isBlank) := by
      rw [trim, trimEnd, ← List.rdropWhile, List.rdropWhile_append_rtakeWhile]
    _ = _ := (List.append_assoc ..).symm

/-- Nothing else is cut off. -/
theorem trim_padded {l r : Text} (hl : Blank l) (hr : Blank r) (t : Text) :
    trim (l ++ t ++ r) = trim t := by
  rw [List.append_assoc, trim, trimStart, List.dropWhile_append_of_pos hl, ← trimStart]
  by_cases ht : trimStart t = []
  · have hblank : Blank (t ++ r) := by
      intro c hc
      rcases List.mem_append.mp hc with hc | hc
      · exact List.dropWhile_eq_nil_iff.mp ht c hc
      · exact hr c hc
    rw [← trim, trim_eq_nil_iff.mpr hblank, trim, ht]
    rfl
  · rw [trimStart_append ht, trimEnd_append_blank _ hr, trim]

/-- A text between two that are trimmed already is out of reach. -/
theorem trim_append_append {s v : Text} (hs : trim s = s) (hs' : s ≠ []) (hv : trim v = v)
    (hv' : v ≠ []) (t : Text) : trim (s ++ t ++ v) = s ++ t ++ v := by
  have hstart : trimStart s = s := by rw [← hs, trimStart_trim]
  have hend : trimEnd v = v := by
    conv_lhs => rw [← hv]
    exact (List.rdropWhile_idempotent isBlank (trimStart v)).trans hv
  rw [trim, List.append_assoc, trimStart_append (by rwa [hstart]), hstart, ← List.append_assoc,
    trimEnd_append (by rwa [hend]), hend]

theorem trim_eq_self {t : Text} (h : ∀ c ∈ t, isBlank c = false) : trim t = t := by
  have hstart : trimStart t = t := List.dropWhile_eq_self_iff.mpr fun hl => by
    simp [h _ (List.getElem_mem hl)]
  rw [trim, hstart]
  exact List.rdropWhile_eq_self_iff.mpr fun hl => by simp [h _ (List.getLast_mem hl)]

theorem splitOn_eq_splitOn (separator : Char) (t : Text) :
    splitOn separator t = List.splitOn separator t := by
  induction t with
  | nil => exact (List.splitOn_nil separator).symm
  | cons c t ih =>
    rw [splitOn, ih, List.splitOn, List.splitOn, List.splitOnP_cons_eq_if_modifyHead]
    simp only [beq_iff_eq]

theorem splitFirst_append {p : Char → Bool} {s : Text} (hs : ∀ c ∈ s, p c = false) {c : Char}
    (hc : p c = true) (t : Text) : splitFirst p (s ++ c :: t) = some (s, t) := by
  induction s with
  | nil => exact if_pos hc
  | cons d s ih =>
    rw [List.forall_mem_cons] at hs
    rw [List.cons_append, splitFirst, hs.1, ih hs.2]
    rfl

theorem splitFirst_eq_none_iff {p : Char → Bool} {t : Text} :
    splitFirst p t = none ↔ ∀ c ∈ t, p c = false := by
  induction t with
  | nil => simp [splitFirst]
  | cons c t ih =>
    rw [splitFirst, List.forall_mem_cons, ← ih]
    cases p c <;> simp

theorem splitFirst_eq_some_iff {p : Char → Bool} {t s rest : Text} :
    splitFirst p t = some (s, rest) ↔
      ∃ c, t = s ++ c :: rest ∧ p c = true ∧ ∀ d ∈ s, p d = false := by
  constructor
  · intro h
    induction t generalizing s with
    | nil => cases h
    | cons c t ih =>
      rw [splitFirst] at h
      split at h
      next hc =>
        cases h
        exact ⟨c, rfl, hc, List.forall_mem_nil _⟩
      next hc =>
        obtain ⟨⟨s', rest'⟩, hs', he⟩ := Option.map_eq_some_iff.mp h
        cases he
        obtain ⟨d, rfl, hd, hs⟩ := ih hs'
        exact ⟨d, rfl, hd, List.forall_mem_cons.mpr ⟨eq_false_of_ne_true hc, hs⟩⟩
  · rintro ⟨c, rfl, hc, hs⟩
    exact splitFirst_append hs hc rest

theorem occursIn_iff {pattern t : Text} : occursIn pattern t = true ↔ pattern <:+: t := by
  induction t with
  | nil => rw [occursIn, List.isEmpty_iff, List.infix_nil]
  | cons c t ih =>
    rw [occursIn, Bool.or_eq_true, ih, List.isPrefixOf_iff_prefix, List.infix_cons_iff]

section

variable {separator : Char}

theorem splitOn_of_not_mem {t : Text} (h : separator ∉ t) : splitOn separator t = [t] := by
  induction t with
  | nil => rfl
  | cons c t ih =>
    rw [List.mem_cons, not_or] at h
    rw [splitOn, if_neg (Ne.symm h.1), ih h.2]
    rfl

theorem length_splitOn (separator : Char) (t : Text) :
    (splitOn separator t).length = t.count separator + 1 := by
  induction t with
  | nil => rfl
  | cons c t ih =>
    rw [splitOn]
    split
    next hc => rw [List.length_cons, ih, hc, List.count_cons_self]
    next hc => rw [List.length_modifyHead, ih, List.count_cons_of_ne hc]

theorem splitOn_append_left {l : Text} (hl : separator ∉ l) (t : Text) :
    splitOn separator (l ++ t) = (splitOn separator t).modifyHead (l ++ ·) := by
  induction l with
  | nil => exact (congrFun List.modifyHead_id _).symm
  | cons c l ih =>
    rw [List.mem_cons, not_or] at hl
    rw [List.cons_append, splitOn, if_neg (Ne.symm hl.1), ih hl.2, List.modifyHead_modifyHead]
    rfl

/-- What has no separator goes to the last piece. -/
theorem exists_splitOn_append_right (separator : Char) (t : Text) :
    ∃ before last, ∀ r, separator ∉ r → splitOn separator (t ++ r) = before ++ [last ++ r] := by
  induction t with
  | nil => exact ⟨[], [], fun r hr => splitOn_of_not_mem hr⟩
  | cons c t ih =>
    obtain ⟨before, last, h⟩ := ih
    by_cases hc : c = separator
    · refine ⟨[] :: before, last, fun r hr => ?_⟩
      rw [List.cons_append, splitOn, if_pos hc, h r hr, List.cons_append]
    · cases before with
      | nil =>
        refine ⟨[], c :: last, fun r hr => ?_⟩
        rw [List.cons_append, splitOn, if_neg hc, h r hr]
        rfl
      | cons piece before =>
        refine ⟨(c :: piece) :: before, last, fun r hr => ?_⟩
        rw [List.cons_append, splitOn, if_neg hc, h r hr]
        rfl

/-- Blanks around a text are blanks around its first and its last piece. -/
theorem map_trim_splitOn (hseparator : isBlank separator = false) (t : Text) :
    (splitOn separator (trim t)).map trim = (splitOn separator t).map trim := by
  have hblank {s : Text} (hs : Blank s) : separator ∉ s := hs.not_mem hseparator
  have hnone : Blank [] := List.forall_mem_nil _
  have hright {r : Text} (hr : Blank r) (s : Text) :
      (splitOn separator (s ++ r)).map trim = (splitOn separator s).map trim := by
    obtain ⟨before, last, h⟩ := exists_splitOn_append_right separator s
    have hs := h [] List.not_mem_nil
    rw [List.append_nil, List.append_nil] at hs
    rw [h r (hblank hr), hs, List.map_append, List.map_append]
    exact congrArg (_ ++ [·]) (trim_padded hnone hr last)
  have hleft {l : Text} (hl : Blank l) (s : Text) :
      (splitOn separator (l ++ s)).map trim = (splitOn separator s).map trim := by
    obtain ⟨piece, pieces, h⟩ := List.exists_cons_of_ne_nil (splitOn_ne_nil separator s)
    have htrim := trim_padded hl hnone piece
    rw [List.append_nil] at htrim
    rw [splitOn_append_left (hblank hl), h]
    exact congrArg (· :: _) htrim
  obtain ⟨l, r, hl, hr, ht⟩ := exists_blank_trim t
  conv_rhs => rw [ht]
  rw [hright hr, hleft hl]

end

theorem numbered_map {A : Type} (f : A → Text) (items : List A) :
    numbered (items.map f) = (items.zipIdx 1).flatMap fun e =>
      line (Numeral.ofNat e.2 ++ ": ".toList ++ f e.1) := by
  rw [numbered, List.zipIdx_map, List.flatMap_map]
  rfl

end GameShelf.Text
