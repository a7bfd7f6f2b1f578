import GameShelf.Proofs.Comparable
import GameShelf.Proofs.NameOrder

namespace GameShelf

namespace Text

variable {before before' after t : Text}

/-- What the sigmas that end words turn a text into that stands between two others, the first of
them read backwards. -/
def endWordsBetween (before after : Text) : Text → Text
  | [] => []
  | c :: t =>
    (if c = 'Σ' ∧ EndsWord before (t ++ after) then 'ς' else c) ::
      endWordsBetween (c :: before) after t

/-- The lowercase form of a text at its place between two others. -/
def lowerBetween (before after t : Text) : Text :=
  (endWordsBetween before after t).flatMap lowerChar

theorem endWordsFrom_append (before s t : Text) :
    endWordsFrom before (s ++ t) =
      endWordsBetween before t s ++ endWordsFrom (s.reverse ++ before) t := by
  induction s generalizing before with
  | nil => rfl
  | cons c s ih =>
    rw [List.cons_append, endWordsFrom, endWordsBetween, ih, List.reverse_cons, List.append_assoc]
    rfl

theorem endWordsBetween_nil (before t : Text) :
    endWordsBetween before [] t = endWordsFrom before t := by
  simpa [endWordsFrom] using (endWordsFrom_append before t []).symm

/-- A text is lowered part by part, each of them at its place. -/
theorem lower_append_append (a p b : Text) :
    lower (a ++ p ++ b) =
      lowerBetween [] (p ++ b) a ++ lowerBetween a.reverse b p ++
        lowerBetween (p.reverse ++ a.reverse) [] b := by
  rw [lower_eq_flatMap, endWords, List.append_assoc, endWordsFrom_append, endWordsFrom_append,
    List.append_nil, ← endWordsBetween_nil, List.flatMap_append, List.flatMap_append,
    List.append_assoc]
  rfl

/-- Whether each capital sigma of a text ends a word between these texts if it does on its own. -/
def KeepsEnds (before after t : Text) : Prop :=
  ∀ x y, t = x ++ 'Σ' :: y →
    (EndsWord (x.reverse ++ before) (y ++ after) ↔ EndsWord x.reverse y)

theorem forall_split_cons_iff {c d : Char} {P : Text → Text → Prop} :
    (∀ x y, c :: t = x ++ d :: y → P x y) ↔
      (c = d → P [] t) ∧ ∀ x y, t = x ++ d :: y → P (c :: x) y := by
  constructor
  · intro h
    refine ⟨?_, fun x y ht => h (c :: x) y (congrArg (c :: ·) ht)⟩
    rintro rfl
    exact h [] t rfl
  · rintro ⟨hfirst, hrest⟩ x y hxy
    cases x with
    | nil =>
      obtain ⟨rfl, rfl⟩ := List.cons.inj hxy
      exact hfirst rfl
    | cons c' x =>
      obtain ⟨rfl, rfl⟩ := List.cons.inj hxy
      exact hrest x y rfl

theorem lowerChar_sigma {p : Prop} [Decidable p] :
    lowerChar (if p then 'ς' else 'Σ') = [if p then 'ς' else 'σ'] := by
  split <;> decide

/-- Two places of a text make no difference to its lowercase form just where they make none to its
capital sigmas. -/
theorem flatMap_endWordsBetween_eq_iff :
    (endWordsBetween before after t).flatMap lowerChar = (endWordsFrom before' t).flatMap lowerChar ↔
      ∀ x y, t = x ++ 'Σ' :: y →
        (EndsWord (x.reverse ++ before) (y ++ after) ↔ EndsWord (x.reverse ++ before') y) := by
  induction t generalizing before before' with
  | nil => simp [endWordsBetween, endWordsFrom]
  | cons c t ih =>
    rw [forall_split_cons_iff, endWordsBetween, endWordsFrom, List.flatMap_cons, List.flatMap_cons]
    simp only [List.reverse_cons, List.append_assoc, List.singleton_append, List.reverse_nil,
      List.nil_append]
    rw [← ih]
    -- of all characters only a capital sigma has a form that depends on its place
    by_cases hc : c = 'Σ'
    · subst hc
      have hform {p q : Prop} [Decidable p] [Decidable q] :
          (if p then 'ς' else 'σ') = (if q then 'ς' else 'σ') ↔ (p ↔ q) := by
        by_cases hp : p <;> by_cases hq : q <;> simp [hp, hq]
      simp only [true_and, true_imp_iff, lowerChar_sigma, List.singleton_append, List.cons.injEq,
        hform]
    · simp [hc]

theorem lowerBetween_eq_lower_iff :
    lowerBetween before after t = lower t ↔ KeepsEnds before after t := by
  rw [lowerBetween, lower_eq_flatMap, endWords, flatMap_endWordsBetween_eq_iff]
  simp only [List.append_nil, KeepsEnds]

theorem keepsEnds_of_not_mem (h : 'Σ' ∉ t) : KeepsEnds before after t := by
  rintro x y rfl
  exact absurd (by simp) h

/-- What case mapping passes over, or sees no cased character behind, does not count. -/
theorem nearestIsCased_append (h : nearestIsCased after = false) (t : Text) :
    nearestIsCased (t ++ after) = nearestIsCased t := by
  unfold nearestIsCased at *
  rw [List.dropWhile_append]
  cases ht : t.dropWhile isCaseIgnorable with
  | nil => simpa using h
  | cons c rest => rfl

/-- A text that no letters touch can be cut out without harm. -/
theorem keepsEnds_of_not_cased (hbefore : nearestIsCased before = false)
    (hafter : nearestIsCased after = false) : KeepsEnds before after t := by
  intro x y _
  rw [EndsWord, EndsWord, nearestIsCased_append hbefore, nearestIsCased_append hafter]

end Text

namespace Condition

variable {R : Type} [HasAttributes R] {r : R} {p : Text}

/-- A name that contains a text is lowered in three parts. The text is found in it if the part at
its place is the lowercase form that the text has on its own. That is so just where its capital
sigmas end words in the name as they do in the text, and so if it has none, or no letters touch
it. -/
theorem contains_verbatim (hp : Text.trim p = p) {a b : Text}
    (hr : HasAttributes.value r .name = .text (a ++ p ++ b)) :
    ((make .name .contains p).accepts r = true ↔ Text.lower p <:+: Text.lower (a ++ p ++ b)) ∧
    Text.lower (a ++ p ++ b) =
      Text.lowerBetween [] (p ++ b) a ++ Text.lowerBetween a.reverse b p ++
        Text.lowerBetween (p.reverse ++ a.reverse) [] b ∧
    (Text.lowerBetween a.reverse b p = Text.lower p ↔ Text.KeepsEnds a.reverse b p) ∧
    (Text.KeepsEnds a.reverse b p → (make .name .contains p).accepts r = true) ∧
    ('Σ' ∉ p ∨ Text.nearestIsCased a.reverse = false ∧ Text.nearestIsCased b = false →
      Text.KeepsEnds a.reverse b p) := by
  have haccepts : (make .name .contains p).accepts r = true ↔
      Text.lower p <:+: Text.lower (a ++ p ++ b) := by
    rw [accepts_contains_of_text rfl hr, hp]
  refine ⟨haccepts, Text.lower_append_append a p b, Text.lowerBetween_eq_lower_iff,
    fun hkeeps => ?_, ?_⟩
  · rw [haccepts, Text.lower_append_append, Text.lowerBetween_eq_lower_iff.mpr hkeeps]
    exact List.infix_append _ _ _
  · rintro (hnone | ⟨hbefore, hafter⟩)
    · exact Text.keepsEnds_of_not_mem hnone
    · exact Text.keepsEnds_of_not_cased hbefore hafter

/-- A whole word is found, whatever form its sigma takes. -/
theorem wholeWord_found :
    Text.trim "ΟΔΟΣ".toList = "ΟΔΟΣ".toList ∧
    (make .name .contains "ΟΔΟΣ".toList).accepts (Game.ofName "Η ΟΔΟΣ 5".toList) = true := by
  have hp : Text.trim "ΟΔΟΣ".toList = "ΟΔΟΣ".toList := by decide
  have hr : HasAttributes.value (Game.ofName "Η ΟΔΟΣ 5".toList) .name =
      .text ("Η ".toList ++ "ΟΔΟΣ".toList ++ " 5".toList) := by decide
  obtain ⟨-, -, -, hfound, hkeeps⟩ := contains_verbatim hp hr
  exact ⟨hp, hfound (hkeeps (.inr ⟨by decide +kernel, by decide +kernel⟩))⟩

/-- The first letters of a word are not found in it, because on their own they end one. -/
theorem wordStart_missed :
    Text.trim "ΑΣ".toList = "ΑΣ".toList ∧ "ΑΣ".toList ≠ [] ∧
    "ΑΣ".toList <:+: (Game.ofName "ΑΣΑ".toList).name ∧
    Text.lower "ΑΣ".toList = "ας".toList ∧ Text.lower "ΑΣΑ".toList = "ασα".toList ∧
    (make .name .contains "ΑΣ".toList).accepts (Game.ofName "ΑΣΑ".toList) = false := by
  decide +kernel

end Condition

end GameShelf
