import GameShelf.PickList
import GameShelf.Proofs.Selection

namespace GameShelf.PickList

variable {selector : Text} {candidates chosen : List Game} {g : Game}
  {r : Except PickFault (List Game)}

/-- The candidates that a selector names. -/
def named (selector : Text) (candidates : List Game) : List Game :=
  candidates.filter fun g => Text.sameLetters g.name (Text.trim selector)

theorem mem_named :
    g ∈ named selector candidates ↔
      g ∈ candidates ∧ Text.sameLetters g.name (Text.trim selector) = true := List.mem_filter

/-- Where a candidate bears its name, whatever else a selector could be read as has no say. -/
theorem picked_of_borne (hg : g ∈ named selector candidates)
    (hall : Text.sameLetters (Text.trim selector) "all".toList = false) :
    picked selector candidates = .ok (named selector candidates) := by
  have hne : (candidates.filter fun g =>
      Text.sameLetters g.name (Text.trim selector)).isEmpty = false :=
    List.isEmpty_eq_false_iff.mpr (List.ne_nil_of_mem hg)
  unfold picked
  dsimp only
  rw [hne]
  cases h : Selector.read selector with
  | error fault => rfl
  | ok s =>
    cases s with
    | all =>
      rw [Selector.sameLetters_all_of_read h] at hall
      exact Bool.noConfusion hall
    | index i => rfl
    | range first last => rfl
    | name t => rfl

/-- Unless a candidate bears its name, a selector is read for what it says. -/
theorem picked_of_unnamed
    (h : ∀ g ∈ candidates, Text.sameLetters g.name (Text.trim selector) = false) :
    picked selector candidates = (Selector.read selector).bind fun s => s.pick candidates := by
  have hnamed :
      (candidates.filter fun g => Text.sameLetters g.name (Text.trim selector)) = [] := by
    rw [List.filter_eq_nil_iff]
    exact fun g hg => Bool.eq_false_iff.mp (h g hg)
  unfold picked
  rw [hnamed]
  cases Selector.read selector with
  | error fault => rfl
  | ok s => cases s <;> rfl

theorem picked_of_all (h : Selector.read selector = .ok .all) :
    picked selector candidates = .ok candidates := by
  unfold picked
  rw [h]

/-- What a selector picks from some candidates, or why it picks nothing. A name that some of them
bear comes before anything else that it could be read as, unless it asks for all. -/
inductive Picks (selector : Text) (candidates : List Game) :
    Except PickFault (List Game) → Prop where
  | named : Text.sameLetters (Text.trim selector) "all".toList = false →
      (∃ g ∈ candidates, Text.sameLetters g.name (Text.trim selector) = true) →
      Picks selector candidates (.ok (named selector candidates))
  | all : Text.sameLetters (Text.trim selector) "all".toList = true →
      Picks selector candidates (.ok candidates)
  | covered {s r} : (∀ g ∈ candidates, Text.sameLetters g.name (Text.trim selector) = false) →
      Selector.read selector = .ok s → s.Covers candidates r → Picks selector candidates r
  | blank : (∀ g ∈ candidates, Text.sameLetters g.name (Text.trim selector) = false) →
      Text.trim selector = [] → Picks selector candidates (.error .emptySelection)
  | unread : (∀ g ∈ candidates, Text.sameLetters g.name (Text.trim selector) = false) →
      Selector.read selector = .error (.invalidSelection (Text.trim selector)) →
      Picks selector candidates (.error (.invalidSelection (Text.trim selector)))

theorem Picks.picked_eq (h : Picks selector candidates r) : picked selector candidates = r := by
  cases h with
  | named hall hborne =>
    obtain ⟨g, hg, hname⟩ := hborne
    exact picked_of_borne (mem_named.mpr ⟨hg, hname⟩) hall
  | all hall => exact picked_of_all ((Selector.ReadsAs.all hall).read_eq)
  | covered hnone hs hc =>
    rw [picked_of_unnamed hnone, hs]
    exact hc.pick_eq
  | blank hnone hnil =>
    rw [picked_of_unnamed hnone, (Selector.ReadsAs.blank hnil).read_eq]
    rfl
  | unread hnone hs =>
    rw [picked_of_unnamed hnone, hs]
    rfl

theorem picks_picked (selector : Text) (candidates : List Game) :
    Picks selector candidates (picked selector candidates) := by
  by_cases hborne : ∃ g ∈ candidates, Text.sameLetters g.name (Text.trim selector) = true
  · cases hall : Text.sameLetters (Text.trim selector) "all".toList with
    | true =>
      rw [picked_of_all ((Selector.ReadsAs.all hall).read_eq)]
      exact .all hall
    | false =>
      obtain ⟨g, hg, hname⟩ := hborne
      rw [picked_of_borne (mem_named.mpr ⟨hg, hname⟩) hall]
      exact .named hall ⟨g, hg, hname⟩
  · have hnone : ∀ g ∈ candidates, Text.sameLetters g.name (Text.trim selector) = false :=
      fun g hg => eq_false_of_ne_true fun hname => hborne ⟨g, hg, hname⟩
    rw [picked_of_unnamed hnone]
    cases hs : Selector.read selector with
    | ok s => exact .covered hnone hs (Selector.covers_pick candidates s)
    | error fault =>
      rcases Selector.read_eq_error_cases hs with ⟨hnil, rfl⟩ | ⟨-, rfl⟩
      · exact .blank hnone hnil
      · exact .unread hnone hs

theorem picked_eq_iff : picked selector candidates = r ↔ Picks selector candidates r :=
  ⟨fun h => h ▸ picks_picked selector candidates, Picks.picked_eq⟩

theorem picked_subset (h : picked selector candidates = .ok chosen) : chosen ⊆ candidates := by
  cases picked_eq_iff.mp h with
  | named => exact fun g hg => (mem_named.mp hg).1
  | all => exact List.Subset.refl candidates
  | covered _ _ hc => exact Selector.pick_subset hc.pick_eq

end GameShelf.PickList
