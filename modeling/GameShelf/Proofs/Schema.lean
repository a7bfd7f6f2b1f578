import GameShelf.Attribute
import GameShelf.Proofs.LetterCase

namespace GameShelf

namespace Attribute

/-- All that an attribute can be called in a filter text. -/
def names (a : Attribute) : List Text := a.label :: a.column :: a.aliases

/-- Whether a text is a name of the attribute, in any case and with any blanks around. -/
def Named (a : Attribute) (t : Text) : Prop :=
  ∃ name ∈ a.names, Text.sameLetters name (Text.trim t) = true

/-- Whether a header is that of the attribute's column, in any case and with any blanks around. -/
def Heads (a : Attribute) (header : Text) : Prop :=
  Text.sameLetters a.column (Text.trim header) = true

instance (a : Attribute) (header : Text) : Decidable (a.Heads header) :=
  inferInstanceAs (Decidable (_ = true))

theorem mem_all (a : Attribute) : a ∈ all := by
  cases a <;> decide

/-- No attribute is kept from standing in a condition. -/
theorem filterable (a : Attribute) : a.isFilterable = true := by cases a <;> rfl

theorem goesBy_trim_iff {a : Attribute} {t : Text} :
    a.goesBy (Text.trim t) = true ↔ a.Named t := List.any_eq_true

/-- No two attributes share a name, whatever its case. -/
theorem eq_of_mem_names {a b : Attribute} {m n : Text} (hm : m ∈ a.names) (hn : n ∈ b.names)
    (h : Text.asciiLower m = Text.asciiLower n) : a = b := by
  have hall : ∀ a ∈ all, ∀ b ∈ all, ∀ m ∈ a.names, ∀ n ∈ b.names,
      Text.asciiLower m = Text.asciiLower n → a = b := by decide +kernel
  exact hall a a.mem_all b b.mem_all m hm n hn h

theorem Named.unique {a b : Attribute} {t : Text} (ha : a.Named t) (hb : b.Named t) : a = b := by
  obtain ⟨m, hm, hmt⟩ := ha
  obtain ⟨n, hn, hnt⟩ := hb
  exact eq_of_mem_names hm hn
    ((Text.sameLetters_iff.mp hmt).trans (Text.sameLetters_iff.mp hnt).symm)

theorem named_label (a : Attribute) : a.Named a.label := by
  cases a <;> exact ⟨_, List.mem_cons_self, by decide⟩

theorem heads_column (a : Attribute) : a.Heads a.column := by
  cases a <;> decide

theorem Heads.named {a : Attribute} {header : Text} (h : a.Heads header) : a.Named header :=
  ⟨a.column, by simp [names], h⟩

/-- Where only one attribute can be meant, the search for it finds no other. -/
theorem find?_all_eq_some_iff {p : Attribute → Bool} (hp : ∀ a b, p a = true → p b = true → a = b)
    {a : Attribute} : all.find? p = some a ↔ p a = true := by
  refine ⟨List.find?_some, fun ha => ?_⟩
  obtain ⟨b, hb⟩ := Option.isSome_iff_exists.mp (List.find?_isSome.mpr ⟨a, a.mem_all, ha⟩)
  rw [hb, hp a b ha (List.find?_some hb)]

theorem named?_eq_some_iff {t : Text} {a : Attribute} : named? t = some a ↔ a.Named t := by
  rw [named?, find?_all_eq_some_iff, goesBy_trim_iff]
  intro a b ha hb
  exact (goesBy_trim_iff.mp ha).unique (goesBy_trim_iff.mp hb)

theorem named?_eq_none_iff {t : Text} : named? t = none ↔ ∀ a : Attribute, ¬a.Named t := by
  rw [← Option.not_isSome_iff_eq_none, Option.isSome_iff_exists, not_exists]
  exact forall_congr' fun a => not_congr named?_eq_some_iff

theorem ofColumn?_eq_some_iff {header : Text} {a : Attribute} :
    ofColumn? header = some a ↔ a.Heads header :=
  find?_all_eq_some_iff fun _ _ ha hb => (Heads.named ha).unique (Heads.named hb)

end Attribute

end GameShelf
