import GameShelf.Operator
import Mathlib.Data.List.Infix

namespace GameShelf.Operator

/-- A text around its first operator: no token starts earlier, and none that starts with the
operator's is longer. -/
structure Parts (t before : Text) (o : Operator) (after : Text) : Prop where
  eq : t = before ++ (o.token ++ after)
  earliest : ∀ p q, before = p ++ q → q ≠ [] →
    ∀ o' : Operator, ¬o'.token <+: q ++ (o.token ++ after)
  longest : ∀ o' : Operator, o'.token <+: o.token ++ after → o'.token.length ≤ o.token.length

/-- Whether the text behind a token makes it part of a longer one. -/
def RunsInto (o : Operator) (after : Text) : Prop :=
  (o = greater ∨ o = less) ∧ after.head? = some '='

instance (o : Operator) (after : Text) : Decidable (o.RunsInto after) :=
  inferInstanceAs (Decidable (_ ∧ _))

/-- The characters that tokens start with. -/
def marks : List Char := ['=', '!', '>', '<', '~']

theorem mem_all (o : Operator) : o ∈ all := by
  cases o <;> decide

theorem token_ne_nil (o : Operator) : o.token ≠ [] := by
  cases o <;> decide

theorem token_head_mem_marks (o : Operator) {c : Char} {t : Text} (h : o.token <+: c :: t) :
    c ∈ marks := by
  have hall : ∀ o ∈ all, o.token.Forall (· ∈ marks) := by decide
  obtain ⟨d, rest, hd⟩ := List.exists_cons_of_ne_nil o.token_ne_nil
  rw [hd, List.cons_prefix_cons] at h
  exact h.1 ▸ List.forall_iff_forall_mem.mp (hall o o.mem_all) d (by simp [hd])

/-- One token starts another only as `>` starts `>=` and `<` starts `<=`. -/
theorem eq_of_token_prefix {o o' : Operator} (h : o.token <+: o'.token) :
    o = o' ∨ (o = greater ∧ o' = atLeast) ∨ (o = less ∧ o' = atMost) := by
  cases o <;> cases o' <;> revert h <;> decide

/-- A longer token than the one that a text starts with can start there only behind `>` or `<`. -/
theorem longest_iff {o : Operator} {after : Text} :
    (∀ o' : Operator, o'.token <+: o.token ++ after → o'.token.length ≤ o.token.length) ↔
      ¬o.RunsInto after := by
  constructor
  · rintro h ⟨ho, ha⟩
    obtain ⟨rest, rfl⟩ := List.head?_eq_some_iff.mp ha
    rcases ho with rfl | rfl
    · exact absurd (h atLeast ⟨rest, rfl⟩) (by decide)
    · exact absurd (h atMost ⟨rest, rfl⟩) (by decide)
  · intro h o' ho'
    by_contra hlen
    have hprefix := List.prefix_of_prefix_length_le (List.prefix_append o.token after) ho'
      (Nat.le_of_not_le hlen)
    rcases eq_of_token_prefix hprefix with rfl | ⟨rfl, rfl⟩ | ⟨rfl, rfl⟩
    · exact hlen (Nat.le_refl _)
    · obtain ⟨rest, hrest⟩ := ho'
      obtain rfl : '=' :: rest = after := (List.cons.inj hrest).2
      exact h ⟨.inl rfl, rfl⟩
    · obtain ⟨rest, hrest⟩ := ho'
      obtain rfl : '=' :: rest = after := (List.cons.inj hrest).2
      exact h ⟨.inr rfl, rfl⟩

theorem startOf?_eq_none_iff {t : Text} :
    startOf? t = none ↔ ∀ o : Operator, ¬o.token <+: t := by
  rw [startOf?, List.find?_eq_none]
  exact ⟨fun h o => by simpa using h o o.mem_all, fun h o _ => by simpa using h o⟩

theorem token_prefix_of_startOf? {t : Text} {o : Operator} (h : startOf? t = some o) :
    o.token <+: t := by
  rw [startOf?] at h
  have hp := List.find?_some h
  exact List.isPrefixOf_iff_prefix.mp hp

/-- Longer tokens are tried first. -/
theorem startOf?_longest {t : Text} {o o' : Operator} (h : startOf? t = some o)
    (h' : o'.token <+: t) : o'.token.length ≤ o.token.length := by
  by_contra hlen
  have hprefix := List.prefix_of_prefix_length_le (token_prefix_of_startOf? h) h'
    (Nat.le_of_not_le hlen)
  obtain ⟨rest, rfl⟩ := h'
  rcases eq_of_token_prefix hprefix with rfl | ⟨rfl, rfl⟩ | ⟨rfl, rfl⟩
  · exact hlen (Nat.le_refl _)
  · exact absurd (Option.some.inj (h : some atLeast = some greater)) (by decide)
  · exact absurd (Option.some.inj (h : some atMost = some less)) (by decide)

theorem startOf?_token_append {o : Operator} {after : Text} (h : ¬o.RunsInto after) :
    startOf? (o.token ++ after) = some o := by
  cases ho : startOf? (o.token ++ after) with
  | none => exact absurd (List.prefix_append _ _) (startOf?_eq_none_iff.mp ho o)
  | some o' =>
    have hle := startOf?_longest ho (List.prefix_append o.token after)
    have hprefix := token_prefix_of_startOf? ho
    have heq := (List.prefix_of_prefix_length_le (List.prefix_append _ after) hprefix hle)
    rcases eq_of_token_prefix heq with rfl | hlonger
    · rfl
    · -- both have the same length, so neither runs on into the other
      have := longest_iff.mpr h o' hprefix
      rcases hlonger with ⟨rfl, rfl⟩ | ⟨rfl, rfl⟩ <;> exact absurd this (by decide)

/-- Where a token starts at the front of a text, nothing stands before the first operator. -/
theorem parts_iff_of_startOf? {t before after : Text} {o o' : Operator}
    (hs : startOf? t = some o') :
    Parts t before o after ↔ before = [] ∧ o = o' ∧ t = o.token ++ after := by
  constructor
  · intro h
    have hbefore : before = [] := by
      by_contra hne
      exact h.earliest [] before rfl hne o' (h.eq ▸ token_prefix_of_startOf? hs)
    subst hbefore
    have ht : t = o.token ++ after := h.eq
    rw [ht, startOf?_token_append (longest_iff.mp h.longest)] at hs
    exact ⟨rfl, Option.some.inj hs, ht⟩
  · rintro ⟨rfl, rfl, rfl⟩
    refine ⟨rfl, fun p q hpq hq => ?_, fun o' ho' => startOf?_longest hs ho'⟩
    exact absurd (List.append_eq_nil_iff.mp hpq.symm).2 hq

/-- Where none does, the first operator is that of the rest. -/
theorem parts_cons_iff {c : Char} {t before after : Text} {o : Operator}
    (hs : startOf? (c :: t) = none) :
    Parts (c :: t) before o after ↔ ∃ b, before = c :: b ∧ Parts t b o after := by
  have hnone := startOf?_eq_none_iff.mp hs
  constructor
  · intro h
    cases before with
    | nil => exact absurd (h.eq ▸ List.prefix_append _ _) (hnone o)
    | cons d before =>
      obtain ⟨rfl, ht⟩ := List.cons.inj h.eq
      exact ⟨before, rfl, ht, fun p q hpq => h.earliest (c :: p) q (congrArg (c :: ·) hpq),
        h.longest⟩
  · rintro ⟨b, rfl, h⟩
    refine ⟨congrArg (c :: ·) h.eq, fun p q hpq hq => ?_, h.longest⟩
    cases p with
    | nil =>
      obtain rfl : c :: b = q := hpq
      rw [List.cons_append, ← h.eq]
      exact hnone
    | cons d p => exact h.earliest p q (List.cons.inj hpq).2 hq

/-- A text is split around its first operator. -/
theorem split?_eq_some_iff {t before after : Text} {o : Operator} :
    split? t = some (before, o, after) ↔ Parts t before o after := by
  induction t generalizing before with
  | nil =>
    refine ⟨fun h => (nomatch h), fun h => ?_⟩
    have ho := (List.append_eq_nil_iff.mp (List.append_eq_nil_iff.mp h.eq.symm).2).1
    exact absurd ho o.token_ne_nil
  | cons c t ih =>
    rw [split?]
    cases hs : startOf? (c :: t) with
    | some o' =>
      obtain ⟨rest, hrest⟩ := token_prefix_of_startOf? hs
      rw [parts_iff_of_startOf? hs, ← hrest]
      simp only [List.drop_left]
      constructor
      · rintro ⟨⟩
        exact ⟨rfl, rfl, rfl⟩
      · rintro ⟨rfl, rfl, h⟩
        rw [List.append_cancel_left h]
    | none =>
      simp only [parts_cons_iff hs, ← ih, Option.map_eq_some_iff]
      constructor
      · rintro ⟨⟨b, o', a⟩, h, ⟨⟩⟩
        exact ⟨b, rfl, h⟩
      · rintro ⟨b, rfl, h⟩
        exact ⟨(b, o, after), h, rfl⟩

theorem split?_eq_none_iff {t : Text} : split? t = none ↔ ∀ o : Operator, ¬o.token <:+: t := by
  induction t with
  | nil => simp [split?, token_ne_nil]
  | cons c t ih =>
    simp only [List.infix_cons_iff, not_or, forall_and, ← startOf?_eq_none_iff, ← ih]
    rw [split?]
    cases startOf? (c :: t) <;> simp

theorem Parts.unique {t x y v w : Text} {o o' : Operator} (h : Parts t x o v)
    (h' : Parts t y o' w) : x = y ∧ o = o' ∧ v = w := by
  simpa using (split?_eq_some_iff.mpr h).symm.trans (split?_eq_some_iff.mpr h')

/-- A token behind a text without marks is the first, unless it runs into what follows. -/
theorem parts_of_noMarks {before after : Text} {o : Operator} (h : ∀ c ∈ before, c ∉ marks)
    (hruns : ¬o.RunsInto after) : Parts (before ++ (o.token ++ after)) before o after := by
  refine ⟨rfl, ?_, longest_iff.mpr hruns⟩
  rintro p q rfl hq o' ho'
  obtain ⟨c, q, rfl⟩ := List.exists_cons_of_ne_nil hq
  exact h c (by simp) (o'.token_head_mem_marks ho')

end GameShelf.Operator
