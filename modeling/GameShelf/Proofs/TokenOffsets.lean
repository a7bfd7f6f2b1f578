import GameShelf.Proofs.ClauseGrammar
import GameShelf.Proofs.Except
import GameShelf.Proofs.Utf8

namespace GameShelf

open Text.Utf8 (Boundary append_inj_of_size_eq encode encode_prefix_drop_iff
  eq_nil_of_size_eq_zero exists_append_of_size_le size size_append)

namespace Operator

/-- The bytes of the token stand in those of the text, behind the first `n`. -/
def OccursAt (o : Operator) (t : Text) (n : Nat) : Prop := encode o.token <+: (encode t).drop n

/-- No token occurs at a lower offset than the operator's, and none there is longer. -/
structure FirstAt (t : Text) (o : Operator) (n : Nat) : Prop where
  occurs : o.OccursAt t n
  earliest : ∀ (o' : Operator) (m : Nat), o'.OccursAt t m → n ≤ m
  longest : ∀ o' : Operator, o'.OccursAt t n → size o'.token ≤ size o.token

theorem size_token (o : Operator) : size o.token = o.token.length := by
  cases o <;> decide

theorem occursAt_iff {o : Operator} {t : Text} {n : Nat} :
    o.OccursAt t n ↔ ∃ a b, t = a ++ (o.token ++ b) ∧ size a = n :=
  encode_prefix_drop_iff o.token_ne_nil

/-- No token occurs before the end of a text that none starts in. -/
theorem le_of_occursAt {before rest : Text} {o : Operator} {n : Nat}
    (hnone : ∀ p q, before = p ++ q → q ≠ [] → ∀ o' : Operator, ¬o'.token <+: q ++ rest)
    (h : o.OccursAt (before ++ rest) n) : size before ≤ n := by
  obtain ⟨a, b, ht, rfl⟩ := occursAt_iff.mp h
  by_contra hlt
  -- the token starts with what is left of the text there, and may end behind it
  obtain ⟨q, rfl, hb⟩ := exists_append_of_size_le ht.symm (Nat.le_of_not_le hlt)
  have hq : q ≠ [] := by
    rintro rfl
    rw [List.append_nil] at hlt
    exact hlt (Nat.le_refl _)
  exact hnone a q rfl hq o ⟨b, hb⟩

/-- At the end of a text, what occurs is what the rest starts with. -/
theorem prefix_of_occursAt {before rest : Text} {o : Operator}
    (h : o.OccursAt (before ++ rest) (size before)) : o.token <+: rest := by
  obtain ⟨a, b, ht, ha⟩ := occursAt_iff.mp h
  obtain ⟨-, rfl⟩ := append_inj_of_size_eq ht ha.symm
  exact List.prefix_append o.token b

theorem Parts.firstAt {t before after : Text} {o : Operator} (h : Parts t before o after) :
    FirstAt t o (size before) := by
  obtain rfl := h.eq
  refine ⟨occursAt_iff.mpr ⟨before, after, rfl, rfl⟩, ?_, ?_⟩
  · intro o' m ho'
    exact le_of_occursAt h.earliest ho'
  · intro o' ho'
    rw [size_token, size_token]
    exact h.longest o' (prefix_of_occursAt ho')

/-- A text is parted at an operator if no token occurs before it and it does not run into what
follows. -/
theorem parts_iff {t before after : Text} {o : Operator} :
    Parts t before o after ↔
      t = before ++ (o.token ++ after) ∧
      (∀ (o' : Operator) (n : Nat), n < size before → ¬o'.OccursAt t n) ∧ ¬o.RunsInto after := by
  constructor
  · intro h
    refine ⟨h.eq, fun o' n hn ho' => ?_, longest_iff.mp h.longest⟩
    exact absurd (h.firstAt.earliest o' n ho') (Nat.not_le_of_lt hn)
  · rintro ⟨rfl, hnone, hruns⟩
    refine ⟨rfl, ?_, longest_iff.mpr hruns⟩
    rintro p q rfl hq o' ⟨b, hb⟩
    -- a token that starts within the first part has an offset of its own there
    have hlt : size p < size (p ++ q) := by
      rw [size_append]
      have := mt eq_nil_of_size_eq_zero hq
      omega
    refine hnone o' (size p) hlt (occursAt_iff.mpr ⟨p, b, ?_, rfl⟩)
    rw [List.append_assoc, hb]

/-- An operator is the first just where a text can be parted at it. -/
theorem firstAt_iff {t : Text} {o : Operator} {n : Nat} :
    FirstAt t o n ↔ ∃ before after, Parts t before o after ∧ size before = n := by
  constructor
  · intro h
    obtain ⟨before, after, rfl, rfl⟩ := occursAt_iff.mp h.occurs
    refine ⟨before, after, parts_iff.mpr ⟨rfl, fun o' m hm ho' => ?_, longest_iff.mp ?_⟩, rfl⟩
    · exact absurd (h.earliest o' m ho') (Nat.not_le_of_lt hm)
    · rintro o' ⟨rest, hrest⟩
      rw [← size_token, ← size_token]
      exact h.longest o' (occursAt_iff.mpr ⟨before, rest, by rw [hrest], rfl⟩)
  · rintro ⟨before, after, h, rfl⟩
    exact h.firstAt

theorem FirstAt.parts {before rest : Text} {o : Operator}
    (h : FirstAt (before ++ rest) o (size before)) :
    ∃ after, Parts (before ++ rest) before o after := by
  obtain ⟨before', after, hparts, hsize⟩ := firstAt_iff.mp h
  obtain ⟨rfl, -⟩ := append_inj_of_size_eq hparts.eq hsize.symm
  exact ⟨after, hparts⟩

theorem detect?_eq_some_iff {t : Text} {o : Operator} {n : Nat} :
    detect? t = some (o, n) ↔ FirstAt t o n := by
  rw [detect?, Option.map_eq_some_iff, firstAt_iff]
  constructor
  · rintro ⟨⟨before, o', after⟩, hsplit, ⟨⟩⟩
    exact ⟨before, after, split?_eq_some_iff.mp hsplit, rfl⟩
  · rintro ⟨before, after, hparts, rfl⟩
    exact ⟨(before, o, after), split?_eq_some_iff.mpr hparts, rfl⟩

theorem Parts.contains_token {t before after : Text} {o : Operator} (h : Parts t before o after) :
    o.token <:+: t :=
  ⟨before, after, (List.append_assoc ..).trans h.eq.symm⟩

theorem infix_iff_exists_occursAt {o : Operator} {t : Text} :
    o.token <:+: t ↔ ∃ n, o.OccursAt t n := by
  constructor
  · rintro ⟨a, b, rfl⟩
    exact ⟨size a, occursAt_iff.mpr ⟨a, b, List.append_assoc .., rfl⟩⟩
  · rintro ⟨n, h⟩
    obtain ⟨a, b, rfl, -⟩ := occursAt_iff.mp h
    exact ⟨a, b, List.append_assoc ..⟩

theorem detect?_eq_none_iff {t : Text} :
    detect? t = none ↔ ∀ (o : Operator) (n : Nat), ¬o.OccursAt t n := by
  rw [detect?, Option.map_eq_none_iff, split?_eq_none_iff]
  simp only [infix_iff_exists_occursAt, not_exists]

/-- A token occurs between characters only. -/
theorem OccursAt.boundary {o : Operator} {t : Text} {n : Nat} (h : o.OccursAt t n) :
    Boundary t n ∧ Boundary t (n + size o.token) := by
  obtain ⟨a, b, rfl, rfl⟩ := occursAt_iff.mp h
  exact ⟨⟨a, _, rfl, rfl⟩, a ++ o.token, b, (List.append_assoc ..).symm, size_append a o.token⟩

end Operator

namespace Condition

open Operator (FirstAt OccursAt Parts)

/-- A clause without a token is refused; any other has its parts, and counts unless the first of
them is blank. -/
theorem splitClause_cases (clause : Text) :
    ((∀ o : Operator, ¬o.token <:+: clause) ∧
      splitClause clause = .error (.malformedClause clause .noOperator)) ∨
    ∃ name o value, Parts clause name o value ∧
      splitClause clause =
        if Text.Blank name then .error (.malformedClause clause .noAttribute)
        else .ok (name, o, value) := by
  cases hsplit : Operator.split? clause with
  | none =>
    refine .inl ⟨Operator.split?_eq_none_iff.mp hsplit, ?_⟩
    rw [splitClause, hsplit]
  | some parts =>
    obtain ⟨name, o, value⟩ := parts
    have hparts := Operator.split?_eq_some_iff.mp hsplit
    refine .inr ⟨name, o, value, hparts, ?_⟩
    rw [splitClause_of_parts hparts]
    simp only [List.isEmpty_iff, Text.trim_eq_nil_iff]

theorem splitClause_eq_ok_iff {clause name value : Text} {o : Operator} :
    splitClause clause = .ok (name, o, value) ↔
      Parts clause name o value ∧ ¬Text.Blank name := by
  rcases splitClause_cases clause with ⟨hnone, h⟩ | ⟨name', o', value', hparts, h⟩
  · rw [h]
    exact ⟨fun h => (nomatch h), fun h => absurd h.1.contains_token (hnone o)⟩
  · rw [h, ite_error_eq_ok_iff]
    constructor
    · rintro ⟨hname, ⟨⟩⟩
      exact ⟨hparts, hname⟩
    · rintro ⟨h, hname⟩
      obtain ⟨rfl, rfl, rfl⟩ := hparts.unique h
      exact ⟨hname, rfl⟩

theorem splitClause_eq_error_iff {clause : Text} {fault : Fault} :
    splitClause clause = .error fault ↔
      (fault = .malformedClause clause .noOperator ∧ ∀ o : Operator, ¬o.token <:+: clause) ∨
      (fault = .malformedClause clause .noAttribute ∧
        ∃ name o value, Parts clause name o value ∧ Text.Blank name) := by
  rcases splitClause_cases clause with ⟨hnone, h⟩ | ⟨name, o, value, hparts, h⟩
  · rw [h]
    constructor
    · rintro ⟨⟩
      exact .inl ⟨rfl, hnone⟩
    · rintro (⟨rfl, -⟩ | ⟨-, name, o, value, hparts, -⟩)
      · rfl
      · exact absurd hparts.contains_token (hnone o)
  · rw [h]
    split
    next hname =>
      constructor
      · rintro ⟨⟩
        exact .inr ⟨rfl, name, o, value, hparts, hname⟩
      · rintro (⟨-, hnone⟩ | ⟨rfl, -⟩)
        · exact absurd hparts.contains_token (hnone o)
        · rfl
    next hname =>
      refine ⟨fun h => (nomatch h), ?_⟩
      rintro (⟨-, hnone⟩ | ⟨-, name', o', value', hparts', hname'⟩)
      · exact absurd hparts.contains_token (hnone o)
      · obtain ⟨rfl, -⟩ := hparts.unique hparts'
        exact absurd hname' hname

/-- What is detected in a text is the longest token at the least offset in bytes at which any token
occurs, and nothing is detected just where none does; the token starts and ends between characters.
A clause is divided there. Put together its parts are the clause, no token starts in the first one,
which is not blank, and the last does not make the token a longer one. A clause is refused just
where it has no token or nothing but blanks before the first. -/
theorem split_at_first_token (t : Text) :
    (∀ o n, Operator.detect? t = some (o, n) ↔ FirstAt t o n) ∧
    (Operator.detect? t = none ↔ ∀ (o : Operator) (n : Nat), ¬o.OccursAt t n) ∧
    (∀ o n, Operator.detect? t = some (o, n) →
      Boundary t n ∧ Boundary t (n + size o.token)) ∧
    (∀ name o value, splitClause t = .ok (name, o, value) ↔
      t = name ++ (o.token ++ value) ∧
      (∀ (o' : Operator) (n : Nat), n < size name → ¬o'.OccursAt t n) ∧
      ¬Text.Blank name ∧ ¬((o = .greater ∨ o = .less) ∧ value.head? = some '=')) ∧
    (∀ fault, splitClause t = .error fault ↔
      (fault = .malformedClause t .noOperator ∧ ∀ (o : Operator) (n : Nat), ¬o.OccursAt t n) ∨
      (fault = .malformedClause t .noAttribute ∧
        ∃ before o after, t = before ++ after ∧ FirstAt t o (size before) ∧
          Text.Blank before)) := by
  refine ⟨fun _ _ => Operator.detect?_eq_some_iff, Operator.detect?_eq_none_iff, ?_, ?_, ?_⟩
  · intro o n h
    exact (Operator.detect?_eq_some_iff.mp h).occurs.boundary
  · intro name o value
    rw [splitClause_eq_ok_iff, Operator.parts_iff]
    constructor
    · rintro ⟨⟨ht, hnone, hruns⟩, hname⟩
      exact ⟨ht, hnone, hname, hruns⟩
    · rintro ⟨ht, hnone, hname, hruns⟩
      exact ⟨⟨ht, hnone, hruns⟩, hname⟩
  · intro fault
    simp only [splitClause_eq_error_iff, Operator.infix_iff_exists_occursAt, not_exists]
    refine or_congr_right (and_congr_right fun _ => ⟨?_, ?_⟩)
    · rintro ⟨name, o, value, hparts, hname⟩
      exact ⟨name, o, _, hparts.eq, hparts.firstAt, hname⟩
    · rintro ⟨before, o, rest, rfl, hfirst, hbefore⟩
      obtain ⟨after, hparts⟩ := hfirst.parts
      exact ⟨before, o, after, hparts, hbefore⟩

/-- Marks that overlap behind a character of two bytes. -/
theorem split_overlapping_marks :
    Operator.detect? "ß>==8".toList = some (.atLeast, 2) ∧
    Boundary "ß>==8".toList 2 ∧ Boundary "ß>==8".toList 4 ∧
    splitClause "ß>==8".toList = .ok ("ß".toList, .atLeast, "=8".toList) ∧
    1 < size "ß".toList ∧ ¬Operator.OccursAt .equal "ß>==8".toList 1 := by
  have hdetect : Operator.detect? "ß>==8".toList = some (.atLeast, 2) := by decide
  have hsplit : splitClause "ß>==8".toList = .ok ("ß".toList, .atLeast, "=8".toList) := rfl
  have hinside : 1 < size "ß".toList := by decide
  obtain ⟨-, -, hboundary, hparts, -⟩ := split_at_first_token "ß>==8".toList
  obtain ⟨hstart, hend⟩ := hboundary _ _ hdetect
  obtain ⟨-, hnone, -⟩ := (hparts _ _ _).mp hsplit
  exact ⟨hdetect, hstart, hend, hsplit, hinside, hnone .equal 1 hinside⟩

end Condition

end GameShelf
