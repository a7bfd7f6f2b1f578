import GameShelf.Condition
import GameShelf.Proofs.Detection
import GameShelf.Proofs.Schema
import GameShelf.Proofs.Text

namespace GameShelf

namespace Attribute

theorem Named.not_blank {a : Attribute} {t : Text} (h : a.Named t) : ¬Text.Blank t := by
  obtain ⟨name, hname, hsame⟩ := h
  have hall : ∀ a ∈ all, ∀ name ∈ a.names, Text.sameLetters name [] = false := by decide +kernel
  intro hblank
  rw [Text.trim_eq_nil_iff.mpr hblank, hall a a.mem_all name hname] at hsame
  exact Bool.noConfusion hsame

/-- What stands in a name, apart from blanks around it, stands in one of the schema. -/
theorem Named.exists_letter {a : Attribute} {t : Text} (h : a.Named t) {c : Char} (hc : c ∈ t)
    (hblank : Text.isBlank c = false) : ∃ name ∈ a.names, c.toLower ∈ Text.asciiLower name := by
  obtain ⟨name, hname, hsame⟩ := h
  obtain ⟨l, r, hl, hr, ht⟩ := Text.exists_blank_trim t
  rw [ht, List.mem_append, List.mem_append] at hc
  rcases hc with (hc | hc) | hc
  · exact absurd (hl c hc) (by rw [hblank]; exact Bool.false_ne_true)
  · refine ⟨name, hname, ?_⟩
    rw [Text.sameLetters_iff.mp hsame]
    exact List.mem_map_of_mem hc
  · exact absurd (hr c hc) (by rw [hblank]; exact Bool.false_ne_true)

/-- No name holds a character that a token starts with. -/
theorem Named.not_mem_marks {a : Attribute} {t : Text} (h : a.Named t) {c : Char} (hc : c ∈ t) :
    c ∉ Operator.marks := by
  have hnames : ∀ a ∈ all, ∀ name ∈ a.names,
      (Text.asciiLower name).Forall (· ∉ Operator.marks) := by decide +kernel
  have hmarks : Operator.marks.Forall fun c => c.toLower = c ∧ Text.isBlank c = false := by decide
  intro hmark
  obtain ⟨hlower, hblank⟩ := List.forall_iff_forall_mem.mp hmarks c hmark
  obtain ⟨name, hname, hmem⟩ := h.exists_letter hc hblank
  rw [hlower] at hmem
  exact List.forall_iff_forall_mem.mp (hnames a a.mem_all name hname) c hmem hmark

end Attribute

namespace Condition

theorem normalize_normalize (k : Kind) (t : Text) :
    normalize k (normalize k t) = normalize k t := by
  cases k
  case text => exact Text.trim_trim t
  all_goals exact List.filter_eq_self.mpr fun c hc => (List.mem_filter.mp hc).2

/-- Making a condition from a normal value changes nothing about it. -/
theorem make_normalize (a : Attribute) (o : Operator) (t : Text) :
    make a o (normalize a.kind t) = make a o t := by
  rw [make, normalize_normalize]
  rfl

/-- A clause: the name of an attribute, an operator, and something of a value, where the operator
is not part of a longer one. -/
structure IsClause (clause name : Text) (a : Attribute) (o : Operator) (value : Text) : Prop where
  eq : clause = name ++ (o.token ++ value)
  named : a.Named name
  valued : normalize a.kind value ≠ []
  apart : ¬o.RunsInto value

/-- What is no clause, and why: of several reasons the first counts. -/
inductive Refused : Text → Fault → Prop where
  | empty {clause} : Text.Blank clause → Refused clause (.malformedClause clause .empty)
  | noOperator {clause} : ¬Text.Blank clause → (∀ o : Operator, ¬o.token <:+: clause) →
      Refused clause (.malformedClause clause .noOperator)
  | noAttribute {clause name o value} : Operator.Parts clause name o value → Text.Blank name →
      Refused clause (.malformedClause clause .noAttribute)
  | unknown {clause name o value} : Operator.Parts clause name o value → ¬Text.Blank name →
      (∀ a : Attribute, ¬a.Named name) → Refused clause (.unknownAttribute (Text.trim name))
  | noValue {clause name o value} {a : Attribute} : Operator.Parts clause name o value →
      a.Named name → normalize a.kind value = [] →
      Refused clause (.malformedClause clause .noValue)

theorem IsClause.parts {clause name value : Text} {a : Attribute} {o : Operator}
    (h : IsClause clause name a o value) : Operator.Parts clause name o value := by
  rw [h.eq]
  exact Operator.parts_of_noMarks (fun c hc => h.named.not_mem_marks hc) h.apart

/-- A clause can be taken apart in one way only. -/
theorem IsClause.unique {clause name value name' value' : Text} {a a' : Attribute}
    {o o' : Operator} (h : IsClause clause name a o value)
    (h' : IsClause clause name' a' o' value') :
    name = name' ∧ a = a' ∧ o = o' ∧ value = value' := by
  obtain ⟨rfl, rfl, rfl⟩ := h.parts.unique h'.parts
  exact ⟨rfl, h.named.unique h'.named, rfl, rfl⟩

/-- Every text is a clause or there is a reason why not. -/
theorem refused_or_isClause (clause : Text) :
    (∃ fault, Refused clause fault) ∨ ∃ name a o value, IsClause clause name a o value := by
  by_cases hblank : Text.Blank clause
  · exact .inl ⟨_, .empty hblank⟩
  cases hsplit : Operator.split? clause with
  | none => exact .inl ⟨_, .noOperator hblank (Operator.split?_eq_none_iff.mp hsplit)⟩
  | some parts =>
    obtain ⟨name, o, value⟩ := parts
    have hparts := Operator.split?_eq_some_iff.mp hsplit
    by_cases hname : Text.Blank name
    · exact .inl ⟨_, .noAttribute hparts hname⟩
    cases hnamed : Attribute.named? name with
    | none => exact .inl ⟨_, .unknown hparts hname (Attribute.named?_eq_none_iff.mp hnamed)⟩
    | some a =>
      have ha := Attribute.named?_eq_some_iff.mp hnamed
      by_cases hvalue : normalize a.kind value = []
      · exact .inl ⟨_, .noValue hparts ha hvalue⟩
      · exact .inr ⟨name, a, o, value, hparts.eq, ha, hvalue,
          Operator.longest_iff.mp hparts.longest⟩

theorem read_of_blank {clause : Text} (h : Text.Blank clause) :
    read clause = .error (.malformedClause clause .empty) := by
  rw [read, Text.trim_eq_nil_iff.mpr h]
  rfl

theorem read_of_not_blank {clause : Text} (h : ¬Text.Blank clause) :
    read clause = (splitClause clause).bind fun (name, o, value) =>
      (Attribute.resolve name).bind fun a =>
        if !a.isFilterable then .error (.unfilterable a)
        else if (normalize a.kind value).isEmpty then .error (.malformedClause clause .noValue)
        else .ok (make a o value) := by
  have hne : (Text.trim clause).isEmpty = false := by
    rwa [List.isEmpty_eq_false_iff, ne_eq, Text.trim_eq_nil_iff]
  rw [read, hne]
  simp only [make_normalize]
  rfl

theorem not_blank_of_parts {clause name value : Text} {o : Operator}
    (h : Operator.Parts clause name o value) : ¬Text.Blank clause := by
  have htokens : ∀ o ∈ Operator.all, o.token.Forall fun c => Text.isBlank c = false := by decide
  obtain ⟨c, hc⟩ := List.exists_mem_of_ne_nil _ o.token_ne_nil
  intro hblank
  have := hblank c (by rw [h.eq]; simp [hc])
  exact Bool.noConfusion
    (this.symm.trans (List.forall_iff_forall_mem.mp (htokens o o.mem_all) c hc))

theorem splitClause_of_parts {clause name value : Text} {o : Operator}
    (h : Operator.Parts clause name o value) :
    splitClause clause =
      if (Text.trim name).isEmpty then .error (.malformedClause clause .noAttribute)
      else .ok (name, o, value) := by
  rw [splitClause, Operator.split?_eq_some_iff.mpr h]

theorem read_of_parts {clause name value : Text} {o : Operator}
    (h : Operator.Parts clause name o value) (hname : ¬Text.Blank name) :
    read clause = (Attribute.resolve name).bind fun a =>
      if !a.isFilterable then .error (.unfilterable a)
      else if (normalize a.kind value).isEmpty then .error (.malformedClause clause .noValue)
      else .ok (make a o value) := by
  have hne : (Text.trim name).isEmpty = false := by
    rwa [List.isEmpty_eq_false_iff, ne_eq, Text.trim_eq_nil_iff]
  rw [read_of_not_blank (not_blank_of_parts h), splitClause_of_parts h, hne]
  rfl

/-- Behind the name of an attribute only the value can still be missing. -/
theorem read_of_named {clause name value : Text} {o : Operator} {a : Attribute}
    (h : Operator.Parts clause name o value) (ha : a.Named name) :
    read clause =
      if (normalize a.kind value).isEmpty then .error (.malformedClause clause .noValue)
      else .ok (make a o value) := by
  rw [read_of_parts h ha.not_blank, Attribute.resolve, Attribute.named?_eq_some_iff.mpr ha]
  simp only [Except.bind, a.filterable, Bool.not_true, Bool.false_eq_true, if_false]

theorem read_of_refused {clause : Text} {fault : Fault} (h : Refused clause fault) :
    read clause = .error fault := by
  cases h with
  | empty hblank => exact read_of_blank hblank
  | noOperator hblank hnone =>
    rw [read_of_not_blank hblank, splitClause, Operator.split?_eq_none_iff.mpr hnone]
    rfl
  | noAttribute hparts hname =>
    rw [read_of_not_blank (not_blank_of_parts hparts), splitClause_of_parts hparts,
      Text.trim_eq_nil_iff.mpr hname]
    rfl
  | unknown hparts hname hnone =>
    rw [read_of_parts hparts hname, Attribute.resolve, Attribute.named?_eq_none_iff.mpr hnone]
    rfl
  | noValue hparts hnamed hvalue =>
    rw [read_of_named hparts hnamed, hvalue]
    rfl

theorem read_of_isClause {clause name value : Text} {a : Attribute} {o : Operator}
    (h : IsClause clause name a o value) : read clause = .ok (make a o value) := by
  rw [read_of_named h.parts h.named, if_neg (by simpa using h.valued)]

theorem read_eq_ok_iff {clause : Text} {c : Condition} :
    read clause = .ok c ↔
      ∃ name a o value, IsClause clause name a o value ∧ c = make a o value := by
  constructor
  · intro h
    rcases refused_or_isClause clause with ⟨fault, hr⟩ | ⟨name, a, o, value, hc⟩
    · exact nomatch h.symm.trans (read_of_refused hr)
    · exact ⟨name, a, o, value, hc, Except.ok.inj (h.symm.trans (read_of_isClause hc))⟩
  · rintro ⟨name, a, o, value, hc, rfl⟩
    exact read_of_isClause hc

theorem read_eq_error_iff {clause : Text} {fault : Fault} :
    read clause = .error fault ↔ Refused clause fault := by
  refine ⟨fun h => ?_, read_of_refused⟩
  rcases refused_or_isClause clause with ⟨fault', hr⟩ | ⟨name, a, o, value, hc⟩
  · exact Except.error.inj (h.symm.trans (read_of_refused hr)) ▸ hr
  · exact nomatch h.symm.trans (read_of_isClause hc)

/-- A text reads as a condition if and only if it is a clause, and then as the one that is made of
the clause's parts, which are unique. All other texts are refused for the first reason there is. -/
theorem read_grammar (clause : Text) :
    (∀ c, read clause = .ok c ↔
      ∃ name a o value, IsClause clause name a o value ∧ c = make a o value) ∧
    (∀ name a o value name' a' o' value', IsClause clause name a o value →
      IsClause clause name' a' o' value' →
      name = name' ∧ a = a' ∧ o = o' ∧ value = value') ∧
    ∀ fault, read clause = .error fault ↔ Refused clause fault :=
  ⟨fun _ => read_eq_ok_iff, fun _ _ _ _ _ _ _ _ h h' => h.unique h', fun _ => read_eq_error_iff⟩

/-- An equals sign apart from its `>` belongs to the value. -/
theorem read_spaced_equals :
    IsClause " Average> = 8".toList " Average".toList .rating .greater " = 8".toList ∧
    read " Average> = 8".toList = .ok (make .rating .greater " = 8".toList) ∧
    ¬IsClause " Average> = 8".toList " Average".toList .rating .atLeast " 8".toList := by
  have h : IsClause " Average> = 8".toList " Average".toList .rating .greater " = 8".toList :=
    ⟨rfl, ⟨"average".toList, by decide, by decide⟩, by decide, by decide⟩
  obtain ⟨hread, hunique, -⟩ := read_grammar " Average> = 8".toList
  refine ⟨h, (hread _).mpr ⟨_, _, _, _, h, rfl⟩, fun h' => ?_⟩
  exact absurd (hunique _ _ _ _ _ _ _ _ h h').2.2.1 (by decide)

end Condition

end GameShelf
