import GameShelf.Proofs.ClauseGrammar
import GameShelf.Proofs.FilterText

namespace GameShelf

theorem Attribute.label_chars (a : Attribute) {c : Char} (hc : c ∈ a.label) :
    Text.isBlank c = false ∧ c ≠ ',' ∧ c ≠ ':' := by
  have hall : ∀ a ∈ all, a.label.Forall fun c => Text.isBlank c = false ∧ c ≠ ',' ∧ c ≠ ':' := by
    decide
  exact List.forall_iff_forall_mem.mp (hall a a.mem_all) c hc

theorem Attribute.trim_label (a : Attribute) : Text.trim a.label = a.label :=
  Text.trim_eq_self fun _ hc => (a.label_chars hc).1

theorem Attribute.label_ne_nil (a : Attribute) : a.label ≠ [] := by
  cases a <;> decide

theorem Operator.comma_not_mem_token (o : Operator) : ',' ∉ o.token := by
  cases o <;> decide

theorem Text.Blank.comma_not_mem {t : Text} (h : Blank t) : ',' ∉ t := h.not_mem (by decide)

namespace Condition

/-- A condition with a value that can stand in a filter text. -/
structure Writable (c : Condition) : Prop where
  made : ∃ t, c = make c.field c.operator t
  valued : c.value ≠ []
  noComma : ',' ∉ c.value

theorem trim_normalize (k : Kind) (t : Text) : Text.trim (normalize k t) = normalize k t := by
  cases k
  case text => exact Text.trim_trim t
  all_goals
    refine Text.trim_eq_self fun c hc => ?_
    simpa using (List.mem_filter.mp hc).2

variable {c : Condition}

theorem Writable.value_eq (hc : c.Writable) : ∃ t, c.value = normalize c.field.kind t := by
  obtain ⟨t, ht⟩ := hc.made
  exact ⟨t, congrArg Condition.value ht⟩

theorem Writable.make_value (hc : c.Writable) : make c.field c.operator c.value = c := by
  obtain ⟨t, ht⟩ := hc.made
  rw [ht]
  exact make_normalize _ _ _

theorem Writable.trim_text (hc : c.Writable) : Text.trim c.text = c.text := by
  obtain ⟨t, ht⟩ := hc.value_eq
  exact Text.trim_append_append c.field.trim_label c.field.label_ne_nil
    (by rw [ht, trim_normalize]) hc.valued _

theorem Writable.comma_not_mem_text (hc : c.Writable) : ',' ∉ c.text := by
  rw [text, List.mem_append, List.mem_append]
  rintro ((h | h) | h)
  · exact (c.field.label_chars h).2.1 rfl
  · exact c.operator.comma_not_mem_token h
  · exact hc.noComma h

theorem label_not_mem_marks (a : Attribute) : ∀ c ∈ a.label, c ∉ Operator.marks :=
  fun _ => a.named_label.not_mem_marks

/-- A condition's own text is a clause with its parts, unless its operator reads as another. -/
theorem Writable.isClause_text (hc : c.Writable) (h : ¬c.operator.RunsInto c.value) :
    IsClause c.text c.field.label c.field c.operator c.value := by
  obtain ⟨t, ht⟩ := hc.value_eq
  refine ⟨List.append_assoc .., c.field.named_label, ?_, h⟩
  rw [ht, normalize_normalize, ← ht]
  exact hc.valued

/-- The operator that is read where `>` or `<` stands before an equals sign. -/
theorem exists_parts_of_runsInto (h : c.operator.RunsInto c.value) :
    ∃ o rest, o ≠ c.operator ∧ Operator.Parts c.text c.field.label o rest := by
  obtain ⟨ho, hv⟩ := h
  obtain ⟨rest, hrest⟩ := List.head?_eq_some_iff.mp hv
  have hparts (o : Operator) (hlonger : c.operator.token ++ ['='] = o.token)
      (hruns : ¬o.RunsInto rest) : Operator.Parts c.text c.field.label o rest := by
    have htext : c.text = c.field.label ++ (o.token ++ rest) := by
      rw [text, hrest, ← hlonger, List.append_assoc, List.append_assoc]
      rfl
    rw [htext]
    exact Operator.parts_of_noMarks (label_not_mem_marks _) hruns
  rcases ho with ho | ho
  · refine ⟨.atLeast, rest, by rw [ho]; decide, hparts _ (by rw [ho]; rfl) ?_⟩
    simp [Operator.RunsInto]
  · refine ⟨.atMost, rest, by rw [ho]; decide, hparts _ (by rw [ho]; rfl) ?_⟩
    simp [Operator.RunsInto]

theorem Writable.read_text_iff (hc : c.Writable) :
    read c.text = .ok c ↔ ¬c.operator.RunsInto c.value := by
  constructor
  · intro hread hruns
    obtain ⟨name, a, o, value, hclause, hmade⟩ := read_eq_ok_iff.mp hread
    obtain ⟨o', rest, hne, hparts⟩ := exists_parts_of_runsInto hruns
    have ho : c.operator = o := congrArg Condition.operator hmade
    exact hne ((hparts.unique hclause.parts).2.1.trans ho.symm)
  · intro h
    rw [read_of_isClause (hc.isClause_text h), hc.make_value]

end Condition

theorem Direction.label_chars (d : Direction) {c : Char} (hc : c ∈ d.label) :
    Text.isBlank c = false ∧ c ≠ ',' := by
  have hall : ∀ d : Direction, d.label.Forall fun c => Text.isBlank c = false ∧ c ≠ ',' := by
    intro d
    cases d <;> decide
  exact List.forall_iff_forall_mem.mp (hall d) c hc

namespace SortKey

theorem text_chars (key : SortKey) {c : Char} (hc : c ∈ key.text) :
    Text.isBlank c = false ∧ c ≠ ',' := by
  rw [text, List.mem_append, List.mem_cons] at hc
  rcases hc with hc | rfl | hc
  · exact ⟨(key.field.label_chars hc).1, (key.field.label_chars hc).2.1⟩
  · decide
  · exact key.direction.label_chars hc

end SortKey

theorem Direction.read_label (d : Direction) : read d.label = .ok d := by
  cases d <;> rfl

/-- A colon parts the name of an attribute from a direction. -/
theorem SortKey.read_append {name : Text} (h : ':' ∉ name) (d : Direction) :
    read (name ++ ':' :: d.label) = (Attribute.resolve name).bind fun field => make field d := by
  have hcolon : ∀ c ∈ name, (c == ':') = false := fun c hc =>
    beq_false_of_ne (ne_of_mem_of_not_mem hc h)
  rw [read, Text.splitFirst_append hcolon (by rfl)]
  simp only [d.read_label, bind, Except.bind]

theorem SortKey.read_text (key : SortKey) : read key.text = .ok key := by
  have hname : Attribute.resolve key.field.label = .ok key.field := by
    rw [Attribute.resolve, Attribute.named?_eq_some_iff.mpr key.field.named_label]
  rw [text, read_append fun hc => (key.field.label_chars hc).2.2 rfl, hname]
  exact dif_pos key.sortable

theorem SortKey.readOrByName_text (key : SortKey) : readOrByName key.text = key := by
  rw [readOrByName, key.read_text]

namespace Clause

theorem sortRequest?_condition (c : Condition) : sortRequest? c.text = none := by
  rw [Condition.text, sortRequest?]
  cases c.field <;> rfl

/-- The text of a sort clause. -/
def sortText (key : SortKey) : Text := "sort:".toList ++ key.text

theorem sortText_chars (key : SortKey) {c : Char} (hc : c ∈ sortText key) :
    Text.isBlank c = false ∧ c ≠ ',' := by
  have hopening : "sort:".toList.Forall fun c => Text.isBlank c = false ∧ c ≠ ',' := by decide
  rcases List.mem_append.mp hc with hc | hc
  · exact List.forall_iff_forall_mem.mp hopening c hc
  · exact key.text_chars hc

theorem comma_not_mem_sortText (key : SortKey) : ',' ∉ sortText key :=
  fun hc => (sortText_chars key hc).2 rfl

theorem trim_sortText (key : SortKey) : Text.trim (sortText key) = sortText key :=
  Text.trim_eq_self fun _ hc => (sortText_chars key hc).1

theorem sortRequest?_sortText (key : SortKey) : sortRequest? (sortText key) = some key.text := rfl

end Clause

namespace Query

/-- The pieces of a filter text in which conditions are written out in their order, and a sort
clause at any place among them, with blanks around all of these and blank pieces in between. -/
inductive Spells : List Condition → Option SortKey → List Text → Prop where
  | nil : Spells [] none []
  | blank {cs key? pieces piece} : Text.Blank piece → Spells cs key? pieces →
      Spells cs key? (piece :: pieces)
  | condition {cs key? pieces l r} {c : Condition} : Text.Blank l → Text.Blank r →
      Spells cs key? pieces → Spells (c :: cs) key? ((l ++ c.text ++ r) :: pieces)
  | sort {cs pieces l r} {key : SortKey} : Text.Blank l → Text.Blank r → Spells cs none pieces →
      Spells cs (some key) ((l ++ Clause.sortText key ++ r) :: pieces)

/-- What is read where a condition was written. -/
def reread? (c : Condition) : Option Condition := (Condition.read c.text).toOption

theorem reread?_eq_some_iff {c : Condition} (hc : c.Writable) :
    reread? c = some c ↔ ¬c.operator.RunsInto c.value := by
  rw [← hc.read_text_iff, reread?]
  cases Condition.read c.text <;> simp [Except.toOption]

variable {cs : List Condition} {key? : Option SortKey} {pieces : List Text}

theorem Spells.comma_not_mem (h : Spells cs key? pieces) (hcs : ∀ c ∈ cs, c.Writable) :
    ∀ piece ∈ pieces, ',' ∉ piece := by
  have hpadded {l t r : Text} (hl : Text.Blank l) (ht : ',' ∉ t) (hr : Text.Blank r) :
      ',' ∉ l ++ t ++ r := by
    simp [hl.comma_not_mem, ht, hr.comma_not_mem]
  induction h with
  | nil => exact fun _ hp => nomatch hp
  | blank hp _ ih => exact List.forall_mem_cons.mpr ⟨hp.comma_not_mem, ih hcs⟩
  | condition hl hr _ ih =>
    rw [List.forall_mem_cons] at hcs
    exact List.forall_mem_cons.mpr ⟨hpadded hl hcs.1.comma_not_mem_text hr, ih hcs.2⟩
  | sort hl hr _ ih =>
    exact List.forall_mem_cons.mpr ⟨hpadded hl (Clause.comma_not_mem_sortText _) hr, ih hcs⟩

theorem Spells.filterMap_condition? (h : Spells cs key? pieces) (hcs : ∀ c ∈ cs, c.Writable) :
    pieces.filterMap (fun piece => (Clause.read? piece).bind Clause.condition?) =
      cs.filterMap reread? := by
  induction h with
  | nil => rfl
  | blank hp _ ih =>
    rw [List.filterMap_cons, Clause.read?, Text.trim_eq_nil_iff.mpr hp]
    exact ih hcs
  | condition hl hr _ ih =>
    rw [List.forall_mem_cons] at hcs
    rw [List.filterMap_cons, List.filterMap_cons, ih hcs.2, Clause.bind_condition?_read?,
      Text.trim_padded hl hr, hcs.1.trim_text, Clause.sortRequest?_condition]
    rfl
  | sort hl hr _ ih =>
    rw [List.filterMap_cons, ih hcs, Clause.bind_condition?_read?, Text.trim_padded hl hr,
      Clause.trim_sortText, Clause.sortRequest?_sortText]
    rfl

theorem Spells.filterMap_sortRequest? (h : Spells cs key? pieces)
    (hcs : ∀ c ∈ cs, c.Writable) :
    pieces.filterMap (fun piece => Clause.sortRequest? (Text.trim piece)) =
      key?.toList.map SortKey.text := by
  induction h with
  | nil => rfl
  | blank hp _ ih =>
    rw [List.filterMap_cons, Text.trim_eq_nil_iff.mpr hp]
    exact ih hcs
  | condition hl hr _ ih =>
    rw [List.forall_mem_cons] at hcs
    rw [List.filterMap_cons, Text.trim_padded hl hr, hcs.1.trim_text,
      Clause.sortRequest?_condition]
    exact ih hcs.2
  | sort hl hr _ ih =>
    rw [List.filterMap_cons, ih hcs, Text.trim_padded hl hr, Clause.trim_sortText,
      Clause.sortRequest?_sortText]
    rfl

/-- The text of a query reads as what its conditions read as, under its own key. -/
theorem Spells.read_eq (h : Spells cs key? pieces) (hcs : ∀ c ∈ cs, c.Writable) :
    read ([','].intercalate pieces) = ⟨cs.filterMap reread?, key?⟩ := by
  by_cases hne : pieces = []
  · subst hne
    cases h
    rfl
  have hsplit : Text.splitOn ',' ([','].intercalate pieces) = pieces := by
    rw [Text.splitOn_eq_splitOn, List.splitOn_intercalate _ (h.comma_not_mem hcs) hne]
  have hsort : (read ([','].intercalate pieces)).sort? = key? := by
    rw [read_sort?, Clause.sortRequests, hsplit, h.filterMap_sortRequest? hcs]
    cases key? with
    | none => rfl
    | some key => exact congrArg some key.readOrByName_text
  have hconditions : (read ([','].intercalate pieces)).conditions = cs.filterMap reread? := by
    rw [← h.filterMap_condition? hcs, read, Clause.readAll, hsplit, List.filterMap_filterMap]
  rw [← hsort, ← hconditions]

theorem filterMap_eq_self_iff {A : Type} {f : A → Option A} {l : List A} :
    l.filterMap f = l ↔ ∀ a ∈ l, f a = some a := by
  induction l with
  | nil => simp
  | cons a l ih =>
    rw [List.filterMap_cons, List.forall_mem_cons]
    cases h : f a with
    | none =>
      -- something is lost for good
      refine ⟨fun heq => ?_, fun hall => nomatch hall.1⟩
      have hlen := List.length_filterMap_le f l
      rw [show l.filterMap f = a :: l from heq] at hlen
      exact absurd hlen (Nat.not_succ_le_self _)
    | some b => rw [List.cons.injEq, ih, Option.some.injEq]

/-- What is written out is read back, unless an operator runs into the value behind it. -/
theorem read_spelled_iff (hcs : ∀ c ∈ cs, c.Writable) (h : Spells cs key? pieces) :
    read ([','].intercalate pieces) = ⟨cs, key?⟩ ↔
      ∀ c ∈ cs, ¬c.operator.RunsInto c.value := by
  rw [h.read_eq hcs, Query.mk.injEq, filterMap_eq_self_iff]
  constructor
  · rintro ⟨hall, -⟩ c hc
    exact (reread?_eq_some_iff (hcs c hc)).mp (hall c hc)
  · intro hall
    exact ⟨fun c hc => (reread?_eq_some_iff (hcs c hc)).mpr (hall c hc), rfl⟩

/-- Operators within a value, and blanks within a number. -/
def partyConditions : List Condition :=
  [.make .name .contains "a>=b".toList, .make .rating .atLeast "7 . 5".toList]

/-- A value behind `>` that starts with an equals sign. -/
def mergedConditions : List Condition := [.make .name .greater "=b".toList]

theorem read_partyConditions :
    (∀ c ∈ partyConditions, c.Writable) ∧
    read " name~=a>=b ,,sort:rating:desc,rating>=7.5".toList =
      ⟨partyConditions, some ⟨.rating, .descending, rfl⟩⟩ ∧
    (∀ c ∈ mergedConditions, c.Writable) ∧
    read "name>=b".toList ≠ ⟨mergedConditions, none⟩ := by
  have hparty : ∀ c ∈ partyConditions, c.Writable := by
    simp only [partyConditions, List.forall_mem_cons]
    exact ⟨⟨⟨_, rfl⟩, by decide, by decide⟩, ⟨⟨_, rfl⟩, by decide, by decide⟩, by simp⟩
  have hmerged : ∀ c ∈ mergedConditions, c.Writable := by
    simp only [mergedConditions, List.forall_mem_cons]
    exact ⟨⟨⟨_, rfl⟩, by decide, by decide⟩, by simp⟩
  have hspace : Text.Blank [' '] := by decide
  have hnone : Text.Blank [] := by decide
  have hparts : Spells partyConditions (some ⟨.rating, .descending, rfl⟩) _ :=
    .condition hspace hspace (.blank hnone (.sort hnone hnone (.condition hnone hnone .nil)))
  have hpart : Spells mergedConditions none _ := .condition hnone hnone .nil
  refine ⟨hparty, (read_spelled_iff hparty hparts).mpr (by decide), hmerged, ?_⟩
  exact fun heq => absurd ((read_spelled_iff hmerged hpart).mp heq) (by decide)

end Query

end GameShelf
