import GameShelf.Sheet.Csv
import Mathlib.Tactic.SplitIfs

namespace GameShelf.Csv

namespace Reader

/-- The reader after some bytes, and the records that a line end among them completed. -/
def feed : Reader → List UInt8 → Reader × List Record
  | r, [] => (r, [])
  | r, b :: bytes =>
    let (next, record?) := r.step b
    let (last, records) := next.feed bytes
    (last, record?.toList ++ records)

theorem feed_append (r : Reader) (s t : List UInt8) :
    r.feed (s ++ t) = (((r.feed s).1.feed t).1, (r.feed s).2 ++ ((r.feed s).1.feed t).2) := by
  induction s generalizing r with
  | nil => rfl
  | cons b s ih => simp only [List.cons_append, feed, ih, List.append_assoc]

/-- What is read later has no bearing on the records that are complete. -/
theorem run_append (r : Reader) (s t : List UInt8) :
    r.run (s ++ t) = (r.feed s).2 ++ (r.feed s).1.run t := by
  induction s generalizing r with
  | nil => rfl
  | cons b s ih =>
    rw [List.cons_append, run, feed]
    split
    next r' record h => rw [h, ih]; rfl
    next r' h => rw [h, ih]; rfl

theorem takePlain_mode {r r' : Reader} {b : UInt8} (h : r.takePlain b = (r', none)) :
    r'.mode ≠ .between := by
  unfold takePlain at h
  split_ifs at h
  · cases h
    exact Mode.noConfusion
  · cases h
  · cases h
    exact Mode.noConfusion

theorem takeFieldStart_mode {r r' : Reader} {b : UInt8} (h : r.takeFieldStart b = (r', none)) :
    r'.mode ≠ .between := by
  unfold takeFieldStart at h
  split_ifs at h
  · cases h
    exact Mode.noConfusion
  · exact takePlain_mode h

/-- A record that has begun goes on until it is complete. -/
theorem step_mode {r r' : Reader} {b : UInt8} (hr : r.mode ≠ .between)
    (h : r.step b = (r', none)) : r'.mode ≠ .between := by
  unfold step at h
  cases hmode : r.mode with
  | between => exact absurd hmode hr
  | fieldStart =>
    simp only [hmode] at h
    exact takeFieldStart_mode h
  | plain =>
    simp only [hmode] at h
    exact takePlain_mode h
  | quoted =>
    simp only [hmode] at h
    split_ifs at h <;> cases h <;> exact Mode.noConfusion
  | quoteSeen =>
    simp only [hmode] at h
    split_ifs at h
    · cases h
      exact Mode.noConfusion
    · exact takePlain_mode h

theorem run_ne_nil {r : Reader} (h : r.mode ≠ .between) (bytes : List UInt8) :
    r.run bytes ≠ [] := by
  induction bytes generalizing r with
  | nil => simp [run, finish?, h]
  | cons b bytes ih =>
    rw [run]
    split
    · exact List.cons_ne_nil _ _
    next r' hstep => exact ih (step_mode h hstep)

theorem step_initial_of_lineEnd (here start : Place) {b : UInt8} (hb : isLineEnd b = true) :
    (initial here start).step b = (initial (here.advance b) start, none) := by
  rw [step]
  simp only [initial, hb, if_true]

/-- Between records only the end of a line begins none. -/
theorem run_initial_eq_nil_iff {here start : Place} {bytes : List UInt8} :
    (initial here start).run bytes = [] ↔ ∀ b ∈ bytes, isLineEnd b = true := by
  induction bytes generalizing here with
  | nil => simp [run, finish?, initial]
  | cons b bytes ih =>
    rw [List.forall_mem_cons, run]
    cases hb : isLineEnd b with
    | true =>
      rw [step_initial_of_lineEnd here start hb]
      simp only [ih, true_and]
    | false =>
      simp only [Bool.false_eq_true, false_and, iff_false]
      split
      · exact List.cons_ne_nil _ _
      -- The record that this byte begins is completed by the end of the input at the latest.
      next r' hstep =>
        refine run_ne_nil ?_ bytes
        rw [step] at hstep
        simp only [initial, hb, Bool.false_eq_true, if_false] at hstep
        exact takeFieldStart_mode hstep

end Reader

/-- A field in quotes, in which each of its own quotes stands twice. -/
def escape (field : List UInt8) : List UInt8 :=
  field.flatMap fun b => if b = 0x22 then [0x22, 0x22] else [b]

def quote (field : List UInt8) : List UInt8 := 0x22 :: escape field ++ [0x22]

def quoteRow (fields : List (List UInt8)) : List UInt8 := [0x2C].intercalate (fields.map quote)

/-- The line ends of the common systems. -/
def lineEnds : List (List UInt8) := [[0x0A], [0x0D, 0x0A], [0x0D]]

theorem mem_lineEnds_iff {ending : List UInt8} :
    ending ∈ lineEnds ↔ ending = [0x0A] ∨ ending = [0x0D, 0x0A] ∨ ending = [0x0D] := by
  simp [lineEnds]

/-- Bytes in which rows of fields are written out, with every field in quotes. An empty row leaves
nothing, and empty lines may stand anywhere. -/
inductive Writes : List (List (List UInt8)) → List UInt8 → Prop where
  | nil : Writes [] []
  | row {fields ending rows bytes} : fields ≠ [] → ending ∈ lineEnds → Writes rows bytes →
      Writes (fields :: rows) (quoteRow fields ++ ending ++ bytes)
  | emptyRow {rows bytes} : Writes rows bytes → Writes ([] :: rows) bytes
  | emptyLine {ending rows bytes} : ending ∈ lineEnds → Writes rows bytes →
      Writes rows (ending ++ bytes)

namespace Reader

/-- The reader gets to a state, wherever that is in the file, and completes no record on its way. -/
def Reaches (r : Reader) (bytes : List UInt8) (mode : Mode) (field : List UInt8)
    (fields : List (List UInt8)) : Prop :=
  ∃ here, r.feed bytes = (⟨here, r.start, mode, field, fields⟩, [])

variable {here start : Place} {mode : Mode} {field : List UInt8} {fields : List (List UInt8)}

theorem reaches_singleton {r : Reader} {b : UInt8} {next : Reader} (h : r.step b = (next, none))
    (hstart : next.start = r.start) : r.Reaches [b] next.mode next.field next.fields := by
  refine ⟨next.here, ?_⟩
  rw [feed, h, ← hstart]
  rfl

theorem Reaches.trans {r : Reader} {s t : List UInt8} {mode' : Mode} {field' : List UInt8}
    {fields' : List (List UInt8)} (h : r.Reaches s mode field fields)
    (h' : ∀ here, Reaches ⟨here, r.start, mode, field, fields⟩ t mode' field' fields') :
    r.Reaches (s ++ t) mode' field' fields' := by
  obtain ⟨here, hs⟩ := h
  obtain ⟨here', ht⟩ := h' here
  refine ⟨here', ?_⟩
  rw [feed_append, hs, ht]
  rfl

theorem reaches_content {b : UInt8} (hb : b ≠ 0x22) :
    Reaches ⟨here, start, .quoted, field, fields⟩ [b] .quoted (b :: field) fields := by
  have hstep : step ⟨here, start, .quoted, field, fields⟩ b =
      (⟨here.advance b, start, .quoted, b :: field, fields⟩, none) := by
    simp [step, hb]
  exact reaches_singleton hstep rfl

/-- Two quotes within quotes are one. -/
theorem reaches_quotes :
    Reaches ⟨here, start, .quoted, field, fields⟩ [0x22, 0x22] .quoted (0x22 :: field) fields :=
  ⟨(here.advance 0x22).advance 0x22, rfl⟩

/-- Within quotes everything is taken into the field. -/
theorem reaches_escape (content : List UInt8) :
    Reaches ⟨here, start, .quoted, field, fields⟩ (escape content) .quoted
      (content.reverse ++ field) fields := by
  induction content generalizing here field with
  | nil => exact ⟨here, rfl⟩
  | cons b content ih =>
    rw [escape, List.flatMap_cons, ← escape, List.reverse_cons, List.append_assoc,
      List.singleton_append]
    by_cases hb : b = 0x22
    · rw [if_pos hb, hb]
      exact reaches_quotes.trans fun here => ih
    · rw [if_neg hb]
      exact (reaches_content hb).trans fun here => ih

theorem reaches_quote (hmode : mode = .between ∨ mode = .fieldStart) (content : List UInt8) :
    Reaches ⟨here, start, mode, [], fields⟩ (quote content) .quoteSeen content.reverse fields := by
  have hopen : Reaches ⟨here, start, mode, [], fields⟩ [0x22] .quoted [] fields := by
    rcases hmode with rfl | rfl <;> exact ⟨here.advance 0x22, rfl⟩
  have hcontent : Reaches ⟨here, start, mode, [], fields⟩ ([0x22] ++ escape content) .quoted
      (content.reverse ++ []) fields := hopen.trans fun _ => reaches_escape content
  rw [List.append_nil] at hcontent
  exact hcontent.trans fun here => ⟨here.advance 0x22, rfl⟩

theorem reaches_comma (content : List UInt8) :
    Reaches ⟨here, start, .quoteSeen, content.reverse, fields⟩ [0x2C] .fieldStart []
      (content :: fields) := by
  have hstep : step ⟨here, start, .quoteSeen, content.reverse, fields⟩ 0x2C =
      (⟨here.advance 0x2C, start, .fieldStart, [], content :: fields⟩, none) := by
    simp [step, takePlain]
  exact reaches_singleton hstep rfl

/-- A row of quoted fields is taken field by field. -/
theorem reaches_quoteRow (hmode : mode = .between ∨ mode = .fieldStart)
    (row : List (List UInt8)) (last : List UInt8) :
    Reaches ⟨here, start, mode, [], fields⟩ (quoteRow (row ++ [last])) .quoteSeen last.reverse
      (row.reverse ++ fields) := by
  induction row generalizing here mode fields with
  | nil =>
    rw [List.nil_append, quoteRow, List.map_singleton, List.intercalate_singleton]
    exact reaches_quote hmode last
  | cons content row ih =>
    have hne : (row ++ [last]).map quote ≠ [] := by simp
    obtain ⟨q, qs, hq⟩ := List.exists_cons_of_ne_nil hne
    have hcons : quoteRow (content :: row ++ [last]) =
        quote content ++ [0x2C] ++ quoteRow (row ++ [last]) := by
      rw [quoteRow, quoteRow, List.cons_append, List.map_cons, hq, List.intercalate_cons_cons]
    have hfields : (content :: row).reverse ++ fields = row.reverse ++ content :: fields := by simp
    rw [hcons, hfields]
    exact ((reaches_quote hmode content).trans fun here => reaches_comma content).trans
      fun here => ih (.inr rfl)

/-- The end of a line completes the record, and the reader is between records again. -/
theorem feed_lineEnd (here start : Place) (field : List UInt8) (fields : List (List UInt8))
    {ending : List UInt8} (h : ending ∈ lineEnds) :
    ∃ here' start', feed ⟨here, start, .quoteSeen, field, fields⟩ ending =
      (initial here' start', [⟨start, (field.reverse :: fields).reverse⟩]) := by
  rcases mem_lineEnds_iff.mp h with rfl | rfl | rfl
  · exact ⟨_, _, rfl⟩
  · exact ⟨_, _, rfl⟩
  · exact ⟨_, _, rfl⟩

/-- A row that is written out is one record. -/
theorem feed_row (here start : Place) {row : List (List UInt8)} {ending : List UInt8}
    (hrow : row ≠ []) (hending : ending ∈ lineEnds) :
    ∃ here' start', (initial here start).feed (quoteRow row ++ ending) =
      (initial here' start', [⟨start, row⟩]) := by
  obtain ⟨others, last, rfl⟩ : ∃ others last, row = others ++ [last] :=
    ⟨_, _, (List.dropLast_concat_getLast hrow).symm⟩
  have hreaches : (initial here start).Reaches (quoteRow (others ++ [last])) .quoteSeen
      last.reverse (others.reverse ++ []) := reaches_quoteRow (.inl rfl) others last
  obtain ⟨here₁, hfields⟩ := hreaches
  obtain ⟨here₂, start₂, hline⟩ := feed_lineEnd here₁ start last.reverse (others.reverse ++ [])
    hending
  refine ⟨here₂, start₂, ?_⟩
  rw [feed_append, hfields]
  change ((feed ⟨here₁, start, _, _, _⟩ _).1, [] ++ (feed ⟨here₁, start, _, _, _⟩ _).2) = _
  rw [hline]
  simp

theorem run_initial_lineEnd (here start : Place) {ending : List UInt8} (h : ending ∈ lineEnds)
    (bytes : List UInt8) :
    ∃ here', (initial here start).run (ending ++ bytes) = (initial here' start).run bytes := by
  rcases mem_lineEnds_iff.mp h with rfl | rfl | rfl
  · exact ⟨_, rfl⟩
  · exact ⟨_, rfl⟩
  · exact ⟨_, rfl⟩

/-- Between records, rows that are written out are read back. -/
theorem run_of_writes (here start : Place) {rows : List (List (List UInt8))} {bytes : List UInt8}
    (h : Writes rows bytes) :
    ((initial here start).run bytes).map Record.fields = rows.filter fun row => !row.isEmpty := by
  induction h generalizing here start with
  | nil => rfl
  | emptyRow _ ih => exact ih here start
  | emptyLine hending _ ih =>
    obtain ⟨here', hrun⟩ := run_initial_lineEnd here start hending _
    rw [hrun]
    exact ih here' start
  | row hrow hending _ ih =>
    obtain ⟨here', start', hrecord⟩ := feed_row here start hrow hending
    rw [run_append, hrecord, List.map_append, ih, List.filter_cons_of_pos (by simpa using hrow)]
    rfl

end Reader

/-- The reader of a file and the bytes it takes, which a byte order mark is no part of. -/
def opening : List UInt8 → Reader × List UInt8
  | 0xEF :: 0xBB :: 0xBF :: bytes => (.initial ⟨1, 3⟩ ⟨1, 0⟩, bytes)
  | bytes => (.initial ⟨1, 0⟩ ⟨1, 0⟩, bytes)

theorem records_eq (bytes : List UInt8) :
    records bytes = (opening bytes).1.run (opening bytes).2 := by
  unfold records
  split
  · rfl
  next h => rw [opening.eq_2 _ h]

theorem opening_reader (bytes : List UInt8) :
    ∃ here start, (opening bytes).1 = .initial here start := by
  unfold opening
  split <;> exact ⟨_, _, rfl⟩

/-- The records that are complete, whatever follows. -/
def ended (bytes : List UInt8) : List Record := ((opening bytes).1.feed (opening bytes).2).2

/-- Only the start of a byte order mark is read in another way when more bytes follow. -/
theorem opening_append (s t : List UInt8) :
    opening (s ++ t) = ((opening s).1, (opening s).2 ++ t) ∨ ended s = [] := by
  by_cases hs : ∃ rest, s = 0xEF :: 0xBB :: 0xBF :: rest
  · obtain ⟨rest, rfl⟩ := hs
    exact .inl rfl
  rw [not_exists] at hs
  by_cases hst : ∃ rest, s ++ t = 0xEF :: 0xBB :: 0xBF :: rest
  -- What becomes a mark with more bytes has only two bytes at most, which complete no record.
  · obtain ⟨rest, hst⟩ := hst
    right
    rcases s with _ | ⟨a, _ | ⟨b, _ | ⟨c, s⟩⟩⟩
    · rfl
    · obtain ⟨rfl, -⟩ := List.cons.inj hst
      rfl
    · simp only [List.cons_append, List.cons.injEq] at hst
      obtain ⟨rfl, rfl, -⟩ := hst
      rfl
    · simp only [List.cons_append, List.cons.injEq] at hst
      obtain ⟨rfl, rfl, rfl, -⟩ := hst
      exact absurd rfl (hs s)
  · rw [not_exists] at hst
    rw [opening.eq_2 _ hst, opening.eq_2 _ hs]
    exact .inl rfl

/-- The records that are complete stand first, whatever follows. -/
theorem ended_prefix (s t : List UInt8) : ended s <+: records (s ++ t) := by
  rcases opening_append s t with h | h
  · rw [records_eq, h, Reader.run_append]
    exact List.prefix_append _ _
  · rw [h]
    exact List.nil_prefix

/-- There is no record where nothing but ends of lines is left. -/
theorem records_eq_nil_iff {bytes : List UInt8} :
    records bytes = [] ↔ ∀ b ∈ (opening bytes).2, Reader.isLineEnd b = true := by
  obtain ⟨here, start, h⟩ := opening_reader bytes
  rw [records_eq, h, Reader.run_initial_eq_nil_iff]

theorem head?_quoteRow {row : List (List UInt8)} (h : row ≠ []) (bytes : List UInt8) :
    (quoteRow row ++ bytes).head? = some 0x22 := by
  obtain ⟨content, row, rfl⟩ := List.exists_cons_of_ne_nil h
  cases row with
  | nil => simp [quoteRow, quote]
  | cons => simp [quoteRow, quote]

theorem Writes.head?_ne {rows : List (List (List UInt8))} {bytes : List UInt8}
    (h : Writes rows bytes) : bytes.head? ≠ some 0xEF := by
  induction h with
  | nil => simp
  | row hrow _ _ _ =>
    rw [List.append_assoc, head?_quoteRow hrow]
    decide
  | emptyRow _ ih => exact ih
  | emptyLine hending _ _ =>
    rcases mem_lineEnds_iff.mp hending with rfl | rfl | rfl
    · simp
    · simp
    · simp

theorem opening_of_head?_ne {bytes : List UInt8} (h : bytes.head? ≠ some 0xEF) :
    opening bytes = (.initial ⟨1, 0⟩ ⟨1, 0⟩, bytes) := by
  apply opening.eq_2
  rintro rest rfl
  exact h rfl

/-- Rows that are written out are the records of the file. -/
theorem records_of_writes {rows : List (List (List UInt8))} {bytes : List UInt8}
    (h : Writes rows bytes) :
    (records bytes).map Record.fields = rows.filter fun row => !row.isEmpty := by
  rw [records_eq, opening_of_head?_ne h.head?_ne, Reader.run_of_writes _ _ h]

theorem ended_row {row : List (List UInt8)} {ending : List UInt8} (hrow : row ≠ [])
    (hending : ending ∈ lineEnds) : ended (quoteRow row ++ ending) = [⟨⟨1, 0⟩, row⟩] := by
  have hhead : (quoteRow row ++ ending).head? ≠ some 0xEF := by
    rw [head?_quoteRow hrow]
    decide
  obtain ⟨_, _, hrecord⟩ := Reader.feed_row ⟨1, 0⟩ ⟨1, 0⟩ hrow hending
  rw [ended, opening_of_head?_ne hhead, hrecord]

end GameShelf.Csv
