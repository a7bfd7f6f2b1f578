import GameShelf.Proofs.SessionHistory
import GameShelf.Proofs.SheetHeader
import GameShelf.Proofs.TypedLine
import GameShelf.Proofs.WrittenFile

namespace GameShelf

namespace Csv

/-- No field of a record goes over the end of a line. -/
def OneLine (fields : List (List UInt8)) : Prop := ∀ field ∈ fields, 0x0A ∉ field

namespace Reader

/-- What a reader is like before it meets a quote: outside quoted fields, with no end of a line. -/
structure Unquoted (r : Reader) : Prop where
  quoted : r.mode ≠ .quoted
  quoteSeen : r.mode ≠ .quoteSeen
  field : 0x0A ∉ r.field
  fields : OneLine r.fields

variable {r : Reader} {b : UInt8}

theorem unquoted_initial (here start : Place) : (initial here start).Unquoted :=
  ⟨Mode.noConfusion, Mode.noConfusion, List.not_mem_nil, List.forall_mem_nil _⟩

theorem Unquoted.record (h : r.Unquoted) : OneLine r.record.fields := by
  intro field hfield
  rw [Reader.record, List.mem_reverse, List.mem_cons] at hfield
  rcases hfield with rfl | hfield
  · exact mt List.mem_reverse.mp h.field
  · exact h.fields field hfield

theorem Unquoted.takePlain (h : r.Unquoted) (b : UInt8) :
    (r.takePlain b).1.Unquoted ∧ ∀ record ∈ (r.takePlain b).2, OneLine record.fields := by
  unfold Reader.takePlain
  split_ifs with hcomma hline
  · refine ⟨⟨Mode.noConfusion, Mode.noConfusion, List.not_mem_nil, ?_⟩, by simp⟩
    exact List.forall_mem_cons.mpr ⟨mt List.mem_reverse.mp h.field, h.fields⟩
  · refine ⟨unquoted_initial _ _, ?_⟩
    rintro record hrecord
    cases hrecord
    exact h.record
  · refine ⟨⟨Mode.noConfusion, Mode.noConfusion, ?_, h.fields⟩, by simp⟩
    have hb : (0x0A : UInt8) ≠ b := by
      rintro rfl
      exact hline rfl
    exact List.not_mem_cons_of_ne_of_not_mem hb h.field

theorem Unquoted.takeFieldStart (h : r.Unquoted) (hb : b ≠ 0x22) :
    (r.takeFieldStart b).1.Unquoted ∧
      ∀ record ∈ (r.takeFieldStart b).2, OneLine record.fields := by
  rw [Reader.takeFieldStart, beq_false_of_ne hb]
  exact h.takePlain b

/-- Only a quote opens a quoted field, and only such a field takes in the end of a line. -/
theorem Unquoted.step (h : r.Unquoted) (hb : b ≠ 0x22) :
    (r.step b).1.Unquoted ∧ ∀ record ∈ (r.step b).2, OneLine record.fields := by
  have hhere : Unquoted { r with here := r.here.advance b } :=
    ⟨h.quoted, h.quoteSeen, h.field, h.fields⟩
  obtain ⟨here, start, mode, field, fields⟩ := r
  cases mode with
  | between =>
    rw [Reader.step]
    dsimp only
    split
    · exact ⟨hhere, by simp⟩
    · exact hhere.takeFieldStart hb
  | fieldStart => exact hhere.takeFieldStart hb
  | plain => exact hhere.takePlain b
  | quoted => exact absurd rfl h.quoted
  | quoteSeen => exact absurd rfl h.quoteSeen

theorem Unquoted.run {bytes : List UInt8} (h : r.Unquoted) (hbytes : 0x22 ∉ bytes) :
    ∀ record ∈ r.run bytes, OneLine record.fields := by
  induction bytes generalizing r with
  | nil =>
    intro record hrecord
    simp only [Reader.run, finish?] at hrecord
    split at hrecord
    · cases hrecord
    · cases List.mem_singleton.mp hrecord
      exact h.record
  | cons b bytes ih =>
    rw [List.mem_cons, not_or] at hbytes
    obtain ⟨hnext, hrecord⟩ := h.step (Ne.symm hbytes.1)
    rw [Reader.run]
    split
    next r' record hstep =>
      rw [hstep] at hnext hrecord
      exact List.forall_mem_cons.mpr ⟨hrecord record rfl, ih hnext hbytes.2⟩
    next r' hstep =>
      rw [hstep] at hnext
      exact ih hnext hbytes.2

end Reader

theorem opening_bytes_subset (bytes : List UInt8) : (opening bytes).2 ⊆ bytes := by
  unfold opening
  split
  next rest => exact List.subset_append_right [0xEF, 0xBB, 0xBF] rest
  next => exact List.Subset.refl _

theorem oneLine_of_mem_records {bytes : List UInt8} (h : 0x22 ∉ bytes) {r : Record}
    (hr : r ∈ records bytes) : OneLine r.fields := by
  obtain ⟨here, start, hstart⟩ := opening_reader bytes
  rw [records_eq, hstart] at hr
  exact (Reader.unquoted_initial here start).run (fun hmem => h (opening_bytes_subset bytes hmem))
    r hr

end Csv

namespace Text

theorem trim_subset (t : Text) : trim t ⊆ t := by
  obtain ⟨l, r, -, -, ht⟩ := exists_blank_trim t
  intro c hc
  rw [ht]
  exact List.mem_append_left _ (List.mem_append_right _ hc)

variable {separator : Char} {l : List Text}

theorem length_le_length_flatMap_splitOn (separator : Char) (l : List Text) :
    l.length ≤ (l.flatMap (splitOn separator)).length := by
  induction l with
  | nil => exact Nat.le_refl 0
  | cons t l ih =>
    rw [List.flatMap_cons, List.length_append, length_splitOn, List.length_cons]
    omega

/-- Texts are their own pieces if none of them has a separator. -/
theorem flatMap_splitOn_eq_self_iff :
    l.flatMap (splitOn separator) = l ↔ ∀ t ∈ l, separator ∉ t := by
  constructor
  · intro h
    induction l with
    | nil => exact List.forall_mem_nil _
    | cons t l ih =>
      have hlength := congrArg List.length h
      have hle := length_le_length_flatMap_splitOn separator l
      rw [List.flatMap_cons, List.length_append, length_splitOn, List.length_cons] at hlength
      have ht : separator ∉ t := List.count_eq_zero.mp (by omega)
      rw [List.flatMap_cons, splitOn_of_not_mem ht] at h
      exact List.forall_mem_cons.mpr ⟨ht, ih (List.cons.inj h).2⟩
  · intro h
    induction l with
    | nil => rfl
    | cons t l ih =>
      obtain ⟨ht, hl⟩ := List.forall_mem_cons.mp h
      rw [List.flatMap_cons, splitOn_of_not_mem ht, ih hl]
      rfl

/-- A file of lines ends with the end of a line, and has the pieces of each line in it. -/
theorem splitOn_flatMap_line (l : List Text) :
    splitOn '\n' (l.flatMap line) = l.flatMap (splitOn '\n') ++ [[]] := by
  induction l with
  | nil => rfl
  | cons t l ih =>
    rw [List.flatMap_cons, line, List.append_assoc, List.singleton_append, splitOn_append, ih,
      List.flatMap_cons, List.append_assoc]

theorem count_flatMap_line (l : List Text) :
    (l.flatMap line).count '\n' = l.length + l.flatten.count '\n' := by
  induction l with
  | nil => rfl
  | cons t l ih =>
    rw [List.flatMap_cons, line, List.count_append, List.count_append, ih, List.flatten_cons,
      List.count_append, List.length_cons]
    have hend : List.count '\n' ['\n'] = 1 := rfl
    omega

end Text

namespace Sheet

theorem trimBytes_subset (bytes : List UInt8) : trimBytes bytes ⊆ bytes := by
  intro b hb
  have hb := (List.dropWhile_suffix isAsciiBlank).subset (List.mem_reverse.mp hb)
  exact (List.dropWhile_suffix isAsciiBlank).subset (List.mem_reverse.mp hb)

/-- Only a quoted field can bring the end of a line into a name. -/
theorem name_on_one_line {bytes : List UInt8} {games : List Game}
    (h : Sheet.games bytes = .ok games) (hquote : 0x22 ∉ bytes) {g : Game} (hg : g ∈ games) :
    '\n' ∉ g.name := by
  intro hname
  obtain ⟨cols, r, hr, hgame⟩ := exists_record_of_mem_games h hg
  obtain ⟨-, field, hfield, cell, hcell, htrim⟩ := exists_field_of_gameOf? hgame
  rw [← htrim] at hname
  have hencoded := Text.Utf8.mem_encode_iff.mpr (Text.trim_subset cell hname)
  rw [hcell] at hencoded
  exact Csv.oneLine_of_mem_records hquote hr field hfield (trimBytes_subset field hencoded)

end Sheet

namespace PickList

variable {games : List Game} {edits : List Edit} {p : PickList}

/-- A list has no games but those that were there to be added. -/
theorem after_games_subset (h : ∀ e ∈ edits, e.candidates ⊆ games) :
    (after edits).games ⊆ games := by
  induction edits using List.reverseRecOn with
  | nil => exact List.nil_subset games
  | append_singleton edits e ih =>
    rw [List.forall_mem_append] at h
    rw [after_append]
    intro g hg
    rcases mem_of_step hg with hg | hg
    · exact ih h.1 hg
    · exact h.2 e List.mem_cons_self hg

theorem splitOn_written (p : PickList) :
    Text.splitOn '\n' p.written = p.names.flatMap (Text.splitOn '\n') ++ [[]] :=
  Text.splitOn_flatMap_line p.names

theorem splitOn_written_eq_names_iff :
    Text.splitOn '\n' p.written = p.names ++ [[]] ↔ ∀ name ∈ p.names, '\n' ∉ name := by
  rw [splitOn_written, List.append_left_inj, Text.flatMap_splitOn_eq_self_iff]

theorem count_written (p : PickList) :
    p.written.count '\n' = p.count + p.names.flatten.count '\n' := by
  rw [written, Text.count_flatMap_line, names, List.length_map]
  rfl

theorem count_written_eq_count_iff :
    p.written.count '\n' = p.count ↔ ∀ name ∈ p.names, '\n' ∉ name := by
  rw [count_written, Nat.add_eq_left, List.count_eq_zero, List.mem_flatten]
  simp only [not_exists, not_and]

/-- What is saved has every line ended, and its lines are those of the names. So they are the names
just where each name is on one line, as all are in a sheet without quotes. -/
theorem written_lines {bytes : List UInt8} (hgames : Sheet.games bytes = .ok games)
    (hedits : ∀ e ∈ edits, e.candidates ⊆ games) (hp : p = after edits) :
    Text.splitOn '\n' p.written = p.names.flatMap (Text.splitOn '\n') ++ [[]] ∧
    (Text.splitOn '\n' p.written = p.names ++ [[]] ↔ ∀ name ∈ p.names, '\n' ∉ name) ∧
    p.written.count '\n' = p.count + p.names.flatten.count '\n' ∧
    (p.written.count '\n' = p.count ↔ ∀ name ∈ p.names, '\n' ∉ name) ∧
    (0x22 ∉ bytes → ∀ name ∈ p.names, '\n' ∉ name) ∧
    ∀ fs path fs', Files.write fs path (Text.Utf8.encode p.written) = .ok fs' →
      ∃ saved, fs'.lookUp path = .ok (.file saved) ∧ Text.Utf8.decode? saved = some p.written := by
  refine ⟨p.splitOn_written, splitOn_written_eq_names_iff, p.count_written,
    count_written_eq_count_iff, ?_, ?_⟩
  · intro hquote name hname
    obtain ⟨g, hg, rfl⟩ := List.mem_map.mp hname
    rw [hp] at hg
    exact Sheet.name_on_one_line hgames hquote (after_games_subset hedits hg)
  · intro fs path fs' hwrite
    exact ⟨_, (Files.replaces_of_write hwrite).lookUp_eq, Text.Utf8.decode?_eq_some_iff.mpr rfl⟩

/-- Two games of a sheet without quotes, one with blanks around its name. -/
theorem written_lines_unquoted :
    Text.splitOn '\n' (after [.add "all".toList [.ofName ['B'], .ofName ['A']]]).written =
      (after [.add "all".toList [.ofName ['B'], .ofName ['A']]]).names ++ [[]] ∧
    (after [.add "all".toList [.ofName ['B'], .ofName ['A']]]).written.count '\n' = 2 := by
  have hgames : Sheet.games (Sheet.ofLines ["B,0,0,0,0,0,0,0,0,0".toList,
      " A\t,0,0,0,0,0,0,0,0,0".toList]) = .ok [.ofName ['B'], .ofName ['A']] := by decide +kernel
  obtain ⟨-, hnames, -, hcount, hquote, -⟩ :=
    written_lines (p := after [.add "all".toList [.ofName ['B'], .ofName ['A']]]) hgames
      (by simp [Edit.candidates]) rfl
  have hline := hquote (by decide +kernel)
  exact ⟨hnames.mpr hline, (hcount.mpr hline).trans (by decide +kernel)⟩

/-- A name that goes over two lines in quotes is read back as two. -/
theorem written_lines_quoted :
    Sheet.games (Sheet.ofLines ["\"Go\nFish\",0,0,0,0,0,0,0,0,0".toList]) =
      .ok [.ofName "Go\nFish".toList] ∧
    (after [.add "all".toList [.ofName "Go\nFish".toList]]).names = ["Go\nFish".toList] ∧
    Text.splitOn '\n' (after [.add "all".toList [.ofName "Go\nFish".toList]]).written =
      ["Go".toList, "Fish".toList, []] ∧
    (after [.add "all".toList [.ofName "Go\nFish".toList]]).count = 1 ∧
    (after [.add "all".toList [.ofName "Go\nFish".toList]]).written.count '\n' = 2 := by
  decide +kernel

end PickList

end GameShelf
