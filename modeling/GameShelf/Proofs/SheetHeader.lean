import GameShelf.Proofs.Csv
import GameShelf.Proofs.SheetParts

namespace GameShelf.Sheet

open Text (trim)
open Text.Utf8 (encode validLength)

/-- What is wrong with the first record of a sheet. Its texts come first, then the columns, in the
order of the schema. -/
inductive HeaderFault (header : Csv.Record) : LoadFault → Prop where
  | undecodable {cells : List Text} {bytes rest} :
      header.fields = cells.map encode ++ bytes :: rest → (∀ t, encode t ≠ bytes) →
      HeaderFault header (.header ⟨0, header.place, cells.length, validLength bytes⟩)
  | missingColumn {cells : List Text} {before a after} : header.fields = cells.map encode →
      Attribute.all = before ++ a :: after → (∀ b ∈ before, ∃ cell ∈ cells, b.Heads cell) →
      (∀ cell ∈ cells, ¬a.Heads cell) → HeaderFault header (.missingColumn a)

/-- The columns of a sheet by its first record. -/
def headerColumns (header : Csv.Record) : Except LoadFault Columns :=
  match decode 0 header with
  | .ok headers => columns headers
  | .error fault => .error (.header fault)

theorem headerColumns_eq_error_iff {header : Csv.Record} {e : LoadFault} :
    headerColumns header = .error e ↔ HeaderFault header e := by
  rw [headerColumns]
  constructor
  · intro h
    split at h
    next headers hdecode =>
      obtain ⟨cells, hfields, rfl⟩ := decode_eq_ok_iff.mp hdecode
      obtain ⟨before, a, after, hall, hbefore, ha, rfl⟩ := columns_eq_error_iff.mp h
      simp only [List.mem_map, exists_exists_and_eq_and, forall_exists_index, and_imp,
        forall_apply_eq_imp_iff₂, heads_trim_iff] at hbefore ha
      exact .missingColumn hfields.symm hall hbefore ha
    next fault hdecode =>
      cases h
      obtain ⟨cells, bytes, rest, hfields, hbytes, rfl⟩ := decode_eq_error_iff.mp hdecode
      exact .undecodable hfields hbytes
  · intro h
    cases h with
    | undecodable hfields hbytes =>
      rw [decode_eq_error_iff.mpr ⟨_, _, _, hfields, hbytes, rfl⟩]
    | missingColumn hfields hall hbefore ha =>
      rw [decode_eq_ok_iff.mpr ⟨_, hfields.symm, rfl⟩]
      refine columns_eq_error_iff.mpr ⟨_, _, _, hall, ?_, ?_, rfl⟩
      · simpa [heads_trim_iff] using hbefore
      · simpa [heads_trim_iff] using ha

/-- A first record with a column for each attribute serves, whatever else is in it. -/
theorem exists_headerColumns (header : Csv.Record) (cells : List Text)
    (hfields : header.fields = cells.map encode)
    (hcells : ∀ a : Attribute, ∃ cell ∈ cells, a.Heads cell) :
    ∃ cols, headerColumns header = .ok cols ∧ columns (cells.map trim) = .ok cols := by
  obtain ⟨cols, hcols⟩ : ∃ cols, columns (cells.map trim) = .ok cols := by
    apply exists_columns_eq_ok_iff.mpr
    simpa [heads_trim_iff] using hcells
  refine ⟨cols, ?_, hcols⟩
  rw [headerColumns, decode_eq_ok_iff.mpr ⟨cells, hfields.symm, rfl⟩]
  exact hcols

/-- The game that a record makes up under the columns, if it does. -/
def gameOf? (columns : Columns) (r : Csv.Record) : Option Game := (row columns r 0).game?

theorem row_game?_eq_some_iff {cols : Columns} {r : Csv.Record} {index : Nat} {g : Game} :
    (row cols r index).game? = some g ↔
      ∃ ts, decode index (trimRecord r) = .ok ts ∧ game cols ts = .ok g := by
  rw [row]
  cases decode index (trimRecord r) with
  | error e => simp [Row.game?]
  | ok ts =>
    simp only [Except.ok.injEq, exists_eq_left']
    cases game cols ts with
    | error e => simp [Row.game?]
    | ok g' => simp [Row.game?]

/-- The number of a record is told in a fault only. -/
theorem row_game? (cols : Columns) (r : Csv.Record) (index : Nat) :
    (row cols r index).game? = gameOf? cols r := by
  ext g
  simp only [gameOf?, row_game?_eq_some_iff, decode_eq_ok_iff]

theorem games_of_records_nil {bytes : List UInt8} (h : Csv.records bytes = []) :
    games bytes = .ok [] := by
  simp only [games, rows, headers?, h]
  rfl

/-- The first record decides whether there is a catalog, and each of the others whether it adds a
game. -/
theorem games_of_records_cons {bytes : List UInt8} {header : Csv.Record} {others : List Csv.Record}
    (h : Csv.records bytes = header :: others) :
    games bytes = (headerColumns header).map fun cols => others.filterMap (gameOf? cols) := by
  -- Where the numbering of the records starts has no bearing on the games.
  have hrows (cols : Columns) (n : Nat) :
      ((others.zipIdx n).map fun entry => row cols entry.1 entry.2).filterMap Row.game? =
        others.filterMap (gameOf? cols) := by
    rw [List.filterMap_map]
    conv_rhs => rw [← List.zipIdx_map_fst n others, List.filterMap_map]
    congr 1
    funext entry
    exact row_game? cols entry.1 entry.2
  simp only [games, rows, headers?, h, headerColumns]
  cases decode 0 header with
  | error e => rfl
  | ok headers =>
    change Except.bind (Except.bind (columns headers) _) _ = (columns headers).map _
    cases columns headers with
    | error e => rfl
    | ok cols => exact congrArg Except.ok (hrows cols 1)

theorem games_eq_error_iff {bytes : List UInt8} {e : LoadFault} :
    games bytes = .error e ↔
      ∃ header, (Csv.records bytes).head? = some header ∧ HeaderFault header e := by
  cases h : Csv.records bytes with
  | nil => simp [games_of_records_nil h]
  | cons header others =>
    rw [games_of_records_cons h]
    simp only [List.head?_cons, Option.some.injEq, exists_eq_left', ← headerColumns_eq_error_iff]
    cases headerColumns header with
    | error e => simp [Except.map]
    | ok cols => simp [Except.map]

/-- The name of a game is a field of its record, without the blanks around it. -/
theorem exists_field_of_gameOf? {cols : Columns} {r : Csv.Record} {g : Game}
    (h : gameOf? cols r = some g) :
    g.name ≠ [] ∧ ∃ field ∈ r.fields, ∃ cell, encode cell = trimBytes field ∧ trim cell = g.name := by
  obtain ⟨ts, hdecode, hgame⟩ := row_game?_eq_some_iff.mp h
  obtain ⟨cells, hcells, rfl⟩ := decode_eq_ok_iff.mp hdecode
  obtain ⟨⟨i, -, hcell⟩, hname⟩ := cell_eq_ok_iff.mp (game_eq_ok_iff.mp hgame).1
  obtain ⟨cell, hmem, htrim⟩ := List.mem_map.mp (List.mem_of_getElem? hcell)
  have hencoded := List.mem_map_of_mem (f := encode) hmem
  rw [hcells] at hencoded
  obtain ⟨field, hfield, he⟩ := List.mem_map.mp hencoded
  exact ⟨hname, field, hfield, cell, he.symm, htrim⟩

theorem exists_record_of_mem_games {bytes : List UInt8} {gs : List Game} (h : games bytes = .ok gs)
    {g : Game} (hg : g ∈ gs) : ∃ cols, ∃ r ∈ Csv.records bytes, gameOf? cols r = some g := by
  cases hrecords : Csv.records bytes with
  | nil =>
    rw [games_of_records_nil hrecords] at h
    cases h
    cases hg
  | cons header others =>
    rw [games_of_records_cons hrecords] at h
    cases hcols : headerColumns header with
    | error e =>
      rw [hcols] at h
      cases h
    | ok cols =>
      rw [hcols] at h
      cases h
      obtain ⟨r, hr, hgame⟩ := List.mem_filterMap.mp hg
      exact ⟨cols, r, List.mem_cons_of_mem header hr, hgame⟩

/-- Every game of a sheet has a name, without blanks at its ends. -/
theorem name_of_mem_games {bytes : List UInt8} {gs : List Game} (h : games bytes = .ok gs)
    {g : Game} (hg : g ∈ gs) : g.name ≠ [] ∧ trim g.name = g.name := by
  obtain ⟨cols, r, -, hr⟩ := exists_record_of_mem_games h hg
  obtain ⟨hname, -, -, cell, -, htrim⟩ := exists_field_of_gameOf? hr
  exact ⟨hname, by rw [← htrim, Text.trim_trim]⟩

/-- Once the first record is complete, nothing after it makes a sheet fail. -/
theorem exists_games_append {bytes : List UInt8} {header : Csv.Record}
    (h : (Csv.ended bytes).head? = some header) (hheader : ∀ e, ¬HeaderFault header e)
    (tail : List UInt8) : ∃ gs, games (bytes ++ tail) = .ok gs := by
  have hfirst : (Csv.records (bytes ++ tail)).head? = some header := by
    obtain ⟨others, hothers⟩ := Csv.ended_prefix bytes tail
    rw [← hothers, List.head?_append, h, Option.some_or]
  cases hgames : games (bytes ++ tail) with
  | ok gs => exact ⟨gs, rfl⟩
  | error e =>
    obtain ⟨header', hheader', hfault⟩ := games_eq_error_iff.mp hgames
    obtain rfl := Option.some.inj (hfirst.symm.trans hheader')
    exact absurd hfault (hheader e)

/-- A sheet fails for its first record only, whatever the bytes. -/
theorem games_refused_by_header_only (bytes : List UInt8) :
    (∀ e, games bytes = .error e ↔
      ∃ header, (Csv.records bytes).head? = some header ∧ HeaderFault header e) ∧
    (Csv.records bytes = [] ↔ ∀ b ∈ (Csv.opening bytes).2, Csv.Reader.isLineEnd b = true) ∧
    (Csv.records bytes = [] → games bytes = .ok []) ∧
    (∀ header, (Csv.ended bytes).head? = some header → (∀ e, ¬HeaderFault header e) →
      ∀ tail, ∃ gs, games (bytes ++ tail) = .ok gs) ∧
    ∀ gs, games bytes = .ok gs → ∀ g ∈ gs, g.name ≠ [] ∧ trim g.name = g.name :=
  ⟨fun _ => games_eq_error_iff, Csv.records_eq_nil_iff, games_of_records_nil,
    fun _ h hheader => exists_games_append h hheader, fun _ h _ => name_of_mem_games h⟩

/-- A file without a column for the name is refused. Behind a header with all columns, an open quote
and bytes that are no text do no harm. -/
theorem games_behind_schema :
    games [0x78, 0x0A] = .error (.missingColumn .name) ∧
      ∃ gs, games (Csv.quoteRow ((Attribute.all.map Attribute.column).map encode) ++ [0x0A] ++
        [0x22, 0x0A, 0xFF]) = .ok gs := by
  constructor
  · have hfields : ([[0x78]] : List (List UInt8)) = [['x']].map encode := by decide
    have hfault : HeaderFault ⟨⟨1, 0⟩, [[0x78]]⟩ (.missingColumn .name) :=
      .missingColumn hfields (List.nil_append Attribute.all).symm (by simp) (by decide)
    exact ((games_refused_by_header_only _).1 _).mpr ⟨_, by decide, hfault⟩
  · have hended := Csv.ended_row
      (show (Attribute.all.map Attribute.column).map encode ≠ [] by simp [Attribute.all])
      (show [0x0A] ∈ Csv.lineEnds by decide)
    refine (games_refused_by_header_only _).2.2.2.1 _ (congrArg List.head? hended) ?_ _
    intro e he
    obtain ⟨cols, hcols, -⟩ := exists_headerColumns ⟨⟨1, 0⟩, _⟩
      (Attribute.all.map Attribute.column) rfl
      fun a => ⟨a.column, List.mem_map_of_mem a.mem_all, a.heads_column⟩
    cases hcols.symm.trans (headerColumns_eq_error_iff.mpr he)

end GameShelf.Sheet
