import GameShelf.Proofs.Except
import GameShelf.Proofs.Schema
import GameShelf.Proofs.Text
import GameShelf.Proofs.Utf8
import GameShelf.Sheet.Basic

namespace GameShelf.Sheet

open Text (trim)
open Text.Utf8 (encode validLength)

/-- One field of a record, read as a text. -/
def decodeField (fault : List UInt8 → Nat → EncodingFault) (field : List UInt8 × Nat) :
    Except EncodingFault Text :=
  match Text.Utf8.decode? field.1 with
  | some t => .ok (trim t)
  | none => .error (fault field.1 field.2)

theorem decode_eq (index : Nat) (r : Csv.Record) :
    decode index r = r.fields.zipIdx.mapM
      (decodeField fun bytes i => ⟨index, r.place, i, validLength bytes⟩) := rfl

section

variable {fault : List UInt8 → Nat → EncodingFault} {fields : List (List UInt8)}

theorem decodeField_eq_ok_iff {bytes : List UInt8} {i : Nat} {t : Text} :
    decodeField fault (bytes, i) = .ok t ↔ ∃ s, encode s = bytes ∧ trim s = t := by
  rw [decodeField]
  simp only [← Text.Utf8.decode?_eq_some_iff]
  cases Text.Utf8.decode? bytes with
  | none => simp
  | some s => simp

theorem decodeField_eq_error_iff {bytes : List UInt8} {i : Nat} {e : EncodingFault} :
    decodeField fault (bytes, i) = .error e ↔ (∀ s, encode s ≠ bytes) ∧ fault bytes i = e := by
  rw [decodeField, ← Text.Utf8.decode?_eq_none_iff]
  cases Text.Utf8.decode? bytes with
  | none => simp
  | some s => simp

theorem mapM_decodeField_eq_ok_iff {i : Nat} {ts : List Text} :
    (fields.zipIdx i).mapM (decodeField fault) = .ok ts ↔
      ∃ cells : List Text, cells.map encode = fields ∧ cells.map trim = ts := by
  induction fields generalizing i ts with
  | nil => simp [pure, Except.pure, eq_comm]
  | cons bytes fields ih =>
    simp only [List.zipIdx_cons, List.mapM_cons, bind_eq_ok_iff, decodeField_eq_ok_iff, ih, pure,
      Except.pure, Except.ok.injEq]
    constructor
    · rintro ⟨_, ⟨s, rfl, rfl⟩, _, ⟨cells, rfl, rfl⟩, rfl⟩
      exact ⟨s :: cells, rfl, rfl⟩
    · rintro ⟨cells, hfields, rfl⟩
      obtain ⟨s, cells, rfl, rfl, rfl⟩ := List.map_eq_cons_iff.mp hfields
      exact ⟨_, ⟨s, rfl, rfl⟩, _, ⟨cells, rfl, rfl⟩, rfl⟩

end

/-- A record whose fields encode texts is read as these. -/
theorem decode_eq_ok_iff {index : Nat} {r : Csv.Record} {ts : List Text} :
    decode index r = .ok ts ↔
      ∃ cells : List Text, cells.map encode = r.fields ∧ cells.map trim = ts := by
  rw [decode_eq, mapM_decodeField_eq_ok_iff]

/-- The first field that encodes no text is what a record is refused for. -/
theorem decode_eq_error_iff {index : Nat} {r : Csv.Record} {e : EncodingFault} :
    decode index r = .error e ↔
      ∃ (cells : List Text) (bytes : List UInt8) (rest : List (List UInt8)),
        r.fields = cells.map encode ++ bytes :: rest ∧ (∀ s, encode s ≠ bytes) ∧
        e = ⟨index, r.place, cells.length, validLength bytes⟩ := by
  rw [decode_eq, mapM_eq_error_iff]
  constructor
  · rintro ⟨before, ⟨bytes, i⟩, after, hfields, hbefore, hfault⟩
    obtain ⟨first, others, hr, rfl, hothers⟩ := List.zipIdx_eq_append_iff.mp hfields
    obtain ⟨_, rest, rfl, heq, -⟩ := List.zipIdx_eq_cons_iff.mp hothers.symm
    obtain ⟨rfl, rfl⟩ := Prod.mk.inj heq
    obtain ⟨ts, hts⟩ := exists_mapM_eq_ok_iff.mpr hbefore
    obtain ⟨cells, rfl, -⟩ := mapM_decodeField_eq_ok_iff.mp hts
    obtain ⟨hbytes, rfl⟩ := decodeField_eq_error_iff.mp hfault
    exact ⟨cells, bytes, rest, hr, hbytes, by simp⟩
  · rintro ⟨cells, bytes, rest, hr, hbytes, rfl⟩
    rw [hr, List.zipIdx_append, List.zipIdx_cons]
    refine ⟨_, _, _, rfl, ?_, decodeField_eq_error_iff.mpr ⟨hbytes, by simp⟩⟩
    exact exists_mapM_eq_ok_iff.mp ⟨_, mapM_decodeField_eq_ok_iff.mpr ⟨cells, rfl, rfl⟩⟩

section

variable {headers : List Text} {a : Attribute}

/-- The place of the leftmost column of an attribute. -/
def place? (headers : List Text) (a : Attribute) : Option Nat :=
  headers.findIdx? fun header => decide (a.Heads header)

theorem column_eq (headers : List Text) (a : Attribute) :
    column headers a =
      match place? headers a with
      | some i => .ok (a, i)
      | none => .error (.missingColumn a) := by
  have h : (fun header => Attribute.ofColumn? header == some a) =
      fun header => decide (a.Heads header) := by
    funext header
    rw [Bool.eq_iff_iff, beq_iff_eq, decide_eq_true_iff, Attribute.ofColumn?_eq_some_iff]
  rw [column, h]
  rfl

theorem column_eq_ok_iff {entry : Attribute × Nat} :
    column headers a = .ok entry ↔ entry.1 = a ∧ place? headers a = some entry.2 := by
  rw [column_eq]
  cases place? headers a with
  | none => simp
  | some i => simp [Prod.ext_iff, eq_comm]

theorem column_eq_error_iff {e : LoadFault} :
    column headers a = .error e ↔ (∀ header ∈ headers, ¬a.Heads header) ∧ e = .missingColumn a := by
  have h : place? headers a = none ↔ ∀ header ∈ headers, ¬a.Heads header := by
    simp [place?, List.findIdx?_eq_none_iff]
  rw [column_eq, ← h]
  cases place? headers a with
  | none => simp [eq_comm]
  | some i => simp

theorem exists_column_eq_ok_iff :
    (∃ entry, column headers a = .ok entry) ↔ ∃ header ∈ headers, a.Heads header := by
  cases h : column headers a with
  | ok entry =>
    obtain ⟨-, hplace⟩ := column_eq_ok_iff.mp h
    obtain ⟨hlt, hheads, -⟩ := List.findIdx?_eq_some_iff_getElem.mp hplace
    simp only [Except.ok.injEq, exists_eq', true_iff]
    exact ⟨_, List.getElem_mem hlt, of_decide_eq_true hheads⟩
  | error e =>
    obtain ⟨hnone, -⟩ := column_eq_error_iff.mp h
    simp only [reduceCtorEq, exists_false, false_iff, not_exists, not_and]
    exact hnone

/-- Every attribute is served by the leftmost of its columns. -/
theorem lookup_mapM_column {l : List Attribute} {cols : Columns}
    (h : l.mapM (column headers) = .ok cols) (ha : a ∈ l) : cols.lookup a = place? headers a := by
  induction l generalizing cols with
  | nil => cases ha
  | cons b l ih =>
    simp only [List.mapM_cons, bind_eq_ok_iff, pure, Except.pure, Except.ok.injEq] at h
    obtain ⟨⟨_, i⟩, hentry, cols, hcols, rfl⟩ := h
    obtain ⟨rfl, hi⟩ := column_eq_ok_iff.mp hentry
    rw [List.lookup_cons]
    split
    next hab => rw [beq_iff_eq.mp hab, hi]
    next hab => exact ih hcols ((List.mem_cons.mp ha).resolve_left (ne_of_beq_false hab))

theorem columns_lookup {cols : Columns} (h : columns headers = .ok cols) (a : Attribute) :
    cols.lookup a = place? headers a := lookup_mapM_column h a.mem_all

theorem exists_columns_eq_ok_iff :
    (∃ cols, columns headers = .ok cols) ↔ ∀ a : Attribute, ∃ header ∈ headers, a.Heads header := by
  rw [columns, exists_mapM_eq_ok_iff]
  constructor
  · intro h a
    exact exists_column_eq_ok_iff.mp (h a a.mem_all)
  · intro h a _
    exact exists_column_eq_ok_iff.mpr (h a)

/-- A sheet is refused for the first attribute in the schema that has no column. -/
theorem columns_eq_error_iff {e : LoadFault} :
    columns headers = .error e ↔
      ∃ before a after, Attribute.all = before ++ a :: after ∧
        (∀ b ∈ before, ∃ header ∈ headers, b.Heads header) ∧
        (∀ header ∈ headers, ¬a.Heads header) ∧ e = .missingColumn a := by
  simp only [columns, mapM_eq_error_iff, exists_column_eq_ok_iff, column_eq_error_iff]

end

theorem heads_trim_iff {a : Attribute} {header : Text} :
    a.Heads (trim header) ↔ a.Heads header := by
  rw [Attribute.Heads, Attribute.Heads, Text.trim_trim]

theorem cell_eq_ok_iff {cols : Columns} {ts : List Text} {a : Attribute} {t : Text} :
    cell cols ts a = .ok t ↔ (∃ i, cols.lookup a = some i ∧ ts[i]? = some t) ∧ t ≠ [] := by
  rw [cell, ← Option.bind_eq_some_iff]
  cases (cols.lookup a).bind (ts[·]?) with
  | none => simp
  | some s =>
    by_cases hs : s = []
    · subst hs
      simp only [Option.filter_some, List.isEmpty_nil, Bool.not_true, Bool.false_eq_true, if_false,
        reduceCtorEq, Option.some.injEq, false_iff, not_and, not_not]
      exact Eq.symm
    · have hkept : (!s.isEmpty) = true := by simpa using hs
      simp only [Option.filter_some, hkept, if_true, Except.ok.injEq, Option.some.injEq]
      constructor
      · rintro rfl
        exact ⟨rfl, hs⟩
      · exact And.left

theorem number_eq_ok_iff {A : Type} {read : Text → Option A} {cols : Columns} {ts : List Text}
    {a : Attribute} {n : A} :
    number read cols ts a = .ok n ↔ ∃ t, cell cols ts a = .ok t ∧ read t = some n := by
  rw [number, bind_eq_ok_iff]
  apply exists_congr
  intro t
  apply and_congr_right
  intro _
  cases read t with
  | none => simp [throw, throwThe, MonadExceptOf.throw]
  | some m => simp [pure, Except.pure]

theorem game_eq_ok_iff {cols : Columns} {ts : List Text} {g : Game} :
    game cols ts = .ok g ↔
      cell cols ts .name = .ok g.name ∧
      number Numeral.readInt64 cols ts .id = .ok g.id ∧
      number Numeral.readUInt32 cols ts .minPlayers = .ok g.minPlayers ∧
      number Numeral.readUInt32 cols ts .maxPlayers = .ok g.maxPlayers ∧
      number Numeral.readUInt32 cols ts .minPlayTime = .ok g.minPlayTime ∧
      number Numeral.readUInt32 cols ts .maxPlayTime = .ok g.maxPlayTime ∧
      number Binary64.read cols ts .difficulty = .ok g.difficulty ∧
      number Numeral.readUInt32 cols ts .rank = .ok g.rank ∧
      number Binary64.read cols ts .rating = .ok g.rating ∧
      number Numeral.readInt32 cols ts .year = .ok g.year := by
  simp only [game, bind_eq_ok_iff, pure, Except.pure, Except.ok.injEq]
  constructor
  · rintro ⟨_, hname, _, hid, _, h1, _, h2, _, h3, _, h4, _, h5, _, h6, _, h7, _, h8, rfl⟩
    exact ⟨hname, hid, h1, h2, h3, h4, h5, h6, h7, h8⟩
  · rintro ⟨hname, hid, h1, h2, h3, h4, h5, h6, h7, h8⟩
    exact ⟨_, hname, _, hid, _, h1, _, h2, _, h3, _, h4, _, h5, _, h6, _, h7, _, h8, rfl⟩

end GameShelf.Sheet
