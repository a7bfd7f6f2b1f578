import GameShelf.Proofs.SheetHeader

namespace GameShelf.Sheet

open Text (trim)
open Text.Utf8 (encode)

/-- A character is encoded by one ASCII blank or by none. -/
theorem utf8EncodeChar_blank_or (c : Char) :
    (∃ b, String.utf8EncodeChar c = [b] ∧ isAsciiBlank b = true ∧ Text.isBlank c = true) ∨
      ∀ b ∈ String.utf8EncodeChar c, isAsciiBlank b = false := by
  by_cases h : ∃ b ∈ String.utf8EncodeChar c, isAsciiBlank b = true
  · obtain ⟨b, hb, hblank⟩ := h
    have hcases : b = 0x20 ∨ b = 0x09 ∨ b = 0x0A ∨ b = 0x0C ∨ b = 0x0D := by
      simpa [isAsciiBlank, or_assoc] using hblank
    have hascii : b < 0x80 := by
      rcases hcases with rfl | rfl | rfl | rfl | rfl <;> decide
    obtain ⟨hc, hn⟩ := Text.Utf8.utf8EncodeChar_of_mem hb hascii
    refine .inl ⟨b, hc, hblank, ?_⟩
    rw [Text.isBlank, ← hn]
    rcases hcases with rfl | rfl | rfl | rfl | rfl <;> decide
  · right
    intro b hb
    rw [← Bool.not_eq_true]
    exact fun hblank => h ⟨b, hb, hblank⟩

/-- Cutting ASCII blanks off the front of the bytes cuts blanks off that of the text. -/
theorem exists_dropWhile_encode (t : Text) :
    ∃ l m : Text, Text.Blank l ∧ t = l ++ m ∧ (encode t).dropWhile isAsciiBlank = encode m := by
  induction t with
  | nil => exact ⟨[], [], by simp [Text.Blank], rfl, rfl⟩
  | cons c t ih =>
    rcases utf8EncodeChar_blank_or c with ⟨b, hc, hb, hblank⟩ | hc
    · obtain ⟨l, m, hl, rfl, hm⟩ := ih
      refine ⟨c :: l, m, List.forall_mem_cons.mpr ⟨hblank, hl⟩, rfl, ?_⟩
      rw [encode, List.flatMap_cons, hc, List.singleton_append, List.dropWhile_cons_of_pos hb,
        ← encode, hm]
    · refine ⟨[], c :: t, by simp [Text.Blank], rfl, ?_⟩
      obtain ⟨b, bytes, hbytes⟩ := List.exists_cons_of_ne_nil (Text.Utf8.utf8EncodeChar_ne_nil c)
      rw [hbytes] at hc
      rw [encode, List.flatMap_cons, hbytes, List.cons_append, List.dropWhile_cons_of_neg]
      simpa using hc b List.mem_cons_self

theorem exists_rdropWhile_encode (t : Text) :
    ∃ m r : Text, Text.Blank r ∧ t = m ++ r ∧
      ((encode t).reverse.dropWhile isAsciiBlank).reverse = encode m := by
  induction t using List.reverseRecOn with
  | nil => exact ⟨[], [], by simp [Text.Blank], rfl, rfl⟩
  | append_singleton t c ih =>
    have hlast : encode (t ++ [c]) = encode t ++ String.utf8EncodeChar c := by simp [encode]
    rcases utf8EncodeChar_blank_or c with ⟨b, hc, hb, hblank⟩ | hc
    · obtain ⟨m, r, hr, rfl, hm⟩ := ih
      refine ⟨m, r ++ [c], ?_, List.append_assoc m r [c], ?_⟩
      · intro d hd
        rcases List.mem_append.mp hd with hd | hd
        · exact hr d hd
        · rwa [List.mem_singleton.mp hd]
      · rw [hlast, hc, List.reverse_append, List.reverse_singleton, List.singleton_append,
          List.dropWhile_cons_of_pos hb, hm]
    · refine ⟨t ++ [c], [], by simp [Text.Blank], by simp, ?_⟩
      have hne : (String.utf8EncodeChar c).reverse ≠ [] :=
        mt List.reverse_eq_nil_iff.mp (Text.Utf8.utf8EncodeChar_ne_nil c)
      obtain ⟨b, bytes, hbytes⟩ := List.exists_cons_of_ne_nil hne
      have hb : isAsciiBlank b = false := by
        apply hc
        rw [← List.mem_reverse, hbytes]
        exact List.mem_cons_self
      rw [hlast, List.reverse_append, hbytes, List.cons_append,
        List.dropWhile_cons_of_neg (by simp [hb]), ← List.cons_append, ← hbytes,
        ← List.reverse_append, List.reverse_reverse]

theorem exists_trimBytes (t : Text) :
    ∃ m : Text, trimBytes (encode t) = encode m ∧ trim m = trim t := by
  obtain ⟨l, t, hl, rfl, hstart⟩ := exists_dropWhile_encode t
  obtain ⟨m, r, hr, rfl, hend⟩ := exists_rdropWhile_encode t
  refine ⟨m, ?_, ?_⟩
  · rw [trimBytes, hstart, hend]
  · rw [← List.append_assoc, Text.trim_padded hl hr]

/-- The blanks that go before a field is read are no loss: the others are cut off its text. -/
theorem decode_trimRecord {r : Csv.Record} {cells : List Text} (h : r.fields = cells.map encode)
    (index : Nat) : decode index (trimRecord r) = .ok (cells.map trim) := by
  choose m hm htrim using exists_trimBytes
  apply decode_eq_ok_iff.mpr
  refine ⟨cells.map m, ?_, ?_⟩
  · rw [trimRecord, h, List.map_map, List.map_map]
    exact List.map_congr_left fun t _ => (hm t).symm
  · rw [List.map_map]
    exact List.map_congr_left fun t _ => htrim t

/-- A cell stands under the leftmost column of an attribute and has a text, apart from blanks at its
ends. -/
def Under (headers row : List Text) (a : Attribute) (t : Text) : Prop :=
  ∃ before header after cell, headers = before ++ header :: after ∧
    (∀ h ∈ before, ¬a.Heads h) ∧ a.Heads header ∧ row[before.length]? = some cell ∧
    trim cell = t ∧ t ≠ []

/-- The text under an attribute's column is read as a number. -/
def Reads {A : Type} (read : Text → Option A) (headers row : List Text) (a : Attribute) (n : A) :
    Prop :=
  ∃ t, Under headers row a t ∧ read t = some n

/-- A row of cells makes up a game. -/
structure Bears (headers row : List Text) (g : Game) : Prop where
  name : Under headers row .name g.name
  id : Reads Numeral.readInt64 headers row .id g.id
  rating : Reads Binary64.read headers row .rating g.rating
  difficulty : Reads Binary64.read headers row .difficulty g.difficulty
  rank : Reads Numeral.readUInt32 headers row .rank g.rank
  minPlayers : Reads Numeral.readUInt32 headers row .minPlayers g.minPlayers
  maxPlayers : Reads Numeral.readUInt32 headers row .maxPlayers g.maxPlayers
  minPlayTime : Reads Numeral.readUInt32 headers row .minPlayTime g.minPlayTime
  maxPlayTime : Reads Numeral.readUInt32 headers row .maxPlayTime g.maxPlayTime
  year : Reads Numeral.readInt32 headers row .year g.year

/-- The games of the rows in their order. A row that makes up none is passed over. -/
inductive Gathers (headers : List Text) : List (List Text) → List Game → Prop where
  | nil : Gathers headers [] []
  | game {row rows g gs} : Bears headers row g → Gathers headers rows gs →
      Gathers headers (row :: rows) (g :: gs)
  | skip {row rows gs} : (∀ g, ¬Bears headers row g) → Gathers headers rows gs →
      Gathers headers (row :: rows) gs

section

variable {headers row : List Text} {a : Attribute} {t : Text}

theorem place?_map_trim (headers : List Text) (a : Attribute) :
    place? (headers.map trim) a = place? headers a := by
  rw [place?, List.findIdx?_map, place?]
  congr 1
  funext header
  simp only [Function.comp_apply, heads_trim_iff]

theorem place?_eq_some_iff {i : Nat} :
    place? headers a = some i ↔
      ∃ before header after, headers = before ++ header :: after ∧
        (∀ h ∈ before, ¬a.Heads h) ∧ a.Heads header ∧ before.length = i := by
  rw [place?]
  constructor
  · intro h
    obtain ⟨hlt, hheads, hbefore⟩ := List.findIdx?_eq_some_iff_getElem.mp h
    refine ⟨headers.take i, headers[i], headers.drop (i + 1), ?_, ?_, of_decide_eq_true hheads,
      List.length_take_of_le (Nat.le_of_lt hlt)⟩
    · rw [← List.drop_eq_getElem_cons hlt, List.take_append_drop]
    · intro header hheader
      obtain ⟨j, hj, rfl⟩ := List.mem_take_iff_getElem.mp hheader
      simpa using hbefore j (by omega)
  · rintro ⟨before, header, after, rfl, hbefore, hheads, rfl⟩
    have hnone : before.findIdx? (fun h => decide (a.Heads h)) = none := by
      apply List.findIdx?_eq_none_iff.mpr
      intro h hh
      exact decide_eq_false (hbefore h hh)
    rw [List.findIdx?_append, hnone, List.findIdx?_cons, if_pos (decide_eq_true hheads)]
    simp

theorem under_iff :
    Under headers row a t ↔
      (∃ i, place? headers a = some i ∧ (row.map trim)[i]? = some t) ∧ t ≠ [] := by
  simp only [place?_eq_some_iff, List.getElem?_map, Option.map_eq_some_iff]
  constructor
  · rintro ⟨before, header, after, cell, hheaders, hbefore, hheads, hcell, ht, hne⟩
    exact ⟨⟨_, ⟨before, header, after, hheaders, hbefore, hheads, rfl⟩, cell, hcell, ht⟩, hne⟩
  · rintro ⟨⟨_, ⟨before, header, after, hheaders, hbefore, hheads, rfl⟩, cell, hcell, ht⟩, hne⟩
    exact ⟨before, header, after, cell, hheaders, hbefore, hheads, hcell, ht, hne⟩

end

theorem not_bears_of_blank {headers row : List Text} (h : ∀ cell ∈ row, trim cell = []) (g : Game) :
    ¬Bears headers row g := by
  intro hbears
  obtain ⟨_, _, _, cell, -, -, -, hcell, hname, hne⟩ := hbears.name
  apply hne
  rw [← hname]
  exact h cell (List.mem_of_getElem? hcell)

section

variable {headers : List Text} {cols : Columns} (hcols : columns (headers.map trim) = .ok cols)

include hcols

theorem cell_eq_ok_iff_under {row : List Text} {a : Attribute} {t : Text} :
    cell cols (row.map trim) a = .ok t ↔ Under headers row a t := by
  rw [cell_eq_ok_iff, under_iff, columns_lookup hcols, place?_map_trim]

theorem number_eq_ok_iff_reads {A : Type} {read : Text → Option A} {row : List Text}
    {a : Attribute} {n : A} :
    number read cols (row.map trim) a = .ok n ↔ Reads read headers row a n := by
  simp only [number_eq_ok_iff, cell_eq_ok_iff_under hcols, Reads]

theorem game_eq_ok_iff_bears {row : List Text} {g : Game} :
    game cols (row.map trim) = .ok g ↔ Bears headers row g := by
  simp only [game_eq_ok_iff, cell_eq_ok_iff_under hcols, number_eq_ok_iff_reads hcols]
  constructor
  · rintro ⟨hname, hid, hmin, hmax, hminTime, hmaxTime, hdifficulty, hrank, hrating, hyear⟩
    exact ⟨hname, hid, hrating, hdifficulty, hrank, hmin, hmax, hminTime, hmaxTime, hyear⟩
  · rintro ⟨hname, hid, hrating, hdifficulty, hrank, hmin, hmax, hminTime, hmaxTime, hyear⟩
    exact ⟨hname, hid, hmin, hmax, hminTime, hmaxTime, hdifficulty, hrank, hrating, hyear⟩

theorem gameOf?_eq_some_iff {row : List Text} {r : Csv.Record} (h : r.fields = row.map encode)
    {g : Game} : gameOf? cols r = some g ↔ Bears headers row g := by
  rw [gameOf?, row_game?_eq_some_iff]
  simp only [decode_trimRecord h, Except.ok.injEq, exists_eq_left', game_eq_ok_iff_bears hcols]

/-- A row bears one game at most, so there is one way to gather the games. -/
theorem Gathers.unique {rows : List (List Text)} {gs gs' : List Game}
    (h : Gathers headers rows gs) (h' : Gathers headers rows gs') : gs = gs' := by
  have hunique {row : List Text} {g g' : Game} (h : Bears headers row g)
      (h' : Bears headers row g') : g = g' := by
    rw [← game_eq_ok_iff_bears hcols] at h h'
    exact Except.ok.inj (h.symm.trans h')
  induction h generalizing gs' with
  | nil =>
    cases h'
    rfl
  | game hg _ ih =>
    cases h' with
    | game hg' h' => rw [hunique hg hg', ih h']
    | skip hskip _ => exact absurd hg (hskip _)
  | skip hskip _ ih =>
    cases h' with
    | game hg' _ => exact absurd hg' (hskip _)
    | skip _ h' => exact ih h'

/-- The records of a sheet bear the games of the rows that they were written for. -/
theorem gathers_records {rows : List (List Text)} {others : List Csv.Record}
    (h : others.map Csv.Record.fields =
      (rows.map fun row => row.map encode).filter fun row => !row.isEmpty) :
    Gathers headers rows (others.filterMap (gameOf? cols)) := by
  induction rows generalizing others with
  | nil =>
    rw [List.map_eq_nil_iff.mp h]
    exact .nil
  | cons row rows ih =>
    rw [List.map_cons] at h
    by_cases hrow : row = []
    -- An empty row leaves no record, but it bears no game either.
    · subst hrow
      exact .skip (not_bears_of_blank (by simp)) (ih h)
    · rw [List.filter_cons_of_pos (by simpa using hrow)] at h
      obtain ⟨r, others, rfl, hr, hothers⟩ := List.map_eq_cons_iff.mp h
      cases hg : gameOf? cols r with
      | none =>
        rw [List.filterMap_cons_none hg]
        refine .skip ?_ (ih hothers)
        intro g hbears
        rw [(gameOf?_eq_some_iff hcols hr).mpr hbears] at hg
        cases hg
      | some g =>
        rw [List.filterMap_cons_some hg]
        exact .game ((gameOf?_eq_some_iff hcols hr).mp hg) (ih hothers)

end

/-- A sheet that is written out with a column for every attribute is read, and its games are those
of its rows. -/
theorem games_written {headers : List Text} {rows : List (List Text)} {bytes : List UInt8}
    (hheaders : ∀ a : Attribute, ∃ header ∈ headers, a.Heads header)
    (h : Csv.Writes ((headers :: rows).map fun row => row.map encode) bytes) :
    ∃ gs, games bytes = .ok gs ∧ ∀ gs', Gathers headers rows gs' ↔ gs' = gs := by
  have hne : headers ≠ [] := by
    obtain ⟨header, hheader, -⟩ := hheaders .name
    exact List.ne_nil_of_mem hheader
  have hrecords := Csv.records_of_writes h
  rw [List.map_cons, List.filter_cons_of_pos (by simpa using hne)] at hrecords
  obtain ⟨header, others, hall, hheader, hothers⟩ := List.map_eq_cons_iff.mp hrecords
  obtain ⟨cols, hheaderColumns, hcols⟩ := exists_headerColumns header headers hheader hheaders
  have hgathers := gathers_records hcols hothers
  refine ⟨_, ?_, fun gs' => ⟨fun h' => Gathers.unique hcols h' hgathers, ?_⟩⟩
  · rw [games_of_records_cons hall, hheaderColumns]
    rfl
  · rintro rfl
    exact hgathers

/-- Columns in an order of their own, one of them unknown and one there twice. -/
def partyHeaders : List Text :=
  ["Rank ".toList, "note".toList, " OBJECTNAME".toList, "objectId".toList, "average".toList,
    "avgweight".toList, "minplayers".toList, "maxplayers".toList, "minplaytime".toList,
    "maxplaytime".toList, "yearpublished".toList, "rank".toList]

/-- A row that is one cell short, with quotes and the end of a line within a cell. -/
def partyRow : List Text :=
  [" 12".toList, "\"old\", they say\n".toList, "Go\t".toList, "188".toList, "7.5".toList,
    "3".toList, "2".toList, "4".toList, "30".toList, "180".toList, "-2200".toList]

def partyGame : Game where
  name := "Go".toList
  id := 188
  rating := ⟨0x401E000000000000⟩
  difficulty := ⟨0x4008000000000000⟩
  rank := 12
  minPlayers := 2
  maxPlayers := 4
  minPlayTime := 30
  maxPlayTime := 180
  year := -2200

theorem columns_partyHeaders : columns (partyHeaders.map trim) =
    .ok [(.name, 2), (.id, 3), (.rating, 4), (.difficulty, 5), (.rank, 0), (.minPlayers, 6),
      (.maxPlayers, 7), (.minPlayTime, 8), (.maxPlayTime, 9), (.year, 10)] := by
  decide +kernel

theorem bears_partyGame : Bears partyHeaders partyRow partyGame :=
  (game_eq_ok_iff_bears columns_partyHeaders).mp (by decide +kernel)

/-- The header, the row and a row of one blank cell, each line with an end of its own. -/
def partySheet : List UInt8 :=
  Csv.quoteRow (partyHeaders.map encode) ++ [0x0D, 0x0A] ++
    (Csv.quoteRow (partyRow.map encode) ++ [0x0D] ++
      (Csv.quoteRow ([" ".toList].map encode) ++ [0x0A] ++ []))

/-- A row of one blank cell bears nothing. -/
theorem games_partySheet : games partySheet = .ok [partyGame] := by
  have hblank (g : Game) : ¬Bears partyHeaders [" ".toList] g := not_bears_of_blank (by decide) g
  have hheaders : ∀ a : Attribute, ∃ header ∈ partyHeaders, a.Heads header := by
    have hall : ∀ a ∈ Attribute.all, ∃ header ∈ partyHeaders, a.Heads header := by decide +kernel
    exact fun a => hall a a.mem_all
  have hwrites : Csv.Writes
      ([partyHeaders, partyRow, [" ".toList]].map fun row => row.map encode) partySheet :=
    .row (by decide +kernel) (by decide) (.row (by decide +kernel) (by decide)
      (.row (by decide) (by decide) .nil))
  obtain ⟨gs, hgames, hgathers⟩ := games_written hheaders hwrites
  rw [hgames, ← (hgathers [partyGame]).mp (.game bears_partyGame (.skip hblank .nil))]

end GameShelf.Sheet
