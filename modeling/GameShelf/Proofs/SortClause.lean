import GameShelf.Proofs.History
import GameShelf.Proofs.WrittenQuery

namespace GameShelf

/-- Neither a comma nor a colon stands in a name. -/
theorem Attribute.Named.not_mem_of_mark {a : Attribute} {t : Text} (h : a.Named t) {c : Char}
    (hc : c = ',' ∨ c = ':') : c ∉ t := by
  have hnames : ∀ a ∈ all, ∀ name ∈ a.names, (',' ∉ Text.asciiLower name) ∧
      (':' ∉ Text.asciiLower name) := by decide +kernel
  intro hmem
  rcases hc with rfl | rfl
  · obtain ⟨name, hname, hletter⟩ := h.exists_letter hmem (by decide)
    exact (hnames a a.mem_all name hname).1 hletter
  · obtain ⟨name, hname, hletter⟩ := h.exists_letter hmem (by decide)
    exact (hnames a a.mem_all name hname).2 hletter

namespace Clause

/-- A clause that asks for a sort by what an attribute may be called, in a direction. -/
def sortBy (name : Text) (d : Direction) : Text := "sort:".toList ++ (name ++ ':' :: d.label)

theorem sortRequest?_sortBy (name : Text) (d : Direction) :
    sortRequest? (sortBy name d) = some (name ++ ':' :: d.label) := rfl

theorem trim_sortBy (name : Text) (d : Direction) :
    Text.trim (sortBy name d) = sortBy name d := by
  have hlabel : Text.trim (':' :: d.label) = ':' :: d.label :=
    Text.trim_eq_self (List.forall_mem_cons.mpr ⟨by decide, fun _ hc => (d.label_chars hc).1⟩)
  rw [sortBy, ← List.append_assoc]
  exact Text.trim_append_append (by decide) (by decide) hlabel (List.cons_ne_nil _ _) name

end Clause

namespace Query

/-- A clause that is a sort request makes up a query on its own. -/
theorem read_sortBy {name : Text} (h : ',' ∉ name) (d : Direction) :
    read (Clause.sortBy name d) =
      ⟨[], some (SortKey.readOrByName (name ++ ':' :: d.label))⟩ := by
  have hcomma : ',' ∉ Clause.sortBy name d := by
    simp only [Clause.sortBy, List.mem_append, List.mem_cons, not_or]
    exact ⟨by decide, h, by decide, fun hc => (d.label_chars hc).2 rfl⟩
  have hpiece : Clause.read? (Clause.sortBy name d) = some (.sort (name ++ ':' :: d.label)) := by
    rw [Clause.read?, Clause.trim_sortBy, Clause.sortRequest?_sortBy]
    rfl
  rw [read_eq_foldl, Text.splitOn_of_not_mem hcomma, List.foldl_cons, List.foldl_nil, take, hpiece]
  rfl

/-- A filter text with a sort clause behind it. -/
def sortedText (t name : Text) (d : Direction) : Text := t ++ ',' :: Clause.sortBy name d

theorem read_sortedText (t : Text) {name : Text} (h : ',' ∉ name) (d : Direction) :
    read (sortedText t name d) =
      ⟨(read t).conditions, some (SortKey.readOrByName (name ++ ':' :: d.label))⟩ := by
  rw [sortedText, read_append, read_sortBy h]
  simp

end Query

namespace SortKey

variable {name : Text} {field : Attribute}

theorem readOrByName_of_named (h : field.Named name) (hs : field.isSortable = true)
    (d : Direction) : readOrByName (name ++ ':' :: d.label) = ⟨field, d, hs⟩ := by
  rw [readOrByName, read_append (h.not_mem_of_mark (.inr rfl)), Attribute.resolve,
    Attribute.named?_eq_some_iff.mpr h]
  simp only [Except.bind, make_of_sortable hs]

/-- A name that no attribute goes by, or one without an order, falls back to the order of names. -/
theorem readOrByName_of_not_sortable (hcolon : ':' ∉ name)
    (h : ∀ field : Attribute, field.Named name → field.isSortable = false) (d : Direction) :
    readOrByName (name ++ ':' :: d.label) = byName := by
  rw [readOrByName, read_append hcolon, Attribute.resolve]
  cases hn : Attribute.named? name with
  | none => rfl
  | some field =>
    have hs := h field (Attribute.named?_eq_some_iff.mp hn)
    simp only [Except.bind, make_of_not_sortable hs]

end SortKey

namespace Catalog

variable (c : Catalog) {t name : Text}

theorem filter_sortedText (ht : (Query.read t).sort? = none) (hname : ',' ∉ name)
    (d : Direction) :
    c.filter (Query.sortedText t name d) =
      c.apply (Query.read t) (SortKey.readOrByName (name ++ ':' :: d.label)) := by
  have hview (key : SortKey) : (⟨(Query.read t).conditions, some key⟩ : Query).view c.games .byName =
      (Query.read t).view c.games key := by
    rw [Query.view, Query.view, Query.sortOr, Query.sortOr, ht]
    rfl
  rw [filter, filterWith, Query.read_sortedText t hname, apply, apply, hview]

/-- To ask for a sort by name and direction is to put a sort clause behind the filter text, if the
name is that of an attribute with an order. Otherwise it is refused and leaves no trace, while the
clause falls back to the order of names. Either way the games that the text selects are shown. -/
theorem sort_clause_agrees (c : Catalog) {t : Text} (ht : (Query.read t).sort? = none)
    (name : Text) (ascending : Bool) :
    (∀ (field : Attribute) (hs : field.isSortable = true), field.Named name →
      c.filterSortedNamed t name ascending =
        .ok (c.filter (Query.sortedText t name (.ofAscending ascending))) ∧
      (c.filter (Query.sortedText t name (.ofAscending ascending))).current.sort =
        ⟨field, .ofAscending ascending, hs⟩ ∧
      (Query.read t).Shows c.games ⟨field, .ofAscending ascending, hs⟩
        (c.filter (Query.sortedText t name (.ofAscending ascending))).current.entries) ∧
    (',' ∉ name → ':' ∉ name →
      (∀ field : Attribute, field.Named name → field.isSortable = false) →
      (∃ fault, c.filterSortedNamed t name ascending = .error fault ∧
        ((∀ field : Attribute, ¬field.Named name) ∧ fault = .unknownAttribute (Text.trim name) ∨
          ∃ field : Attribute, field.Named name ∧ fault = .unsortable field)) ∧
      c.step (.filterSortedNamed t name ascending) = c ∧
      (c.filter (Query.sortedText t name (.ofAscending ascending))).current.records =
        SortKey.byName.sort (c.games.filter (Query.read t).accepts) ∧
      (c.filter (Query.sortedText t name (.ofAscending ascending))).current.sort = .byName ∧
      (Query.read t).Shows c.games .byName
        (c.filter (Query.sortedText t name (.ofAscending ascending))).current.entries) := by
  have hsort (key : SortKey) : (Query.read t).sortOr key = key := by
    rw [Query.sortOr, ht]
    rfl
  have hshows (key : SortKey) :
      (Query.read t).Shows c.games key (c.apply (Query.read t) key).current.entries := by
    have h := (Query.read t).view_shows_games c.games key
    rwa [hsort] at h
  constructor
  · intro field hs hnamed
    have hfilter := c.filter_sortedText ht (hnamed.not_mem_of_mark (.inl rfl))
      (.ofAscending ascending)
    rw [SortKey.readOrByName_of_named hnamed hs] at hfilter
    rw [hfilter]
    refine ⟨?_, hsort _, hshows _⟩
    rw [filterSortedNamed, Attribute.resolve, Attribute.named?_eq_some_iff.mpr hnamed]
    exact c.filterSorted_of_sortable t hs ascending
  · intro hcomma hcolon hnone
    have hfilter := c.filter_sortedText ht hcomma (.ofAscending ascending)
    rw [SortKey.readOrByName_of_not_sortable hcolon hnone] at hfilter
    have hrefused : ∃ fault, (Call.filterSortedNamed t name ascending).Refused fault ∧
        ((∀ field : Attribute, ¬field.Named name) ∧ fault = .unknownAttribute (Text.trim name) ∨
          ∃ field : Attribute, field.Named name ∧ fault = .unsortable field) := by
      cases hn : Attribute.named? name with
      | none =>
        exact ⟨_, .unknown hn, .inl ⟨Attribute.named?_eq_none_iff.mp hn, rfl⟩⟩
      | some field =>
        have hfield := Attribute.named?_eq_some_iff.mp hn
        exact ⟨_, .named hn (hnone field hfield), .inr ⟨field, hfield, rfl⟩⟩
    obtain ⟨fault, hfault, hwhy⟩ := hrefused
    have hp := c.perform_of_refused hfault
    rw [hfilter]
    refine ⟨⟨fault, hp, hwhy⟩, step_of_error hp, ?_, hsort _, hshows _⟩
    change ((Query.read t).view c.games .byName).records = _
    rw [Query.view_records, hsort]

/-- Two of these games share a name but for its case, and one has no year. -/
def shelvedGames : List Game :=
  [("Go", 3, 1990), ("Solo", 1, 0), ("Azul", 2, 2017), ("go", 4, 1991)].map fun game =>
    { Game.ofName game.1.toList with rank := game.2.1, year := game.2.2 }

/-- A name with blanks around it, one without an order, and none that is known. -/
theorem sort_clause_padded :
    (Query.read "year>0".toList).sort? = none ∧
    Attribute.rank.Named " RANK\n".toList ∧
    (ofGames shelvedGames).filterSortedNamed "year>0".toList " RANK\n".toList false =
      .ok ((ofGames shelvedGames).filter "year>0,sort: RANK\n:desc".toList) ∧
    ((ofGames shelvedGames).filter "year>0,sort: RANK\n:desc".toList).current.positions =
      [3, 0, 2] ∧
    Attribute.id.Named "ObjectId".toList ∧
    (ofGames shelvedGames).step (.filterSortedNamed "year>0".toList "ObjectId".toList true) =
      ofGames shelvedGames ∧
    ((ofGames shelvedGames).filter "year>0,sort:ObjectId:asc".toList).current.sort = .byName ∧
    ((ofGames shelvedGames).filter "year>0,sort:ObjectId:asc".toList).current.positions =
      [2, 0, 3] ∧
    (Query.read "year>0".toList).Shows (ofGames shelvedGames).games .byName
      ((ofGames shelvedGames).filter "year>0,sort:ObjectId:asc".toList).current.entries ∧
    (∃ fault, (ofGames shelvedGames).filterSortedNamed "year>0".toList [] true =
      .error fault) := by
  have ht : (Query.read "year>0".toList).sort? = none := by decide +kernel
  have hrank : Attribute.rank.Named " RANK\n".toList := ⟨"rank".toList, by decide, by decide⟩
  have hid : Attribute.id.Named "ObjectId".toList := ⟨"objectid".toList, by decide, by decide⟩
  have hnone : ∀ field : Attribute, ¬field.Named [] := fun field h => h.not_blank (by decide)
  obtain ⟨hsorted, -⟩ := sort_clause_agrees (ofGames shelvedGames) ht " RANK\n".toList false
  obtain ⟨-, hrefused⟩ := sort_clause_agrees (ofGames shelvedGames) ht "ObjectId".toList true
  obtain ⟨-, hunknown⟩ := sort_clause_agrees (ofGames shelvedGames) ht [] true
  obtain ⟨-, hsame, -, hkey, hshows⟩ := hrefused (by decide) (by decide) fun field h => by
    rw [h.unique hid]
    rfl
  obtain ⟨⟨fault, hfault, -⟩, -⟩ := hunknown (by decide) (by decide) fun field h =>
    absurd h (hnone field)
  exact ⟨ht, hrank, (hsorted .rank rfl hrank).1, by decide +kernel, hid, hsame, hkey,
    by decide +kernel, hshows, fault, hfault⟩

end Catalog

end GameShelf
