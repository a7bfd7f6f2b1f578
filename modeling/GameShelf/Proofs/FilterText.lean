import GameShelf.Proofs.Text
import GameShelf.Proofs.View

namespace GameShelf

namespace Clause

theorem read?_trim (piece : Text) : read? (Text.trim piece) = read? piece := by
  rw [read?, read?, Text.trim_trim]

/-- Whether a piece of a filter text is blank, or neither opens a sort clause nor reads as a
condition. -/
def isIdle (piece : Text) : Bool :=
  let clause := Text.trim piece
  clause.isEmpty ||
    (sortRequest? clause).isNone && match Condition.read clause with
      | .ok _ => false
      | .error _ => true

/-- The pieces of a filter text that are not idle, without the blanks around them. -/
def effective (t : Text) : List Text :=
  ((Text.splitOn ',' t).map Text.trim).filter fun piece => !isIdle piece

/-- What the sort clauses of a filter text ask for. -/
def sortRequests (t : Text) : List Text :=
  (Text.splitOn ',' t).filterMap fun piece => sortRequest? (Text.trim piece)

theorem bind_sortKey?_read? (piece : Text) :
    (read? piece).bind sortKey? =
      (sortRequest? (Text.trim piece)).map SortKey.readOrByName := by
  rw [read?]
  split
  next h =>
    rw [List.isEmpty_iff.mp h]
    rfl
  next h =>
    cases hr : sortRequest? (Text.trim piece) with
    | some request => rfl
    | none => cases Condition.read (Text.trim piece) <;> rfl

theorem bind_condition?_read? (piece : Text) :
    (read? piece).bind condition? =
      if (sortRequest? (Text.trim piece)).isSome then none
      else (Condition.read (Text.trim piece)).toOption := by
  rw [read?]
  split
  next h =>
    rw [List.isEmpty_iff.mp h]
    rfl
  next h =>
    cases hr : sortRequest? (Text.trim piece) with
    | some request => rfl
    | none => cases Condition.read (Text.trim piece) <;> rfl

end Clause

namespace Query

/-- A query after one more piece of its text. -/
def take (q : Query) (piece : Text) : Query :=
  match Clause.read? piece with
  | some (.condition c) => { q with conditions := q.conditions ++ [c] }
  | some (.sort request) => { q with sort? := some (SortKey.readOrByName request) }
  | _ => q

theorem take_trim (q : Query) (piece : Text) : q.take (Text.trim piece) = q.take piece := by
  rw [take, take, Clause.read?_trim]

theorem take_of_isIdle {piece : Text} (h : Clause.isIdle piece = true) (q : Query) :
    q.take piece = q := by
  rw [take, Clause.read?]
  unfold Clause.isIdle at h
  cases hb : (Text.trim piece).isEmpty with
  | true => rfl
  | false =>
    simp only [hb, Bool.false_or, Bool.and_eq_true, Option.isNone_iff_eq_none] at h
    obtain ⟨hsort, hread⟩ := h
    simp only [hsort, Bool.false_eq_true, if_false]
    cases hc : Condition.read (Text.trim piece) with
    | ok c => rw [hc] at hread; exact Bool.noConfusion hread
    | error fault => rfl

theorem foldl_take (pieces : List Text) (q : Query) :
    pieces.foldl take q =
      ⟨q.conditions ++ (pieces.filterMap Clause.read?).filterMap Clause.condition?,
        ((pieces.filterMap Clause.read?).filterMap Clause.sortKey?).getLast?.or q.sort?⟩ := by
  induction pieces generalizing q with
  | nil => rw [List.foldl_nil, List.filterMap_nil, List.filterMap_nil, List.append_nil]; rfl
  | cons piece pieces ih =>
    rw [List.foldl_cons, ih, take, List.filterMap_cons]
    cases Clause.read? piece with
    | none => rfl
    | some clause =>
      cases clause with
      | condition c => exact congrArg (Query.mk · _) (List.append_assoc ..)
      | sort request =>
        -- this key gives way to a later one, and takes the place of an earlier one
        have hlast (key : SortKey) (keys : List SortKey) :
            keys.getLast?.or (some key) = (key :: keys).getLast?.or q.sort? := by
          rw [List.getLast?_cons]
          cases keys.getLast? <;> rfl
        exact congrArg (Query.mk _ ·) (hlast _ _)
      | refused clause fault => rfl

/-- A text is read piece by piece. -/
theorem read_eq_foldl (t : Text) : read t = (Text.splitOn ',' t).foldl take all := by
  rw [foldl_take, all, List.nil_append, Option.or_none]
  rfl

theorem foldl_take_effective (pieces : List Text) (q : Query) :
    ((pieces.map Text.trim).filter fun piece => !Clause.isIdle piece).foldl take q =
      pieces.foldl take q := by
  induction pieces generalizing q with
  | nil => rfl
  | cons piece pieces ih =>
    rw [List.map_cons, List.filter_cons, List.foldl_cons, ← take_trim q piece]
    cases h : Clause.isIdle (Text.trim piece) with
    | true => rw [take_of_isIdle h]; exact ih q
    | false => exact ih _

theorem read_eq_foldl_effective (t : Text) : read t = (Clause.effective t).foldl take all := by
  rw [read_eq_foldl, Clause.effective, foldl_take_effective]

/-- Blanks around a filter text are of no account. -/
theorem read_trim (t : Text) : read (Text.trim t) = read t := by
  rw [read_eq_foldl_effective, read_eq_foldl_effective, Clause.effective, Clause.effective,
    Text.map_trim_splitOn (by decide)]

theorem read_append (a b : Text) :
    read (a ++ ',' :: b) =
      ⟨(read a).conditions ++ (read b).conditions, (read b).sort?.or (read a).sort?⟩ := by
  rw [read_eq_foldl, Text.splitOn_append, List.foldl_append, ← read_eq_foldl, foldl_take]
  rfl

theorem read_sort? (t : Text) :
    (read t).sort? = (Clause.sortRequests t).getLast?.map SortKey.readOrByName := by
  have h : (Clause.readAll t).filterMap Clause.sortKey? =
      (Clause.sortRequests t).map SortKey.readOrByName := by
    rw [Clause.readAll, Clause.sortRequests, List.filterMap_filterMap, List.map_filterMap]
    congr 1
    funext piece
    exact Clause.bind_sortKey?_read? piece
  rw [← List.getLast?_map, ← h]
  rfl

theorem accepts_read_append {R : Type} [HasAttributes R] (a b : Text) (r : R) :
    (read (a ++ ',' :: b)).accepts r = ((read a).accepts r && (read b).accepts r) := by
  rw [read_append]
  exact List.all_append

/-- What a comma joins is a conjunction, under the last sort clause of all. Pieces that are blank
or refused change nothing, wherever they stand. -/
theorem read_joined (a b : Text) :
    read (a ++ ',' :: b) =
      ⟨(read a).conditions ++ (read b).conditions, (read b).sort?.or (read a).sort?⟩ ∧
    (∀ {R : Type} [HasAttributes R] (records : List R) (key : SortKey),
      (∀ i, i ∈ ((read (a ++ ',' :: b)).view records key).positions ↔
        i ∈ ((read a).view records key).positions ∧
        i ∈ ((read b).view records key).positions) ∧
      ((read (a ++ ',' :: b)).view records key).sort =
        ((read b).sort?.or (read a).sort?).getD key ∧
      ((read (a ++ ',' :: b)).view records key).records =
        (((read b).sort?.or (read a).sort?).getD key).sort
          (records.filter fun r => (read a).accepts r && (read b).accepts r) ∧
      ((((read b).sort?.or (read a).sort?).getD key).field.OneKind {r | r ∈ records} →
        (read (a ++ ',' :: b)).Shows records (((read b).sort?.or (read a).sort?).getD key)
          ((read (a ++ ',' :: b)).view records key).entries)) ∧
    (∀ s t : Text, Clause.effective s = Clause.effective t → read s = read t) ∧
    ∀ t : Text, (read t).sort? =
      (Clause.sortRequests t).getLast?.map fun request =>
        match SortKey.read request with
        | .ok key => key
        | .error _ => .byName := by
  refine ⟨read_append a b, ?_, ?_, read_sort?⟩
  · intro R _ records key
    have hkey : (read (a ++ ',' :: b)).sortOr key =
        ((read b).sort?.or (read a).sort?).getD key := by
      rw [read_append]
      rfl
    refine ⟨fun i => ?_, hkey, ?_, fun hkind => ?_⟩
    · simp only [mem_positions, accepts_read_append, Bool.and_eq_true]
      constructor
      · rintro ⟨r, hr, ha, hb⟩
        exact ⟨⟨r, hr, ha⟩, ⟨r, hr, hb⟩⟩
      · rintro ⟨⟨r, hr, ha⟩, ⟨s, hs, hb⟩⟩
        obtain rfl : r = s := Option.some.inj (hr.symm.trans hs)
        exact ⟨r, hr, ha, hb⟩
    · rw [view_records, funext (accepts_read_append a b), hkey]
    · rw [← hkey] at hkind ⊢
      exact view_shows (SortKey.compare_preorderOn _ hkind)
  · intro s t h
    rw [read_eq_foldl_effective, read_eq_foldl_effective, h]

def rankedGame (name : String) (rank minPlayers : UInt32) : Game :=
  { Game.ofName name.toList with rank := rank, minPlayers := minPlayers }

def rankedGames : List Game :=
  [rankedGame "Go" 1 2, rankedGame "Solo" 4 1, rankedGame "Catan" 3 3, rankedGame "Azul" 3 2]

/-- Pieces that are idle, and texts of which the second overrules the order of the first. -/
theorem read_rankedGames :
    Clause.effective "minPlayers >= 2,, bogus,sort:shoe".toList =
      Clause.effective "shoe==9, minPlayers >= 2,sort:shoe".toList ∧
    read "minPlayers >= 2,, bogus,sort:shoe".toList =
      read "shoe==9, minPlayers >= 2,sort:shoe".toList ∧
    Attribute.rank.OneKind {g | g ∈ rankedGames} ∧
    (read "minPlayers>=2,sort:name,rank>0,sort:rank:desc".toList).Shows rankedGames
      ⟨.rank, .descending, rfl⟩
      [(rankedGame "Catan" 3 3, 2), (rankedGame "Azul" 3 2, 3), (rankedGame "Go" 1 2, 0)] := by
  have hidle : Clause.effective "minPlayers >= 2,, bogus,sort:shoe".toList =
      Clause.effective "shoe==9, minPlayers >= 2,sort:shoe".toList := by decide +kernel
  have hkind : Attribute.rank.OneKind {g | g ∈ rankedGames} := Game.oneKind .rank _
  obtain ⟨-, -, heffective, -⟩ := read_joined [] []
  obtain ⟨-, hview, -⟩ :=
    read_joined "minPlayers>=2,sort:name".toList "rank>0,sort:rank:desc".toList
  obtain ⟨-, -, -, hshows⟩ := hview rankedGames .byName
  have hkey : ((read "rank>0,sort:rank:desc".toList).sort?.or
      (read "minPlayers>=2,sort:name".toList).sort?).getD .byName =
        ⟨.rank, .descending, rfl⟩ := by decide +kernel
  have hentries : ((read ("minPlayers>=2,sort:name".toList ++ ',' ::
      "rank>0,sort:rank:desc".toList)).view rankedGames .byName).entries =
        [(rankedGame "Catan" 3 3, 2), (rankedGame "Azul" 3 2, 3), (rankedGame "Go" 1 2, 0)] := by
    decide +kernel
  rw [hkey, hentries] at hshows
  exact ⟨hidle, heffective _ _ hidle, hkind, hshows hkind⟩

end Query

end GameShelf
