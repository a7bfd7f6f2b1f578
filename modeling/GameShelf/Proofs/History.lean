import GameShelf.Catalog
import GameShelf.Proofs.View
import Mathlib.Data.List.Induction

namespace GameShelf

namespace SortKey

theorem make_of_sortable {field : Attribute} (h : field.isSortable = true) (d : Direction) :
    make field d = .ok ⟨field, d, h⟩ := dif_pos h

theorem make_of_not_sortable {field : Attribute} (h : field.isSortable = false) (d : Direction) :
    make field d = .error (.unsortable field) := dif_neg (by rw [h]; exact Bool.false_ne_true)

end SortKey

namespace Catalog

/-- What can be asked of a catalog. -/
inductive Call where
  | filter (t : Text)
  | filterBy (t : Text) (field : Attribute)
  | filterSorted (t : Text) (field : Attribute) (ascending : Bool)
  | filterSortedNamed (t name : Text) (ascending : Bool)
  | filterWith (t : Text) (key : SortKey)
  | apply (q : Query) (key : SortKey)
  | reset
  | current
deriving DecidableEq

namespace Call

def perform (c : Catalog) : Call → Except Fault Catalog
  | filter t => .ok (c.filter t)
  | filterBy t field => c.filterBy t field
  | filterSorted t field ascending => c.filterSorted t field ascending
  | filterSortedNamed t name ascending => c.filterSortedNamed t name ascending
  | filterWith t key => .ok (c.filterWith t key)
  | apply q key => .ok (c.apply q key)
  | reset => .ok c.reset
  | current => .ok c

/-- What a text is to be filtered by under an attribute, if there is an order by it. -/
def sortedRequest? (t : Text) (field : Attribute) (ascending : Bool) :
    Option (Query × SortKey) :=
  (SortKey.make field (.ofAscending ascending)).toOption.map (Query.read t, ·)

/-- The query and the key that a call filters by, if it filters and is not refused. -/
def request? : Call → Option (Query × SortKey)
  | filter t => some (Query.read t, .byName)
  | filterBy t field => sortedRequest? t field true
  | filterSorted t field ascending => sortedRequest? t field ascending
  | filterSortedNamed t name ascending =>
    (Attribute.named? name).bind fun field => sortedRequest? t field ascending
  | filterWith t key => some (Query.read t, key)
  | apply q key => some (q, key)
  | reset | current => none

/-- A call is refused if it is to sort by an attribute that is unknown or has no order. -/
inductive Refused : Call → Fault → Prop where
  | upward {t field} : field.isSortable = false →
      Refused (filterBy t field) (.unsortable field)
  | sorted {t field ascending} : field.isSortable = false →
      Refused (filterSorted t field ascending) (.unsortable field)
  | unknown {t name ascending} : Attribute.named? name = none →
      Refused (filterSortedNamed t name ascending) (.unknownAttribute (Text.trim name))
  | named {t name ascending field} : Attribute.named? name = some field →
      field.isSortable = false →
      Refused (filterSortedNamed t name ascending) (.unsortable field)

end Call

/-- The catalog after a call. One that fails leaves the catalog that it was asked of. -/
def step (c : Catalog) (call : Call) : Catalog :=
  match call.perform c with
  | .ok c' => c'
  | .error _ => c

/-- What a call shows: its fault, or else the view that it leaves. -/
def answer (c : Catalog) (call : Call) : Except Fault (View Game) :=
  (call.perform c).map Catalog.current

def answers (c : Catalog) : List Call → List (Except Fault (View Game))
  | [] => []
  | call :: calls => c.answer call :: answers (c.step call) calls

/-- The catalog of some games after a series of calls. -/
def after (games : List Game) (calls : List Call) : Catalog := calls.foldl step (ofGames games)

/-- What the last call that filtered asked for, unless there was a reset since. -/
def lastRequest (calls : List Call) : Option (Query × SortKey) :=
  (calls.reverse.takeWhile (· ≠ .reset)).findSome? Call.request?

theorem filterSorted_of_sortable (c : Catalog) (t : Text) {field : Attribute}
    (h : field.isSortable = true) (ascending : Bool) :
    c.filterSorted t field ascending =
      .ok (c.apply (Query.read t) ⟨field, .ofAscending ascending, h⟩) := by
  rw [filterSorted, SortKey.make_of_sortable h]
  rfl

theorem filterSorted_of_not_sortable (c : Catalog) (t : Text) {field : Attribute}
    (h : field.isSortable = false) (ascending : Bool) :
    c.filterSorted t field ascending = .error (.unsortable field) := by
  rw [filterSorted, SortKey.make_of_not_sortable h]
  rfl

theorem perform_of_refused (c : Catalog) {call : Call} {fault : Fault}
    (h : call.Refused fault) : call.perform c = .error fault := by
  cases h with
  | upward h => exact c.filterSorted_of_not_sortable _ h true
  | sorted h => exact c.filterSorted_of_not_sortable _ h _
  | unknown hn =>
    rw [Call.perform, filterSortedNamed, Attribute.resolve, hn]
    rfl
  | named hn h =>
    rw [Call.perform, filterSortedNamed, Attribute.resolve, hn]
    exact c.filterSorted_of_not_sortable _ h _

/-- A call that sorts by an attribute either asks for a query or is refused. -/
theorem filterSorted_cases (c : Catalog) (t : Text) (field : Attribute) (ascending : Bool) :
    (∃ q key, Call.sortedRequest? t field ascending = some (q, key) ∧
      c.filterSorted t field ascending = .ok (c.apply q key)) ∨
    (field.isSortable = false ∧ Call.sortedRequest? t field ascending = none) := by
  unfold Call.sortedRequest?
  cases h : field.isSortable with
  | true =>
    rw [SortKey.make_of_sortable h, c.filterSorted_of_sortable t h]
    exact .inl ⟨_, _, rfl, rfl⟩
  | false =>
    rw [SortKey.make_of_not_sortable h]
    exact .inr ⟨rfl, rfl⟩

/-- All that a call can do: filter by what it asks for, reset, nothing, or fail. -/
theorem perform_cases (c : Catalog) (call : Call) :
    (∃ q key, call.request? = some (q, key) ∧ call.perform c = .ok (c.apply q key)) ∨
    (call = .reset ∧ call.perform c = .ok c.reset) ∨
    (call = .current ∧ call.perform c = .ok c) ∨
    ∃ fault, call.Refused fault ∧ call.request? = none := by
  cases call with
  | filter t => exact .inl ⟨_, _, rfl, rfl⟩
  | filterWith t key => exact .inl ⟨_, _, rfl, rfl⟩
  | apply q key => exact .inl ⟨_, _, rfl, rfl⟩
  | reset => exact .inr (.inl ⟨rfl, rfl⟩)
  | current => exact .inr (.inr (.inl ⟨rfl, rfl⟩))
  | filterBy t field =>
    rcases c.filterSorted_cases t field true with h | ⟨hs, hr⟩
    · exact .inl h
    · exact .inr (.inr (.inr ⟨_, .upward hs, hr⟩))
  | filterSorted t field ascending =>
    rcases c.filterSorted_cases t field ascending with h | ⟨hs, hr⟩
    · exact .inl h
    · exact .inr (.inr (.inr ⟨_, .sorted hs, hr⟩))
  | filterSortedNamed t name ascending =>
    rw [Call.request?, Call.perform, filterSortedNamed, Attribute.resolve]
    cases hn : Attribute.named? name with
    | none => exact .inr (.inr (.inr ⟨_, .unknown hn, rfl⟩))
    | some field =>
      rcases c.filterSorted_cases t field ascending with h | ⟨hs, hr⟩
      · exact .inl h
      · exact .inr (.inr (.inr ⟨_, .named hn hs, hr⟩))

theorem perform_eq_error_iff {c : Catalog} {call : Call} {fault : Fault} :
    call.perform c = .error fault ↔ call.Refused fault := by
  refine ⟨fun h => ?_, c.perform_of_refused⟩
  rcases c.perform_cases call with ⟨q, key, -, hp⟩ | ⟨-, hp⟩ | ⟨-, hp⟩ | ⟨fault', hf, -⟩
  · exact nomatch h.symm.trans hp
  · exact nomatch h.symm.trans hp
  · exact nomatch h.symm.trans hp
  · rw [c.perform_of_refused hf] at h
    exact Except.error.inj h ▸ hf

theorem perform_of_request? (c : Catalog) {call : Call} {q : Query} {key : SortKey}
    (h : call.request? = some (q, key)) : call.perform c = .ok (c.apply q key) := by
  rcases c.perform_cases call with ⟨q', key', hr, hp⟩ | ⟨rfl, -⟩ | ⟨rfl, -⟩ | ⟨-, -, hr⟩
  · cases h.symm.trans hr
    exact hp
  · cases h
  · cases h
  · exact nomatch h.symm.trans hr

/-- Only a reset, a look and a call that fails ask for nothing. -/
theorem request?_eq_none_iff {c : Catalog} {call : Call} :
    call.request? = none ↔
      call = .reset ∨ call = .current ∨ ∃ fault, call.perform c = .error fault := by
  constructor
  · intro h
    rcases c.perform_cases call with ⟨q, key, hr, -⟩ | ⟨hc, -⟩ | ⟨hc, -⟩ | ⟨fault, hf, -⟩
    · exact nomatch h.symm.trans hr
    · exact .inl hc
    · exact .inr (.inl hc)
    · exact .inr (.inr ⟨fault, c.perform_of_refused hf⟩)
  · rintro (rfl | rfl | ⟨fault, hp⟩)
    · rfl
    · rfl
    · by_contra h
      obtain ⟨⟨q, key⟩, hr⟩ := Option.ne_none_iff_exists'.mp h
      exact nomatch hp.symm.trans (c.perform_of_request? hr)

theorem step_of_error {c : Catalog} {call : Call} {fault : Fault}
    (h : call.perform c = .error fault) : c.step call = c := by
  rw [step, h]

/-- What a catalog is, given the last request: its games, and the view of that request. -/
structure Reflects (c : Catalog) (games : List Game) (last : Option (Query × SortKey)) :
    Prop where
  games_eq : c.games = games
  working_eq : c.working = last.map fun r => r.1.view games r.2

/-- The last request after one more call. -/
def Call.updates (call : Call) (last : Option (Query × SortKey)) : Option (Query × SortKey) :=
  if call = .reset then none else call.request?.or last

theorem lastRequest_append (calls : List Call) (call : Call) :
    lastRequest (calls ++ [call]) = call.updates (lastRequest calls) := by
  unfold lastRequest Call.updates
  rw [List.reverse_append, List.reverse_singleton, List.singleton_append, List.takeWhile_cons]
  by_cases h : call = .reset
  · rw [if_pos h, h]
    rfl
  · rw [if_neg h, decide_eq_true h, if_pos rfl, List.findSome?_cons]
    cases call.request? <;> rfl

theorem step_reflects {c : Catalog} {games : List Game} {last : Option (Query × SortKey)}
    (h : c.Reflects games last) (call : Call) :
    (c.step call).Reflects games (call.updates last) := by
  rcases c.perform_cases call with ⟨q, key, hr, hp⟩ | ⟨rfl, hp⟩ | ⟨rfl, hp⟩ | ⟨fault, hf, hr⟩
  · have hne : call ≠ .reset := by rintro rfl; cases hr
    rw [step, hp, Call.updates, if_neg hne, hr]
    exact ⟨h.games_eq, congrArg (fun games => some (q.view games key)) h.games_eq⟩
  · exact ⟨h.games_eq, rfl⟩
  · exact h
  · -- the catalog stays, and so does what it reflects
    have hne : call ≠ .reset := by rintro rfl; cases hf
    rw [step_of_error (c.perform_of_refused hf), Call.updates, if_neg hne, hr]
    exact h

/-- Every series of calls leaves the view of its last request. -/
theorem after_reflects (games : List Game) (calls : List Call) :
    (after games calls).Reflects (ofGames games).games (lastRequest calls) := by
  -- from the back, because each call acts on the catalog that all earlier ones left
  induction calls using List.reverseRecOn with
  | nil => exact ⟨rfl, rfl⟩
  | append_singleton calls call ih =>
    rw [after, List.foldl_append, lastRequest_append]
    exact step_reflects ih call

theorem Reflects.current_eq {c : Catalog} {games : List Game} {last : Option (Query × SortKey)}
    (h : c.Reflects games last) :
    c.current = (last.getD (Query.all, .byName)).1.view games
      (last.getD (Query.all, .byName)).2 := by
  rw [current, h.working_eq, h.games_eq]
  cases last <;> rfl

theorem Reflects.state_eq_filtered_iff {c : Catalog} {games : List Game}
    {last : Option (Query × SortKey)} (h : c.Reflects games last) :
    c.state = .filtered ↔ last.isSome := by
  rw [state, h.working_eq]
  cases last <;> simp

/-- A catalog shows what the last request since a reset asks of all its games, as if nothing had
been asked before. A call that is refused leaves no trace. -/
theorem after_shows_last_request (games : List Game) (calls : List Call) :
    (after games calls).games = (ofGames games).games ∧
    (∀ v, (after games calls).working = some v → ∀ e ∈ v.entries,
      ∃ h : e.2 < (after games calls).games.length, (after games calls).games[e.2] = e.1) ∧
    (after games calls).current =
      ((lastRequest calls).getD (Query.all, .byName)).1.view (ofGames games).games
        ((lastRequest calls).getD (Query.all, .byName)).2 ∧
    (after games calls).current.sort =
      ((lastRequest calls).getD (Query.all, .byName)).1.sortOr
        ((lastRequest calls).getD (Query.all, .byName)).2 ∧
    ((after games calls).state = .filtered ↔ (lastRequest calls).isSome) ∧
    (∀ (call : Call) (q : Query) (key : SortKey), call.request? = some (q, key) →
      (after games calls).answer call = .ok (q.view (ofGames games).games key)) ∧
    (∀ call : Call, call.request? = none ↔ call = .reset ∨ call = .current ∨
      ∃ fault, call.perform (after games calls) = .error fault) ∧
    (∀ (call : Call) (fault : Fault),
      call.perform (after games calls) = .error fault ↔ call.Refused fault) ∧
    ∀ (call : Call) (fault : Fault) (later : List Call), call.perform (after games calls) = .error fault →
      (after games calls).answers (call :: later) =
        .error fault :: (after games calls).answers later ∧
      after games (calls ++ call :: later) = after games (calls ++ later) := by
  have h := after_reflects games calls
  refine ⟨h.games_eq, ?_, h.current_eq, ?_, h.state_eq_filtered_iff, ?_,
    fun call => request?_eq_none_iff, fun call fault => perform_eq_error_iff, ?_⟩
  · intro v hv e he
    rw [h.working_eq] at hv
    obtain ⟨r, -, rfl⟩ := Option.map_eq_some_iff.mp hv
    rw [← List.getElem?_eq_some_iff, h.games_eq]
    exact (Query.mem_view.mp he).1
  · rw [h.current_eq]
    rfl
  · intro call q key hr
    rw [answer, perform_of_request? _ hr, ← h.games_eq]
    rfl
  · intro call fault later hp
    constructor
    · rw [answers, answer, hp, step_of_error hp]
      rfl
    · rw [after, after, List.foldl_append, List.foldl_append, List.foldl_cons]
      exact congrArg (List.foldl step · later) (step_of_error hp)

/-- A catalog that is filtered and then to be sorted by what has no order. -/
theorem refused_sort_leaves_view :
    (Call.filterBy [] .id).perform
        (after [.ofName "Go".toList, .ofName "Azul".toList] [.filter "name==go".toList]) =
      .error (.unsortable .id) ∧
    after [.ofName "Go".toList, .ofName "Azul".toList]
        ([.filter "name==go".toList] ++ .filterBy [] .id :: [.current]) =
      after [.ofName "Go".toList, .ofName "Azul".toList]
        ([.filter "name==go".toList] ++ [.current]) ∧
    (after [.ofName "Go".toList, .ofName "Azul".toList]
        ([.filter "name==go".toList] ++ .filterBy [] .id :: [.current])).current.positions =
      [0] := by
  obtain ⟨-, -, -, -, -, -, -, hfault, hsame⟩ :=
    after_shows_last_request [.ofName "Go".toList, .ofName "Azul".toList]
      [.filter "name==go".toList]
  have hp := (hfault (.filterBy [] .id) _).mpr (.upward rfl)
  exact ⟨hp, (hsame _ _ [.current] hp).2, by decide +kernel⟩

end Catalog

end GameShelf
