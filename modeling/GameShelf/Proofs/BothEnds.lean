import GameShelf.Proofs.DistinctGames

namespace GameShelf

namespace Cursor

/-- What can be asked of a cursor. -/
inductive Request where
  | next
  | nextBack
  | size
deriving DecidableEq

/-- What a cursor answers: a game, or that there is none, or how many are left. -/
inductive Answer where
  | game (g? : Option Game)
  | size (n : Nat)
deriving DecidableEq

def Answer.game? : Answer → Option Game
  | game g? => g?
  | size _ => none

def ask (c : Cursor) : Request → Answer × Cursor
  | .next => (.game c.next.1, c.next.2)
  | .nextBack => (.game c.nextBack.1, c.nextBack.2)
  | .size => (.size c.size, c)

/-- The answers to some requests, and what is left behind them. -/
def run : Cursor → List Request → List Answer × Cursor
  | c, [] => ([], c)
  | c, r :: rs => ((c.ask r).1 :: ((c.ask r).2.run rs).1, ((c.ask r).2.run rs).2)

/-- The games with which the requests of one sort were answered. -/
def given (r : Request) (rs : List Request) (answers : List Answer) : List Game :=
  (rs.zip answers).filterMap fun e => if e.1 = r then e.2.game? else none

/-- What is answered when nothing is left. -/
def Request.idle : Request → Answer
  | next | nextBack => .game none
  | size => .size 0

/-- A cursor that knows no more of its games than their places in a catalog. -/
structure Window where
  games : List Game
  places : List Nat

namespace Window

def ofView (games : List Game) (v : View Game) : Window := ⟨games, v.positions⟩

/-- Looks a place up and moves on. Nothing is answered, not even that there is no game, if the place
is beyond the catalog. -/
def lookUp (w : Window) (place? : Option Nat) (rest : List Nat) : Option (Answer × Window) :=
  match place? with
  | none => some (.game none, ⟨w.games, rest⟩)
  | some i => (w.games[i]?).map fun g => (.game (some g), ⟨w.games, rest⟩)

def ask (w : Window) : Request → Option (Answer × Window)
  | .next => w.lookUp w.places.head? w.places.tail
  | .nextBack => w.lookUp w.places.getLast? w.places.dropLast
  | .size => some (.size w.places.length, w)

/-- The answers to some requests, if all of them could be answered. -/
def run : Window → List Request → Option (List Answer × Window)
  | w, [] => some ([], w)
  | w, r :: rs => (w.ask r).bind fun e => (e.2.run rs).map fun f => (e.1 :: f.1, f.2)

/-- Whether the places are those of the games that a cursor has left. -/
def Reads (w : Window) (c : Cursor) : Prop := w.places.map (w.games[·]?) = c.remaining.map some

end Window

section

variable {c : Cursor} {w : Window} {rs : List Request}

theorem given_cons (r r' : Request) (a : Answer) (rs : List Request) (answers : List Answer) :
    given r (r' :: rs) (a :: answers) = given r [r'] [a] ++ given r rs answers := by
  unfold given
  rw [List.zip_cons_cons, List.zip_cons_cons, List.zip_nil_left, ← List.filterMap_append,
    List.singleton_append]

/-- A request takes its answer from the end that it asks for. -/
theorem remaining_ask (c : Cursor) (r : Request) :
    c.remaining = given .next [r] [(c.ask r).1] ++ (c.ask r).2.remaining ++
      (given .nextBack [r] [(c.ask r).1]).reverse := by
  cases r with
  | next =>
    obtain ⟨_ | ⟨g, rest⟩⟩ := c
    · rfl
    · exact (List.append_nil _).symm
  | nextBack =>
    rcases List.eq_nil_or_concat c.remaining with h | ⟨rest, g, h⟩
    · simp [given, ask, nextBack, Answer.game?, h]
    · simp [given, ask, nextBack, Answer.game?, h]
  | size => exact (List.append_nil _).symm

/-- What was there is what was given from the front, what is left, and what was given from the back,
the last of it first. -/
theorem remaining_run (c : Cursor) (rs : List Request) :
    c.remaining = given .next rs (c.run rs).1 ++ (c.run rs).2.remaining ++
      (given .nextBack rs (c.run rs).1).reverse := by
  induction rs generalizing c with
  | nil => exact (List.append_nil _).symm
  | cons r rs ih =>
    rw [remaining_ask c r, ih (c.ask r).2, run, given_cons .next r _ rs,
      given_cons .nextBack r _ rs]
    simp only [List.append_assoc, List.reverse_append]

theorem ask_of_size_eq_zero (h : c.size = 0) (r : Request) : c.ask r = (r.idle, c) := by
  obtain ⟨remaining⟩ := c
  obtain rfl : remaining = [] := List.eq_nil_of_length_eq_zero h
  cases r <;> rfl

theorem run_of_size_eq_zero (h : c.size = 0) (rs : List Request) :
    c.run rs = (rs.map Request.idle, c) := by
  induction rs with
  | nil => rfl
  | cons r rs ih => rw [run, ask_of_size_eq_zero h, ih, List.map_cons]

namespace Window

theorem Reads.lt_length (h : w.Reads c) {i : Nat} (hi : i ∈ w.places) : i < w.games.length := by
  have hmem : w.games[i]? ∈ c.remaining.map some := h ▸ List.mem_map_of_mem hi
  obtain ⟨g, -, hg⟩ := List.mem_map.mp hmem
  exact (List.getElem?_eq_some_iff.mp hg.symm).1

/-- A place that is looked up is that of a game. -/
theorem lookUp_eq {place? : Option Nat} {g? : Option Game}
    (h : place?.map (w.games[·]?) = g?.map some) (rest : List Nat) :
    w.lookUp place? rest = some (.game g?, ⟨w.games, rest⟩) := by
  cases place? with
  | none =>
    obtain rfl : g? = none := Option.map_eq_none_iff.mp h.symm
    rfl
  | some i =>
    obtain ⟨g, rfl, hg⟩ := Option.map_eq_some_iff.mp h.symm
    change some g = w.games[i]? at hg
    rw [lookUp, ← hg, Option.map_some]

/-- Every request is answered as if the games themselves were at hand. -/
theorem Reads.ask (h : w.Reads c) (r : Request) :
    ∃ w' : Window, w.ask r = some ((c.ask r).1, w') ∧ w'.games = w.games ∧
      w'.Reads (c.ask r).2 := by
  cases r with
  | next =>
    have hhead : w.places.head?.map (w.games[·]?) = c.remaining.head?.map some := by
      rw [← List.head?_map, ← List.head?_map, h]
    refine ⟨_, lookUp_eq hhead _, rfl, ?_⟩
    exact List.map_tail.trans ((congrArg List.tail h).trans List.map_tail.symm)
  | nextBack =>
    have hlast : w.places.getLast?.map (w.games[·]?) = c.remaining.getLast?.map some := by
      rw [← List.getLast?_map, ← List.getLast?_map, h]
    refine ⟨_, lookUp_eq hlast _, rfl, ?_⟩
    exact List.map_dropLast.trans ((congrArg List.dropLast h).trans List.map_dropLast.symm)
  | size =>
    have hsize : w.places.length = c.remaining.length := by simpa using congrArg List.length h
    exact ⟨w, by rw [Window.ask, hsize]; rfl, rfl, h⟩

theorem Reads.run (h : w.Reads c) (rs : List Request) :
    ∃ w' : Window, w.run rs = some ((c.run rs).1, w') ∧ w'.games = w.games ∧
      w'.Reads (c.run rs).2 := by
  induction rs generalizing w c with
  | nil => exact ⟨w, rfl, rfl, h⟩
  | cons r rs ih =>
    obtain ⟨w₁, hask, hgames, hreads⟩ := h.ask r
    obtain ⟨w₂, hrun, hgames', hreads'⟩ := ih hreads
    refine ⟨w₂, ?_, hgames'.trans hgames, hreads'⟩
    rw [Window.run, hask, Option.bind_some, hrun]
    rfl

end Window

/-- The next game from the front is the one behind those that came from there. -/
theorem next_eq (c : Cursor) (front behind : List Game) :
    c.next.1 =
      if 0 < c.size then (front ++ c.remaining ++ behind)[front.length]? else none := by
  obtain ⟨_ | ⟨g, rest⟩⟩ := c
  · rfl
  · simp [next, size]

theorem nextBack_eq (c : Cursor) (front behind : List Game) :
    c.nextBack.1 =
      if 0 < c.size then (front ++ c.remaining ++ behind)[front.length + c.size - 1]?
      else none := by
  rcases List.eq_nil_or_concat c.remaining with h | ⟨rest, g, h⟩
  · simp [nextBack, size, h]
  · simp [nextBack, size, h]

theorem reads_ofView {games : List Game} {v : View Game} (h : Catalog.Seen games v) :
    (Window.ofView (Catalog.ofGames games).games v).Reads (ofView v) := by
  obtain ⟨q, key, rfl⟩ := h.exists_query
  unfold Window.Reads Window.ofView Cursor.ofView View.positions View.records
  rw [List.map_map, List.map_map]
  exact List.map_congr_left fun e he => (Query.mem_view.mp he).1

/-- However a view is read from both ends, each game comes once: the next one from the front, the
last that is left from the back, and none at all for good when as many were given as there were. No
place is looked up that is beyond the catalog. -/
theorem run_from_both_ends {games : List Game} {v : View Game} (h : Catalog.Seen games v)
    (requests : List Request) {c : Cursor} {answers : List Answer} {front back : List Game}
    (hrun : (ofView v).run requests = (answers, c)) (hfront : given .next requests answers = front)
    (hback : given .nextBack requests answers = back) :
    front.length + back.length ≤ v.records.length ∧
    c.next.1 =
      (if front.length + back.length < v.records.length then v.records[front.length]? else none) ∧
    c.nextBack.1 =
      (if front.length + back.length < v.records.length then
        v.records[v.records.length - back.length - 1]? else none) ∧
    c.size = v.records.length - front.length - back.length ∧
    v.records = front ++ c.remaining ++ back.reverse ∧
    (front ++ back).Nodup ∧
    (c.size = 0 → (front ++ back).Perm v.records ∧
      ∀ later, c.run later = (later.map Request.idle, c)) ∧
    ∃ w, (Window.ofView (Catalog.ofGames games).games v).run requests = some (answers, w) ∧
      ∀ i ∈ w.places, i < (Catalog.ofGames games).games.length := by
  have hparts : v.records = front ++ c.remaining ++ back.reverse := by
    have hremaining := remaining_run (ofView v) requests
    rwa [hrun, hfront, hback] at hremaining
  have hlength : v.records.length = front.length + c.size + back.length := by
    rw [hparts, List.length_append, List.length_append, List.length_reverse]
    rfl
  have hnodup : (front ++ c.remaining ++ back.reverse).Nodup := hparts ▸ h.nodup_records
  have hleft : front.length + back.length < v.records.length ↔ 0 < c.size := by omega
  have hplace : v.records.length - back.length - 1 = front.length + c.size - 1 := by omega
  have hboth : (front ++ back).Perm (front ++ back.reverse) :=
    (List.reverse_perm back).symm.append_left front
  refine ⟨by omega, ?_, ?_, by omega, hparts, ?_, fun hsize => ⟨?_, run_of_size_eq_zero hsize⟩, ?_⟩
  · rw [next_eq c front back.reverse, ← hparts]
    simp only [hleft]
  · rw [nextBack_eq c front back.reverse, ← hparts, hplace]
    simp only [hleft]
  · rw [hboth.nodup_iff]
    refine hnodup.sublist ?_
    rw [List.append_assoc]
    exact (List.sublist_append_right c.remaining _).append_left front
  · rwa [hparts, List.eq_nil_of_length_eq_zero hsize, List.append_nil]
  · obtain ⟨w, hw, hgames, hreads⟩ := (reads_ofView h).run requests
    rw [hrun] at hw
    refine ⟨w, hw, fun i hi => ?_⟩
    have hlt := hreads.lt_length hi
    rwa [hgames] at hlt

end

def threeGames : List Game := ["Go", "Chess", "Catan"].map fun name => .ofName name.toList

theorem run_threeGames :
    ((ofView (Catalog.ofGames threeGames).current).run [.nextBack, .next, .size, .nextBack]).1 =
      [.game (some (.ofName "Go".toList)), .game (some (.ofName "Catan".toList)), .size 1,
        .game (some (.ofName "Chess".toList))] ∧
    [Game.ofName "Catan".toList, .ofName "Go".toList, .ofName "Chess".toList].Perm
      (Catalog.ofGames threeGames).current.records ∧
    (((ofView (Catalog.ofGames threeGames).current).run
      [.nextBack, .next, .size, .nextBack]).2.run [.nextBack, .next]).1 =
        [.game none, .game none] := by
  have hanswers : ((ofView (Catalog.ofGames threeGames).current).run
      [.nextBack, .next, .size, .nextBack]).1 =
        [.game (some (.ofName "Go".toList)), .game (some (.ofName "Catan".toList)), .size 1,
          .game (some (.ofName "Chess".toList))] := by decide +kernel
  have hsize : ((ofView (Catalog.ofGames threeGames).current).run
      [.nextBack, .next, .size, .nextBack]).2.size = 0 := by decide +kernel
  have hseen : Catalog.Seen threeGames (Catalog.ofGames threeGames).current := .current []
  obtain ⟨-, -, -, -, -, -, hall, -⟩ := run_from_both_ends hseen
    [.nextBack, .next, .size, .nextBack] (Prod.ext hanswers rfl) rfl rfl
  obtain ⟨hperm, hlater⟩ := hall hsize
  exact ⟨hanswers, hperm, congrArg Prod.fst (hlater [.nextBack, .next])⟩

end Cursor

end GameShelf
