import GameShelf.Proofs.History
import GameShelf.Proofs.PickHistory

namespace GameShelf

/-- The entries of a list that are equal to none before them. -/
def firsts {A : Type} [DecidableEq A] (l : List A) : List A :=
  (l.zipIdx.filter fun e => e.1 ∉ l.take e.2).map (·.1)

section

variable {A : Type} [DecidableEq A]

theorem eraseDups_append_singleton (l : List A) (a : A) :
    (l ++ [a]).eraseDups = l.eraseDups ++ if a ∈ l then [] else [a] := by
  rw [List.eraseDups_append]
  by_cases h : a ∈ l <;> simp [List.removeAll, List.eraseDups_cons, h]

theorem firsts_append_singleton (l : List A) (a : A) :
    firsts (l ++ [a]) = firsts l ++ if a ∈ l then [] else [a] := by
  have hold : (l.zipIdx.filter fun e => e.1 ∉ (l ++ [a]).take e.2) =
      l.zipIdx.filter fun e => e.1 ∉ l.take e.2 := by
    refine List.filter_congr fun e he => ?_
    have hlt : e.2 < l.length := List.snd_lt_of_mem_zipIdx he
    rw [List.take_append_of_le_length hlt.le]
  rw [firsts, List.zipIdx_append, List.filter_append, hold, List.map_append, firsts]
  congr 1
  by_cases h : a ∈ l <;> simp [h]

theorem eraseDups_eq_firsts (l : List A) : l.eraseDups = firsts l := by
  induction l using List.reverseRecOn with
  | nil => rfl
  | append_singleton l a ih => rw [eraseDups_append_singleton, firsts_append_singleton, ih]

theorem nodup_eraseDups (l : List A) : l.eraseDups.Nodup := by
  induction l using List.reverseRecOn with
  | nil => exact List.nodup_nil
  | append_singleton l a ih =>
    rw [eraseDups_append_singleton]
    split
    next => rwa [List.append_nil]
    next h =>
      refine List.nodup_append.mpr ⟨ih, List.nodup_singleton a, ?_⟩
      rintro b hb c hc rfl
      exact h (List.mem_eraseDups.mp (List.mem_singleton.mp hc ▸ hb))

theorem eraseDups_of_nodup {l : List A} (h : l.Nodup) : l.eraseDups = l := by
  induction l using List.reverseRecOn with
  | nil => rfl
  | append_singleton l a ih =>
    obtain ⟨hl, -, hdisjoint⟩ := List.nodup_append.mp h
    have ha : a ∉ l := fun hm => hdisjoint a hm a (List.mem_singleton_self a) rfl
    rw [eraseDups_append_singleton, ih hl, if_neg ha]

end

/-- Games are the same if they have the same in every field, real numbers bit by bit. -/
theorem Game.beq_iff {g h : Game} :
    (g == h) = true ↔
      g.name = h.name ∧ g.id = h.id ∧ g.minPlayers = h.minPlayers ∧ g.maxPlayers = h.maxPlayers ∧
      g.minPlayTime = h.minPlayTime ∧ g.maxPlayTime = h.maxPlayTime ∧
      g.difficulty.bits = h.difficulty.bits ∧ g.rank = h.rank ∧
      g.rating.bits = h.rating.bits ∧ g.year = h.year := by
  rw [beq_iff_eq]
  constructor
  · rintro rfl
    exact ⟨rfl, rfl, rfl, rfl, rfl, rfl, rfl, rfl, rfl, rfl⟩
  · cases g
    cases h
    rintro ⟨hname, hid, hmin, hmax, hminTime, hmaxTime, hdifficulty, hrank, hrating, hyear⟩
    congr 1
    · exact congrArg Binary64.mk hrating
    · exact congrArg Binary64.mk hdifficulty

theorem Query.nodup_view_records (q : Query) {games : List Game} (h : games.Nodup)
    (fallback : SortKey) : (q.view games fallback).records.Nodup := by
  rw [view_records, ((q.sortOr fallback).sort_games_perm _).nodup_iff]
  exact h.filter _

namespace Catalog

variable {games : List Game} {v : View Game}

/-- The views of some games' catalog: what it shows after some calls, and what a call returns. -/
inductive Seen (games : List Game) : View Game → Prop where
  | current (calls : List Call) : Seen games (after games calls).current
  | answer {calls : List Call} {call : Call} {v : View Game} :
      (after games calls).answer call = .ok v → Seen games v

/-- What a call returns is what the catalog shows from then on. -/
theorem Seen.exists_calls (h : Seen games v) : ∃ calls, v = (after games calls).current := by
  cases h with
  | current calls => exact ⟨calls, rfl⟩
  | @answer calls call _ h =>
    refine ⟨calls ++ [call], ?_⟩
    rw [Catalog.answer] at h
    rw [after, List.foldl_append, List.foldl_cons, List.foldl_nil, step]
    cases hp : call.perform (calls.foldl step (ofGames games)) with
    | error fault =>
      rw [after, hp] at h
      cases h
    | ok c =>
      rw [after, hp] at h
      exact (Except.ok.inj h).symm

theorem Seen.exists_query (h : Seen games v) :
    ∃ (q : Query) (key : SortKey), v = q.view (ofGames games).games key := by
  obtain ⟨calls, rfl⟩ := h.exists_calls
  exact ⟨_, _, (after_reflects games calls).current_eq⟩

theorem nodup_ofGames (games : List Game) : (ofGames games).games.Nodup := nodup_eraseDups games

theorem ofGames_games (games : List Game) : ofGames (ofGames games).games = ofGames games :=
  congrArg (mk · none) (eraseDups_of_nodup (nodup_ofGames games))

theorem Seen.nodup_records (h : Seen games v) : v.records.Nodup := by
  obtain ⟨q, key, rfl⟩ := h.exists_query
  exact q.nodup_view_records (nodup_ofGames games) key

/-- Of games that are the same in every field and every bit a catalog has the first one, in the
order in which they came. So it has each of them in one place, and shows none of them twice. -/
theorem ofGames_keeps_firsts (games : List Game) :
    (∀ g h : Game, (g == h) = true ↔
      g.name = h.name ∧ g.id = h.id ∧ g.minPlayers = h.minPlayers ∧ g.maxPlayers = h.maxPlayers ∧
      g.minPlayTime = h.minPlayTime ∧ g.maxPlayTime = h.maxPlayTime ∧
      g.difficulty.bits = h.difficulty.bits ∧ g.rank = h.rank ∧
      g.rating.bits = h.rating.bits ∧ g.year = h.year) ∧
    (ofGames games).games = firsts games ∧
    (ofGames games).games.Nodup ∧
    (∀ g ∈ games, ∃! i : Nat, (ofGames games).games[i]? = some g) ∧
    ofGames (ofGames games).games = ofGames games ∧
    ∀ v, Seen games v → v.records.Nodup := by
  refine ⟨fun g h => Game.beq_iff, eraseDups_eq_firsts games, nodup_ofGames games, ?_,
    ofGames_games games, fun v => Seen.nodup_records⟩
  intro g hg
  obtain ⟨i, hi⟩ := List.mem_iff_getElem?.mp (List.mem_eraseDups.mpr hg)
  refine ⟨i, hi, fun j hj => ?_⟩
  have hlt : j < (ofGames games).games.length := (List.getElem?_eq_some_iff.mp hj).1
  exact (List.getElem?_inj hlt (nodup_ofGames games)).mp (hj.trans hi.symm)

/-- Games of one name whose ratings are NaN, the zeros and another NaN, some of them twice. -/
def oddZeros : List Game :=
  [.notANumber false, .ofMagnitude true 0, .notANumber false, .ofMagnitude false 0,
    .notANumber true, .ofMagnitude true 0].map fun x => { Game.ofName ['A'] with rating := x }

theorem oddZeros_kept :
    (ofGames oddZeros).games.map (·.rating) =
      [.notANumber false, .ofMagnitude true 0, .ofMagnitude false 0, .notANumber true] ∧
    (∃! i : Nat, (ofGames oddZeros).games[i]? =
      some { Game.ofName ['A'] with rating := .ofMagnitude true 0 }) ∧
    ((ofGames oddZeros).filter "rating==0".toList).current.records.Nodup := by
  obtain ⟨-, hfirsts, -, hplace, -, hseen⟩ := ofGames_keeps_firsts oddZeros
  have hanswer : (after oddZeros []).answer (.filter "rating==0".toList) =
      .ok ((ofGames oddZeros).filter "rating==0".toList).current := rfl
  refine ⟨?_, hplace _ (by decide), hseen _ (.answer hanswer)⟩
  rw [hfirsts]
  decide

end Catalog

end GameShelf
