import GameShelf.Proofs.PickHistory
import GameShelf.Proofs.SortedBlocks

namespace GameShelf

namespace PickList

/-- The candidates that pass a test, or the failure to find any under a name. -/
def findAll (test : Game → Bool) (n : Text) (candidates : List Game) :
    Except PickFault (List Game) :=
  if (candidates.filter test).isEmpty then .error (.gameNotFound n)
  else .ok (candidates.filter test)

variable {p : PickList} {selector n : Text} {candidates : List Game} {test test' : Game → Bool}

theorem findAll_eq_ok_iff {chosen : List Game} :
    findAll test n candidates = .ok chosen ↔ candidates.filter test = chosen ∧ chosen ≠ [] := by
  unfold findAll
  rw [ite_error_eq_ok_iff, List.isEmpty_iff]
  constructor
  · rintro ⟨hne, rfl⟩
    exact ⟨rfl, hne⟩
  · rintro ⟨rfl, hne⟩
    exact ⟨hne, rfl⟩

/-- Of two tests, one stricter than the other, both find the same where they agree. -/
theorem findAll_eq_findAll_iff (h : ∀ g ∈ candidates, test g = true → test' g = true) :
    findAll test n candidates = findAll test' n candidates ↔
      ∀ g ∈ candidates, test' g = true → test g = true := by
  constructor
  · intro heq g hg hg'
    have hmem : g ∈ candidates.filter test' := List.mem_filter.mpr ⟨hg, hg'⟩
    have hfound : findAll test' n candidates = .ok (candidates.filter test') :=
      findAll_eq_ok_iff.mpr ⟨rfl, List.ne_nil_of_mem hmem⟩
    rw [← heq, findAll_eq_ok_iff] at hfound
    rw [← hfound.1] at hmem
    exact (List.mem_filter.mp hmem).2
  · intro h'
    have hfilter : candidates.filter test = candidates.filter test' :=
      List.filter_congr fun g hg => Bool.eq_iff_iff.mpr ⟨h g hg, h' g hg⟩
    rw [findAll, findAll, hfilter]

/-- A selector that reads as a name picks by names only. -/
theorem picked_of_name (h : Selector.read selector = .ok (.name n)) :
    picked selector candidates =
      findAll (fun g => Text.sameLetters g.name n) n candidates := by
  unfold picked
  rw [h, ← Selector.name_of_read h]
  rfl

theorem add_eq_map_picked :
    p.add selector candidates = (picked selector candidates).map fun chosen =>
      ⟨p.including chosen, (p.including chosen).count - p.count⟩ := by
  unfold add
  cases picked selector candidates with
  | error fault => rfl
  | ok chosen => rfl

theorem accepts_equal_name_iff {g : Game} :
    (Condition.make .name .equal n).accepts g = true ↔
      Text.lower g.name = Text.lower (Text.trim n) := by
  have h : (Condition.make .name .equal n).accepts g = true ↔
      some (compare (Text.lower g.name) (Text.lower (Text.trim n))) = some .eq :=
    Condition.accepts_ofOrdering_iff (o := .eq)
  rw [h, Option.some.injEq, Std.compare_eq_iff_eq]

theorem accepts_of_sameLetters {g : Game} (hn : Text.trim n = n)
    (h : Text.sameLetters g.name n = true) :
    (Condition.make .name .equal n).accepts g = true := by
  rw [accepts_equal_name_iff, hn]
  exact Text.lower_eq_of_sameLetters h

/-- Texts of ASCII are the same up to case for a condition and for a pick alike. -/
theorem sameLetters_of_accepts {g : Game} (hn : Text.trim n = n)
    (hascii : ∀ t ∈ [g.name, n], ∀ c ∈ t, c.toNat < 0x80)
    (h : (Condition.make .name .equal n).accepts g = true) :
    Text.sameLetters g.name n = true := by
  rw [accepts_equal_name_iff, hn, Text.lower_of_ascii (hascii g.name (by simp)),
    Text.lower_of_ascii (hascii n (by simp))] at h
  exact Text.sameLetters_iff.mpr h

/-- A pick by name takes the candidates that are called so up to the case of ASCII. A condition on
the name accepts those as well, and finds the same games unless it accepts one whose case differs
outside of ASCII. -/
theorem picks_by_name (h : Selector.read selector = .ok (.name n)) (candidates : List Game) :
    (∀ p : PickList, p.add selector candidates = (picked selector candidates).map fun chosen =>
      ⟨p.including chosen, (p.including chosen).count - p.count⟩) ∧
    picked selector candidates =
      findAll (fun g => Text.sameLetters g.name n) n candidates ∧
    (∀ g : Game, Text.sameLetters g.name n = true →
      (Condition.make .name .equal n).accepts g = true) ∧
    (picked selector candidates =
        findAll (Condition.make .name .equal n).accepts n candidates ↔
      ∀ g ∈ candidates, (Condition.make .name .equal n).accepts g = true →
        Text.sameLetters g.name n = true) ∧
    ((∀ t ∈ n :: candidates.map (·.name), ∀ c ∈ t, c.toNat < 0x80) →
      picked selector candidates =
        findAll (Condition.make .name .equal n).accepts n candidates) := by
  have hn : Text.trim n = n := by rw [Selector.name_of_read h, Text.trim_trim]
  have hexact : picked selector candidates =
        findAll (Condition.make .name .equal n).accepts n candidates ↔
      ∀ g ∈ candidates, (Condition.make .name .equal n).accepts g = true →
        Text.sameLetters g.name n = true := by
    rw [picked_of_name h]
    exact findAll_eq_findAll_iff fun g _ => accepts_of_sameLetters hn
  refine ⟨fun p => add_eq_map_picked, picked_of_name h, fun g => accepts_of_sameLetters hn,
    hexact, fun hascii => hexact.mpr fun g hg => sameLetters_of_accepts hn ?_⟩
  intro t ht
  apply hascii
  rcases List.mem_pair.mp ht with rfl | rfl
  · exact List.mem_cons_of_mem _ (List.mem_map_of_mem hg)
  · exact List.mem_cons_self

/-- Two games of one name in two cases, and one with a letter outside of ASCII. -/
def dessertGames : List Game := ["Go Fish", "Éclair", "GO FISH"].map fun name => .ofName name.toList

theorem dessertGames_picked :
    Selector.read " go fish ".toList = .ok (.name "go fish".toList) ∧
    picked " go fish ".toList dessertGames =
      findAll (Condition.make .name .equal "go fish".toList).accepts "go fish".toList
        dessertGames ∧
    (picked " go fish ".toList dessertGames).map (·.map (·.name)) =
      .ok ["Go Fish".toList, "GO FISH".toList] := by
  have h : Selector.read " go fish ".toList = .ok (.name "go fish".toList) := by decide +kernel
  have hp := (picks_by_name h dessertGames).2.2.2.1.mpr (by decide +kernel)
  refine ⟨h, hp, ?_⟩
  rw [hp]
  decide +kernel

/-- What a condition accepts in either case, a pick misses. -/
theorem dessertGames_missed :
    (∀ g ∈ dessertGames, Text.trim g.name = g.name) ∧
    Selector.read "éclair".toList = .ok (.name "éclair".toList) ∧
    (dessertGames.filter (Condition.make .name .equal "éclair".toList).accepts).map (·.name) =
      ["Éclair".toList] ∧
    picked "éclair".toList dessertGames = .error (.gameNotFound "éclair".toList) ∧
    empty.add "éclair".toList dessertGames = .error (.gameNotFound "éclair".toList) := by
  decide +kernel

end PickList

end GameShelf
