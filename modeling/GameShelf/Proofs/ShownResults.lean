import GameShelf.Proofs.SessionHistory

namespace GameShelf

namespace View

/-- The games that a view lists, each with the number in front of it. -/
def shown (v : View Game) : List (Game × Nat) := v.records.zipIdx 1

variable {v : View Game} {g : Game} {n first last : Nat}

theorem listing_eq (v : View Game) :
    v.listing = v.shown.flatMap fun e =>
      Text.line (Numeral.ofNat e.2 ++ ": ".toList ++ e.1.describe v.sort.field) := by
  rw [listing, Text.numbered_map]
  rfl

theorem mem_shown : (g, n) ∈ v.shown ↔ 1 ≤ n ∧ v.records[n - 1]? = some g :=
  List.mk_mem_zipIdx_iff_le_and_getElem?_sub

theorem exists_mem_shown (h1 : 1 ≤ n) (hn : n ≤ v.records.length) : ∃ g, (g, n) ∈ v.shown := by
  have hlt : n - 1 < v.records.length := by omega
  exact ⟨v.records[n - 1], mem_shown.mpr ⟨h1, List.getElem?_eq_getElem hlt⟩⟩

theorem le_length_of_mem_shown (h : (g, n) ∈ v.shown) : n ≤ v.records.length := by
  obtain ⟨h1, hg⟩ := mem_shown.mp h
  obtain ⟨hlt, -⟩ := List.getElem?_eq_some_iff.mp hg
  omega

/-- A number picks the game that it is shown in front of. -/
theorem pick_index (h : (g, n) ∈ v.shown) : (Selector.index n).pick v.records = .ok [g] := by
  obtain ⟨h1, hg⟩ := mem_shown.mp h
  obtain ⟨hlt, he⟩ := List.getElem?_eq_some_iff.mp hg
  rw [Selector.pick_index_eq_ok_iff]
  refine ⟨⟨h1, le_length_of_mem_shown h⟩, ?_⟩
  rw [List.drop_eq_getElem_cons hlt, he]
  rfl

/-- A range picks the games with the numbers in it. -/
theorem exists_pick_range (h1 : 1 ≤ first) (hle : first ≤ last) (hlast : last ≤ v.records.length) :
    ∃ chosen, (Selector.range first last).pick v.records = .ok chosen ∧
      ∀ g, g ∈ chosen ↔ ∃ n, first ≤ n ∧ n ≤ last ∧ (g, n) ∈ v.shown := by
  refine ⟨_, Selector.pick_range_eq_ok_iff.mpr ⟨⟨h1, hle, hlast⟩, rfl⟩, fun g => ?_⟩
  rw [List.mem_iff_getElem?]
  constructor
  · rintro ⟨i, hi⟩
    rw [List.getElem?_drop, List.getElem?_take] at hi
    split at hi
    next hlt =>
      refine ⟨first + i, by omega, by omega, mem_shown.mpr ⟨by omega, ?_⟩⟩
      rwa [Nat.sub_add_comm h1]
    next => cases hi
  · rintro ⟨n, hfirst, hn, hg⟩
    refine ⟨n - first, ?_⟩
    have hi : first - 1 + (n - first) = n - 1 := by omega
    rw [List.getElem?_drop, List.getElem?_take, hi, if_pos (by omega)]
    exact (mem_shown.mp hg).2

end View

namespace PickList

variable {p : PickList} {candidates chosen : List Game} {t : Text} {s : Selector}

/-- A text without letters and blanks adds what it selects, unless it is a name. -/
theorem add_of_plain (hplain : ∀ c ∈ t, Text.isBlank c = false ∧ c.isAlpha = false)
    (hname : ∀ g ∈ candidates, g.name ≠ t) (hs : Selector.read t = .ok s)
    (hc : s.pick candidates = .ok chosen) :
    ∃ change, p.add t candidates = .ok change ∧ change.picks = p.including chosen := by
  have hunnamed : ∀ g ∈ candidates, Text.sameLetters g.name (Text.trim t) = false := by
    intro g hg
    rw [Text.trim_eq_self fun c hc => (hplain c hc).1, ← Bool.not_eq_true,
      Text.sameLetters_iff_eq fun c hc => (hplain c hc).2]
    exact hname g hg
  have hpicked : picked t candidates = .ok chosen := by
    rw [picked_of_unnamed hunnamed, hs]
    exact hc
  exact ⟨_, add_eq_ok_iff.mpr ⟨chosen, hpicked, rfl⟩, rfl⟩

end PickList

namespace Desk

variable {settings : Settings} {d : Desk} {line args rest : Text}

theorem answer_of_filter (h : Command.Calls line "filter" args) (hq : args ≠ ['?'])
    (hclear : Command.keyword args "clear" = false) :
    (d.answer settings line).2 = (if args = [] then Text.line Help.noFilter else []) ++
      (d.session.catalog.filter args).current.listing := by
  unfold answer
  rw [Command.read?_of_filter_ne_help h hq]
  by_cases hnil : args = []
  · subst hnil
    rfl
  · rw [if_neg hnil, if_neg hnil, hclear]
    rfl

theorem catalog_after {between : List Text}
    (h : ∀ l ∈ between, ∀ args, Command.Calls l "filter" args → args = ['?']) :
    (d.after settings between).session.catalog = d.session.catalog := by
  induction between generalizing d with
  | nil => rfl
  | cons l between ih =>
    obtain ⟨hl, hbetween⟩ := List.forall_mem_cons.mp h
    exact (ih hbetween).trans (catalog_answer hl)

theorem picks_answer_add {change : PickList.Change} (h : Command.CallsList line "add" rest)
    (hne : rest ≠ [])
    (hadd : d.session.picks.add rest d.session.catalog.current.records = .ok change) :
    (d.answer settings line).1.session.picks = change.picks := by
  rw [answer_add h hne hadd]

/-- At a desk that shows a view, a text without letters and blanks that is no name there adds what
it selects from the view. -/
theorem picks_answer_add_plain {v : View Game} {t : Text} {s : Selector} {chosen : List Game}
    (hv : d.session.catalog.current = v) (hne : t ≠ [])
    (hplain : ∀ c ∈ t, Text.isBlank c = false ∧ c.isAlpha = false)
    (hname : ∀ g ∈ v.records, g.name ≠ t) (hs : Selector.read t = .ok s)
    (hc : s.pick v.records = .ok chosen) (hline : Command.CallsList line "add" t) :
    (d.answer settings line).1.session.picks = d.session.picks.including chosen := by
  subst hv
  obtain ⟨change, hadd, he⟩ := PickList.add_of_plain hplain hname hs hc
  rw [picks_answer_add hline hne hadd, he]

/-- What is shown is what is picked: after a filter request, and anything that asks for no other
view, the number of a line adds the game on that line, and a range adds the games on its lines, as
far as a selector can hold the numbers. -/
theorem add_picks_shown (settings : Settings) (games : List Game) (calls : List Catalog.Call)
    (files : Files) (earlier between : List Text) {d d' : Desk} {line args : Text} {v : View Game}
    (hd : d = (opening games calls files).after settings earlier)
    (hline : Command.Calls line "filter" args) (hq : args ≠ ['?'])
    (hclear : Command.keyword args "clear" = false)
    (hv : v = (d.session.catalog.filter args).current)
    (hbetween : ∀ l ∈ between, ∀ args, Command.Calls l "filter" args → args = ['?'])
    (hd' : d' = (d.answer settings line).1.after settings between) :
    (d.answer settings line).2 = (if args = [] then Text.line Help.noFilter else []) ++
      (v.shown.flatMap fun e =>
        Text.line (Numeral.ofNat e.2 ++ ": ".toList ++ e.1.describe v.sort.field)) ∧
    (∀ n, 1 ≤ n → n ≤ v.records.length → ∃ g, (g, n) ∈ v.shown) ∧
    (∀ n g, (g, n) ∈ v.shown → n ≤ Selector.maxIndex →
      (∀ h ∈ v.records, h.name ≠ Numeral.ofNat n) →
      ∀ l, Command.CallsList l "add" (Numeral.ofNat n) →
        (g ∈ d'.session.picks.games →
          (d'.answer settings l).1.session.picks = d'.session.picks) ∧
        (g ∉ d'.session.picks.games →
          (d'.answer settings l).1.session.picks.games.Perm (g :: d'.session.picks.games) ∧
          d'.session.picks.games.Sublist (d'.answer settings l).1.session.picks.games)) ∧
    ∀ first last, 1 ≤ first → first ≤ last → last ≤ v.records.length →
      last ≤ Selector.maxIndex → (∀ h ∈ v.records, h.name ≠ Selector.rangeText first last) →
      ∀ l, Command.CallsList l "add" (Selector.rangeText first last) →
        (d'.answer settings l).1.session.picks.games.Nodup ∧
        d'.session.picks.games.Sublist (d'.answer settings l).1.session.picks.games ∧
        ∀ g, g ∈ (d'.answer settings l).1.session.picks.games ↔
          g ∈ d'.session.picks.games ∨
            ∃ n, first ≤ n ∧ n ≤ last ∧ (g, n) ∈ v.shown := by
  have hcatalog : d'.session.catalog.current = v := by
    rw [hd', catalog_after hbetween, catalog_answer_of_filter hline hq, hclear, hv]
    rfl
  have hkept : d'.session.picks.Kept := by
    have hsound : d.session.Sound games := by
      rw [hd]
      exact sound_after settings (.start games calls) earlier
    rw [hd']
    exact (sound_after settings (sound_answer settings hsound line) between).kept
  refine ⟨?_, fun n => View.exists_mem_shown, ?_, ?_⟩
  · rw [answer_of_filter hline hq hclear, ← hv, View.listing_eq]
  · intro n g hg hn hname l hl
    rw [picks_answer_add_plain hcatalog (Numeral.ofNat_ne_nil n)
      (fun c => Numeral.plain_of_mem_ofNat) hname (Selector.read_ofNat hn) (View.pick_index hg) hl]
    exact ⟨PickList.including_of_mem hkept,
      fun hnew => ⟨PickList.including_perm_cons hnew, PickList.sublist_including hkept [g]⟩⟩
  · intro first last hfirst hle hlast hmax hname l hl
    have hne : Selector.rangeText first last ≠ [] := by simp [Selector.rangeText]
    obtain ⟨chosen, hc, hmem⟩ := View.exists_pick_range hfirst hle hlast
    rw [picks_answer_add_plain hcatalog hne (fun c => Selector.plain_of_mem_rangeText) hname
      (Selector.read_rangeText (hle.trans hmax) hmax) hc hl]
    refine ⟨(PickList.kept_including hkept.nodup chosen).nodup,
      PickList.sublist_including hkept chosen, fun g => ?_⟩
    rw [PickList.mem_including, hmem]

/-- A desk with two games that are not in the order of their names. -/
def pairDesk : Desk := opening [.ofName ['B'], .ofName ['A']] [] .empty

/-- The desk at which both games are shown, and help on filters was asked for since. -/
def shownPairDesk : Desk :=
  (pairDesk.answer .standard "filter".toList).1.after .standard ["filter ?".toList]

theorem add_pair_shown :
    (Game.ofName ['B'], 2) ∈ (pairDesk.session.catalog.filter []).current.shown ∧
    (shownPairDesk.answer .standard "List Add 2".toList).1.session.picks.games.Perm
      (Game.ofName ['B'] :: shownPairDesk.session.picks.games) ∧
    Game.ofName ['A'] ∈
      (shownPairDesk.answer .standard "list add 1-2".toList).1.session.picks.games := by
  have hfilter : Command.Calls "filter".toList "filter" [] := by decide
  have hbetween : ∀ l ∈ ["filter ?".toList], ∀ args, Command.Calls l "filter" args →
      args = ['?'] := by
    intro l hl args h
    rw [List.mem_singleton.mp hl, Command.calls_iff] at h
    rw [← h.2]
    decide
  obtain ⟨-, -, hone, hrange⟩ := add_picks_shown .standard [.ofName ['B'], .ofName ['A']] []
    .empty [] _ rfl hfilter (by decide) (by decide) rfl hbetween rfl
  have hsecond : (Game.ofName ['B'], 2) ∈ (pairDesk.session.catalog.filter []).current.shown := by
    decide +kernel
  have hfirst : (Game.ofName ['A'], 1) ∈ (pairDesk.session.catalog.filter []).current.shown := by
    decide +kernel
  have htwo : ∀ g ∈ (pairDesk.session.catalog.filter []).current.records,
      g.name ≠ Numeral.ofNat 2 := by decide +kernel
  have hboth : ∀ g ∈ (pairDesk.session.catalog.filter []).current.records,
      g.name ≠ Selector.rangeText 1 2 := by decide +kernel
  refine ⟨hsecond, ?_, ?_⟩
  · have hline : Command.CallsList "List Add 2".toList "add" (Numeral.ofNat 2) :=
      ⟨"Add 2".toList, by decide +kernel, by decide +kernel⟩
    exact ((hone 2 _ hsecond (by decide) htwo _ hline).2 List.not_mem_nil).1
  · have hline : Command.CallsList "list add 1-2".toList "add" (Selector.rangeText 1 2) :=
      ⟨"add 1-2".toList, by decide +kernel, by decide +kernel⟩
    obtain ⟨-, -, hmem⟩ := hrange 1 2 (by decide) (by decide) (by decide +kernel) (by decide)
      hboth _ hline
    exact (hmem _).mpr (.inr ⟨1, by decide, by decide, hfirst⟩)

end Desk

end GameShelf
