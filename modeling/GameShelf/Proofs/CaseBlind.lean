import GameShelf.Proofs.ClauseGrammar
import GameShelf.Proofs.Except
import GameShelf.Proofs.FilterText
import GameShelf.Proofs.NumberCase
import GameShelf.Proofs.SortedBlocks

namespace GameShelf

open Text

theorem Attribute.named?_asciiLower (t : Text) : named? (asciiLower t) = named? t := by
  unfold named? goesBy
  simp only [trim_asciiLower, sameLetters_asciiLower_right]

theorem Attribute.named_asciiLower {a : Attribute} {t : Text} :
    a.Named (asciiLower t) ↔ a.Named t := by
  rw [← named?_eq_some_iff, named?_asciiLower, named?_eq_some_iff]

theorem Attribute.resolve_asciiLower (t : Text) :
    (resolve (asciiLower t)).toOption = (resolve t).toOption := by
  unfold resolve
  rw [named?_asciiLower]
  cases named? t <;> rfl

theorem Direction.read_asciiLower (t : Text) :
    (read (asciiLower t)).toOption = (read t).toOption := by
  unfold read
  simp only [trim_asciiLower, sameLetters_asciiLower_left]
  split_ifs <;> rfl

namespace SortKey

theorem read_asciiLower (t : Text) : (read (asciiLower t)).toOption = (read t).toOption := by
  have hcolon (c : Char) : (c.toLower == ':') = (c == ':') :=
    apply_toLower (f := (· == ':')) (by decide) c
  unfold read
  rw [splitFirst_asciiLower hcolon]
  cases splitFirst (· == ':') t with
  | none => exact toOption_bind_congr (Attribute.resolve_asciiLower t) fun _ => rfl
  | some parts =>
    exact toOption_bind_congr (Direction.read_asciiLower parts.2) fun _ =>
      toOption_bind_congr (Attribute.resolve_asciiLower parts.1) fun _ => rfl

theorem readOrByName_eq (t : Text) : readOrByName t = (read t).toOption.getD byName := by
  unfold readOrByName
  cases read t <;> rfl

theorem readOrByName_asciiLower (t : Text) : readOrByName (asciiLower t) = readOrByName t := by
  rw [readOrByName_eq, read_asciiLower, readOrByName_eq]

end SortKey

namespace Clause

theorem sortRequest?_asciiLower (t : Text) :
    sortRequest? (asciiLower t) = (sortRequest? t).map asciiLower := by
  unfold sortRequest?
  have htake (n : Nat) : (asciiLower t).take n = asciiLower (t.take n) := List.map_take.symm
  have hdrop (n : Nat) : (asciiLower t).drop n = asciiLower (t.drop n) := List.map_drop.symm
  simp only [htake, hdrop, sameLetters_asciiLower_left]
  split_ifs <;> rfl

/-- Sort clauses that differ in case only ask for the same order. -/
theorem sortKey?_eq_of_sameLetters {s t : Text} (h : sameLetters s t = true) :
    (sortRequest? s).map SortKey.readOrByName = (sortRequest? t).map SortKey.readOrByName := by
  refine apply_eq_of_sameLetters
    (f := fun t => (sortRequest? t).map SortKey.readOrByName) (fun t => ?_) h
  simp only [sortRequest?_asciiLower, Option.map_map, Function.comp_def,
    SortKey.readOrByName_asciiLower]

end Clause

theorem Operator.runsInto_asciiLower {o : Operator} {after : Text} :
    o.RunsInto (asciiLower after) ↔ o.RunsInto after := by
  have hhead : (asciiLower after).head? = some '=' ↔ after.head? = some '=' := by
    cases after with
    | nil => exact Iff.rfl
    | cons c after => simp [toLower_eq_iff (d := '=') (by decide)]
  exact and_congr_right' hhead

theorem Operator.not_isAlpha_of_mem_token (o : Operator) {c : Char} (hc : c ∈ o.token) :
    c.isAlpha = false := by
  have hall : ∀ o ∈ all, o.token.Forall fun c => c.isAlpha = false := by decide
  exact List.forall_iff_forall_mem.mp (hall o o.mem_all) c hc

namespace Condition

variable {clause clause' name value value' : Text} {a : Attribute} {o : Operator}

theorem normalize_asciiLower (k : Kind) (t : Text) :
    normalize k (asciiLower t) = asciiLower (normalize k t) := by
  cases k with
  | text => exact trim_asciiLower t
  | integer => exact dropBlanks_asciiLower t
  | real => exact dropBlanks_asciiLower t

/-- A clause in another case has the same parts, in another case. -/
theorem IsClause.exists_of_sameLetters (h : IsClause clause name a o value)
    (hs : sameLetters clause clause' = true) :
    ∃ name' value', IsClause clause' name' a o value' ∧ sameLetters value value' = true := by
  have hlower : clause'.map Char.toLower =
      asciiLower name ++ (asciiLower o.token ++ asciiLower value) := by
    have hclause := sameLetters_iff.mp hs
    rw [h.eq] at hclause
    rw [← asciiLower, ← hclause, asciiLower, List.map_append, List.map_append]
    rfl
  obtain ⟨name', behind, rfl, hname, hbehind⟩ := List.map_eq_append_iff.mp hlower
  obtain ⟨token, value', rfl, htoken, hvalue⟩ := List.map_eq_append_iff.mp hbehind
  change asciiLower name' = asciiLower name at hname
  change asciiLower value' = asciiLower value at hvalue
  obtain rfl : token = o.token :=
    (sameLetters_iff_eq fun _ => o.not_isAlpha_of_mem_token).mp (sameLetters_iff.mpr htoken)
  refine ⟨name', value', ⟨rfl, ?_, ?_, ?_⟩, sameLetters_iff.mpr hvalue.symm⟩
  · rw [← Attribute.named_asciiLower, hname, Attribute.named_asciiLower]
    exact h.named
  · intro hnil
    have hlow : asciiLower (normalize a.kind value) = asciiLower (normalize a.kind value') := by
      rw [← normalize_asciiLower, ← hvalue, normalize_asciiLower]
    rw [hnil] at hlow
    exact h.valued (List.map_eq_nil_iff.mp hlow)
  · rw [← Operator.runsInto_asciiLower, hvalue, Operator.runsInto_asciiLower]
    exact h.apart

/-- If moreover the value stands there unchanged, it is the same. -/
theorem IsClause.value_eq_of_suffix (h : IsClause clause' name a o value')
    (hs : sameLetters value value' = true) (hsuffix : value <:+ clause') : value = value' := by
  have hlength : value.length = value'.length := by
    simpa [asciiLower] using congrArg List.length (sameLetters_iff.mp hs)
  have hsuffix' : value' <:+ clause' := by
    rw [h.eq, ← List.append_assoc]
    exact List.suffix_append _ _
  exact (List.suffix_of_suffix_length_le hsuffix hsuffix' hlength.le).eq_of_length hlength

end Condition

namespace Game

/-- Whether two games differ in the case of the letters in their names, and in nothing else. -/
def Respelled (g h : Game) : Prop :=
  Text.sameLetters g.name h.name = true ∧ h = { g with name := h.name }

instance (g h : Game) : Decidable (g.Respelled h) := inferInstanceAs (Decidable (_ ∧ _))

variable {g g' h h' : Game}

theorem Respelled.value_eq (hg : g.Respelled g') {a : Attribute} (ha : a ≠ .name) :
    HasAttributes.value g' a = HasAttributes.value g a := by
  rw [hg.2]
  cases a
  case name => exact absurd rfl ha
  all_goals rfl

/-- Games that differ in case only are sorted alike. -/
theorem Respelled.compare_eq (hg : g.Respelled g') (hh : h.Respelled h') (key : SortKey) :
    key.compare g h = key.compare g' h' := by
  unfold SortKey.compare
  by_cases ha : key.field = .name
  · have hfolded {s t : Text} (hs : sameLetters s t = true) :
        s.flatMap lowerChar = t.flatMap lowerChar :=
      apply_eq_of_sameLetters flatMap_lowerChar_asciiLower hs
    have hnames : compareFolded g.name h.name = compareFolded g'.name h'.name := by
      rw [compareFolded, hfolded hg.1, hfolded hh.1, compareFolded]
    rw [ha]
    exact congrArg key.direction.apply hnames
  · rw [hg.value_eq ha, hh.value_eq ha]

end Game

namespace Condition

variable {value value' : Text} {a : Attribute} {o : Operator} {g g' : Game}

theorem lower_normalize_eq (k : Kind) (hv : sameLetters value value' = true) :
    lower (normalize k value) = lower (normalize k value') :=
  apply_eq_of_sameLetters (f := fun t => lower (normalize k t))
    (fun t => by rw [normalize_asciiLower, lower_asciiLower]) hv

theorem relation?_eq_of_respelled (hv : sameLetters value value' = true) (hg : g.Respelled g') :
    relation? a value (HasAttributes.value g a) =
      relation? a value' (HasAttributes.value g' a) := by
  by_cases ha : a = .name
  · subst ha
    change some (compare (lower g.name) (lower (normalize .text value))) =
      some (compare (lower g'.name) (lower (normalize .text value')))
    rw [lower_normalize_eq .text hv, lower_eq_of_sameLetters hg.1]
  · obtain ⟨m, hm, -⟩ := g.exists_number ha
    have hread : Number.read a.kind (normalize a.kind value) =
        Number.read a.kind (normalize a.kind value') :=
      apply_eq_of_sameLetters (f := fun t => Number.read a.kind (normalize a.kind t))
        (fun t => by rw [normalize_asciiLower, Number.read_asciiLower]) hv
    rw [hg.value_eq ha, hm, relation?, relation?, hread]

/-- Conditions that differ in case only accept the same games, unless they look for letters in the
text of a number. -/
theorem accepts_eq_of_respelled (hv : sameLetters value value' = true) (hg : g.Respelled g')
    (hsame : a.kind.isNumeric = true → o = .contains → value = value') :
    (make a o value).accepts g = (make a o value').accepts g' := by
  by_cases ho : o = .contains
  · by_cases ha : a = .name
    · subst ha ho
      change occursIn (lower (normalize .text value)) (lower g.name) =
        occursIn (lower (normalize .text value')) (lower g'.name)
      rw [lower_normalize_eq .text hv, lower_eq_of_sameLetters hg.1]
    · rw [hsame (Attribute.isNumeric_of_ne_name ha) ho]
      exact congrArg (make a o value').acceptsValue (hg.value_eq ha).symm
  · rw [accepts, accepts]
    change (make a o value).acceptsValue (HasAttributes.value g a) =
      (make a o value').acceptsValue (HasAttributes.value g' a)
    rw [acceptsValue_make a ho, acceptsValue_make a ho, relation?_eq_of_respelled hv hg]

end Condition

namespace Query

/-- Whether what a piece of a filter text looks for in the text of a number stands in another one
unchanged. -/
def KeepsPattern (piece piece' : Text) : Prop :=
  ∀ name a pattern, Condition.IsClause (trim piece) name a .contains pattern →
    a.kind.isNumeric = true → pattern <:+ trim piece'

/-- Whether two filter texts differ in the case of letters only, and not even in that where a
clause looks for letters in the text of a number. -/
structure Respelled (t t' : Text) : Prop where
  letters : sameLetters t t' = true
  patterns : ∀ pieces ∈ (splitOn ',' t).zip (splitOn ',' t'), KeepsPattern pieces.1 pieces.2

variable {t t' piece piece' : Text} {pieces pieces' : List Text} {g g' : Game}
  {games games' : List Game}

/-- What a piece of a filter text says about a record. -/
def admits {R : Type} [HasAttributes R] (r : R) (piece : Text) : Bool :=
  ((Clause.read? piece).bind Clause.condition?).all (·.accepts r)

theorem accepts_read {R : Type} [HasAttributes R] (t : Text) (r : R) :
    (read t).accepts r = (splitOn ',' t).all (admits r) := by
  have hconditions : (read t).conditions =
      (splitOn ',' t).filterMap fun piece => (Clause.read? piece).bind Clause.condition? :=
    List.filterMap_filterMap
  rw [accepts, hconditions, List.all_filterMap]
  refine congrArg (splitOn ',' t).all (funext fun piece => ?_)
  rw [admits]
  cases (Clause.read? piece).bind Clause.condition? <;> rfl

/-- Pieces that differ in case only, but not in what they look for in numbers, say the same. -/
theorem admits_eq_of_keepsPattern (hg : g.Respelled g')
    (h : sameLetters piece piece' = true ∧ KeepsPattern piece piece') :
    admits g piece = admits g' piece' := by
  have htrim := sameLetters_trim h.1
  have hsort : (Clause.sortRequest? (trim piece)).isSome =
      (Clause.sortRequest? (trim piece')).isSome := by
    rw [← Option.isSome_map, Clause.sortKey?_eq_of_sameLetters htrim, Option.isSome_map]
  rw [admits, admits, Clause.bind_condition?_read?, Clause.bind_condition?_read?, hsort]
  split
  · rfl
  · cases hread : Condition.read (trim piece) with
    | ok c =>
      obtain ⟨name, a, o, value, hclause, rfl⟩ := Condition.read_eq_ok_iff.mp hread
      obtain ⟨name', value', hclause', hsame⟩ := hclause.exists_of_sameLetters htrim
      rw [Condition.read_of_isClause hclause']
      refine Condition.accepts_eq_of_respelled hsame hg fun hnumeric ho => ?_
      subst ho
      exact hclause'.value_eq_of_suffix hsame (h.2 name a value hclause hnumeric)
    | error fault =>
      cases hread' : Condition.read (trim piece') with
      | error fault' => rfl
      | ok c =>
        -- a clause in the one case is a clause in the other
        obtain ⟨name, a, o, value, hclause, rfl⟩ := Condition.read_eq_ok_iff.mp hread'
        obtain ⟨name', value', hclause', -⟩ :=
          hclause.exists_of_sameLetters (sameLetters_symm htrim)
        exact nomatch hread.symm.trans (Condition.read_of_isClause hclause')

theorem all_admits_eq (hg : g.Respelled g')
    (h : List.Forall₂ (fun a b => sameLetters a b = true ∧ KeepsPattern a b) pieces pieces') :
    pieces.all (admits g) = pieces'.all (admits g') := by
  induction h with
  | nil => rfl
  | cons hpiece _ ih => rw [List.all_cons, List.all_cons, admits_eq_of_keepsPattern hg hpiece, ih]

theorem sortKeys_eq
    (h : List.Forall₂ (fun a b => sameLetters a b = true) pieces pieces') :
    (pieces.filterMap fun piece =>
        (Clause.sortRequest? (trim piece)).map SortKey.readOrByName) =
      pieces'.filterMap fun piece =>
        (Clause.sortRequest? (trim piece)).map SortKey.readOrByName := by
  induction h with
  | nil => rfl
  | cons hpiece _ ih =>
    have hkey := Clause.sortKey?_eq_of_sameLetters (sameLetters_trim hpiece)
    rw [List.filterMap_cons, List.filterMap_cons, hkey, ih]

theorem Respelled.forall₂_letters (h : Respelled t t') :
    List.Forall₂ (fun a b => sameLetters a b = true) (splitOn ',' t) (splitOn ',' t') :=
  sameLetters_splitOn rfl h.letters

theorem Respelled.forall₂_patterns (h : Respelled t t') :
    List.Forall₂ (fun a b => sameLetters a b = true ∧ KeepsPattern a b) (splitOn ',' t)
      (splitOn ',' t') := by
  obtain ⟨hlength, hletters⟩ := List.forall₂_iff_zip.mp h.forall₂_letters
  exact List.forall₂_iff_zip.mpr ⟨hlength, fun hmem => ⟨hletters hmem, h.patterns _ hmem⟩⟩

theorem Respelled.accepts_eq (h : Respelled t t') (hg : g.Respelled g') :
    (read t).accepts g = (read t').accepts g' := by
  rw [accepts_read, accepts_read, all_admits_eq hg h.forall₂_patterns]

theorem Respelled.sort?_eq (h : Respelled t t') : (read t).sort? = (read t').sort? := by
  have hkeys := sortKeys_eq h.forall₂_letters
  rw [← List.map_filterMap, ← List.map_filterMap] at hkeys
  rw [read_sort?, read_sort?, ← List.getLast?_map, ← List.getLast?_map]
  exact congrArg List.getLast? hkeys

/-- Neither the case of the names nor that of a filter text has a say in what a filter selects, and
in which order, but for letters that are looked for in the text of a number. -/
theorem view_ignores_case (h : Respelled t t') (hg : List.Forall₂ Game.Respelled games games')
    (key : SortKey) :
    ((read t).view games key).positions = ((read t').view games' key).positions ∧
      ((read t).view games key).sort = ((read t').view games' key).sort := by
  have hkey : (read t).sortOr key = (read t').sortOr key := by rw [sortOr, sortOr, h.sort?_eq]
  refine ⟨?_, hkey⟩
  -- both catalogs are seen as one list of pairs, the games of each as one half of them
  obtain ⟨hlength, hpairs⟩ := List.forall₂_iff_zip.mp hg
  have hfst : (games.zip games').map Prod.fst = games := List.map_fst_zip hlength.le
  have hsnd : (games.zip games').map Prod.snd = games' := List.map_snd_zip hlength.ge
  conv_lhs => rw [← hfst]
  conv_rhs => rw [← hsnd]
  apply view_positions_congr hkey
  · intro pair hpair
    exact h.accepts_eq (hpairs hpair)
  · intro pair hpair pair' hpair'
    exact (hpairs hpair).compare_eq (hpairs hpair') _

theorem keepsPattern_of_isClause {name pattern : Text} {a : Attribute}
    (h : Condition.IsClause (trim piece) name a .contains pattern)
    (hsuffix : pattern <:+ trim piece') : KeepsPattern piece piece' := by
  intro name' a' pattern' h' _
  rw [← (h.unique h').2.2.2]
  exact hsuffix

theorem keepsPattern_of_read
    (h : ((Condition.read (trim piece)).toOption.all fun c =>
      !(c.operator == .contains && c.field.kind.isNumeric)) = true) : KeepsPattern piece piece' := by
  intro name a pattern hclause hnumeric
  rw [Condition.read_of_isClause hclause] at h
  change (!((Operator.contains == .contains) && a.kind.isNumeric)) = true at h
  rw [hnumeric] at h
  exact Bool.noConfusion h

/-- Two games that are rated beyond all numbers, and one that is not. -/
def oddGames (names : List String) : List Game :=
  (names.zip [Binary64.infinite, Binary64.infinite, 0]).map fun (name, magnitude) =>
    { Game.ofName name.toList with rating := .ofMagnitude false magnitude }

theorem oddGames_view :
    Respelled "RATING>1E3,Rating~=inf,Name~=ΟΣ a,sort:NAME:Desc".toList
      "rating>1e3,rating~=inf,NAME~=ΟΣ A,SORT:name:desc".toList ∧
    List.Forall₂ Game.Respelled (oddGames ["ΟΣ Aa", "ΟΣ AB", "ΟΣ AC"])
      (oddGames ["ΟΣ aA", "ΟΣ ab", "ΟΣ Ac"]) ∧
    ((read "rating>1e3,rating~=inf,NAME~=ΟΣ A,SORT:name:desc".toList).view
      (oddGames ["ΟΣ aA", "ΟΣ ab", "ΟΣ Ac"]) .byName).positions = [1, 0] := by
  have hinf : Condition.IsClause (trim "Rating~=inf".toList) "Rating".toList .rating .contains
      "inf".toList :=
    ⟨by decide, ⟨"rating".toList, by decide, by decide⟩, by decide, by decide⟩
  have htexts : Respelled "RATING>1E3,Rating~=inf,Name~=ΟΣ a,sort:NAME:Desc".toList
      "rating>1e3,rating~=inf,NAME~=ΟΣ A,SORT:name:desc".toList := by
    refine ⟨by decide +kernel, List.forall_mem_cons.mpr ⟨?_, List.forall_mem_cons.mpr ⟨?_,
      List.forall_mem_cons.mpr ⟨?_, List.forall_mem_singleton.mpr ?_⟩⟩⟩⟩
    · exact keepsPattern_of_read (by decide +kernel)
    · exact keepsPattern_of_isClause hinf (by decide +kernel)
    · exact keepsPattern_of_read (by decide +kernel)
    · exact keepsPattern_of_read (by decide +kernel)
  have hgames : List.Forall₂ Game.Respelled (oddGames ["ΟΣ Aa", "ΟΣ AB", "ΟΣ AC"])
      (oddGames ["ΟΣ aA", "ΟΣ ab", "ΟΣ Ac"]) := by decide +kernel
  refine ⟨htexts, hgames, ?_⟩
  rw [← (view_ignores_case htexts hgames .byName).1]
  decide +kernel

end Query

end GameShelf
