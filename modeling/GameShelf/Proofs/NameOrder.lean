import GameShelf.Proofs.LetterCase
import GameShelf.Proofs.SortedBlocks
import GameShelf.Proofs.Utf8

namespace GameShelf

namespace Text

namespace Utf8

theorem compare_cons_eq_lt_iff {x y : Nat} (hx : x < 0x100) (hy : y < 0x100) {s t : List UInt8} :
    compare (UInt8.ofNat x :: s) (UInt8.ofNat y :: t) = .lt ↔
      x < y ∨ x = y ∧ compare s t = .lt := by
  have hlt : compare (UInt8.ofNat x) (UInt8.ofNat y) = .lt ↔ x < y := by
    rw [Std.compare_eq_lt, UInt8.lt_iff_toNat_lt, toNat_ofNat_lead hx, toNat_ofNat_lead hy]
  have heq : compare (UInt8.ofNat x) (UInt8.ofNat y) = .eq ↔ x = y := by
    rw [Std.compare_eq_iff_eq, ← UInt8.toNat_inj, toNat_ofNat_lead hx, toNat_ofNat_lead hy]
  rw [List.compare_cons_cons, Ordering.then_eq_lt, hlt, heq]

/-- The first byte that differs is lower in the character that is lower. -/
theorem compare_utf8EncodeChar_append {c d : Char} (h : compare c d = .lt) (s t : List UInt8) :
    compare (String.utf8EncodeChar c ++ s) (String.utf8EncodeChar d ++ t) = .lt := by
  have hlt : c < d := compareOfLessAndEq_eq_lt.mp h
  rw [Char.lt_def, UInt32.lt_iff_toNat_lt] at hlt
  have hvalid : c.val.toNat < 0xD800 ∨ 0xDFFF < c.val.toNat ∧ c.val.toNat < 0x110000 := c.valid
  have hvalid' : d.val.toNat < 0xD800 ∨ 0xDFFF < d.val.toNat ∧ d.val.toNat < 0x110000 := d.valid
  have hdigits {n : Nat} (hn : n < 0x110000) :
      n / 4096 = 64 * (n / 262144) + n / 4096 % 64 ∧ n / 64 = 64 * (n / 4096) + n / 64 % 64 ∧
        n = 64 * (n / 64) + n % 64 ∧ n / 262144 % 8 = n / 262144 := by omega
  have hc := hdigits (n := c.val.toNat) (by omega)
  have hd := hdigits (n := d.val.toNat) (by omega)
  rw [String.utf8EncodeChar, String.utf8EncodeChar]
  -- the first bytes tell the lengths apart; in one length the digits to the base 64 decide
  split_ifs
  all_goals simp (disch := omega) only [List.cons_append, compare_cons_eq_lt_iff]
  all_goals omega

theorem compare_append_left (p s t : List UInt8) : compare (p ++ s) (p ++ t) = compare s t := by
  induction p with
  | nil => rfl
  | cons b p ih =>
    have hb : compare b b = .eq := Std.ReflCmp.compare_self
    rw [List.cons_append, List.cons_append, List.compare_cons_cons, ih, hb]
    rfl

/-- Texts are in the same order by their bytes as by their characters. -/
theorem compare_encode (s t : Text) : compare (encode s) (encode t) = compare s t := by
  induction s generalizing t with
  | nil =>
    cases t with
    | nil => rfl
    | cons d t =>
      obtain ⟨b, rest, hb⟩ := List.exists_cons_of_ne_nil (utf8EncodeChar_ne_nil d)
      rw [encode, encode, List.flatMap_cons, hb]
      rfl
  | cons c s ih =>
    cases t with
    | nil =>
      obtain ⟨b, rest, hb⟩ := List.exists_cons_of_ne_nil (utf8EncodeChar_ne_nil c)
      rw [encode, encode, List.flatMap_cons, hb]
      rfl
    | cons d t =>
      change compare (String.utf8EncodeChar c ++ encode s) (String.utf8EncodeChar d ++ encode t) = _
      rw [List.compare_cons_cons]
      cases h : compare c d with
      | lt => exact compare_utf8EncodeChar_append h _ _
      | eq =>
        obtain rfl := Std.compare_eq_iff_eq.mp h
        rw [compare_append_left, ih]
        rfl
      | gt =>
        exact Std.OrientedCmp.gt_of_lt
          (compare_utf8EncodeChar_append (Std.OrientedCmp.lt_of_gt h) _ _)

end Utf8

/-- A capital sigma between these texts, the first of them read backwards, would end a word. -/
def EndsWord (before after : Text) : Prop :=
  nearestIsCased before = true ∧ nearestIsCased after = false

instance (before after : Text) : Decidable (EndsWord before after) :=
  inferInstanceAs (Decidable (_ ∧ _))

def endWordsFrom (before : Text) : Text → Text
  | [] => []
  | c :: t => (if c = 'Σ' ∧ EndsWord before t then 'ς' else c) :: endWordsFrom (c :: before) t

/-- The text in which a capital sigma at the end of a word has the small form for that place. -/
def endWords (t : Text) : Text := endWordsFrom [] t

theorem lowerFrom_eq_flatMap (before t : Text) :
    lowerFrom before t = (endWordsFrom before t).flatMap lowerChar := by
  induction t generalizing before with
  | nil => rfl
  | cons c t ih =>
    rw [lowerFrom, endWordsFrom, List.flatMap_cons, ih]
    congr 1
    by_cases hc : c = 'Σ'
    · subst hc
      by_cases hend : EndsWord before t
      · have hif : (nearestIsCased before && !nearestIsCased t) = true := by
          rw [hend.1, hend.2]
          rfl
        rw [if_pos rfl, hif, if_pos rfl, if_pos (And.intro rfl hend)]
        decide
      · have hif : (nearestIsCased before && !nearestIsCased t) = false := by
          simpa [EndsWord] using hend
        rw [if_pos rfl, hif, if_neg Bool.false_ne_true, if_neg fun h => hend (And.right h)]
        decide
    · rw [if_neg hc, if_neg fun h => hc (And.left h)]

/-- Apart from the sigmas that end words, a text is lowered character by character. -/
theorem lower_eq_flatMap (t : Text) : lower t = (endWords t).flatMap lowerChar :=
  lowerFrom_eq_flatMap [] t

theorem compare_lower (s t : Text) :
    compare (lower s) (lower t) = compareFolded (endWords s) (endWords t) := by
  rw [lower_eq_flatMap, lower_eq_flatMap, compareFolded]

theorem endWordsFrom_eq_self {before t : Text}
    (h : ∀ a b, t = a ++ 'Σ' :: b → ¬EndsWord (a.reverse ++ before) b) :
    endWordsFrom before t = t := by
  induction t generalizing before with
  | nil => rfl
  | cons c t ih =>
    have hc : ¬(c = 'Σ' ∧ EndsWord before t) := by
      rintro ⟨rfl, hend⟩
      exact h [] t rfl hend
    have ht : endWordsFrom (c :: before) t = t := by
      refine ih fun a b hab => ?_
      have := h (c :: a) b (congrArg (c :: ·) hab)
      rwa [List.reverse_cons, List.append_assoc] at this
    rw [endWordsFrom, if_neg hc, ht]

/-- Nothing changes in a text in which no word ends with a capital sigma. -/
theorem endWords_eq_self {t : Text} (h : ∀ a b, t = a ++ 'Σ' :: b → ¬EndsWord a.reverse b) :
    endWords t = t :=
  endWordsFrom_eq_self fun a b hab => by
    rw [List.append_nil]
    exact h a b hab

end Text

namespace Condition

variable {R : Type} [HasAttributes R] {r : R} {s p : Text}

theorem relation?_name (hp : Text.trim p = p) :
    relation? .name p (.text s) =
      some (Text.compareFolded (Text.endWords s) (Text.endWords p)) := by
  rw [relation?, ← Text.compare_lower]
  change some (compare (Text.lower s) (Text.lower (Text.trim p))) = _
  rw [hp]

theorem accepts_name {o : Operator} (ho : o ≠ .contains) (hp : Text.trim p = p)
    (hr : HasAttributes.value r .name = .text s) :
    (make .name o p).accepts r =
      o.holds (Text.compareFolded (Text.endWords s) (Text.endWords p)) := by
  rw [accepts, show (make .name o p).field = .name from rfl, hr, acceptsValue_make _ ho,
    relation?_name hp]
  rfl

/-- Whether the conditions that compare a record's name with a text go by the order of sorting. -/
def FollowsSorting (r : R) (p : Text) : Prop :=
  ∀ o : Operator, o ≠ .contains →
    ((HasAttributes.value r .name).sortCompare? (.text p)).map o.holds =
      some ((make .name o p).accepts r)

theorem FollowsSorting.exists_text (h : FollowsSorting r p) :
    ∃ s, HasAttributes.value r .name = .text s := by
  have hgreater := h .greater (by decide)
  cases hr : HasAttributes.value r .name with
  | text s => exact ⟨s, rfl⟩
  | number n =>
    rw [hr] at hgreater
    cases hgreater
  | missing =>
    -- sorted behind the text, but accepted by no condition
    have hnone : (make .name .greater p).accepts r = false := congrArg (acceptsValue _) hr
    rw [hr, hnone] at hgreater
    cases hgreater

/-- Conditions go by the order of sorting unless a sigma at the end of a word changes it. -/
theorem followsSorting_iff (hp : Text.trim p = p) (hr : HasAttributes.value r .name = .text s) :
    FollowsSorting r p ↔
      Text.compareFolded (Text.endWords s) (Text.endWords p) = Text.compareFolded s p := by
  unfold FollowsSorting
  rw [hr]
  change (∀ o : Operator, o ≠ .contains →
    some (o.holds (Text.compareFolded s p)) = some ((make .name o p).accepts r)) ↔ _
  constructor
  · intro h
    have hne : Operator.ofOrdering (Text.compareFolded s p) ≠ .contains := by
      cases Text.compareFolded s p <;> decide
    have hholds := h _ hne
    rw [accepts_name hne hp hr, Option.some.injEq] at hholds
    revert hholds
    generalize Text.compareFolded (Text.endWords s) (Text.endWords p) = o
    cases Text.compareFolded s p <;> cases o <;> decide
  · intro h o ho
    rw [accepts_name ho hp hr, h]

end Condition

namespace Query

open Condition

variable {R : Type} [HasAttributes R] {p : Text} {records : List R}

theorem block_of_compare_name (hp : Text.trim p = p) {r r' : R} (hr : FollowsSorting r p)
    (hr' : FollowsSorting r' p) (hle : SortKey.compare ⟨.name, .ascending, rfl⟩ r r' ≠ .gt) :
    block (relation? .name p (HasAttributes.value r .name)) ≤
      block (relation? .name p (HasAttributes.value r' .name)) := by
  obtain ⟨s, hs⟩ := hr.exists_text
  obtain ⟨s', hs'⟩ := hr'.exists_text
  rw [hs, hs', relation?_name hp, relation?_name hp, (followsSorting_iff hp hs).mp hr,
    (followsSorting_iff hp hs').mp hr']
  unfold SortKey.compare at hle
  rw [hs, hs'] at hle
  change compare (s.flatMap Text.lowerChar) (s'.flatMap Text.lowerChar) ≠ .gt at hle
  exact block_le_of_isLE (p.flatMap Text.lowerChar) (Ordering.isLE_iff_ne_gt.mpr hle)

theorem not_aside_of_text (hp : Text.trim p = p) {r : R} (hr : FollowsSorting r p) :
    aside .name p r = false := by
  obtain ⟨s, hs⟩ := hr.exists_text
  rw [← Bool.not_eq_true, aside_iff, hs, relation?_name hp]
  exact Option.some_ne_none _

/-- Sorted by name, the records whose names conditions compare as sorting does make up one block
below a text, one at it and one above it. -/
theorem view_name_blocks (hp : Text.trim p = p) (h : ∀ r ∈ records, FollowsSorting r p) :
    (all.view records ⟨.name, .ascending, rfl⟩).entries =
      ((only (.make .name .less p)).view records ⟨.name, .ascending, rfl⟩).entries ++
        ((only (.make .name .equal p)).view records ⟨.name, .ascending, rfl⟩).entries ++
        ((only (.make .name .greater p)).view records ⟨.name, .ascending, rfl⟩).entries ∧
    (all.view records ⟨.name, .descending, rfl⟩).entries =
      ((only (.make .name .greater p)).view records ⟨.name, .descending, rfl⟩).entries ++
        ((only (.make .name .equal p)).view records ⟨.name, .descending, rfl⟩).entries ++
        ((only (.make .name .less p)).view records ⟨.name, .descending, rfl⟩).entries := by
  have hk : Attribute.name.OneKind {r | r ∈ records} := by
    refine ⟨.text, fun r hr => ?_⟩
    obtain ⟨s, hs⟩ := (h r hr).exists_text
    rw [hs, Value.fits_text]
  have hnone (key : SortKey) :
      ((all.view records key).entries.filter fun e => aside .name p e.1) = [] := by
    refine List.filter_eq_nil_iff.mpr fun e he => ?_
    have hmem := mem_records_of_mem_chosen ((view_perm all records key).mem_iff.mp he)
    rw [not_aside_of_text hp (h e.1 hmem)]
    exact Bool.false_ne_true
  have hblocks := view_all_blocks rfl hk fun r hr r' hr' hle =>
    block_of_compare_name hp (h r hr) (h r' hr') hle
  simpa only [hnone, List.append_nil, List.nil_append] using hblocks

/-- Conditions on the name compare bytes of lowered texts. They tell the order of sorting, and cut
a sorted view into blocks, just where no sigma at the end of a word changes it. -/
theorem name_conditions_follow_sorting (hp : Text.trim p = p) :
    (∀ (r : R) (s : Text), HasAttributes.value r .name = .text s →
      (∀ o : Operator, o ≠ .contains → (make .name o p).accepts r =
        o.holds (compare (Text.Utf8.encode (Text.lower s)) (Text.Utf8.encode (Text.lower p)))) ∧
      (FollowsSorting r p ↔
        Text.compareFolded (Text.endWords s) (Text.endWords p) = Text.compareFolded s p) ∧
      ((∀ t ∈ [s, p], ∀ a b, t = a ++ 'Σ' :: b → ¬Text.EndsWord a.reverse b) →
        FollowsSorting r p)) ∧
    ∀ records : List R, (∀ r ∈ records, FollowsSorting r p) →
      (all.view records ⟨.name, .ascending, rfl⟩).entries =
        ((only (.make .name .less p)).view records ⟨.name, .ascending, rfl⟩).entries ++
          ((only (.make .name .equal p)).view records ⟨.name, .ascending, rfl⟩).entries ++
          ((only (.make .name .greater p)).view records ⟨.name, .ascending, rfl⟩).entries ∧
      (all.view records ⟨.name, .descending, rfl⟩).entries =
        ((only (.make .name .greater p)).view records ⟨.name, .descending, rfl⟩).entries ++
          ((only (.make .name .equal p)).view records ⟨.name, .descending, rfl⟩).entries ++
          ((only (.make .name .less p)).view records ⟨.name, .descending, rfl⟩).entries := by
  refine ⟨fun r s hr => ⟨fun o ho => ?_, followsSorting_iff hp hr, fun h => ?_⟩,
    fun records => view_name_blocks hp⟩
  · rw [accepts_name ho hp hr, Text.Utf8.compare_encode, Text.compare_lower]
  · rw [followsSorting_iff hp hr, Text.endWords_eq_self (h s (by simp)),
      Text.endWords_eq_self (h p (by simp))]

/-- A word that ends with a sigma, and two that leave it before that. -/
def streetNames : List Value :=
  ["ΟΔΟΣ", "οδοί", "Οδηγός"].map fun name => .text name.toList

theorem streetNames_blocks :
    Text.trim "ΟΔΟΊ".toList = "ΟΔΟΊ".toList ∧
    HasAttributes.value (Value.text "ΟΔΟΣ".toList) .name = .text "ΟΔΟΣ".toList ∧
    (∀ r ∈ streetNames, FollowsSorting r "ΟΔΟΊ".toList) ∧
    (all.view streetNames ⟨.name, .ascending, rfl⟩).positions = [2] ++ [1] ++ [0] := by
  have hp : Text.trim "ΟΔΟΊ".toList = "ΟΔΟΊ".toList := by decide +kernel
  obtain ⟨hnames, hviews⟩ := name_conditions_follow_sorting (R := Value) hp
  have hfollows : ∀ r ∈ streetNames, FollowsSorting r "ΟΔΟΊ".toList := by
    refine List.forall_mem_map.mpr fun name hname => ?_
    refine ((hnames (.text name.toList) name.toList rfl).2.1).mpr ?_
    revert name
    decide +kernel
  refine ⟨hp, rfl, hfollows, ?_⟩
  rw [View.positions, (hviews streetNames hfollows).1]
  decide +kernel

/-- One name in two spellings, the second of which ends with a capital sigma. -/
def sigmaNames : List Value := ["ασ", "ΑΣ"].map fun name => .text name.toList

/-- Sorted as equals, but not accepted as equals, and so not in the order of the blocks. -/
theorem sigmaNames_not_followed :
    Text.trim "ΑΣ".toList = "ΑΣ".toList ∧
    (Value.text "ασ".toList).sortCompare? (.text "ΑΣ".toList) = some .eq ∧
    Operator.equal.holds .eq = true ∧
    (make .name .equal "ΑΣ".toList).accepts (Value.text "ασ".toList) = false ∧
    ¬FollowsSorting (Value.text "ασ".toList) "ΑΣ".toList ∧
    (all.view sigmaNames .byName).positions = [0, 1] ∧
    ((only (make .name .greater "ΑΣ".toList)).view sigmaNames .byName).positions = [0] ∧
    ((only (make .name .equal "ΑΣ".toList)).view sigmaNames .byName).positions = [1] := by
  have heq : (Value.text "ασ".toList).sortCompare? (.text "ΑΣ".toList) = some .eq := by
    decide +kernel
  have hfalse : (make .name .equal "ΑΣ".toList).accepts (Value.text "ασ".toList) = false := by
    decide +kernel
  have hnot : ¬FollowsSorting (Value.text "ασ".toList) "ΑΣ".toList := by
    intro h
    have hequal := h .equal (by decide)
    rw [hfalse] at hequal
    change ((Value.text "ασ".toList).sortCompare? (.text "ΑΣ".toList)).map Operator.equal.holds =
      some false at hequal
    rw [heq] at hequal
    cases hequal
  exact ⟨by decide +kernel, heq, rfl, hfalse, hnot, by decide +kernel, by decide +kernel,
    by decide +kernel⟩

end Query

end GameShelf
