import GameShelf.Text.Utf8
import Mathlib.Tactic.SplitIfs

namespace GameShelf.Text.Utf8

theorem isTail_iff {b : UInt8} : isTail b = true ↔ 0x80 ≤ b.toNat ∧ b.toNat ≤ 0xBF := by
  simp [isTail, UInt8.le_iff_toNat_le]

theorem pair?_eq_some_iff {a b : UInt8} {n : Nat} :
    pair? a b = some n ↔
      (0xC2 ≤ a.toNat ∧ a.toNat ≤ 0xDF ∧ isTail b = true) ∧
      a.toNat % 0x20 * 0x40 + tailBits b = n := by
  simp [pair?, UInt8.le_iff_toNat_le, and_assoc]

theorem triple?_eq_some_iff {a b c : UInt8} {n : Nat} :
    triple? a b c = some n ↔
      (0xE0 ≤ a.toNat ∧ a.toNat ≤ 0xEF ∧ isTail b = true ∧ isTail c = true) ∧
      a.toNat % 0x10 * 0x1000 + tailBits b * 0x40 + tailBits c = n ∧
      0x800 ≤ n ∧ ¬(0xD800 ≤ n ∧ n ≤ 0xDFFF) := by
  simp only [triple?, UInt8.le_iff_toNat_le, Option.ite_none_right_eq_some, Option.some.injEq,
    Bool.and_eq_true, decide_eq_true_eq, Bool.not_eq_true', Bool.and_eq_false_imp,
    decide_eq_false_iff_not]
  constructor
  · rintro ⟨⟨⟨⟨⟨⟨ha, ha'⟩, hb⟩, hc⟩, hlow⟩, hsurrogate⟩, rfl⟩
    exact ⟨⟨ha, ha', hb, hc⟩, rfl, hlow, fun h => hsurrogate h.1 h.2⟩
  · rintro ⟨⟨ha, ha', hb, hc⟩, rfl, hlow, hsurrogate⟩
    exact ⟨⟨⟨⟨⟨⟨ha, ha'⟩, hb⟩, hc⟩, hlow⟩, fun h h' => hsurrogate ⟨h, h'⟩⟩, rfl⟩

theorem quadruple?_eq_some_iff {a b c d : UInt8} {n : Nat} :
    quadruple? a b c d = some n ↔
      (0xF0 ≤ a.toNat ∧ a.toNat ≤ 0xF4 ∧ isTail b = true ∧ isTail c = true ∧ isTail d = true) ∧
      a.toNat % 0x8 * 0x40000 + tailBits b * 0x1000 + tailBits c * 0x40 + tailBits d = n ∧
      0x10000 ≤ n ∧ n ≤ 0x10FFFF := by
  simp only [quadruple?, UInt8.le_iff_toNat_le, Option.ite_none_right_eq_some, Option.some.injEq,
    Bool.and_eq_true, decide_eq_true_eq]
  constructor
  · rintro ⟨⟨⟨⟨⟨⟨⟨ha, ha'⟩, hb⟩, hc⟩, hd⟩, hlow⟩, hhigh⟩, rfl⟩
    exact ⟨⟨ha, ha', hb, hc, hd⟩, rfl, hlow, hhigh⟩
  · rintro ⟨⟨ha, ha', hb, hc, hd⟩, rfl, hlow, hhigh⟩
    exact ⟨⟨⟨⟨⟨⟨⟨ha, ha'⟩, hb⟩, hc⟩, hd⟩, hlow⟩, hhigh⟩, rfl⟩

theorem pair?_eq_none {a b : UInt8} (h : 0xE0 ≤ a.toNat) : pair? a b = none := by
  rw [Option.eq_none_iff_forall_ne_some]
  intro n hn
  have := (pair?_eq_some_iff.mp hn).1
  omega

theorem triple?_eq_none {a b c : UInt8} (h : 0xF0 ≤ a.toNat) : triple? a b c = none := by
  rw [Option.eq_none_iff_forall_ne_some]
  intro n hn
  have := (triple?_eq_some_iff.mp hn).1
  omega

theorem toNat_ofNat_lead {n : Nat} (h : n < 0x100) : (UInt8.ofNat n).toNat = n :=
  UInt8.toNat_ofNat'.trans (Nat.mod_eq_of_lt h)

/-- A tail byte carries six bits. -/
theorem isTail_ofNat (n : Nat) : isTail (UInt8.ofNat (n % 0x40 + 0x80)) = true := by
  rw [isTail_iff, toNat_ofNat_lead (by omega)]
  omega

theorem tailBits_ofNat (n : Nat) : tailBits (UInt8.ofNat (n % 0x40 + 0x80)) = n % 0x40 := by
  rw [tailBits, toNat_ofNat_lead (by omega)]
  omega

theorem ofNat_tailBits {b : UInt8} (h : isTail b = true) : UInt8.ofNat (tailBits b + 0x80) = b := by
  rw [isTail_iff] at h
  have hb : tailBits b + 0x80 = b.toNat := by
    rw [tailBits]
    omega
  rw [hb, UInt8.ofNat_toNat]

/-- What encodes a character, by its length. -/
inductive Encodes (c : Char) : List UInt8 → Prop where
  | one {a} : a < 0x80 → a.toNat = c.toNat → Encodes c [a]
  | two {a b} : ¬a < 0x80 → pair? a b = some c.toNat → Encodes c [a, b]
  | three {a b d} : ¬a < 0x80 → pair? a b = none → triple? a b d = some c.toNat →
      Encodes c [a, b, d]
  | four {a b d e} : ¬a < 0x80 → pair? a b = none → triple? a b d = none →
      quadruple? a b d e = some c.toNat → Encodes c [a, b, d, e]

theorem not_lt_of_le {a : UInt8} (h : 0x80 ≤ a.toNat) : ¬a < 0x80 := by
  rw [UInt8.lt_iff_toNat_lt]
  exact Nat.not_lt_of_le h

theorem encodes_utf8EncodeChar (c : Char) : Encodes c (String.utf8EncodeChar c) := by
  have hn : c.toNat = c.val.toNat := rfl
  have hvalid : c.val.toNat < 0xD800 ∨ 0xDFFF < c.val.toNat ∧ c.val.toNat < 0x110000 := c.valid
  rw [String.utf8EncodeChar]
  split_ifs with h1 h2 h3
  · refine .one ?_ ?_
    · rw [UInt8.lt_iff_toNat_lt, toNat_ofNat_lead (by omega)]
      exact Nat.lt_succ_of_le h1
    · rw [toNat_ofNat_lead (by omega), hn]
  · refine .two (not_lt_of_le ?_) ?_
    · rw [toNat_ofNat_lead (by omega)]
      omega
    · rw [pair?_eq_some_iff, tailBits_ofNat, toNat_ofNat_lead (by omega)]
      exact ⟨⟨by omega, by omega, isTail_ofNat _⟩, by omega⟩
  · refine .three (not_lt_of_le ?_) (pair?_eq_none ?_) ?_
    · rw [toNat_ofNat_lead (by omega)]
      omega
    · rw [toNat_ofNat_lead (by omega)]
      omega
    · rw [triple?_eq_some_iff, tailBits_ofNat, tailBits_ofNat, toNat_ofNat_lead (by omega)]
      exact ⟨⟨by omega, by omega, isTail_ofNat _, isTail_ofNat _⟩, by omega⟩
  · refine .four (not_lt_of_le ?_) (pair?_eq_none ?_) (triple?_eq_none ?_) ?_
    · rw [toNat_ofNat_lead (by omega)]
      omega
    · rw [toNat_ofNat_lead (by omega)]
      omega
    · rw [toNat_ofNat_lead (by omega)]
      omega
    · rw [quadruple?_eq_some_iff, tailBits_ofNat, tailBits_ofNat, tailBits_ofNat,
        toNat_ofNat_lead (by omega)]
      exact ⟨⟨by omega, by omega, isTail_ofNat _, isTail_ofNat _, isTail_ofNat _⟩, by omega⟩

theorem tailBits_lt (b : UInt8) : tailBits b < 0x40 := Nat.mod_lt _ (by decide)

theorem eq_ofNat {b : UInt8} {m : Nat} (h : b.toNat = m) : b = UInt8.ofNat m := by
  rw [← h, UInt8.ofNat_toNat]

theorem eq_ofNat_tail {b : UInt8} {m : Nat} (hb : isTail b = true) (h : tailBits b = m % 0x40) :
    b = UInt8.ofNat (m % 0x40 + 0x80) := by
  rw [← h, ofNat_tailBits hb]

/-- A character is encoded in one way only. -/
theorem Encodes.eq {c : Char} {bytes : List UInt8} (h : Encodes c bytes) :
    bytes = String.utf8EncodeChar c := by
  have hn : c.toNat = c.val.toNat := rfl
  rw [String.utf8EncodeChar]
  cases h with
  | one ha hc =>
    rw [UInt8.lt_iff_toNat_lt] at ha
    have hle : c.val.toNat ≤ 0x7F := by
      rw [← hn, ← hc]
      exact Nat.le_of_lt_succ ha
    rw [if_pos hle, ← eq_ofNat (hc.trans hn)]
  | @two a b ha h =>
    obtain ⟨⟨hlow, hhigh, hb⟩, hc⟩ := pair?_eq_some_iff.mp h
    have := tailBits_lt b
    have hfirst : a = UInt8.ofNat (c.val.toNat / 64 % 0x20 + 0xC0) := eq_ofNat (by omega)
    have hlast : b = UInt8.ofNat (c.val.toNat % 0x40 + 0x80) := eq_ofNat_tail hb (by omega)
    rw [if_neg (by omega), if_pos (by omega), ← hfirst, ← hlast]
  | @three a b d ha hpair h =>
    obtain ⟨⟨hlow, hhigh, hb, hd⟩, hc, hmin, -⟩ := triple?_eq_some_iff.mp h
    have := tailBits_lt b
    have := tailBits_lt d
    have hfirst : a = UInt8.ofNat (c.val.toNat / 4096 % 0x10 + 0xE0) := eq_ofNat (by omega)
    have hsecond : b = UInt8.ofNat (c.val.toNat / 64 % 0x40 + 0x80) := eq_ofNat_tail hb (by omega)
    have hlast : d = UInt8.ofNat (c.val.toNat % 0x40 + 0x80) := eq_ofNat_tail hd (by omega)
    rw [if_neg (by omega), if_neg (by omega), if_pos (by omega), ← hfirst, ← hsecond, ← hlast]
  | @four a b d e ha hpair htriple h =>
    obtain ⟨⟨hlow, hhigh, hb, hd, he⟩, hc, hmin, -⟩ := quadruple?_eq_some_iff.mp h
    have := tailBits_lt b
    have := tailBits_lt d
    have := tailBits_lt e
    have hfirst : a = UInt8.ofNat (c.val.toNat / 262144 % 0x8 + 0xF0) := eq_ofNat (by omega)
    have hsecond : b = UInt8.ofNat (c.val.toNat / 4096 % 0x40 + 0x80) := eq_ofNat_tail hb (by omega)
    have hthird : d = UInt8.ofNat (c.val.toNat / 64 % 0x40 + 0x80) := eq_ofNat_tail hd (by omega)
    have hlast : e = UInt8.ofNat (c.val.toNat % 0x40 + 0x80) := eq_ofNat_tail he (by omega)
    rw [if_neg (by omega), if_neg (by omega), if_neg (by omega), ← hfirst, ← hsecond, ← hthird,
      ← hlast]

/-- The reader takes one character at a time. -/
theorem Encodes.read_append {c : Char} {bytes : List UInt8} (h : Encodes c bytes)
    (rest : List UInt8) : read (bytes ++ rest) = push c.toNat (read rest) := by
  cases h with
  | one ha hc =>
    rw [List.singleton_append, read.eq_def]
    simp only [ha, if_true, hc]
  | two ha h =>
    rw [List.cons_append, List.singleton_append, read.eq_def]
    simp only [ha, if_false, h]
  | three ha hpair h =>
    rw [List.cons_append, List.cons_append, List.singleton_append, read.eq_def]
    simp only [ha, if_false, hpair, h]
  | four ha hpair htriple h =>
    rw [List.cons_append, List.cons_append, List.cons_append, List.singleton_append, read.eq_def]
    simp only [ha, if_false, hpair, htriple, h]

theorem encode_append (s t : Text) : encode (s ++ t) = encode s ++ encode t :=
  List.flatMap_append

theorem read_encode_append (s : Text) (rest : List UInt8) :
    read (encode s ++ rest) = (s ++ (read rest).1, (read rest).2) := by
  induction s with
  | nil => rfl
  | cons c s ih =>
    rw [encode, List.flatMap_cons, List.append_assoc, (encodes_utf8EncodeChar c).read_append,
      ← encode, ih, push, Char.ofNat_toNat, List.cons_append]

theorem read_encode (t : Text) : read (encode t) = (t, []) := by
  have h := read_encode_append t []
  rwa [List.append_nil, read, List.append_nil] at h

/-- What a text starts with can be told from the bytes. -/
theorem encode_prefix_iff {s t : Text} : encode s <+: encode t ↔ s <+: t := by
  constructor
  · rintro ⟨rest, h⟩
    have hread := (read_encode_append s rest).symm.trans ((congrArg read h).trans (read_encode t))
    exact ⟨(read rest).1, congrArg Prod.fst hread⟩
  · rintro ⟨rest, rfl⟩
    exact ⟨encode rest, (encode_append s rest).symm⟩

theorem encodes_ofNat {n : Nat} {bytes : List UInt8} (hn : n.isValidChar)
    (h : ∀ c : Char, c.toNat = n → Encodes c bytes) :
    String.utf8EncodeChar (Char.ofNat n) = bytes := by
  refine (h _ ?_).eq.symm
  rw [Char.ofNat, dif_pos hn]
  rfl

theorem isValidChar_of_pair? {a b : UInt8} {n : Nat} (h : pair? a b = some n) :
    n.isValidChar := by
  have := pair?_eq_some_iff.mp h
  have := tailBits_lt b
  exact .inl (by omega)

theorem isValidChar_of_triple? {a b c : UInt8} {n : Nat} (h : triple? a b c = some n) :
    n.isValidChar := by
  have := triple?_eq_some_iff.mp h
  have := tailBits_lt b
  have := tailBits_lt c
  unfold Nat.isValidChar
  omega

theorem isValidChar_of_quadruple? {a b c d : UInt8} {n : Nat}
    (h : quadruple? a b c d = some n) : n.isValidChar := by
  have := quadruple?_eq_some_iff.mp h
  exact .inr (by omega)

/-- What the reader does not take is left as it is. -/
theorem encode_read (bytes : List UInt8) : encode (read bytes).1 ++ (read bytes).2 = bytes := by
  -- Whatever its length, a character that is read is put in front of the others in one way.
  have hpush {n : Nat} {taken rest : List UInt8} (hn : n.isValidChar)
      (h : ∀ c : Char, c.toNat = n → Encodes c taken)
      (ih : encode (read rest).1 ++ (read rest).2 = rest) :
      encode (push n (read rest)).1 ++ (push n (read rest)).2 = taken ++ rest := by
    rw [push, encode, List.flatMap_cons, encodes_ofNat hn h, List.append_assoc, ← encode, ih]
  fun_induction read bytes with
  | case1 => rfl
  | case2 a rest ha ih =>
    have hn : a.toNat < 0x80 := UInt8.lt_iff_toNat_lt.mp ha
    exact hpush (.inl (by omega)) (fun c hc => .one ha hc.symm) ih
  | case3 => rfl
  | case4 a ha b rest n hpair ih =>
    exact hpush (isValidChar_of_pair? hpair) (fun c hc => .two ha (hc ▸ hpair)) ih
  | case5 => rfl
  | case6 a ha b hpair c rest n htriple ih =>
    exact hpush (isValidChar_of_triple? htriple) (fun c hc => .three ha hpair (hc ▸ htriple)) ih
  | case7 => rfl
  | case8 a ha b hpair c htriple d rest n hquadruple ih =>
    exact hpush (isValidChar_of_quadruple? hquadruple)
      (fun c hc => .four ha hpair htriple (hc ▸ hquadruple)) ih
  | case9 => rfl

/-- Bytes are read as a text if and only if they encode it. -/
theorem decode?_eq_some_iff {bytes : List UInt8} {t : Text} :
    decode? bytes = some t ↔ encode t = bytes := by
  constructor
  · intro h
    have hread := encode_read bytes
    rw [decode?] at h
    split at h
    next t' heq =>
      obtain rfl := Option.some.inj h
      rw [heq, List.append_nil] at hread
      exact hread
    next => cases h
  · rintro rfl
    rw [decode?, read_encode]

theorem decode?_eq_none_iff {bytes : List UInt8} :
    decode? bytes = none ↔ ∀ t, encode t ≠ bytes := by
  rw [Option.eq_none_iff_forall_ne_some]
  exact forall_congr' fun t => not_congr decode?_eq_some_iff

theorem utf8EncodeChar_ne_nil (c : Char) : String.utf8EncodeChar c ≠ [] := by
  apply List.ne_nil_of_length_pos
  rw [String.length_utf8EncodeChar]
  exact c.utf8Size_pos

/-- Only the first byte of a character can be one of its own. -/
theorem Encodes.isTail {c : Char} {a : UInt8} {rest : List UInt8} (h : Encodes c (a :: rest)) :
    ∀ b ∈ rest, isTail b = true := by
  cases h with
  | one => simp
  | two _ hpair =>
    obtain ⟨⟨-, -, hb⟩, -⟩ := pair?_eq_some_iff.mp hpair
    simp [hb]
  | three _ _ htriple =>
    obtain ⟨⟨-, -, hb, hd⟩, -⟩ := triple?_eq_some_iff.mp htriple
    simp [hb, hd]
  | four _ _ _ hquadruple =>
    obtain ⟨⟨-, -, hb, hd, he⟩, -⟩ := quadruple?_eq_some_iff.mp hquadruple
    simp [hb, hd, he]

/-- An ASCII byte is no part of a longer form. -/
theorem utf8EncodeChar_of_mem {c : Char} {b : UInt8} (h : b ∈ String.utf8EncodeChar c)
    (hb : b < 0x80) : String.utf8EncodeChar c = [b] ∧ b.toNat = c.toNat := by
  obtain ⟨a, rest, hcons⟩ := List.exists_cons_of_ne_nil (utf8EncodeChar_ne_nil c)
  have hc : Encodes c (a :: rest) := hcons ▸ encodes_utf8EncodeChar c
  rw [hcons] at h ⊢
  rcases List.mem_cons.mp h with rfl | h
  · cases hc with
    | one _ hn => exact ⟨rfl, hn⟩
    | two ha _ => exact absurd hb ha
    | three ha _ _ => exact absurd hb ha
    | four ha _ _ _ => exact absurd hb ha
  · have htail := isTail_iff.mp (hc.isTail b h)
    exact absurd hb (not_lt_of_le htail.1)

/-- The first byte of a character is none of those that follow a first byte. -/
theorem Encodes.not_isTail {c : Char} {a : UInt8} {rest : List UInt8}
    (h : Encodes c (a :: rest)) : Utf8.isTail a = false := by
  apply eq_false_of_ne_true
  intro ha
  rw [isTail_iff] at ha
  cases h with
  | one hlow _ => exact absurd hlow (not_lt_of_le ha.1)
  | two _ hpair =>
    obtain ⟨⟨hlow, -, -⟩, -⟩ := pair?_eq_some_iff.mp hpair
    omega
  | three _ _ htriple =>
    obtain ⟨⟨hlow, -, -, -⟩, -⟩ := triple?_eq_some_iff.mp htriple
    omega
  | four _ _ _ hquadruple =>
    obtain ⟨⟨hlow, -, -, -, -⟩, -⟩ := quadruple?_eq_some_iff.mp hquadruple
    omega

theorem size_cons (c : Char) (t : Text) : size (c :: t) = c.utf8Size + size t := rfl

theorem length_encode (t : Text) : (encode t).length = size t := by
  induction t with
  | nil => rfl
  | cons c t ih =>
    rw [encode, List.flatMap_cons, List.length_append, ← encode, ih, String.length_utf8EncodeChar,
      size_cons]

theorem size_append (s t : Text) : size (s ++ t) = size s + size t := by
  rw [← length_encode, encode_append, List.length_append, length_encode, length_encode]

theorem eq_nil_of_size_eq_zero {t : Text} (h : size t = 0) : t = [] := by
  cases t with
  | nil => rfl
  | cons c t =>
    have := c.utf8Size_pos
    rw [size_cons] at h
    omega

/-- Of two ways to part a text, the one that parts it at a lower offset has its first part in the
first part of the other. -/
theorem exists_append_of_size_le {a b x y : Text} (h : a ++ x = b ++ y) (hle : size a ≤ size b) :
    ∃ q, b = a ++ q ∧ x = q ++ y := by
  rcases List.append_eq_append_iff.mp h with hq | ⟨q, rfl, rfl⟩
  · exact hq
  · rw [size_append] at hle
    obtain rfl : q = [] := eq_nil_of_size_eq_zero (by omega)
    exact ⟨[], by simp, rfl⟩

theorem append_inj_of_size_eq {a b x y : Text} (h : a ++ x = b ++ y) (hsize : size a = size b) :
    a = b ∧ x = y := by
  obtain ⟨q, rfl, rfl⟩ := exists_append_of_size_le h (Nat.le_of_eq hsize)
  rw [size_append] at hsize
  obtain rfl : q = [] := eq_nil_of_size_eq_zero (by omega)
  exact ⟨(List.append_nil a).symm, rfl⟩

/-- An offset in bytes that lies between two characters or at an end of the text. -/
def Boundary (t : Text) (n : Nat) : Prop := ∃ a b, t = a ++ b ∧ size a = n

/-- A character starts wherever the byte is none that only follows others. -/
theorem boundary_of_lead {t : Text} {n : Nat} {b : UInt8} (h : (encode t)[n]? = some b)
    (hb : isTail b = false) : Boundary t n := by
  induction t generalizing n with
  | nil => cases h
  | cons c t ih =>
    have hlength : (String.utf8EncodeChar c).length = c.utf8Size := String.length_utf8EncodeChar c
    rw [encode, List.flatMap_cons, ← encode] at h
    by_cases hn : n < c.utf8Size
    · -- within the first character only its first byte is such a byte
      rw [List.getElem?_append_left (by omega)] at h
      obtain ⟨a, rest, hcons⟩ := List.exists_cons_of_ne_nil (utf8EncodeChar_ne_nil c)
      have hc : Encodes c (a :: rest) := hcons ▸ encodes_utf8EncodeChar c
      rw [hcons] at h
      cases n with
      | zero => exact ⟨[], c :: t, rfl, rfl⟩
      | succ n =>
        have htail := hc.isTail b (List.mem_of_getElem? h)
        exact absurd (hb.symm.trans htail) Bool.false_ne_true
    · rw [List.getElem?_append_right (by omega), hlength] at h
      obtain ⟨x, y, rfl, hx⟩ := ih h
      refine ⟨c :: x, y, rfl, ?_⟩
      rw [size_cons, hx]
      omega

/-- The bytes of a text stand among those of another only where the text stands in the other:
never within a character, and never as part of other characters. -/
theorem encode_prefix_drop_iff {s t : Text} (hs : s ≠ []) {n : Nat} :
    encode s <+: (encode t).drop n ↔ ∃ a b, t = a ++ (s ++ b) ∧ size a = n := by
  have hdrop (a b : Text) : (encode (a ++ b)).drop (size a) = encode b := by
    rw [encode_append, ← length_encode, List.drop_left]
  constructor
  · intro h
    obtain ⟨c, s, rfl⟩ := List.exists_cons_of_ne_nil hs
    obtain ⟨b, rest, hcons⟩ := List.exists_cons_of_ne_nil (utf8EncodeChar_ne_nil c)
    have hc : Encodes c (b :: rest) := hcons ▸ encodes_utf8EncodeChar c
    have hlead : (encode t)[n]? = some b := by
      obtain ⟨behind, hbehind⟩ := h
      rw [← List.head?_drop, ← hbehind, encode, List.flatMap_cons, hcons]
      rfl
    obtain ⟨a, d, rfl, rfl⟩ := boundary_of_lead hlead hc.not_isTail
    rw [hdrop, encode_prefix_iff] at h
    obtain ⟨behind, rfl⟩ := h
    exact ⟨a, behind, rfl, rfl⟩
  · rintro ⟨a, b, rfl, rfl⟩
    rw [hdrop, encode_prefix_iff]
    exact List.prefix_append s b

end GameShelf.Text.Utf8
