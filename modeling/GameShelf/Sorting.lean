namespace GameShelf.Sorting

variable {A : Type}

/-- Puts `x` into a list, and then merges what follows into the rest of it. -/
def mergeBehind (le : A → A → Bool) (x : A) (mergeRest : List A → List A) : List A → List A
  | [] => x :: mergeRest []
  | y :: ys => if le x y then x :: mergeRest (y :: ys) else y :: mergeBehind le x mergeRest ys

def merge (le : A → A → Bool) : List A → List A → List A
  | [], ys => ys
  | x :: xs, ys => mergeBehind le x (merge le xs) ys

/-- Sorts the halves of a list as often as it can be halved. -/
def halving (le : A → A → Bool) : Nat → List A → List A
  | 0, l => l
  | n + 1, l =>
    if l.length < 2 then l
    else
      let half := (l.length + 1) / 2
      merge le (halving le n (l.take half)) (halving le n (l.drop half))

/-- The stable sort of a list. -/
def sort (le : A → A → Bool) (l : List A) : List A := halving le l.length l

theorem merge_eq (le : A → A → Bool) (xs ys : List A) : merge le xs ys = xs.merge ys le := by
  induction xs generalizing ys with
  | nil => simp [merge]
  | cons x xs ih =>
    rw [merge]
    induction ys with
    | nil => simp [mergeBehind, ih]
    | cons y ys ihy =>
      rw [mergeBehind, List.cons_merge_cons, ih, ihy]

theorem halving_eq (le : A → A → Bool) {n : Nat} {l : List A} (h : l.length ≤ n) :
    halving le n l = l.mergeSort le := by
  induction n generalizing l with
  | zero =>
    have hl : l = [] := by simpa using h
    simp [hl, halving]
  | succ n ih =>
    match l with
    | [] => simp [halving]
    | [x] => simp [halving]
    | x :: y :: l =>
      rw [halving, List.mergeSort]
      simp only [List.MergeSort.Internal.splitInTwo_fst, List.MergeSort.Internal.splitInTwo_snd]
      rw [if_neg (by simp), merge_eq, ih, ih]
      · simp only [List.length_drop, List.length_cons] at *
        omega
      · simp only [List.length_take, List.length_cons] at *
        omega

theorem sort_eq_mergeSort (le : A → A → Bool) (l : List A) : sort le l = l.mergeSort le :=
  halving_eq le (Nat.le_refl _)

end GameShelf.Sorting
