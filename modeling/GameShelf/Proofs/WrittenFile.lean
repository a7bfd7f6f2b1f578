import GameShelf.Files
import GameShelf.Proofs.Except
import Mathlib.Tactic.Common

namespace GameShelf.Files

variable {fs fs' : Files} {place here other : Place} {e : FileEntry} {path : Text}

theorem lookup_cons_eq (place other : Place) (e : FileEntry) (entries : List (Place × FileEntry)) :
    ((place, e) :: entries).lookup other =
      if other = place then some e else entries.lookup other := by
  rw [List.lookup_cons]
  by_cases h : other = place
  · simp [h]
  · simp [h, beq_false_of_ne h]

theorem lookup_replaced (entries : List (Place × FileEntry)) (place other : Place)
    (e : FileEntry) :
    (entries.map fun old => if old.1 = place then (place, e) else old).lookup other =
      if other = place then (entries.lookup place).map fun _ => e else entries.lookup other := by
  induction entries with
  | nil => simp
  | cons old entries ih =>
    obtain ⟨p, e'⟩ := old
    rw [List.map_cons, lookup_cons_eq, lookup_cons_eq]
    by_cases hp : p = place
    · subst hp
      rw [if_pos rfl, lookup_cons_eq, ih, if_pos rfl]
      split <;> rfl
    · rw [if_neg hp, lookup_cons_eq, ih, if_neg (Ne.symm hp)]
      split
      next ho => rw [if_neg (ho ▸ hp)]
      next ho => rfl

theorem lookup_put (fs : Files) (place other : Place) (e : FileEntry) :
    (fs.put place e).entries.lookup other =
      if other = place then some e else fs.entries.lookup other := by
  unfold put
  split
  next h =>
    rw [lookup_replaced]
    obtain ⟨e', he⟩ := Option.isSome_iff_exists.mp h
    rw [he]
    rfl
  next h =>
    rw [Option.not_isSome_iff_eq_none] at h
    rw [List.lookup_append, lookup_cons_eq]
    split
    next ho => rw [ho, h, Option.none_or]
    next ho => exact Option.or_none

theorem names_ne_nil (h : fs.entry? place ≠ some .folder) : place.names ≠ [] := by
  intro hn
  apply h
  unfold entry?
  rw [hn]
  rfl

theorem entry?_put (hplace : place.names ≠ []) :
    entry? (fs.put place e) other = if other = place then some e else fs.entry? other := by
  unfold entry?
  rw [lookup_put]
  by_cases ho : other = place
  · simp [ho, hplace]
  · simp [ho]

theorem folder_of_enter {name : Text} (h : fs.enter here name = .ok place) :
    fs.entry? here = some .folder := by
  unfold enter at h
  cases he : fs.entry? here with
  | none => rw [he] at h; cases h
  | some e =>
    rw [he] at h
    cases e with
    | file content => cases h
    | folder => rfl

/-- What is put where no folder stands is on no way that could be walked before. -/
theorem enter_put {next : Place} {name : Text} (hplace : fs.entry? place ≠ some .folder)
    (h : fs.enter here name = .ok next) : (fs.put place e).enter here name = .ok next := by
  have hfolder := folder_of_enter h
  have hne : here ≠ place := by
    rintro rfl
    exact hplace hfolder
  unfold enter at *
  rwa [entry?_put (names_ne_nil hplace), if_neg hne]

theorem walk_put {first last : Place} {names : List Text} (hplace : fs.entry? place ≠ some .folder)
    (h : fs.walk first names = .ok last) : (fs.put place e).walk first names = .ok last := by
  unfold walk at *
  induction names generalizing first with
  | nil => exact h
  | cons name names ih =>
    rw [List.foldlM_cons, bind_eq_ok_iff] at *
    obtain ⟨next, hnext, hlast⟩ := h
    exact ⟨next, enter_put hplace hnext, ih hlast⟩

/-- Where a file may be written: at the end of the way, where no folder stands. -/
theorem writable_eq_ok_iff :
    fs.writable path = .ok place ↔
      checkPath path = .ok () ∧ endsInSlash path = false ∧
        fs.walk (start path) (names path) = .ok place ∧ fs.entry? place ≠ some .folder := by
  unfold writable
  rw [bind_eq_ok_iff]
  cases hs : endsInSlash path with
  | true =>
    simp [bind_eq_ok_iff, throw, throwThe, MonadExceptOf.throw]
  | false =>
    simp only [Bool.false_eq_true, if_false, bind_eq_ok_iff]
    constructor
    · rintro ⟨u, hu, place', hwalk, h⟩
      split at h
      next => cases h
      next hn =>
        cases h
        exact ⟨hu, trivial, hwalk, hn⟩
    · rintro ⟨hu, -, hwalk, hn⟩
      refine ⟨(), hu, place, hwalk, ?_⟩
      split
      next hf => exact absurd hf hn
      next => rfl

theorem write_eq_ok_iff {content : List UInt8} :
    fs.write path content = .ok fs' ↔
      ∃ place, fs.writable path = .ok place ∧ fs' = fs.put place (.file content) := by
  unfold write
  rw [bind_eq_ok_iff]
  apply exists_congr
  intro place
  apply and_congr_right
  intro _
  exact ⟨fun h => (Except.ok.inj h).symm, fun h => congrArg Except.ok h.symm⟩

/-- Whether the file at a path has got a new content, and nothing else has changed. -/
structure Replaces (fs fs' : Files) (path : Text) (content : List UInt8) : Prop where
  lookUp_eq : fs'.lookUp path = .ok (.file content)
  others : ∃ place, fs.writable path = .ok place ∧
    ∀ other, other ≠ place → fs'.entry? other = fs.entry? other

theorem replaces_of_write {content : List UInt8} (h : fs.write path content = .ok fs') :
    fs.Replaces fs' path content := by
  obtain ⟨place, hw, rfl⟩ := write_eq_ok_iff.mp h
  obtain ⟨hpath, hslash, hwalk, hplace⟩ := writable_eq_ok_iff.mp hw
  constructor
  · have hentry : entry? (fs.put place (.file content)) place = some (.file content) := by
      rw [entry?_put (names_ne_nil hplace), if_pos rfl]
    unfold lookUp
    rw [hpath, hslash, if_neg Bool.false_ne_true, walk_put hplace hwalk]
    simp only [bind, Except.bind, hentry]
    rfl
  · refine ⟨place, hw, fun other ho => ?_⟩
    rw [entry?_put (names_ne_nil hplace), if_neg ho]

end GameShelf.Files
