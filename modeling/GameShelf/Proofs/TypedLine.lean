import GameShelf.Proofs.ScriptRun
import GameShelf.Proofs.Utf8
import GameShelf.Sheet.Basic

namespace GameShelf

namespace Text

/-- A word and a blank, and behind these anything. -/
theorem opens_append {word : Text} (hword : ∀ c ∈ word, isBlank c = false) (hne : word ≠ [])
    {b : Char} (hb : isBlank b = true) (t : Text) : Opens (word ++ b :: t) word (trim t) := by
  obtain ⟨l, r, hl, hr, ht⟩ := exists_blank_trim t
  refine ⟨[], b :: l, r, by simp [Blank], List.forall_mem_cons.mpr ⟨hb, hl⟩, hr, ?_, hword,
    trim_trim t, fun _ => ⟨hne, List.cons_ne_nil b l⟩⟩
  conv_lhs => rw [ht]
  simp

/-- No byte of another character looks like a line feed. -/
theorem Utf8.mem_encode_iff {t : Text} : 0x0A ∈ encode t ↔ '\n' ∈ t := by
  constructor
  · intro h
    obtain ⟨c, hc, hb⟩ := List.mem_flatMap.mp h
    obtain ⟨-, hn⟩ := utf8EncodeChar_of_mem hb (by decide)
    have hc' : c = '\n' := Char.toNat_inj.mp hn.symm
    exact hc' ▸ hc
  · intro h
    exact List.mem_flatMap.mpr ⟨'\n', h, by decide⟩

theorem Utf8.encode_line (t : Text) : encode (line t) = encode t ++ [0x0A] := encode_append t ['\n']

end Text

namespace Command

theorem calls_append {name : String} (hname : name.toList.Forall fun c => Text.isBlank c = false)
    (hne : name.toList ≠ []) (t : Text) : Calls (name.toList ++ ' ' :: t) name (Text.trim t) :=
  ⟨name.toList, Text.opens_append (List.forall_iff_forall_mem.mp hname) hne (by decide) t,
    beq_self_eq_true _⟩

theorem not_ends_of_read? {line : Text} {c : Command} (h : read? line = some c) : ¬Ends line :=
  fun hend => Option.some_ne_none c (h.symm.trans (read?_eq_none_iff.mpr hend))

/-- The line with which a session is asked to filter by a text. -/
def filterLine (t : Text) : Text := "filter".toList ++ ' ' :: t

/-- The line with which a session is asked to add what a text selects. -/
def addLine (t : Text) : Text := "list".toList ++ ' ' :: ("add".toList ++ ' ' :: t)

theorem calls_filterLine (t : Text) : Calls (filterLine t) "filter" (Text.trim t) :=
  calls_append (by decide) (by decide) t

/-- Whatever is selected is selected without the blanks around it. -/
theorem callsList_addLine {t : Text} (ht : Text.trim t = t) (hne : t ≠ []) :
    CallsList (addLine t) "add" t := by
  have hsub : Calls ("add".toList ++ ' ' :: t) "add" (Text.trim t) :=
    calls_append (by decide) (by decide) t
  have hargs : Text.trim ("add".toList ++ [' '] ++ t) = "add".toList ++ [' '] ++ t :=
    Text.trim_append_append (by decide) (by decide) ht hne [' ']
  rw [List.append_assoc, List.singleton_append] at hargs
  rw [ht] at hsub
  refine ⟨_, ?_, hsub⟩
  rw [← hargs]
  exact calls_append (by decide) (by decide) _

end Command

namespace Script

theorem go_append_cons {line : List UInt8} (h : 0x0A ∉ line) (before script : List UInt8) :
    lines.go before (line ++ 0x0A :: script) =
      (before.reverse ++ line) :: lines script := by
  induction line generalizing before with
  | nil => simp [lines.go, lines]
  | cons b line ih =>
    rw [List.mem_cons, not_or] at h
    have hb : (b == 0x0A) = false := beq_false_of_ne (Ne.symm h.1)
    rw [List.cons_append, lines.go, hb, if_neg Bool.false_ne_true, ih h.2, List.reverse_cons,
      List.append_assoc, List.singleton_append]

theorem lines_append_cons {line : List UInt8} (h : 0x0A ∉ line) (script : List UInt8) :
    lines (line ++ 0x0A :: script) = line :: lines script :=
  go_append_cons h [] script

theorem stops_encode_iff {t : Text} : Stops (Text.Utf8.encode t) ↔ Command.Ends t := by
  have ht : Text.Utf8.decode? (Text.Utf8.encode t) = some t :=
    Text.Utf8.decode?_eq_some_iff.mpr rfl
  rw [Stops, ht]
  exact ⟨fun h => h t rfl, fun h t' ht' => Option.some.inj ht' ▸ h⟩

/-- A line that is typed is carried out, and what it says is shown before the next prompt. -/
theorem answer_typed (settings : Settings) (d : Desk) {t : Text} (ht : '\n' ∉ t)
    (hend : ¬Command.Ends t) (script : List UInt8) :
    answer settings d (lines (Text.Utf8.encode (Text.line t) ++ script)) =
      (answer settings (d.answer settings t).1 (lines script)).behind
        ((d.answer settings t).2 ++ Help.prompt) := by
  have hline : lines (Text.Utf8.encode (Text.line t) ++ script) =
      Text.Utf8.encode t :: lines script := by
    rw [Text.Utf8.encode_line, List.append_assoc, List.singleton_append,
      lines_append_cons (mt Text.Utf8.mem_encode_iff.mp ht)]
  obtain ⟨t', ht', he⟩ :=
    answer_of_not_stops settings d (mt stops_encode_iff.mp hend) (lines script)
  rw [Text.Utf8.decode?_eq_some_iff.mpr rfl] at ht'
  rw [hline, he, Option.some.inj ht']

end Script

/-- The bytes of a sheet that is typed: a header of all columns, and the lines below it. -/
def Sheet.ofLines (rows : List Text) : List UInt8 :=
  Text.Utf8.encode
    (([','].intercalate (Attribute.all.map Attribute.column) :: rows).flatMap Text.line)

end GameShelf
