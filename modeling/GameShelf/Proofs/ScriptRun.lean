import GameShelf.Proofs.LineEffects
import Mathlib.Tactic.Common

namespace GameShelf

namespace Desk

variable (settings : Settings)

/-- The desk after some lines. -/
def after (d : Desk) (lines : List Text) : Desk :=
  lines.foldl (fun d line => (d.answer settings line).1) d

/-- What is shown for each of some lines. -/
def replies (d : Desk) : List Text → List Text
  | [] => []
  | line :: lines =>
    (d.answer settings line).2 :: replies (d.answer settings line).1 lines

end Desk

namespace Script

/-- How a script consists of lines: each is closed by a line feed, which the last one may lack
unless it is empty. -/
inductive Consists : List UInt8 → List (List UInt8) → Prop where
  | nil : Consists [] []
  | last {line} : 0x0A ∉ line → line ≠ [] → Consists line [line]
  | cons {line script lines} : 0x0A ∉ line → Consists script lines →
      Consists (line ++ 0x0A :: script) (line :: lines)

/-- Whether every line of a script is closed by a line feed. -/
def IsComplete (script : List UInt8) : Prop := ∀ b, script.getLast? = some b → b = 0x0A

/-- Whether a line ends the run: it is no text, blank, or its first word is exit. -/
def Stops (line : List UInt8) : Prop :=
  ∀ t, Text.Utf8.decode? line = some t → Command.Ends t

/-- `line` is what has been read of the current line, last byte first. -/
theorem consists_go {line : List UInt8} (h : 0x0A ∉ line) (script : List UInt8) :
    Consists (line.reverse ++ script) (lines.go line script) := by
  induction script generalizing line with
  | nil =>
    rw [lines.go, List.append_nil]
    split
    next hnil =>
      rw [List.isEmpty_iff.mp hnil]
      exact .nil
    next hnil =>
      apply Consists.last
      · rwa [List.mem_reverse]
      · exact mt List.reverse_eq_nil_iff.mp (mt List.isEmpty_iff.mpr hnil)
  | cons b script ih =>
    rw [lines.go]
    split
    next hb =>
      rw [eq_of_beq hb]
      apply Consists.cons
      · rwa [List.mem_reverse]
      · exact ih List.not_mem_nil
    next hb =>
      have hmem : (0x0A : UInt8) ∉ b :: line := by
        rw [List.mem_cons, not_or]
        exact ⟨fun he => hb (beq_of_eq he.symm), h⟩
      have hc := ih hmem
      rwa [List.reverse_cons, List.append_assoc] at hc

theorem consists_lines (script : List UInt8) : Consists script (lines script) :=
  consists_go List.not_mem_nil script

theorem go_append {a : List UInt8} (ha : IsComplete a) {line : List UInt8}
    (hline : a = [] → line = []) (b : List UInt8) :
    lines.go line (a ++ b) = lines.go line a ++ lines b := by
  induction a generalizing line with
  | nil =>
    rw [hline rfl]
    rfl
  | cons c a ih =>
    have ha' : IsComplete a := by
      intro x hx
      apply ha x
      rw [List.getLast?_cons, hx]
      rfl
    rw [List.cons_append, lines.go, lines.go]
    split
    next hc => rw [ih ha' fun _ => rfl, List.cons_append]
    next hc =>
      apply ih ha'
      -- the last byte is a line feed, which this one is not
      rintro rfl
      exact absurd (beq_of_eq (ha c rfl)) hc

theorem lines_append {a : List UInt8} (ha : IsComplete a) (b : List UInt8) :
    lines (a ++ b) = lines a ++ lines b :=
  go_append ha (fun _ => rfl) b

instance (line : List UInt8) : Decidable (Stops line) :=
  decidable_of_iff (((Text.Utf8.decode? line).all fun t => (Command.read? t).isNone) = true) (by
    unfold Stops
    cases Text.Utf8.decode? line with
    | none => simp
    | some t => simp [Command.read?_eq_none_iff])

/-- What lines say, those that are no text aside. -/
def texts (lines : List (List UInt8)) : List Text := lines.filterMap Text.Utf8.decode?

/-- The lines that are carried out: those before the first that ends the run. -/
def heeded (lines : List (List UInt8)) : List Text :=
  texts (lines.takeWhile fun line => !decide (Stops line))

/-- Whether the first line that ends the run is no text. -/
def breaksOff (lines : List (List UInt8)) : Bool :=
  (lines.find? fun line => decide (Stops line)).any fun line =>
    (Text.Utf8.decode? line).isNone

theorem heeded_of_stops {line : List UInt8} (h : Stops line) (lines : List (List UInt8)) :
    heeded (line :: lines) = [] := by
  unfold heeded
  rw [List.takeWhile_cons_of_neg (by simp [h])]
  rfl

theorem heeded_of_not_stops {line : List UInt8} {t : Text} (h : ¬Stops line)
    (ht : Text.Utf8.decode? line = some t) (lines : List (List UInt8)) :
    heeded (line :: lines) = t :: heeded lines := by
  unfold heeded texts
  rw [List.takeWhile_cons_of_pos (by simp [h]), List.filterMap_cons, ht]

theorem breaksOff_of_stops {line : List UInt8} (h : Stops line) (lines : List (List UInt8)) :
    breaksOff (line :: lines) = (Text.Utf8.decode? line).isNone := by
  unfold breaksOff
  rw [List.find?_cons_of_pos (by simp [h])]
  rfl

theorem breaksOff_of_not_stops {line : List UInt8} (h : ¬Stops line)
    (lines : List (List UInt8)) : breaksOff (line :: lines) = breaksOff lines := by
  unfold breaksOff
  rw [List.find?_cons_of_neg (by simp [h])]

section

variable (settings : Settings) (d : Desk) {line : List UInt8} {before : List (List UInt8)}

theorem answer_of_not_stops (h : ¬Stops line) (lines : List (List UInt8)) :
    ∃ t, Text.Utf8.decode? line = some t ∧
      answer settings d (line :: lines) =
        (answer settings (d.answer settings t).1 lines).behind
          ((d.answer settings t).2 ++ Help.prompt) := by
  unfold Stops at h
  rw [not_forall] at h
  obtain ⟨t, h⟩ := h
  rw [Classical.not_imp] at h
  obtain ⟨ht, hend⟩ := h
  refine ⟨t, ht, ?_⟩
  rw [answer, ht, Desk.answer]
  cases hr : Command.read? t with
  | none => exact absurd (Command.read?_eq_none_iff.mp hr) hend
  | some c => simp only [hr]

theorem answer_of_stops (h : Stops line) (lines : List (List UInt8)) :
    answer settings d (line :: lines) =
      if Text.Utf8.decode? line = none then ⟨[], d, true⟩ else farewell d := by
  rw [answer]
  cases ht : Text.Utf8.decode? line with
  | none => rfl
  | some t =>
    rw [if_neg (Option.some_ne_none t)]
    dsimp only
    rw [Command.read?_eq_none_iff.mpr (h t ht)]

/-- Nothing that follows a line that ends the run is looked at. -/
theorem answer_append_of_stops (h : ∃ line ∈ before, Stops line) (behind : List (List UInt8)) :
    answer settings d (before ++ behind) = answer settings d before := by
  induction before generalizing d with
  | nil => simp at h
  | cons line before ih =>
    rw [List.cons_append]
    by_cases hs : Stops line
    · rw [answer_of_stops settings d hs, answer_of_stops settings d hs]
    · have hbefore : ∃ line ∈ before, Stops line := by
        rw [List.exists_mem_cons_iff] at h
        exact h.resolve_left hs
      obtain ⟨t, ht, he⟩ := answer_of_not_stops settings d hs (before ++ behind)
      obtain ⟨t', ht', he'⟩ := answer_of_not_stops settings d hs before
      cases ht.symm.trans ht'
      rw [he, he', ih _ hbefore]

/-- Lines that do not end the run are answered one after the other, and the lines behind them at
the desk that they leave. -/
theorem answer_append (h : ∀ line ∈ before, ¬Stops line) (behind : List (List UInt8)) :
    answer settings d (before ++ behind) =
      { answer settings (d.after settings (texts before)) behind with
        shown := (d.replies settings (texts before)).map (· ++ Help.prompt) ++
          (answer settings (d.after settings (texts before)) behind).shown } := by
  induction before generalizing d with
  | nil => rfl
  | cons line before ih =>
    obtain ⟨hline, hbefore⟩ := List.forall_mem_cons.mp h
    obtain ⟨t, ht, he⟩ := answer_of_not_stops settings d hline (before ++ behind)
    rw [List.cons_append, he, ih _ hbefore, texts, texts, List.filterMap_cons, ht]
    rfl

theorem output_answer_append (h : ∀ line ∈ before, ¬Stops line) (behind : List (List UInt8)) :
    (answer settings d (before ++ behind)).output =
      (d.replies settings (texts before)).flatMap (· ++ Help.prompt) ++
        (answer settings (d.after settings (texts before)) behind).output := by
  rw [answer_append settings d h]
  dsimp only [Transcript.output]
  rw [List.flatten_append, ← List.flatMap_def]

/-- All lines before the first that ends the run are carried out. That one decides on the
farewell. -/
theorem answer_eq (lines : List (List UInt8)) :
    answer settings d lines =
      ⟨(d.replies settings (heeded lines)).map (· ++ Help.prompt) ++
          (if breaksOff lines then [] else [Text.line Help.goodbye]),
        d.after settings (heeded lines), breaksOff lines⟩ := by
  induction lines generalizing d with
  | nil => rfl
  | cons line lines ih =>
    by_cases hs : Stops line
    · rw [answer_of_stops settings d hs, heeded_of_stops hs, breaksOff_of_stops hs]
      cases Text.Utf8.decode? line with
      | none => rfl
      | some t => simp [farewell, Desk.replies, Desk.after]
    · obtain ⟨t, ht, he⟩ := answer_of_not_stops settings d hs lines
      rw [he, ih, heeded_of_not_stops hs ht, breaksOff_of_not_stops hs]
      rfl

theorem run_desk (script : List UInt8) :
    (run settings d script).desk = d.after settings (heeded (lines script)) := by
  rw [run, answer_eq]
  rfl

theorem run_output (script : List UInt8) :
    (run settings d script).output =
      Text.line Help.welcome ++ Help.prompt ++ (answer settings d (lines script)).output := by
  rfl

theorem output_answer (lines : List (List UInt8)) :
    (answer settings d lines).output =
      (d.replies settings (heeded lines)).flatMap (· ++ Help.prompt) ++
        if breaksOff lines then [] else Text.line Help.goodbye := by
  rw [answer_eq, Transcript.output, List.flatten_append, ← List.flatMap_def]
  cases breaksOff lines with
  | false => simp
  | true => rfl

end

/-- A prompt behind each reply, and one ahead of all, are a prompt ahead of each and one behind. -/
theorem prompt_append_flatMap (shown : List Text) :
    Help.prompt ++ shown.flatMap (· ++ Help.prompt) =
      shown.flatMap (Help.prompt ++ ·) ++ Help.prompt := by
  induction shown with
  | nil => rfl
  | cons t shown ih =>
    rw [List.flatMap_cons, List.flatMap_cons, List.append_assoc t, ih, List.append_assoc,
      List.append_assoc]

theorem breaksOff_iff (lines : List (List UInt8)) :
    breaksOff lines = true ↔
      ∃ line, lines.find? (fun line => decide (Stops line)) = some line ∧
        Text.Utf8.decode? line = none := by
  unfold breaksOff
  cases lines.find? fun line => decide (Stops line) with
  | none => simp
  | some line => simp

/-- A script is run line by line, up to the first line that ends the session. What follows such a
line has no effect, and a script whose lines do not end the session can be run in two parts. -/
theorem run_line_by_line (settings : Settings) (d : Desk) :
    (∀ script, Consists script (lines script)) ∧
    (∀ script,
      (run settings d script).desk = d.after settings (heeded (lines script)) ∧
      (run settings d script).output =
        Text.line Help.welcome ++ Help.prompt ++
          ((d.replies settings (heeded (lines script))).flatMap (· ++ Help.prompt) ++
            if (run settings d script).isCutShort then [] else Text.line Help.goodbye) ∧
      ((run settings d script).isCutShort = true ↔
        ∃ line, (lines script).find? (fun line => decide (Stops line)) = some line ∧
          Text.Utf8.decode? line = none)) ∧
    (∀ a b, IsComplete a → (∃ line ∈ lines a, Stops line) →
      run settings d (a ++ b) = run settings d a) ∧
    ∀ a b, IsComplete a → (∀ line ∈ lines a, ¬Stops line) →
      (run settings d (a ++ b)).desk = (run settings (run settings d a).desk b).desk ∧
      (run settings d (a ++ b)).isCutShort =
        (run settings (run settings d a).desk b).isCutShort ∧
      ∃ before behind,
        (run settings d a).output = before ++ (Help.prompt ++ Text.line Help.goodbye) ∧
        (run settings (run settings d a).desk b).output = Text.line Help.welcome ++ behind ∧
        (run settings d (a ++ b)).output = before ++ behind := by
  refine ⟨consists_lines, fun script => ⟨run_desk settings d script, ?_, ?_⟩, ?_, ?_⟩
  · rw [run_output, output_answer, run, answer_eq]
    rfl
  · rw [← breaksOff_iff, run, answer_eq]
    rfl
  · intro a b ha hstop
    rw [run, lines_append ha, answer_append_of_stops settings d hstop, run]
  · intro a b ha hrun
    have hab := answer_append settings d hrun (lines b)
    have hdesk : (run settings d a).desk =
        d.after settings (texts (lines a)) := by
      have ha' := answer_append settings d hrun []
      rw [List.append_nil] at ha'
      rw [run, ha']
      rfl
    have houtput := output_answer_append settings d hrun
    rw [← hdesk] at hab houtput
    generalize d.replies settings (texts (lines a)) = shown at hab houtput
    have hprompt := prompt_append_flatMap shown
    refine ⟨?_, ?_, Text.line Help.welcome ++ shown.flatMap (Help.prompt ++ ·),
      Help.prompt ++ (answer settings (run settings d a).desk (lines b)).output, ?_, ?_, ?_⟩
    · rw [run, lines_append ha, hab]
      rfl
    · rw [run, lines_append ha, hab]
      rfl
    · have hbye := houtput []
      rw [List.append_nil] at hbye
      rw [run_output, hbye, List.append_assoc, ← List.append_assoc Help.prompt, hprompt]
      simp [farewell, answer, Transcript.output]
    · rw [run_output, List.append_assoc]
    · rw [run_output, lines_append ha, houtput, List.append_assoc, ← List.append_assoc Help.prompt,
        hprompt]
      simp

/-- A line that asks for help. -/
def askLine : List UInt8 := [0x3F, 0x0A]

/-- A line that says to exit now. -/
def exitLine : List UInt8 := [0x45, 0x78, 0x69, 0x74, 0x20, 0x6E, 0x6F, 0x77, 0x0A]

theorem run_ask_exit_junk :
    IsComplete (askLine ++ exitLine) ∧ (∃ line ∈ lines (askLine ++ exitLine), Stops line) ∧
    run .standard ⟨.ofGames [], .empty⟩ (askLine ++ exitLine ++ [0xFF]) =
      run .standard ⟨.ofGames [], .empty⟩ (askLine ++ exitLine) ∧
    IsComplete askLine ∧ (∀ line ∈ lines askLine, ¬Stops line) ∧
    (run .standard ⟨.ofGames [], .empty⟩ (askLine ++ exitLine)).desk =
      (run .standard (run .standard ⟨.ofGames [], .empty⟩ askLine).desk exitLine).desk := by
  have hboth : IsComplete (askLine ++ exitLine) := by
    intro b hb
    have hlast : (askLine ++ exitLine).getLast? = some 0x0A := rfl
    exact Option.some.inj (hb.symm.trans hlast)
  have hask : IsComplete askLine := by
    intro b hb
    have hlast : askLine.getLast? = some 0x0A := rfl
    exact Option.some.inj (hb.symm.trans hlast)
  have hstop : ∃ line ∈ lines (askLine ++ exitLine), Stops line := by decide +kernel
  have hrun : ∀ line ∈ lines askLine, ¬Stops line := by decide +kernel
  obtain ⟨-, -, hend, hpart⟩ := run_line_by_line .standard ⟨.ofGames [], .empty⟩
  exact ⟨hboth, hstop, hend _ [0xFF] hboth hstop, hask, hrun, (hpart _ exitLine hask hrun).1⟩

end Script

end GameShelf
