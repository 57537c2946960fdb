import Monkey.Proofs.Diagnostic.Points

/-! # When a diagnostic cannot be shown

Laying out a snippet fails in one way only: a label over several lines starts before the
first column of a line that its file has. No diagnostic of a text has such a label, so each
of them can be shown, whatever the files are. -/

namespace Monkey

/-- A traversal fails when one of its steps does. -/
theorem exists_mapM_eq_error_iff {α β ε : Type} (f : α → Except ε β) (xs : List α) :
    (∃ e, xs.mapM f = .error e) ↔ ∃ x ∈ xs, ∃ e, f x = .error e := by
  induction xs with
  | nil => simp [pure, Except.pure]
  | cons x xs ih =>
    rw [List.mapM_cons]
    cases first : f x with
    | error e => simp [bind, Except.bind, first]
    | ok y =>
      simp only [List.mem_cons, exists_eq_or_imp, first, reduceCtorEq, exists_false, false_or, ← ih]
      cases rest : xs.mapM f <;> simp [bind, Except.bind, pure, Except.pure]

theorem exists_map_eq_error_iff {α β ε : Type} (f : α → β) (x : Except ε α) :
    (∃ e, x.map f = .error e) ↔ ∃ e, x = .error e := by
  cases x <;> simp [Except.map]

theorem exists_ok_iff {α ε : Type} (x : Except ε α) : (∃ y, x = .ok y) ↔ ¬ ∃ e, x = .error e := by
  cases x <;> simp

/-! ## Labels over several lines -/

namespace Label

/-- The label covers several lines of a file that is there, and starts before the first
column of a line that the file has. -/
def Underflows (cache : SourceCache) (label : Label) : Prop :=
  ∃ file line, cache.get? label.span.file = some file ∧
    file.line? label.span.start.line = some line ∧
    label.span.start.line ≠ label.span.stop.line ∧ label.span.start.column = 0

theorem markCount_eq_error_iff (label : Label) (line : String) :
    (∃ e, label.markCount line = .error e) ↔
      label.span.start.line ≠ label.span.stop.line ∧ label.span.start.column = 0 := by
  unfold markCount
  split
  · rename_i one
    simp [one]
  · rename_i several
    split
    · rename_i zero
      exact ⟨fun _ => ⟨several, zero⟩, fun _ => ⟨_, rfl⟩⟩
    · rename_i positive
      simp [positive]

theorem pieces_eq_error_iff (cache : SourceCache) (label : Label) :
    (∃ e, label.pieces cache = .error e) ↔ label.Underflows cache := by
  unfold pieces Underflows
  cases known : cache.get? label.span.file with
  | none => simp
  | some file =>
    cases found : file.line? label.span.start.line with
    | none => simp [found]
    | some line =>
      simp [found, exists_map_eq_error_iff, markCount_eq_error_iff]

end Label

namespace Diagnostic

/-- A diagnostic cannot be shown exactly when one of its labels underflows. -/
theorem render_eq_error_iff (cache : SourceCache) (colored : Bool) (d : Diagnostic) :
    (∃ e, d.render cache colored = .error e) ↔ ∃ label ∈ d.labels, label.Underflows cache := by
  have labels := exists_mapM_eq_error_iff (Label.pieces cache) d.labels
  simp only [Label.pieces_eq_error_iff] at labels
  rw [render, exists_map_eq_error_iff, ← labels, pieces]
  exact exists_map_eq_error_iff _ (d.labels.mapM (Label.pieces cache))

/-- Each label of the diagnostic stays on one line. -/
def StaysOnLines (d : Diagnostic) : Prop :=
  ∀ label ∈ d.labels, label.span.start.line = label.span.stop.line

/-- A diagnostic whose labels stay on one line is shown against any files. -/
theorem StaysOnLines.exists_render {d : Diagnostic} (h : d.StaysOnLines) (cache : SourceCache)
    (colored : Bool) : ∃ text, d.render cache colored = .ok text := by
  rw [exists_ok_iff, render_eq_error_iff]
  rintro ⟨label, mem, _, _, _, _, several, _⟩
  exact several (h label mem)

end Diagnostic

/-! ## The diagnostics of a text -/

/-- A token of a text stands on one line. -/
theorem Token.one_line {source : String} {file : FileId} {t : Token}
    (mem : t ∈ (tokenize source file).1) : t.span.start.line = t.span.stop.line := by
  obtain ⟨before, _, _, same, _⟩ := exists_split_tokenize mem
  obtain ⟨start, stop, _⟩ := t.lexeme.span_tokenBehind before (Token.isRow_literal mem) file
  rw [← same] at start stop
  rw [start, stop]

theorem Diagnostic.About.staysOnLines {source : String} {file : FileId} {d : Diagnostic}
    (about : d.About (tokenize source file).1) : d.StaysOnLines := by
  intro label mem
  obtain ⟨_, t, among, span⟩ := about.labels label mem
  rw [span]
  exact Token.one_line among

end Monkey
