import Monkey.Proofs.Diagnostic.Underflow
import Monkey.Proofs.Source.Pieces

/-! # What a diagnostic is shown as

With colors or without, a diagnostic is a heading, some rows for each label and a row for each
piece of advice. Main statement: it can be shown unless one of its labels underflows, and then
each label whose line is there has a mark below it, however wrong its span is. -/

namespace Monkey

theorem bind_eq_ok_iff {α β ε : Type} {x : Except ε α} {f : α → Except ε β} {z : β} :
    (x >>= f) = .ok z ↔ ∃ y, x = .ok y ∧ f y = .ok z := by
  cases x <;> simp [bind, Except.bind]

/-- A traversal succeeds when each of its steps does. -/
theorem mapM_eq_ok_iff {α β ε : Type} {f : α → Except ε β} {xs : List α} {ys : List β} :
    xs.mapM f = .ok ys ↔ List.Forall₂ (fun x y => f x = .ok y) xs ys := by
  induction xs generalizing ys with
  | nil => simp [pure, Except.pure, eq_comm]
  | cons x xs ih =>
    rw [List.mapM_cons, List.forall₂_cons_left_iff]
    simp only [bind_eq_ok_iff, ih, pure, Except.pure, Except.ok.injEq]
    constructor
    · rintro ⟨y, first, ys, rest, rfl⟩
      exact ⟨y, ys, first, rest, rfl⟩
    · rintro ⟨y, ys, first, rest, rfl⟩
      exact ⟨y, first, ys, rest, rfl⟩

theorem eq_columnUnderflow_iff {α : Type} (x : Except LayoutError α) :
    x = .error .columnUnderflow ↔ ∃ e, x = .error e := by
  refine ⟨fun failed => ⟨_, failed⟩, ?_⟩
  rintro ⟨⟨⟩, failed⟩
  exact failed

section

variable (colored : Bool)

/-! ## The rows of a label -/

namespace Label

variable (label : Label)

/-- How a label is shown against some files. -/
inductive Shows (cache : SourceCache) : List String → Prop where
  | unknown (missing : cache.get? label.span.file = none) : Shows cache []
  | placed {file : SourceFile} (known : cache.get? label.span.file = some file)
      (missing : file.line? label.span.start.line = none) :
      Shows cache [label.placeRow colored file]
  | marked {file : SourceFile} {line : String} {marks : Nat}
      (known : cache.get? label.span.file = some file)
      (found : file.line? label.span.start.line = some line) (some : 1 ≤ marks) :
      Shows cache [label.placeRow colored file, label.gutter colored, label.lineRow colored line,
        label.marksRow colored marks]

variable {label}

theorem one_le_markCount {line : String} {marks : Nat} (count : label.markCount line = .ok marks) :
    1 ≤ marks := by
  unfold markCount at count
  split at count
  · rw [← Except.ok.inj count]
    exact le_max_right _ _
  · split at count
    · cases count
    · rw [← Except.ok.inj count]
      exact le_max_right _ _

theorem exists_shows {cache : SourceCache} {pieces : List Piece}
    (laid : label.pieces cache = .ok pieces) :
    ∃ rows, label.Shows colored cache rows ∧ writePieces colored pieces = unlines rows := by
  unfold Label.pieces at laid
  cases known : cache.get? label.span.file with
  | none =>
    simp only [known, Except.ok.injEq] at laid
    exact ⟨[], .unknown known, laid ▸ rfl⟩
  | some file =>
    cases found : file.line? label.span.start.line with
    | none =>
      simp only [known, found, Except.ok.injEq] at laid
      exact ⟨_, .placed known found, laid ▸ label.write_placePieces colored file⟩
    | some line =>
      cases count : label.markCount line with
      | error e => simp [known, found, count, Except.map] at laid
      | ok marks =>
        simp only [known, found, count, Except.map, Except.ok.injEq] at laid
        exact ⟨_, .marked known found (one_le_markCount count),
          laid ▸ label.write_pieces colored file line marks⟩

end Label

/-! ## The rows of a diagnostic -/

namespace Diagnostic

variable {d : Diagnostic} {cache : SourceCache}

/-- A diagnostic that is shown is its heading, the rows of its labels and its advice. -/
theorem exists_rows_of_render {text : String} (shown : d.render cache colored = .ok text) :
    ∃ rows, List.Forall₂ (fun label => label.Shows colored cache) d.labels rows ∧
      text = unlines (d.heading colored :: rows.flatten ++ d.advice colored) := by
  have none := (exists_ok_iff _).mp ⟨text, shown⟩
  rw [render_eq_error_iff] at none
  have each : ∀ label ∈ d.labels, ∃ rows, label.Shows colored cache rows ∧
      ∃ pieces, label.pieces cache = .ok pieces ∧ writePieces colored pieces = unlines rows := by
    intro label mem
    cases laid : label.pieces cache with
    | error e =>
      exact absurd ⟨label, mem, (label.pieces_eq_error_iff cache).mp ⟨e, laid⟩⟩ none
    | ok pieces =>
      obtain ⟨rows, shows, written⟩ := Label.exists_shows colored laid
      exact ⟨rows, shows, pieces, rfl, written⟩
  choose! rows shows written using each
  have whole := render_eq (List.forall₂_map_right_iff.mpr (List.forall₂_same.mpr written))
  rw [shown] at whole
  exact ⟨_, List.forall₂_map_right_iff.mpr (List.forall₂_same.mpr shows), Except.ok.inj whole⟩

/-- A diagnostic that cannot be shown has a label that underflows, and diagnostics cannot be
shown when one of them cannot. Otherwise each label whose line is there has a mark below it. -/
theorem shown_unless_underflow (cache : SourceCache) (colored : Bool) (d : Diagnostic)
    (ds : Diagnostics) :
    let fails (d : Diagnostic) := d.render cache colored = .error .columnUnderflow
    LayoutError.columnUnderflow.message = "attempt to subtract with overflow" ∧
    (fails d ↔ ∃ label ∈ d.labels, label.Underflows cache) ∧
    (¬ fails d → ∃ rows, List.Forall₂ (fun label => label.Shows colored cache) d.labels rows ∧
      d.render cache colored =
        .ok (unlines (d.heading colored :: rows.flatten ++ d.advice colored))) ∧
    (ds.render cache colored = .error .columnUnderflow ↔ ∃ d ∈ ds, fails d) ∧
    ((∀ d ∈ ds, ¬ fails d) → ∃ texts,
      List.Forall₂ (fun d text => d.render cache colored = .ok text) ds.toList texts ∧
        ds.render cache colored = .ok ("\n".intercalate texts)) ∧
    ∀ file ∈ cache.files, ∀ n start stop, file.lineRange? n = some (start, stop) →
      start ≤ stop ∧ stop ≤ file.source.utf8ByteSize ∧
        String.Pos.Raw.IsValid file.source ⟨start⟩ ∧ String.Pos.Raw.IsValid file.source ⟨stop⟩ := by
  intro fails
  have all : (∃ e, ds.toList.mapM (Diagnostic.render cache colored) = .error e) ↔
      ∃ d ∈ ds, fails d := by
    rw [exists_mapM_eq_error_iff]
    simp only [Array.mem_toList_iff, fails, eq_columnUnderflow_iff]
  refine ⟨rfl, (eq_columnUnderflow_iff _).trans (render_eq_error_iff cache colored d), ?_, ?_, ?_,
    fun file _ n start stop range => SourceFile.isValid_of_lineRange? range⟩
  · intro shown
    simp only [fails, eq_columnUnderflow_iff, ← exists_ok_iff] at shown
    obtain ⟨text, written⟩ := shown
    obtain ⟨rows, shows, rfl⟩ := exists_rows_of_render colored written
    exact ⟨rows, shows, written⟩
  · rw [eq_columnUnderflow_iff, Diagnostics.render, exists_map_eq_error_iff, all]
  · intro shown
    have none : ¬ ∃ d ∈ ds, fails d := fun ⟨d, mem, failed⟩ => shown d mem failed
    rw [← all, ← exists_ok_iff] at none
    obtain ⟨texts, each⟩ := none
    refine ⟨texts, mapM_eq_ok_iff.mp each, ?_⟩
    rw [Diagnostics.render, each]
    rfl

/-- A label that starts before the first column underflows when it goes on below, but not when
it ends on its line, not even before its start. -/
theorem shown_unless_underflow_reversed :
    let cache := (SourceCache.empty.add "main.mk" "let x = 5;\r\n").2
    let below := (Diagnostic.error "below").withLabel ⟨⟨1, 0, 0⟩, ⟨2, 1, 12⟩, 0⟩ "here"
    let reversed := (Diagnostic.error "reversed").withLabel ⟨⟨1, 9, 8⟩, ⟨1, 0, 0⟩, 0⟩ "there"
    below.render cache true = .error .columnUnderflow ∧
      reversed.render cache true ≠ .error .columnUnderflow ∧
      (∃ rows, List.Forall₂ (fun label => label.Shows true cache) reversed.labels rows ∧
        reversed.render cache true =
          .ok (unlines (reversed.heading true :: rows.flatten ++ reversed.advice true))) ∧
      Diagnostics.render cache true #[reversed, below] = .error .columnUnderflow ∧
      ∃ texts, List.Forall₂ (fun d text => d.render cache true = .ok text) [reversed] texts ∧
        Diagnostics.render cache true #[reversed] = .ok ("\n".intercalate texts) := by
  intro cache below reversed
  obtain ⟨_, underflows, _, both, _⟩ := shown_unless_underflow cache true below #[reversed, below]
  obtain ⟨_, _, shows, _, alone, _⟩ := shown_unless_underflow cache true reversed #[reversed]
  have fails := underflows.mpr ⟨_, List.mem_singleton_self _, .ofText "main.mk" "let x = 5;\r\n",
    "let x = 5;", rfl, by decide +kernel, by decide, rfl⟩
  have shown : reversed.render cache true ≠ .error .columnUnderflow := by decide +kernel
  exact ⟨fails, shown, shows shown, both.mpr ⟨below, by simp, fails⟩, alone (by simpa using shown)⟩

end Diagnostic

end

end Monkey
