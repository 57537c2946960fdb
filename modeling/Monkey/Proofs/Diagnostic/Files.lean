import Monkey.Diagnostic.Snippet
import Monkey.Proofs.Lexer.Relocation
import Monkey.Proofs.Source.Numbering

/-! # Diagnostics and their files

A diagnostic is shown by the files that the numbers of its labels find, and by nothing else of a
cache. Main statement: numbers count files, and files that come later change what is shown
only by labels that name them. -/

namespace Monkey

theorem mapM_congr {α β ε : Type} {f g : α → Except ε β} {xs : List α}
    (same : ∀ x ∈ xs, f x = g x) : xs.mapM f = xs.mapM g := by
  induction xs with
  | nil => rfl
  | cons x xs ih =>
    have rest := ih fun y mem => same y (List.mem_cons_of_mem _ mem)
    rw [List.mapM_cons, List.mapM_cons, same x List.mem_cons_self, rest]

/-- Steps that give nothing may be left out of a traversal that joins what it is given. -/
theorem mapM_filter_flatten {α β ε : Type} {f : α → Except ε (List β)} {p : α → Bool} {xs : List α}
    (none : ∀ x ∈ xs, p x = false → f x = .ok []) :
    ((xs.filter p).mapM f).map List.flatten = (xs.mapM f).map List.flatten := by
  induction xs with
  | nil => rfl
  | cons x xs ih =>
    have rest := ih fun y mem => none y (List.mem_cons_of_mem _ mem)
    cases keep : p x with
    | true =>
      rw [List.filter_cons_of_pos keep, List.mapM_cons, List.mapM_cons]
      cases f x with
      | error => rfl
      | ok y =>
        cases front : (xs.filter p).mapM f <;> cases all : xs.mapM f <;>
          simp_all [Except.map, bind, Except.bind, pure, Except.pure]
    | false =>
      rw [List.filter_cons_of_neg (by simp [keep]), rest, List.mapM_cons,
        none x List.mem_cons_self keep]
      cases xs.mapM f <;> rfl

variable {cache cache' : SourceCache}

/-! ## Labels -/

/-- A label does not show the number of its file. -/
theorem Label.pieces_relocate {label : Label} {id : FileId}
    (same : cache'.get? id = cache.get? label.span.file) :
    (label.relocate (Span.inFile id)).pieces cache' = label.pieces cache := by
  rw [pieces, pieces]
  simp only [Label.relocate, Span.inFile, same]
  rfl

theorem Label.pieces_congr {label : Label}
    (same : cache'.get? label.span.file = cache.get? label.span.file) :
    label.pieces cache' = label.pieces cache := pieces_relocate same

theorem Label.pieces_of_unknown {label : Label} (unknown : cache.get? label.span.file = none) :
    label.pieces cache = .ok [] := by
  rw [pieces, unknown]

/-! ## Diagnostics -/

namespace Diagnostic

variable {d : Diagnostic} {colored : Bool}

theorem render_of_labels {labels : List Label}
    (same : (labels.mapM (Label.pieces cache')).map List.flatten =
      (d.labels.mapM (Label.pieces cache)).map List.flatten) :
    Diagnostic.render cache' colored { d with labels } = d.render cache colored := by
  rw [render, render, pieces, pieces]
  cases all : labels.mapM (Label.pieces cache') <;>
    cases all' : d.labels.mapM (Label.pieces cache) <;>
      simp_all [Except.map, bind, Except.bind, pure, Except.pure, headingPieces]

theorem render_congr
    (same : ∀ label ∈ d.labels, cache'.get? label.span.file = cache.get? label.span.file) :
    d.render cache' colored = d.render cache colored := by
  have labels := mapM_congr fun label mem => Label.pieces_congr (same label mem)
  exact render_of_labels (congrArg _ labels)

/-- A diagnostic is shown alike by a file with another number. -/
theorem render_relocate {id : FileId}
    (same : ∀ label ∈ d.labels, cache'.get? id = cache.get? label.span.file) :
    (d.relocate (Span.inFile id)).render cache' colored = d.render cache colored := by
  refine render_of_labels ?_
  rw [List.mapM_map]
  exact congrArg _ (mapM_congr fun label mem => Label.pieces_relocate (same label mem))

/-- The diagnostic without the labels that name some files. -/
def without (ids : List FileId) (d : Diagnostic) : Diagnostic :=
  { d with labels := d.labels.filter (·.span.file ∉ ids) }

/-- Labels of files that are not there are not shown. -/
theorem render_without {ids : List FileId} (unknown : ∀ id ∈ ids, cache.get? id = none) :
    (d.without ids).render cache colored = d.render cache colored := by
  refine render_of_labels (mapM_filter_flatten fun label _ left => ?_)
  exact Label.pieces_of_unknown (unknown _ (by simpa using left))

theorem file_notMem_of_mem_without {ids : List FileId} {label : Label}
    (mem : label ∈ (d.without ids).labels) : label.span.file ∉ ids := by
  simpa using (List.mem_filter.mp mem).2

end Diagnostic

theorem Diagnostics.render_map {ds : Diagnostics} {colored : Bool} {change : Diagnostic → Diagnostic}
    (same : ∀ d ∈ ds, (change d).render cache' colored = d.render cache colored) :
    Diagnostics.render cache' colored (ds.map change) = ds.render cache colored := by
  rw [render, Array.toList_map, List.mapM_map]
  exact congrArg _ (mapM_congr fun d mem => same d (Array.mem_toList_iff.mp mem))

theorem Diagnostics.render_congr {ds : Diagnostics} {colored : Bool}
    (same : ∀ d ∈ ds, ∀ label ∈ d.labels,
      cache'.get? label.span.file = cache.get? label.span.file) :
    ds.render cache' colored = ds.render cache colored := by
  exact congrArg _ (mapM_congr fun d mem =>
    Diagnostic.render_congr (same d (Array.mem_toList_iff.mp mem)))

/-! ## Histories of a cache -/

open SourceCache

/-- Of the files added since all were forgotten, each has the number of those before it, which
finds it as it was added. What is shown hangs on the files that are named and on no others:
files that come later change it by labels that name them alone, which were not shown before,
and caches with the same files for all labels show the same. -/
theorem files_found_by_number :
    (∀ requests, Fits requests →
      (∀ before name source rest, requests = before ++ .add name source :: rest →
        ((empty.after before).add name source).1.toNat = (sinceClear before).length) ∧
      (∀ id, ((empty.after requests).get? id).isSome ↔ id.toNat < (sinceClear requests).length) ∧
      ∀ id file, (empty.after requests).get? id = some file ↔ ∃ before name source rest,
        requests = before ++ .add name source :: rest ∧ .clear ∉ rest ∧
          id = ((empty.after before).add name source).1 ∧ file = .ofText name source) ∧
    ∀ (colored : Bool) (ds : Diagnostics) (cache : SourceCache),
      (∀ more : List (String × String),
        let grown := cache.addAll more
        ((∀ d ∈ ds, ∀ label ∈ d.labels, label.span.file ∉ grown.1) →
          ds.render grown.2 colored = ds.render cache colored) ∧
        (∀ label : Label, label.span.file ∉ grown.1 →
          label.pieces grown.2 = label.pieces cache) ∧
        (cache.files.size + more.length ≤ UInt32.size →
          Diagnostics.render grown.2 colored (ds.map (Diagnostic.without grown.1)) =
            ds.render cache colored)) ∧
      ∀ cache' : SourceCache,
        (∀ d ∈ ds, ∀ label ∈ d.labels,
          cache'.get? label.span.file = cache.get? label.span.file) →
        ds.render cache' colored = ds.render cache colored := by
  refine ⟨?_, fun colored ds cache => ⟨?_, fun cache' same => Diagnostics.render_congr same⟩⟩
  · intro requests fits
    exact ⟨fun before name source rest split => toNat_add fits split, isSome_get?_after requests,
      get?_after_eq_some_iff fits⟩
  · intro more grown
    refine ⟨?_, ?_, ?_⟩
    · intro others
      refine Diagnostics.render_congr fun d mem label among => ?_
      exact get?_addAll_of_notMem (others d mem label among)
    · intro label other
      exact Label.pieces_congr (get?_addAll_of_notMem other)
    · intro room
      refine Diagnostics.render_map fun d _ => ?_
      calc (d.without grown.1).render grown.2 colored
          = (d.without grown.1).render cache colored :=
            Diagnostic.render_congr fun label mem =>
              get?_addAll_of_notMem (Diagnostic.file_notMem_of_mem_without mem)
        _ = d.render cache colored :=
            Diagnostic.render_without fun id mem => get?_of_mem_addAll room mem

/-- Two files, then another one instead of them, and labels for both numbers. -/
theorem files_found_by_number_again :
    let requests : List Request := [.add "a" "let", .add "b" "1", .clear, .add "c" "if\n"]
    let cache := empty.after requests
    let grown := cache.addAll [("d", "true")]
    let start := Span.mk ⟨1, 1, 0⟩ ⟨1, 2, 1⟩
    let one := (Diagnostic.error "one").withLabel (start 0) "here"
    let two := one.withSecondaryLabel (start 1) "there"
    Fits requests ∧
      ((empty.after [.add "a" "let"]).add "b" "1").1.toNat = 1 ∧
      cache.get? 0 = some (.ofText "c" "if\n") ∧ ¬ (cache.get? 1).isSome ∧ grown.1 = [1] ∧
      Diagnostics.render grown.2 true #[one] = Diagnostics.render cache true #[one] ∧
      one.labels.map (Label.pieces grown.2) = one.labels.map (Label.pieces cache) ∧
      Diagnostics.render grown.2 true #[one] = Diagnostics.render cache true #[two] ∧
      Diagnostics.render (empty.add "c" "if\n").2 true #[one] =
        Diagnostics.render cache true #[one] := by
  intro requests cache grown start one two
  obtain ⟨histories, shows⟩ := files_found_by_number
  have fits : Fits requests := fits_of_length_le (by decide)
  obtain ⟨numbers, some, finds⟩ := histories requests fits
  have known : cache.get? 0 = .some (.ofText "c" "if\n") :=
    (finds 0 _).mpr ⟨[.add "a" "let", .add "b" "1", .clear], "c", "if\n", [], rfl, by simp, rfl, rfl⟩
  have other : ∀ label ∈ one.labels, label.span.file ∉ grown.1 := by decide
  obtain ⟨grows, agree⟩ := shows true #[one] cache
  obtain ⟨same, label, _⟩ := grows [("d", "true")]
  obtain ⟨_, _, without⟩ := (shows true #[two] cache).1 [("d", "true")]
  have less : Array.map (Diagnostic.without grown.1) #[two] = #[one] := by
    decide +kernel
  refine ⟨fits, numbers [.add "a" "let"] "b" "1" [.clear, .add "c" "if\n"] rfl, known, ?_, rfl,
    same (by simpa using other), List.map_congr_left fun l mem => label l (other l mem),
    less ▸ without (by decide), agree _ ?_⟩
  · rw [some]
    decide
  · simp only [List.mem_toArray, List.mem_singleton, forall_eq]
    intro l mem
    obtain rfl := List.mem_singleton.mp mem
    exact known.symm

end Monkey
