import Monkey.Proofs.Diagnostic.Marks

/-! # Colors

A diagnostic is laid out before any style is written, so the styles are all that its two
renderings differ in. Main statement: where no text that is shown has an escape character,
deleting the styles from the colored rendering gives the other one. -/

namespace Monkey

/-! ## Deleting styles -/

/-- A character that may stand between the bracket of a style and its letter. -/
def isParameter (c : Char) : Bool := c.isDigit || c == ';'

/-- What stands behind the style that a text opens with: an escape, a bracket, digits and
semicolons, and the letter m. -/
def behindStyle? : List Char → Option (List Char)
  | '\x1b' :: '[' :: rest =>
    match rest.dropWhile isParameter with
    | 'm' :: behind => some behind
    | _ => none
  | _ => none

theorem length_behindStyle?_lt {text behind : List Char} (h : behindStyle? text = some behind) :
    behind.length < text.length := by
  unfold behindStyle? at h
  split at h
  · rename_i rest
    split at h
    · rename_i found
      have shorter := (List.dropWhile_suffix (l := rest) isParameter).length_le
      obtain rfl := Option.some.inj h
      rw [found] at shorter
      simp only [List.length_cons] at shorter ⊢
      omega
    · cases h
  · cases h

/-- The text with each style in it deleted. -/
def unstyled : List Char → List Char
  | [] => []
  | c :: rest =>
    match h : behindStyle? (c :: rest) with
    | some behind =>
      have := length_behindStyle?_lt h
      unstyled behind
    | none => c :: unstyled rest
termination_by text => text.length
decreasing_by
  · exact this
  · exact Nat.lt_succ_self rest.length

def withoutStyles (text : String) : String := String.ofList (unstyled text.toList)

theorem unstyled_nil : unstyled [] = [] := by rw [unstyled]

theorem unstyled_of_behind {text behind : List Char} (h : behindStyle? text = some behind) :
    unstyled text = unstyled behind := by
  cases text with
  | nil => cases h
  | cons c rest =>
    rw [unstyled]
    split
    · rename_i found
      rw [Option.some.inj (h.symm.trans found)]
    · rename_i none
      cases h.symm.trans none

theorem unstyled_cons {c : Char} (h : c ≠ '\x1b') (rest : List Char) :
    unstyled (c :: rest) = c :: unstyled rest := by
  have none : behindStyle? (c :: rest) = none := by
    unfold behindStyle?
    split
    · rename_i same
      exact absurd (List.cons.inj same).1 h
    · rfl
  rw [unstyled]
  split
  · rename_i found
    cases none.symm.trans found
  · rfl

/-- Deleting the styles of the one text gives the other, whatever stands behind. -/
def Unstyles (styled plain : String) : Prop :=
  ∀ rest, unstyled (styled.toList ++ rest) = plain.toList ++ unstyled rest

namespace Unstyles

theorem empty : Unstyles "" "" := fun _ => rfl

theorem append {styled plain more plainMore : String} (h : Unstyles styled plain)
    (h' : Unstyles more plainMore) : Unstyles (styled ++ more) (plain ++ plainMore) := by
  intro rest
  rw [String.toList_append, String.toList_append, List.append_assoc, List.append_assoc, h, h']

theorem withoutStyles_eq {styled plain : String} (h : Unstyles styled plain) :
    withoutStyles styled = plain := by
  have all := h []
  rw [List.append_nil, unstyled_nil, List.append_nil] at all
  rw [withoutStyles, all, String.ofList_toList]

/-- A style is deleted as a whole. -/
theorem escape (style : Style) : Unstyles style.escape "" := by
  intro rest
  refine unstyled_of_behind ?_
  cases style <;> rfl

variable {α : Type} {styled plain : α → String} {xs : List α}

theorem join (each : ∀ x ∈ xs, Unstyles (styled x) (plain x)) :
    Unstyles (String.join (xs.map styled)) (String.join (xs.map plain)) := by
  induction xs with
  | nil => exact empty
  | cons x xs ih =>
    obtain ⟨first, rest⟩ := List.forall_mem_cons.mp each
    simp only [List.map_cons, String.join_cons]
    exact first.append (ih rest)

theorem intercalate {separator : String} (h : Unstyles separator separator)
    (each : ∀ x ∈ xs, Unstyles (styled x) (plain x)) :
    Unstyles (separator.intercalate (xs.map styled)) (separator.intercalate (xs.map plain)) := by
  induction xs with
  | nil => exact empty
  | cons x xs ih =>
    obtain ⟨first, rest⟩ := List.forall_mem_cons.mp each
    cases xs with
    | nil => simpa using first
    | cons y ys =>
      have below := ih rest
      simp only [List.map_cons, String.intercalate_cons_cons] at below ⊢
      exact (first.append h).append below

end Unstyles

/-! ## Texts without escapes -/

/-- A text without an escape character. -/
def EscapeFree (text : String) : Prop := '\x1b' ∉ text.toList

instance (text : String) : Decidable (EscapeFree text) := inferInstanceAs (Decidable (¬ _))

@[simp] theorem escapeFree_append {text more : String} :
    EscapeFree (text ++ more) ↔ EscapeFree text ∧ EscapeFree more := by
  simp [EscapeFree]

@[simp] theorem escapeFree_repr (n : Nat) : EscapeFree n.repr := notMem_repr (by decide) n

theorem escapeFree_replicate (n : Nat) {c : Char} (h : c ≠ '\x1b') :
    EscapeFree (Text.replicate n c) := by
  simp [EscapeFree, Text.replicate, List.mem_replicate, h.symm]

theorem EscapeFree.unstyles {text : String} (h : EscapeFree text) : Unstyles text text := by
  intro rest
  unfold EscapeFree at h
  generalize text.toList = text at h ⊢
  induction text with
  | nil => rfl
  | cons c cs ih =>
    rw [List.cons_append, unstyled_cons (List.ne_of_not_mem_cons h).symm,
      ih (List.not_mem_of_not_mem_cons h), List.cons_append]

theorem Unstyles.newline : Unstyles "\n" "\n" := EscapeFree.unstyles (by decide)

/-! ## Pieces -/

/-- A piece whose text, if it has one, has no escape. -/
def Piece.EscapeFree : Piece → Prop
  | .text content => Monkey.EscapeFree content
  | .style _ => True

@[simp] theorem Piece.escapeFree_text {content : String} :
    (Piece.text content).EscapeFree ↔ Monkey.EscapeFree content := Iff.rfl

@[simp] theorem Piece.escapeFree_style (style : Style) : (Piece.style style).EscapeFree := trivial

/-- Written with colors or without, pieces are the same up to styles. -/
theorem unstyles_writePieces (colored : Bool) {pieces : List Piece}
    (free : ∀ piece ∈ pieces, piece.EscapeFree) :
    Unstyles (writePieces colored pieces) (writePieces false pieces) := by
  refine Unstyles.join fun piece mem => ?_
  have freePiece := free piece mem
  cases piece with
  | text content => exact EscapeFree.unstyles freePiece
  | style switch =>
    cases colored with
    | true => exact Unstyles.escape switch
    | false => exact Unstyles.empty

example :
    withoutStyles (writePieces true [.style .red, .text "error[", .style .plain, .text ";m"]) =
      "error[;m" := by
  decide +kernel

/-! ## Traversals -/

/-- What a traversal gives is what its steps give. -/
theorem mem_iff_of_mapM {α β ε : Type} {f : α → Except ε β} {xs : List α} {ys : List β}
    (h : xs.mapM f = .ok ys) (y : β) : y ∈ ys ↔ ∃ x ∈ xs, f x = .ok y := by
  have steps := mapM_eq_ok_iff.mp h
  clear h
  induction steps with
  | nil => simp
  | cons first _ ih => simp [first, ih, eq_comm (a := y)]

theorem mapM_map_ok {α β γ ε : Type} (f : α → Except ε β) (g : β → γ) (xs : List α) :
    (xs.mapM fun x => (f x).map g) = (xs.mapM f).map (List.map g) := by
  induction xs with
  | nil => rfl
  | cons x xs ih =>
    rw [List.mapM_cons, List.mapM_cons, ih]
    cases f x with
    | error e => rfl
    | ok y => cases xs.mapM f <;> rfl

/-! ## What is shown -/

/-- A label that shows no escape: neither its message has one, nor the name and the line of its
file, as far as they are there. -/
structure Label.EscapeFreeIn (cache : SourceCache) (label : Label) : Prop where
  message : EscapeFree label.message
  name : ∀ file, cache.get? label.span.file = some file → EscapeFree file.name
  line : ∀ file line, cache.get? label.span.file = some file →
    file.line? label.span.start.line = some line → EscapeFree line

/-- A diagnostic that shows no escape. -/
structure Diagnostic.EscapeFreeIn (cache : SourceCache) (d : Diagnostic) : Prop where
  code : ∀ code ∈ d.code, code.category ≠ '\x1b'
  message : EscapeFree d.message
  labels : ∀ label ∈ d.labels, label.EscapeFreeIn cache
  notes : ∀ note ∈ d.notes, EscapeFree note
  help : ∀ text ∈ d.help, EscapeFree text

namespace Label

variable {label : Label} {cache : SourceCache}

theorem escapeFree_placePieces (label : Label) {file : SourceFile} (name : EscapeFree file.name) :
    ∀ piece ∈ label.placePieces file, piece.EscapeFree := by
  simp [placePieces, name]
  decide

theorem escapeFree_linePieces {line : String} (message : EscapeFree label.message)
    (free : EscapeFree line) (marks : Nat) :
    ∀ piece ∈ label.linePieces line marks, piece.EscapeFree := by
  have mark : EscapeFree (Text.replicate marks (if label.isPrimary then '^' else '-')) := by
    refine escapeFree_replicate marks ?_
    split <;> decide
  simp [linePieces, message, free, mark,
    escapeFree_replicate (c := ' ') _ (by decide)]
  decide

theorem escapeFree_of_mem_pieces (free : label.EscapeFreeIn cache) {pieces : List Piece}
    (laid : label.pieces cache = .ok pieces) : ∀ piece ∈ pieces, piece.EscapeFree := by
  unfold Label.pieces at laid
  cases known : cache.get? label.span.file with
  | none =>
    simp only [known, Except.ok.injEq] at laid
    subst laid
    exact List.forall_mem_nil _
  | some file =>
    have place := escapeFree_placePieces label (free.name file known)
    cases found : file.line? label.span.start.line with
    | none =>
      simp only [known, found, Except.ok.injEq] at laid
      subst laid
      exact place
    | some line =>
      cases count : label.markCount line with
      | error e => simp [known, found, count, Except.map] at laid
      | ok marks =>
        simp only [known, found, count, Except.map, Except.ok.injEq] at laid
        subst laid
        have below := escapeFree_linePieces free.message (free.line file line known found) marks
        exact List.forall_mem_append.mpr ⟨place, below⟩

end Label

namespace Diagnostic

variable {d : Diagnostic} {cache : SourceCache}

theorem escapeFree_headingPieces (free : d.EscapeFreeIn cache) :
    ∀ piece ∈ d.headingPieces, piece.EscapeFree := by
  have code : EscapeFree ((d.code.map fun code => "[" ++ code.text ++ "]").getD "") := by
    cases same : d.code with
    | none => decide
    | some code =>
      have category : EscapeFree code.category.toString := by
        simpa [EscapeFree] using (free.code code same).symm
      simp only [Option.map_some, Option.getD_some, ErrorCode.text, Text.padLeft, escapeFree_append,
        category, escapeFree_replicate (c := '0') _ (by decide), Nat.toString_eq_repr,
        escapeFree_repr]
      decide
  simp [headingPieces, code, free.message]
  decide

theorem escapeFree_advicePieces (style : Style) {title : String} {texts : List String}
    (titled : EscapeFree title) (free : ∀ text ∈ texts, EscapeFree text) :
    ∀ piece ∈ texts.flatMap (advicePieces style title), piece.EscapeFree := by
  rw [List.forall_mem_flatMap]
  intro text mem
  simp [advicePieces, titled, free text mem]
  decide

theorem escapeFree_of_mem_pieces (free : d.EscapeFreeIn cache) {pieces : List Piece}
    (laid : d.pieces cache = .ok pieces) : ∀ piece ∈ pieces, piece.EscapeFree := by
  obtain ⟨parts, labels, whole⟩ := bind_eq_ok_iff.mp laid
  obtain rfl := Except.ok.inj whole
  have each : ∀ part ∈ parts, ∀ piece ∈ part, piece.EscapeFree := by
    intro part mem
    obtain ⟨label, among, same⟩ := (mem_iff_of_mapM labels part).mp mem
    exact Label.escapeFree_of_mem_pieces (free.labels label among) same
  have note : EscapeFree "note" := by decide
  have helped : EscapeFree "help" := by decide
  simp only [List.forall_mem_append, List.forall_mem_flatten]
  exact ⟨⟨⟨escapeFree_headingPieces free, each⟩, escapeFree_advicePieces .bold note free.notes⟩,
    escapeFree_advicePieces .green helped free.help⟩

end Diagnostic

namespace Diagnostics

variable {cache : SourceCache} {ds : Diagnostics}

/-- The pieces of each diagnostic. -/
def layouts (cache : SourceCache) (ds : Diagnostics) : Except LayoutError (List (List Piece)) :=
  ds.toList.mapM (Diagnostic.pieces cache)

/-- The layouts are made before any style is written. -/
theorem mapM_render (cache : SourceCache) (colored : Bool) (ds : Diagnostics) :
    ds.toList.mapM (Diagnostic.render cache colored) =
      (ds.layouts cache).map (List.map (writePieces colored)) :=
  mapM_map_ok (Diagnostic.pieces cache) (writePieces colored) ds.toList

theorem render_eq_map_layouts (cache : SourceCache) (colored : Bool) (ds : Diagnostics) :
    ds.render cache colored = (ds.layouts cache).map fun layouts =>
      "\n".intercalate (layouts.map (writePieces colored)) := by
  rw [render, mapM_render]
  cases ds.layouts cache <;> rfl

theorem unstyles_of_mem_layouts (free : ∀ d ∈ ds, d.EscapeFreeIn cache) {layouts : List (List Piece)}
    (laid : ds.layouts cache = .ok layouts) (colored : Bool) :
    ∀ pieces ∈ layouts, Unstyles (writePieces colored pieces) (writePieces false pieces) := by
  intro pieces mem
  obtain ⟨d, among, same⟩ := (mem_iff_of_mapM laid pieces).mp mem
  have freeOne := free d (Array.mem_toList_iff.mp among)
  exact unstyles_writePieces colored (Diagnostic.escapeFree_of_mem_pieces freeOne same)

/-- Colored diagnostics without their styles are the uncolored ones. -/
theorem withoutStyles_render (free : ∀ d ∈ ds, d.EscapeFreeIn cache) (colored : Bool) :
    (ds.render cache colored).map withoutStyles = ds.render cache false := by
  rw [render_eq_map_layouts, render_eq_map_layouts]
  cases laid : ds.layouts cache with
  | error e => rfl
  | ok layouts =>
    have each := unstyles_of_mem_layouts free laid colored
    exact congrArg Except.ok (Unstyles.newline.intercalate each).withoutStyles_eq

/-- Whether diagnostics can be shown does not hang on colors. -/
theorem render_eq_error_iff_uncolored (cache : SourceCache) (colored : Bool) (ds : Diagnostics)
    (e : LayoutError) : ds.render cache colored = .error e ↔ ds.render cache false = .error e := by
  rw [render_eq_map_layouts, render_eq_map_layouts]
  cases ds.layouts cache <;> simp [Except.map]

end Diagnostics

/-! ## The diagnostics of a text -/

/-- Files that have no escape in their names and texts. -/
def SourceCache.EscapeFree (cache : SourceCache) : Prop :=
  ∀ id file, cache.get? id = some file →
    Monkey.EscapeFree file.name ∧ Monkey.EscapeFree file.source

theorem Token.escapeFree_literal {source : String} {file : FileId} {t : Token}
    (mem : t ∈ (tokenize source file).1) (free : EscapeFree source) : EscapeFree t.literal := by
  obtain ⟨before, after, split, _⟩ := exists_split_tokenize mem
  intro inside
  refine free ?_
  rw [split]
  exact List.mem_append_left _ (List.mem_append_right _ inside)

/-- What is found in a text without escapes shows none. -/
theorem Diagnostic.OfTokens.escapeFreeIn {source : String} {file : FileId} {d : Diagnostic}
    {cache : SourceCache} (h : d.OfTokens (tokenize source file).1) (text : EscapeFree source)
    (files : cache.EscapeFree) : d.EscapeFreeIn cache := by
  obtain ⟨message, labels, notes, help⟩ := h.notMem_texts '\x1b' (by decide)
    fun t mem => Token.escapeFree_literal mem text
  refine ⟨?_, message, ?_, notes, help⟩
  · intro code mem
    rcases h.code_eq code mem with rfl | rfl <;> decide
  · intro label among
    refine ⟨labels label among, fun file known => (files _ _ known).1, ?_⟩
    intro file line known found inside
    exact (files _ _ known).2 (SourceFile.subset_of_line? found inside)

end Monkey
