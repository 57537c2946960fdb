import Monkey.Proofs.Lexer.Scan

/-! # Layouts

A layout is a list of lexemes with blanks before, between and behind them. Reading the
text of a layout gives its lexemes back exactly when no two of them run together, and
every text is the text of one such layout. -/

namespace Monkey

/-- A list of lexemes and the gaps around them. -/
inductive Layout
  | finish (gap : List Char) (blank : IsGap gap)
  | item (gap : List Char) (l : Lexeme) (blank : IsGap gap) (lexeme : IsLexeme l) (rest : Layout)

namespace Layout

def text : Layout → List Char
  | finish gap _ => gap
  | item gap l _ _ rest => gap ++ l.text ++ rest.text

def lexemes : Layout → List Lexeme
  | finish _ _ => []
  | item _ l _ _ rest => l :: rest.lexemes

/-- The blanks at the beginning. -/
def gap : Layout → List Char
  | finish gap _ => gap
  | item gap _ _ _ _ => gap

/-- No empty gap stands between two lexemes that run together. -/
def Separated : Layout → Prop
  | finish _ _ => True
  | item _ l _ _ rest =>
    (rest.gap = [] → ∀ next ∈ rest.lexemes.head?, ¬ l.Glues next) ∧ rest.Separated

/-- A lexeme ends before a layout unless it runs together with the first lexeme there. -/
theorem stopsAt_text (l : Lexeme) (rest : Layout) :
    l.StopsAt rest.text ↔ (rest.gap = [] → ∀ next ∈ rest.lexemes.head?, ¬ l.Glues next) := by
  cases rest with
  | finish gap blank =>
    refine iff_of_true ?_ (by simp [lexemes])
    apply l.stopsAt_of_isBlank
    intro c hc
    exact blank c (List.mem_of_mem_head? hc)
  | item gap next blank lexeme rest =>
    obtain ⟨c, cs, start⟩ := List.exists_cons_of_ne_nil lexeme.text_ne_nil
    have glues := lexeme.continues_iff_glues (c := c) (by simp [start]) l
    cases gap with
    | nil => simp [Lexeme.StopsAt, text, Layout.gap, lexemes, start, glues]
    | cons d gap =>
      refine iff_of_true ?_ (by simp [Layout.gap])
      apply l.stopsAt_of_isBlank
      intro e he
      obtain rfl : d = e := by simpa [text] using he
      exact blank d List.mem_cons_self

/-! ## From layouts to tokens and back -/

/-- A layout whose lexemes stay apart is scanned as it was laid out. -/
theorem exists_scan (layout : Layout) (separated : layout.Separated) (file : FileId)
    (passed : List Char) :
    ∃ tokens, Scan file passed layout.text tokens ∧
      tokens.map Token.lexeme = layout.lexemes ++ [⟨.eof, []⟩] := by
  induction layout generalizing passed with
  | finish gap blank => exact ⟨_, .finish blank, by simp [lexemes, Token.lexeme, Token.endBehind]⟩
  | item gap l blank lexeme rest ih =>
    obtain ⟨apart, separated⟩ := separated
    obtain ⟨tokens, scan, same⟩ := ih separated (passed ++ gap ++ l.text)
    refine ⟨_, .token blank lexeme ((stopsAt_text l rest).mpr apart) scan, ?_⟩
    simp [lexemes, same]

end Layout

/-- Every scan follows a layout whose lexemes stay apart. -/
theorem Scan.exists_layout {file : FileId} {passed rest : List Char} {tokens : List Token}
    (scan : Scan file passed rest tokens) :
    ∃ layout : Layout, layout.text = rest ∧ layout.Separated ∧
      tokens.map Token.lexeme = layout.lexemes ++ [⟨.eof, []⟩] := by
  induction scan with
  | @finish passed gap blank =>
    exact ⟨.finish gap blank, rfl, trivial, by simp [Layout.lexemes, Token.lexeme, Token.endBehind]⟩
  | @token passed gap rest l tokens blank lexeme stops more ih =>
    obtain ⟨layout, rfl, separated, same⟩ := ih
    refine ⟨.item gap l blank lexeme layout, rfl, ⟨?_, separated⟩, ?_⟩
    · exact (Layout.stopsAt_text l layout).mp stops
    · simp [Layout.lexemes, same]

namespace Layout

/-- The blanks in front of a text that starts with something else are seen in the text. -/
theorem gap_eq_of_append_eq {gap other rest more : List Char} (blank : IsGap gap)
    (blankOther : IsGap other) (stop : ∀ c ∈ rest.head?, ¬ isBlank c = true)
    (stopOther : ∀ c ∈ more.head?, ¬ isBlank c = true) (same : gap ++ rest = other ++ more) :
    gap = other ∧ rest = more := by
  have gaps : gap = other := by
    rw [← (takeWhile_append_eq_self blank).mpr stop, same,
      (takeWhile_append_eq_self blankOther).mpr stopOther]
  subst gaps
  exact ⟨rfl, List.append_cancel_left same⟩

/-- Text and lexemes determine the gaps. -/
theorem eq_of_text_eq {a b : Layout} (text : a.text = b.text) (lexemes : a.lexemes = b.lexemes) :
    a = b := by
  induction a generalizing b with
  | finish gap blank =>
    cases b with
    | finish => cases text; rfl
    | item => cases lexemes
  | item gap l blank lexeme rest ih =>
    cases b with
    | finish => cases lexemes
    | item other next blankOther lexemeNext more =>
      obtain ⟨rfl, lexemesRest⟩ := List.cons.inj lexemes
      obtain ⟨c, cs, start⟩ := List.exists_cons_of_ne_nil lexeme.text_ne_nil
      have solid : ∀ tail : List Char, ∀ d ∈ (l.text ++ tail).head?, ¬ isBlank d = true := by
        intro tail d hd
        obtain rfl : c = d := by simpa [start] using hd
        simp [lexeme.isBlank_of_mem c (by simp [start])]
      simp only [Layout.text, List.append_assoc] at text
      obtain ⟨rfl, textRest⟩ := gap_eq_of_append_eq blank blankOther (solid _) (solid _) text
      obtain rfl := ih (List.append_cancel_left textRest) lexemesRest
      rfl

end Layout

/-- The text of a layout is read back as its lexemes exactly when they stay apart. -/
theorem lexemes_tokenize_iff (layout : Layout) (file : FileId) :
    (tokenize (String.ofList layout.text) file).1.toList.map Token.lexeme =
      layout.lexemes ++ [⟨.eof, []⟩] ↔ layout.Separated := by
  constructor
  · intro same
    obtain ⟨other, text, separated, sameOther⟩ :=
      (scan_tokenize (String.ofList layout.text) file).exists_layout
    rw [String.toList_ofList] at text
    have lexemes : other.lexemes = layout.lexemes :=
      List.append_cancel_right (sameOther.symm.trans same)
    exact Layout.eq_of_text_eq text lexemes ▸ separated
  · intro separated
    obtain ⟨tokens, scan, same⟩ := layout.exists_scan separated file []
    rw [← String.toList_ofList (l := layout.text), scan_tokenize_iff] at scan
    rw [scan, same]

/-- Reading undoes laying out, for exactly the layouts whose lexemes stay apart, and each
text has exactly one such layout, which is the one that is read. -/
theorem tokenize_layout :
    (∀ (layout : Layout) (file : FileId),
      (tokenize (String.ofList layout.text) file).1.toList.map Token.lexeme =
        layout.lexemes ++ [⟨.eof, []⟩] ↔ layout.Separated) ∧
    ∀ (source : String) (file : FileId), ∃ layout : Layout,
      (tokenize source file).1.toList.map Token.lexeme = layout.lexemes ++ [⟨.eof, []⟩] ∧
      ∀ other : Layout, other.text = source.toList ∧ other.Separated ↔ other = layout := by
  refine ⟨lexemes_tokenize_iff, ?_⟩
  intro source file
  obtain ⟨layout, text, separated, same⟩ := (scan_tokenize source file).exists_layout
  refine ⟨layout, same, fun other => ⟨?_, ?_⟩⟩
  · rintro ⟨textOther, separatedOther⟩
    have read := (lexemes_tokenize_iff other file).mpr separatedOther
    rw [textOther, String.ofList_toList, same] at read
    exact Layout.eq_of_text_eq (textOther.trans text.symm) (List.append_cancel_right read).symm
  · rintro rfl
    exact ⟨text, separated⟩

end Monkey
