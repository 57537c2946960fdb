import Mathlib.Data.List.Forall2
import Monkey.Proofs.Lexer.Machine
import Monkey.Proofs.Parser.Order

/-! # The text under a program

The span of a statement runs from its keyword to its last token. Main statement: the tokens of
a program are tokens of its text, those of a statement in the order in which it names them,
and the spans of the statements follow one another in the text. -/

namespace Monkey

open String (utf8Len)

/-! ## Two tokens of a text -/

namespace Scan

variable {file : FileId} {passed rest : List Char} {tokens : List Token}

/-- Of two tokens of a scan, the text of the one stands before the text of the other. -/
theorem exists_split_pair (scan : Scan file passed rest tokens) :
    tokens.Pairwise fun a b => ∃ before between after,
      rest = before ++ (a.lexeme.text ++ between ++ b.lexeme.text) ++ after ∧
      a = a.lexeme.tokenBehind (passed ++ before) file ∧
      b = b.lexeme.tokenBehind (passed ++ before ++ a.lexeme.text ++ between) file := by
  induction scan with
  | finish => exact List.pairwise_singleton _ _
  | @token passed gap rest l tokens _ _ _ more ih =>
    refine List.pairwise_cons.mpr ⟨?_, ih.imp ?_⟩
    · intro b mem
      obtain ⟨between, after, split, same, _⟩ := more.exists_split b mem
      refine ⟨gap, between, after, ?_, ?_, ?_⟩
      · rw [Lexeme.lexeme_tokenBehind, split]
        simp
      · rw [Lexeme.lexeme_tokenBehind]
      · rw [Lexeme.lexeme_tokenBehind]
        exact same
    · rintro a b ⟨before, between, after, split, first, second⟩
      refine ⟨gap ++ l.text ++ before, between, after, ?_, ?_, ?_⟩
      · rw [split]
        simp
      · simpa using first
      · simpa using second

end Scan

/-- The spans of two lexemes, the one behind the other, are joined from end to end. -/
theorem Lexeme.merge_tokenBehind (l m : Lexeme) (before between : List Char) (file : FileId) :
    (l.tokenBehind before file).span.merge
        (m.tokenBehind (before ++ l.text ++ between) file).span =
      .ok ⟨Position.first.afterText before,
        Position.first.afterText (before ++ (l.text ++ between ++ m.text)), file⟩ := by
  have offset : ∀ text, (Position.first.afterText text).offset = utf8Len text := fun text => by
    simp [Position.afterText_offset, Position.first]
  simp only [Span.merge, tokenBehind, offset, if_true]
  rw [if_pos (by simp only [String.utf8Len_append]; omega)]
  split
  · -- The other lexeme ends where the one does only if it is empty.
    rename_i le
    simp only [String.utf8Len_append] at le
    have noGap : between = [] := String.utf8Len_eq_zero.mp (by omega)
    have noText : m.text = [] := String.utf8Len_eq_zero.mp (by omega)
    rw [noGap, noText, List.append_nil, List.append_nil]
  · simp only [List.append_assoc]

/-- A span from the beginning of one token of a text to the end of another; the text under it
begins with the literal of the one and ends with the literal of the other. -/
structure Span.Joins (span : Span) (source : String) (file : FileId) (a b : Token) : Prop where
  start_eq : span.start = a.span.start
  stop_eq : span.stop = b.span.stop
  file_eq : span.file = file
  text : ∃ text, slice source span.start.offset span.stop.offset = .ok text ∧
    a.literal.toList <+: text.toList ∧ b.literal.toList <:+ text.toList

theorem Span.Joins.eq {span : Span} {source : String} {file : FileId} {a b : Token}
    (h : span.Joins source file a b) : span = ⟨a.span.start, b.span.stop, file⟩ := by
  rw [← h.start_eq, ← h.stop_eq, ← h.file_eq]

theorem Span.joins_of_split {source : String} {a b : Token} {before text after : List Char}
    (split : source.toList = before ++ text ++ after)
    (start : a.span.start = Position.first.afterText before)
    (stop : b.span.stop = Position.first.afterText (before ++ text))
    (begins : a.literal.toList <+: text) (ends : b.literal.toList <:+ text) (file : FileId) :
    Joins ⟨Position.first.afterText before, Position.first.afterText (before ++ text), file⟩
      source file a b := by
  refine ⟨start.symm, stop.symm, rfl, String.ofList text, ?_, ?_, ?_⟩
  · simp only [Position.afterText_offset, Position.first, Nat.zero_add]
    exact slice_eq split
  · rwa [String.toList_ofList]
  · rwa [String.toList_ofList]

section

variable {source : String} {file : FileId} {i k : Nat} {a b : Token}
  (first : (tokenize source file).1.toList[i]? = some a)

include first

theorem joins_self : a.span.Joins source file a a := by
  have mem : a ∈ (tokenize source file).1.toList := List.mem_of_getElem? first
  obtain ⟨before, after, split, same, _⟩ := (scan_tokenize source file).exists_split a mem
  rw [List.nil_append] at same
  have spans : a.span = (a.lexeme.tokenBehind before file).span := congrArg Token.span same
  have joins := Span.joins_of_split split (congrArg Span.start spans) (congrArg Span.stop spans)
    List.prefix_rfl List.suffix_rfl file
  rw [spans]
  exact joins

theorem exists_joins (second : (tokenize source file).1.toList[k]? = some b) (less : i < k) :
    ∃ span, a.span.merge b.span = .ok span ∧ span.Joins source file a b := by
  obtain ⟨bound, rfl⟩ := List.getElem?_eq_some_iff.mp first
  obtain ⟨bound', rfl⟩ := List.getElem?_eq_some_iff.mp second
  have pair := (scan_tokenize source file).exists_split_pair
  obtain ⟨before, between, after, split, same, same'⟩ :=
    List.pairwise_iff_getElem.mp pair i k bound bound' less
  generalize (tokenize source file).1.toList[i] = a at *
  generalize (tokenize source file).1.toList[k] = b at *
  rw [List.nil_append] at same same'
  have merged := Lexeme.merge_tokenBehind a.lexeme b.lexeme before between file
  rw [← same, ← same'] at merged
  refine ⟨_, merged, Span.joins_of_split split ?_ ?_ ?_ ?_ file⟩
  · exact congrArg (·.span.start) same
  · have stop := congrArg (·.span.stop) same'
    simpa only [Lexeme.tokenBehind, List.append_assoc] using stop
  · rw [List.append_assoc]
    exact List.prefix_append _ _
  · exact List.suffix_append _ _

end

/-! ## Statements among the tokens -/

/-- The last token that a statement keeps. -/
def Statement.lastToken : Statement → Token
  | letBinding _ _ (some value) => value.token
  | letBinding _ name none => name.token
  | returning _ (some value) => value.token
  | returning keyword none => keyword

/-- A statement stands among the tokens of a text: a binding has its keyword, its name and an
equals sign next to each other, and a value stands behind. -/
def Statement.StandsIn (tokens : List Token) : Statement → Prop
  | letBinding keyword name value =>
    ∃ i : Nat, tokens[i]? = some keyword ∧ keyword.kind = .letWord ∧
      tokens[i + 1]? = some name.token ∧ name.token.kind = .ident ∧
      name.value = name.token.literal ∧
      (∃ sign, tokens[i + 2]? = some sign ∧ sign.kind = .assign) ∧
      ∀ e ∈ value, ∃ k : Nat, i + 2 < k ∧ tokens[k]? = some e.token
  | returning keyword value =>
    ∃ i : Nat, tokens[i]? = some keyword ∧ keyword.kind = .returnWord ∧
      ∀ e ∈ value, ∃ k : Nat, i < k ∧ tokens[k]? = some e.token

section

variable {tokens : List Token} {last : Token} (eof : last.kind = .eof)

theorem getElem?_min (i : Nat) :
    (tokens ++ [last])[min i tokens.length]? = some (endless (tokens ++ [last]) i) := by
  rw [endless_append, List.headD_eq_head?_getD, List.head?_drop]
  by_cases less : i < tokens.length
  · rw [Nat.min_eq_left (Nat.le_of_lt less), List.getElem?_append_left less,
      List.getElem?_eq_getElem less]
    rfl
  · rw [Nat.min_eq_right (Nat.le_of_not_lt less), List.getElem?_concat_length,
      List.getElem?_eq_none (Nat.le_of_not_lt less)]
    rfl

include eof

/-- A token other than the end is found where it stands in the endless stream. -/
theorem lt_length_of_endless {i : Nat} {kind : Kind}
    (h : (endless (tokens ++ [last]) i).kind = kind) (other : kind ≠ .eof) : i < tokens.length := by
  by_contra long
  rw [endless_append, List.drop_eq_nil_of_le (Nat.le_of_not_lt long), List.headD_nil, eof] at h
  exact other h.symm

theorem getElem?_of_endless {i : Nat} {kind : Kind}
    (h : (endless (tokens ++ [last]) i).kind = kind) (other : kind ≠ .eof) :
    (tokens ++ [last])[i]? = some (endless (tokens ++ [last]) i) := by
  have less := lt_length_of_endless eof h other
  rw [← getElem?_min, Nat.min_eq_left (Nat.le_of_lt less)]

variable {s : Statement} {first final : Nat}

theorem Statement.Stands.standsIn (h : s.Stands (endless (tokens ++ [last])) first final) :
    s.StandsIn (tokens ++ [last]) := by
  cases h with
  | binding word named bound =>
    exact ⟨first, getElem?_of_endless eof word (by simp), word,
      getElem?_of_endless eof named (by simp), named, rfl,
      ⟨_, getElem?_of_endless eof bound (by simp), bound⟩, nofun⟩
  | @bindingValue _ _ value word named bound behind same =>
    refine ⟨first, getElem?_of_endless eof word (by simp), word,
      getElem?_of_endless eof named (by simp), named, rfl,
      ⟨_, getElem?_of_endless eof bound (by simp), bound⟩, ?_⟩
    intro e mem
    obtain rfl : value = e := Option.some.inj mem
    have less := lt_length_of_endless eof bound (by simp)
    exact ⟨min final tokens.length, by omega, same ▸ getElem?_min final⟩
  | returning word => exact ⟨first, getElem?_of_endless eof word (by simp), word, nofun⟩
  | @returningValue _ _ value word behind same =>
    refine ⟨first, getElem?_of_endless eof word (by simp), word, ?_⟩
    intro e mem
    obtain rfl : value = e := Option.some.inj mem
    have less := lt_length_of_endless eof word (by simp)
    exact ⟨min final tokens.length, by omega, same ▸ getElem?_min final⟩

/-- The keyword and the last token of a statement, where the statement begins and ends. -/
theorem Statement.Stands.getElem? (h : s.Stands (endless (tokens ++ [last])) first final) :
    first < tokens.length ∧ (tokens ++ [last])[first]? = some s.keyword ∧
      (tokens ++ [last])[min final tokens.length]? = some s.lastToken := by
  cases h with
  | binding word named =>
    exact ⟨lt_length_of_endless eof word (by simp), getElem?_of_endless eof word (by simp),
      getElem?_min _⟩
  | bindingValue word _ _ _ same =>
    exact ⟨lt_length_of_endless eof word (by simp), getElem?_of_endless eof word (by simp),
      (getElem?_min final).trans (congrArg some same.symm)⟩
  | returning word =>
    exact ⟨lt_length_of_endless eof word (by simp), getElem?_of_endless eof word (by simp),
      getElem?_min _⟩
  | returningValue word _ same =>
    exact ⟨lt_length_of_endless eof word (by simp), getElem?_of_endless eof word (by simp),
      (getElem?_min final).trans (congrArg some same.symm)⟩

end

/-- A statement that stands among the tokens of a text has a span there. -/
theorem Statement.StandsIn.exists_span {source : String} {file : FileId} {s : Statement}
    (h : s.StandsIn (tokenize source file).1.toList) :
    ∃ span, s.span = .ok span ∧ span.Joins source file s.keyword s.lastToken := by
  cases s with
  | letBinding keyword name value =>
    obtain ⟨i, first, _, second, _, _, _, behind⟩ := h
    cases value with
    | none => exact exists_joins first second (Nat.lt_succ_self i)
    | some value =>
      obtain ⟨k, less, second⟩ := behind value rfl
      exact exists_joins first second (by omega)
  | returning keyword value =>
    obtain ⟨i, first, _, behind⟩ := h
    cases value with
    | none => exact ⟨keyword.span, rfl, joins_self first⟩
    | some value =>
      obtain ⟨k, less, second⟩ := behind value rfl
      exact exists_joins first second less

/-! ## Whole texts -/

/-- The program of a text in the tokens of the text. All its tokens are among them, and each
statement has its own in their order. A statement has a span from its keyword to its last
token, and each span ends before the next one begins. -/
theorem program_stands_in_text (source : String) (file : FileId) (recovery : Recovery)
    (rule : StandardRule) :
    let tokens := (tokenize source file).1.toList
    let program := (readWith rule.rule source file recovery).1
    (∀ t ∈ program.tokens, t ∈ tokens) ∧
    (∀ s ∈ program.statements, s.StandsIn tokens) ∧
    ∃ spans, List.Forall₂ (fun s span => s.span = .ok span ∧
        span.Joins source file s.keyword s.lastToken) program.statements.toList spans ∧
      spans.Pairwise fun a b => a.stop.offset ≤ b.start.offset := by
  intro tokens program
  obtain ⟨init, last, all, _, eof⟩ := (Lexer.ofText source file).exists_stream_eq
  have whole : tokens = init ++ [last] := all
  obtain ⟨j, ordered⟩ := inOrder_readWith rule.keepsOrder source file recovery
  have stands : ∀ s ∈ program.statements, s.StandsIn tokens := by
    intro s mem
    obtain ⟨first, final, _, _, place⟩ := ordered.exists_stands (Array.mem_toList_iff.mpr mem)
    change s.Stands (endless tokens) first final at place
    rw [whole] at place ⊢
    exact place.standsIn eof
  let spanOf := fun s : Statement => Span.mk s.keyword.span.start s.lastToken.span.stop file
  refine ⟨?_, stands, program.statements.toList.map spanOf, ?_, ?_⟩
  · intro t mem
    exact Array.mem_toList_iff.mpr (mem_tokenize_of_mem_tokens rule mem)
  · refine List.forall₂_map_right_iff.mpr (List.forall₂_same.mpr fun s mem => ?_)
    obtain ⟨span, merged, joins⟩ := (stands s (Array.mem_toList_iff.mp mem)).exists_span
    obtain rfl := joins.eq
    exact ⟨merged, joins⟩
  · refine List.pairwise_map.mpr (ordered.pairwise.imp ?_)
    rintro a b ⟨first, final, first', final', here, later, less⟩
    change a.Stands (endless tokens) first final at here
    change b.Stands (endless tokens) first' final' at later
    have inText : tokens.Pairwise fun a b => a.span.stop.offset ≤ b.span.start.offset :=
      (scan_tokenize source file).ordered
    rw [whole] at here later inText
    obtain ⟨_, _, stop⟩ := here.getElem? eof
    obtain ⟨bound, start, _⟩ := later.getElem? eof
    obtain ⟨inside, same⟩ := List.getElem?_eq_some_iff.mp stop
    obtain ⟨inside', same'⟩ := List.getElem?_eq_some_iff.mp start
    have apart := List.pairwise_iff_getElem.mp inText _ _ inside inside' (by omega)
    rwa [same, same'] at apart

/-- A keyword, a semicolon and the end of the text as values. -/
theorem program_stands_in_text_any :
    let source := "let a = let b = return; return"
    let tokens := (tokenize source 3).1.toList
    let program := (readWith Rule.any source 3 .skipToken).1
    let keyword : Token := ⟨.letWord, "let", ⟨⟨1, 1, 0⟩, ⟨1, 4, 3⟩, 3⟩⟩
    let name : Token := ⟨.ident, "a", ⟨⟨1, 5, 4⟩, ⟨1, 6, 5⟩, 3⟩⟩
    let value : Token := ⟨.letWord, "let", ⟨⟨1, 9, 8⟩, ⟨1, 12, 11⟩, 3⟩⟩
    let first := Statement.letBinding keyword (.ofToken name) (some (.identifier (.ofToken value)))
    first ∈ program.statements ∧ first.StandsIn tokens ∧ value ∈ program.tokens ∧ value ∈ tokens ∧
      program.statements.toList.map Statement.span =
        [.ok ⟨⟨1, 1, 0⟩, ⟨1, 12, 11⟩, 3⟩, .ok ⟨⟨1, 17, 16⟩, ⟨1, 24, 23⟩, 3⟩,
          .ok ⟨⟨1, 25, 24⟩, ⟨1, 31, 30⟩, 3⟩] := by
  intro source tokens program keyword name value first
  obtain ⟨among, stands, _⟩ := program_stands_in_text source 3 .skipToken .any
  have mem : first ∈ program.statements := by decide +kernel
  have inside : value ∈ program.tokens := by decide +kernel
  exact ⟨mem, stands first mem, inside, among value inside, by decide +kernel⟩

end Monkey
