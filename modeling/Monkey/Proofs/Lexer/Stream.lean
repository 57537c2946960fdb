import Monkey.Proofs.Lexer.Lexeme

/-! # The stream of a lexer

The tokens that a lexer still gives, as a list. Reading a token takes the first one off
the list, and behind the end each further reading gives the end again. -/

namespace Monkey

namespace Lexer

/-! ## The end of the text -/

theorem next_kind_eq_eof_iff (lexer : Lexer) :
    lexer.next.1.kind = .eof ↔ lexer.afterBlanks.rest = [] := by
  cases h : lexer.afterBlanks.rest with
  | nil => simp [next_of_end h]
  | cons c rest =>
    have blanks := List.head?_dropWhile_not isBlank lexer.cursor.rest
    rw [← rest_afterBlanks, h] at blanks
    have notBlank : isBlank c = false := by simpa using blanks
    simpa [next_of_cons h, Lexeme.token] using (Lexeme.isLexeme_read notBlank rest).kind_ne_eof

/-- At the end of the text a lexer stays. -/
theorem next_next_of_eof {lexer : Lexer} (h : lexer.next.1.kind = .eof) :
    lexer.next.2.next = lexer.next := by
  have finished := (next_kind_eq_eof_iff lexer).mp h
  have stays : { lexer with cursor := lexer.afterBlanks : Lexer }.afterBlanks =
      lexer.afterBlanks := by
    show lexer.afterBlanks.advanceOver (lexer.afterBlanks.rest.takeWhile isBlank) = _
    rw [finished]
    rfl
  rw [next_of_end finished, next_of_end (by rw [stays]; exact finished), stays]

/-! ## All tokens -/

/-- The tokens that a lexer still gives, up to and including the end. -/
def stream (lexer : Lexer) : List Token := lexer.tokenize.1.toList

/-- Reading to the end, as an induction on the lexers that it passes. -/
theorem next_induction {motive : Lexer → Prop}
    (finish : ∀ lexer : Lexer, lexer.next.1.kind = .eof → motive lexer)
    (token : ∀ lexer : Lexer, lexer.next.1.kind ≠ .eof → motive lexer.next.2 → motive lexer)
    (lexer : Lexer) : motive lexer :=
  tokenizeFrom.induct (fun _ lexer => motive lexer) (fun _ lexer => finish lexer)
    (fun _ lexer => token lexer) #[] lexer

theorem tokenizeFrom_eq (tokens : Array Token) (lexer : Lexer) :
    lexer.tokenizeFrom tokens = (tokens ++ lexer.tokenize.1, lexer.tokenize.2) := by
  induction lexer using next_induction generalizing tokens with
  | finish lexer h =>
    simp [tokenize, tokenizeFrom, h]
  | token lexer h ih =>
    have turn : ∀ tokens : Array Token,
        lexer.tokenizeFrom tokens = lexer.next.2.tokenizeFrom (tokens.push lexer.next.1) := by
      intro tokens
      rw [tokenizeFrom]
      simp [h]
    rw [tokenize, turn, turn, ih, ih]
    simp

variable {lexer : Lexer}

theorem tokenize_of_eof (h : lexer.next.1.kind = .eof) :
    lexer.tokenize = (#[lexer.next.1], lexer.next.2) := by
  simp [tokenize, tokenizeFrom, h]

theorem tokenize_of_ne_eof (h : lexer.next.1.kind ≠ .eof) :
    lexer.tokenize = (#[lexer.next.1] ++ lexer.next.2.tokenize.1, lexer.next.2.tokenize.2) := by
  rw [tokenize, tokenizeFrom]
  simp [h, tokenizeFrom_eq]

theorem stream_of_eof (h : lexer.next.1.kind = .eof) : lexer.stream = [lexer.next.1] := by
  simp [stream, tokenize_of_eof h]

theorem stream_of_ne_eof (h : lexer.next.1.kind ≠ .eof) :
    lexer.stream = lexer.next.1 :: lexer.next.2.stream := by
  simp [stream, tokenize_of_ne_eof h]

/-- What a lexer reads hangs on its cursor and its file, not on what it holds. -/
theorem next_congr {other : Lexer} (cursor : lexer.cursor = other.cursor)
    (file : lexer.file = other.file) :
    lexer.next.1 = other.next.1 ∧ lexer.next.2.cursor = other.next.2.cursor ∧
      lexer.next.2.file = other.next.2.file := by
  have start : lexer.afterBlanks = other.afterBlanks := by rw [afterBlanks, afterBlanks, cursor]
  cases h : lexer.afterBlanks.rest with
  | nil => simp [next_of_end h, next_of_end (start ▸ h), start, file]
  | cons c rest => simp [next_of_cons h, next_of_cons (start ▸ h), start, file]

theorem stream_congr {other : Lexer} (cursor : lexer.cursor = other.cursor)
    (file : lexer.file = other.file) : lexer.stream = other.stream := by
  induction lexer using next_induction generalizing other with
  | finish lexer eof =>
    obtain ⟨same, _⟩ := next_congr cursor file
    rw [stream_of_eof eof, stream_of_eof (same ▸ eof), same]
  | token lexer more ih =>
    obtain ⟨same, cursors, files⟩ := next_congr cursor file
    have more' : other.next.1.kind ≠ .eof := same ▸ more
    rw [stream_of_ne_eof more, stream_of_ne_eof more', ih cursors files, same]

/-- The end comes once, and last. -/
theorem exists_stream_eq (lexer : Lexer) :
    ∃ tokens last, lexer.stream = tokens ++ [last] ∧ (∀ t ∈ tokens, t.kind ≠ .eof) ∧
      last.kind = .eof := by
  induction lexer using next_induction with
  | finish lexer eof => exact ⟨[], lexer.next.1, by simp [stream_of_eof eof], by simp, eof⟩
  | token lexer more ih =>
    obtain ⟨tokens, last, same, kinds, eof⟩ := ih
    refine ⟨lexer.next.1 :: tokens, last, ?_, ?_, eof⟩
    · rw [stream_of_ne_eof more, same, List.cons_append]
    · simpa [more] using kinds

theorem kinds_of_stream_eq {tokens : List Token} {last : Token}
    (h : lexer.stream = tokens ++ [last]) :
    (∀ t ∈ tokens, t.kind ≠ .eof) ∧ last.kind = .eof := by
  obtain ⟨others, final, same, kinds, eof⟩ := lexer.exists_stream_eq
  obtain ⟨rfl, finals⟩ := List.append_inj' (h.symm.trans same) rfl
  obtain rfl := List.singleton_inj.mp finals
  exact ⟨kinds, eof⟩

/-- Reading takes the first token off the stream; the end stays on it. -/
theorem next_of_stream {tokens : List Token} {last : Token}
    (h : lexer.stream = tokens ++ [last]) (kinds : ∀ t ∈ tokens, t.kind ≠ .eof)
    (eof : last.kind = .eof) :
    lexer.next.1 = tokens.headD last ∧ lexer.next.2.stream = tokens.tail ++ [last] := by
  by_cases finished : lexer.next.1.kind = .eof
  · rw [stream_of_eof finished] at h
    have again : lexer.next.2.next.1.kind = .eof := by rw [next_next_of_eof finished, finished]
    cases tokens with
    | nil =>
      obtain rfl : lexer.next.1 = last := by simpa using h
      exact ⟨rfl, by rw [stream_of_eof again, next_next_of_eof finished]; rfl⟩
    | cons t tokens => simp at h
  · rw [stream_of_ne_eof finished] at h
    cases tokens with
    | nil =>
      obtain ⟨rfl, _⟩ := List.cons.inj h
      exact absurd eof finished
    | cons t tokens =>
      obtain ⟨rfl, rest⟩ := List.cons.inj h
      exact ⟨rfl, rest⟩

/-! ## Illegal characters -/

/-- The diagnostics that a lexer holds and those that it will add on its way to the end. -/
def reports (lexer : Lexer) : List Diagnostic :=
  lexer.diagnostics.toList ++ (lexer.stream.filter Token.isIllegal).map Token.illegalCharacter

theorem diagnostics_next (lexer : Lexer) :
    lexer.next.2.diagnostics.toList =
      lexer.diagnostics.toList ++ ([lexer.next.1].filter Token.isIllegal).map Token.illegalCharacter := by
  cases h : lexer.afterBlanks.rest with
  | nil => simp [next_of_end h, Token.isIllegal]
  | cons c rest =>
    simp only [next_of_cons h, List.filter_cons, List.filter_nil]
    split <;> simp_all

/-- Reading a token moves its diagnostic from those to come to those held. -/
theorem reports_next (lexer : Lexer) : lexer.next.2.reports = lexer.reports := by
  by_cases h : lexer.next.1.kind = .eof
  · have again : lexer.next.2.next.1.kind = .eof := by rw [next_next_of_eof h, h]
    rw [reports, reports, diagnostics_next, stream_of_eof again, stream_of_eof h,
      next_next_of_eof h]
    simp [Token.isIllegal, h]
  · rw [reports, reports, diagnostics_next, stream_of_ne_eof h, List.append_assoc,
      ← List.map_append, ← List.filter_append, List.singleton_append]

theorem diagnostics_tokenize (lexer : Lexer) :
    lexer.tokenize.2.diagnostics.toList = lexer.reports := by
  induction lexer using next_induction with
  | finish lexer eof =>
    rw [tokenize_of_eof eof, reports, stream_of_eof eof, diagnostics_next]
  | token lexer more ih =>
    rw [tokenize_of_ne_eof more, ih, reports_next]

end Lexer

/-! ## The endless stream -/

/-- The tokens of a list, and then the last of them for ever. -/
def endless (tokens : List Token) (i : Nat) : Token := tokens.getD i (tokens.getLastD default)

theorem endless_append (tokens : List Token) (last : Token) (i : Nat) :
    endless (tokens ++ [last]) i = (tokens.drop i).headD last := by
  simp only [endless, List.getLastD_concat, List.getD_eq_getElem?_getD, List.headD_eq_head?_getD,
    List.head?_drop]
  rcases Nat.lt_trichotomy i tokens.length with less | rfl | more
  · rw [List.getElem?_append_left less]
  · simp
  · have long : (tokens ++ [last]).length ≤ i := by simpa using Nat.succ_le_of_lt more
    rw [List.getElem?_eq_none long, List.getElem?_eq_none (Nat.le_of_lt more)]

theorem endless_append_mem (tokens : List Token) (last : Token) (i : Nat) :
    endless (tokens ++ [last]) i ∈ tokens ++ [last] := by
  rw [endless_append]
  cases rest : tokens.drop i with
  | nil => simp
  | cons t more =>
    have mem : t ∈ tokens := List.mem_of_mem_drop (i := i) (by simp [rest])
    simp [mem]

/-- The diagnostics of the illegal ones among the first tokens of a stream. -/
def illegalAmong (stream : Nat → Token) (n : Nat) : List Diagnostic :=
  (((List.range n).map stream).filter Token.isIllegal).map Token.illegalCharacter

theorem illegalAmong_succ (stream : Nat → Token) (n : Nat) :
    illegalAmong stream (n + 1) = illegalAmong stream n ++
      ([stream n].filter Token.isIllegal).map Token.illegalCharacter := by
  simp only [illegalAmong, List.range_succ, List.map_append, List.filter_append, List.map_cons,
    List.map_nil]

theorem illegalAmong_prefix (stream : Nat → Token) {m n : Nat} (h : m ≤ n) :
    illegalAmong stream m <+: illegalAmong stream n := by
  induction h with
  | refl => exact List.prefix_rfl
  | step _ ih =>
    rw [illegalAmong_succ]
    exact ih.trans (List.prefix_append _ _)

namespace Lexer

/-- The lexer from which a number of tokens has been pulled. -/
def pulled (lexer : Lexer) : Nat → Lexer
  | 0 => lexer
  | k + 1 => (lexer.pulled k).next.2

/-- The lexer has read the first tokens of a list that ends with the given one, and the
diagnostics handed out before and those held are the ones of the tokens read. -/
structure HasRead (lexer : Lexer) (tokens : List Token) (last : Token) (n : Nat)
    (handed : List Diagnostic) : Prop where
  stream_eq : lexer.stream = tokens.drop n ++ [last]
  ledger : handed ++ lexer.diagnostics.toList = illegalAmong (endless (tokens ++ [last])) n

variable {lexer : Lexer} {tokens : List Token} {last : Token} {n : Nat} {handed : List Diagnostic}

theorem HasRead.next_eq (h : lexer.HasRead tokens last n handed) :
    lexer.next.1 = endless (tokens ++ [last]) n := by
  obtain ⟨kinds, eof⟩ := kinds_of_stream_eq h.stream_eq
  rw [endless_append]
  exact (next_of_stream h.stream_eq kinds eof).1

theorem HasRead.next (h : lexer.HasRead tokens last n handed) :
    lexer.next.2.HasRead tokens last (n + 1) handed := by
  obtain ⟨kinds, eof⟩ := kinds_of_stream_eq h.stream_eq
  refine ⟨?_, ?_⟩
  · rw [(next_of_stream h.stream_eq kinds eof).2, List.tail_drop]
  · rw [diagnostics_next, ← List.append_assoc, h.ledger, h.next_eq, illegalAmong_succ]

theorem hasRead_ofText {source : String} {file : FileId}
    (h : (ofText source file).stream = tokens ++ [last]) :
    (ofText source file).HasRead tokens last 0 [] :=
  ⟨h, rfl⟩

theorem HasRead.pulled_add (h : lexer.HasRead tokens last n handed) (k : Nat) :
    (lexer.pulled k).HasRead tokens last (n + k) handed := by
  induction k with
  | zero => exact h
  | succ k ih => exact ih.next

theorem HasRead.pulled (h : lexer.HasRead tokens last 0 []) (k : Nat) :
    (lexer.pulled k).HasRead tokens last k [] := by
  simpa using h.pulled_add k

end Lexer

/-- A text has one diagnostic for each illegal token, in the order of the tokens. -/
theorem diagnostics_tokenize_text (source : String) (file : FileId) :
    (tokenize source file).2.toList =
      ((tokenize source file).1.toList.filter Token.isIllegal).map Token.illegalCharacter :=
  (Lexer.ofText source file).diagnostics_tokenize

end Monkey
