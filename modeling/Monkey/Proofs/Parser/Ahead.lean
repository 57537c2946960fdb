import Monkey.Parser.Window
import Monkey.Proofs.Lexer.Stream

/-! # Tokens ahead

A window with its lexer stands for the list of tokens that are still to be read. The
moves of the window are list operations on it: a step drops the first token, a sweep
drops all before the first semicolon, and behind the last token the end repeats. -/

namespace Monkey

namespace Window

/-- The window shows the first two of the given tokens and its lexer holds the others. -/
structure Ahead (w : Window) (tokens : List Token) (last : Token) : Prop where
  current_eq : w.current = tokens.headD last
  peek_eq : w.peek = tokens.tail.headD last
  stream_eq : w.lexer.stream = tokens.tail.tail ++ [last]
  kinds : ∀ t ∈ tokens, t.kind ≠ .eof
  last_kind : last.kind = .eof

/-- What a run of moves comes to: the tokens that are left and the mismatches that it
adds. The mode of recovery and the illegal characters of the text stay as they are. -/
structure Reaches (w w' : Window) (left : List Token) (last : Token)
    (mismatches : List Diagnostic) : Prop where
  ahead : w'.Ahead left last
  diagnostics_eq : w'.diagnostics.toList = w.diagnostics.toList ++ mismatches
  recovery_eq : w'.recovery = w.recovery
  reports_eq : w'.lexer.reports = w.lexer.reports

namespace Ahead

variable {w : Window} {tokens : List Token} {last : Token}

theorem refl (h : w.Ahead tokens last) : w.Reaches w tokens last [] :=
  ⟨h, (List.append_nil _).symm, rfl, rfl⟩

theorem current_kind_eq_eof_iff (h : w.Ahead tokens last) :
    w.current.kind = .eof ↔ tokens = [] := by
  rw [h.current_eq]
  cases tokens with
  | nil => simp [h.last_kind]
  | cons t tokens => simpa using h.kinds t (by simp)

theorem next (h : w.Ahead tokens last) : w.Reaches w.next tokens.tail last [] := by
  have rest : ∀ t ∈ tokens.tail.tail, t.kind ≠ .eof := by
    intro t ht
    exact h.kinds t (List.mem_of_mem_tail (List.mem_of_mem_tail ht))
  obtain ⟨first, stream⟩ := Lexer.next_of_stream h.stream_eq rest h.last_kind
  refine ⟨⟨h.peek_eq, first, stream, ?_, h.last_kind⟩, by simp [Window.next], rfl, ?_⟩
  · intro t ht
    exact h.kinds t (List.mem_of_mem_tail ht)
  · exact w.lexer.reports_next

end Ahead

namespace Reaches

variable {w w' w'' : Window} {left more : List Token} {last : Token}
  {mismatches others : List Diagnostic}

theorem trans (h : w.Reaches w' left last mismatches) (h' : w'.Reaches w'' more last others) :
    w.Reaches w'' more last (mismatches ++ others) := by
  refine ⟨h'.ahead, ?_, h'.recovery_eq.trans h.recovery_eq, h'.reports_eq.trans h.reports_eq⟩
  rw [h'.diagnostics_eq, h.diagnostics_eq, List.append_assoc]

theorem log (h : w.Reaches w' left last mismatches) (event : Event) :
    w.Reaches (w'.log event) left last mismatches :=
  ⟨⟨h.ahead.current_eq, h.ahead.peek_eq, h.ahead.stream_eq, h.ahead.kinds, h.ahead.last_kind⟩,
    h.diagnostics_eq, h.recovery_eq, h.reports_eq⟩

theorem next (h : w.Reaches w' left last mismatches) :
    w.Reaches w'.next left.tail last mismatches := by
  simpa using h.trans h.ahead.next

end Reaches

/-! ## Expecting a kind -/

end Window

/-- The diagnostic for a token that is found behind another one in the place of an
expected kind. -/
def Diagnostic.mismatch (expected : Kind) (after found : Token) : Diagnostic where
  code := some .unexpectedToken
  message := s!"expected next token to be `{expected.text}`, got `{found.kind.text}` instead"
  labels := [
    ⟨found.span, s!"found: {found.kind.text}", true⟩,
    ⟨after.span, s!"after `{after.literal}`", false⟩]
  notes := if found.isIllegal then [s!"`{found.literal}` is not a valid token"] else []
  help := (Window.expectedHelp expected after.kind).toList

namespace Window

namespace Ahead

variable {w : Window} {tokens : List Token} {last : Token}

theorem expect_missed (h : w.Ahead tokens last) {kind : Kind}
    (hk : (tokens.tail.headD last).kind ≠ kind) :
    (w.expect kind).1 = false ∧ w.Reaches (w.expect kind).2 tokens last
      [.mismatch kind (tokens.headD last) (tokens.tail.headD last)] := by
  rw [← h.peek_eq] at hk
  rw [expect_of_ne hk]
  refine ⟨rfl, ⟨h.current_eq, h.peek_eq, h.stream_eq, h.kinds, h.last_kind⟩, ?_, rfl, rfl⟩
  rw [Array.toList_push, ← h.current_eq, ← h.peek_eq]
  rfl

/-! ## Passing over tokens -/

theorem sweepFrom (h : w.Ahead tokens last) (passed : Array Token) :
    w.Reaches (w.sweepFrom passed).2 (tokens.dropWhile (·.kind != .semicolon)) last [] := by
  induction tokens generalizing w passed with
  | nil =>
    have eof := h.current_kind_eq_eof_iff.mpr rfl
    rw [Window.sweepFrom, if_pos (.inr eof)]
    exact h.refl
  | cons t tokens ih =>
    have current : w.current = t := h.current_eq
    by_cases ht : t.kind = .semicolon
    · rw [Window.sweepFrom, if_pos (.inl (by rw [current, ht])),
        List.dropWhile_cons_of_neg (by simp [ht])]
      exact h.refl
    · have more : ¬ (w.current.kind = .semicolon ∨ w.current.kind = .eof) := by
        simpa [current, ht] using h.kinds t (by simp)
      rw [Window.sweepFrom, if_neg more, List.dropWhile_cons_of_pos (by simp [ht])]
      simpa using h.next.trans (ih h.next.ahead _)

theorem passed_sweepFrom (h : w.Ahead tokens last) (passed : Array Token) :
    (w.sweepFrom passed).1.toList = passed.toList ++ tokens.takeWhile (·.kind != .semicolon) := by
  induction tokens generalizing w passed with
  | nil =>
    have eof := h.current_kind_eq_eof_iff.mpr rfl
    rw [Window.sweepFrom, if_pos (.inr eof)]
    exact (List.append_nil _).symm
  | cons t tokens ih =>
    have current : w.current = t := h.current_eq
    by_cases ht : t.kind = .semicolon
    · rw [Window.sweepFrom, if_pos (.inl (by rw [current, ht])),
        List.takeWhile_cons_of_neg (by simp [ht])]
      exact (List.append_nil _).symm
    · have more : ¬ (w.current.kind = .semicolon ∨ w.current.kind = .eof) := by
        simpa [current, ht] using h.kinds t (by simp)
      rw [Window.sweepFrom, if_neg more, List.takeWhile_cons_of_pos (by simp [ht]),
        ih h.next.ahead, Array.toList_push, current, List.append_assoc]
      rfl

theorem passed_sweep (h : w.Ahead tokens last) :
    w.sweep.1.toList = tokens.takeWhile (·.kind != .semicolon) :=
  h.passed_sweepFrom #[]

theorem sweep (h : w.Ahead tokens last) :
    w.Reaches w.sweep.2 (tokens.dropWhile (·.kind != .semicolon)) last [] :=
  h.sweepFrom #[]

end Ahead

end Window

/-- What a failed statement leaves of the tokens ahead, before the step that follows. -/
def Recovery.leave : Recovery → List Token → List Token
  | .skipToken, tokens => tokens
  | .synchronize, tokens => tokens.dropWhile (·.kind != .semicolon)

namespace Window

theorem Ahead.recover {w : Window} {tokens : List Token} {last : Token}
    (h : w.Ahead tokens last) :
    w.Reaches w.recover (w.recovery.leave tokens) last [] := by
  unfold Window.recover
  cases w.recovery with
  | skipToken => exact h.refl
  | synchronize => exact h.sweep.log _

theorem Reaches.recover {w w' : Window} {left : List Token} {last : Token}
    {mismatches : List Diagnostic} (h : w.Reaches w' left last mismatches) :
    w.Reaches w'.recover (w.recovery.leave left) last mismatches := by
  rw [← h.recovery_eq]
  simpa using h.trans h.ahead.recover

/-! ## The first window -/

/-- A new window stands for all tokens of its lexer. -/
theorem ahead_ofLexer {lexer : Lexer} {tokens : List Token} {last : Token}
    (h : lexer.stream = tokens ++ [last]) (recovery : Recovery) :
    (ofLexer recovery lexer).Ahead tokens last := by
  obtain ⟨kinds, eof⟩ := Lexer.kinds_of_stream_eq h
  obtain ⟨first, rest⟩ := Lexer.next_of_stream h kinds eof
  have kindsRest : ∀ t ∈ tokens.tail, t.kind ≠ .eof := by
    intro t ht
    exact kinds t (List.mem_of_mem_tail ht)
  obtain ⟨second, more⟩ := Lexer.next_of_stream rest kindsRest eof
  exact ⟨first, second, more, kinds, eof⟩

theorem reports_ofLexer (recovery : Recovery) (lexer : Lexer) :
    (ofLexer recovery lexer).lexer.reports = lexer.reports := by
  show lexer.next.2.next.2.reports = lexer.reports
  rw [Lexer.reports_next, Lexer.reports_next]

/-- When nothing is left, the lexer holds the diagnostics of all illegal characters. -/
theorem Ahead.diagnostics_lexer {w : Window} {last : Token} (h : w.Ahead [] last) :
    w.lexer.diagnostics.toList = w.lexer.reports := by
  have legal : last.isIllegal = false := by simp [Token.isIllegal, h.last_kind]
  simp [Lexer.reports, h.stream_eq, legal]

end Window

end Monkey
