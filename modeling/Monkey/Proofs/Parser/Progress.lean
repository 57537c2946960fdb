import Monkey.Proofs.Parser.Moves

/-! # Progress through the tokens

A window stands at a place of the endless stream of tokens, and it has read all tokens up
to the one behind the current one. Each move keeps that and leads from place to place, so
it holds whatever a parser is asked for and whatever its rules do. The diagnostics of the
lexer are accounted for on the way: those that moves have handed out and those that are
held are the ones of the tokens read. -/

namespace Monkey

/-! ## What moves come to -/

/-- How many tokens a move goes forward. -/
def Move.steps : Move → Nat
  | .next => 1
  | .miss _ | .clear | .takeDiagnostics | .takeLexerDiagnostics | .log _ => 0

def stepsOf : List Move → Nat
  | [] => 0
  | m :: moves => m.steps + stepsOf moves

theorem stepsOf_append (moves more : List Move) :
    stepsOf (moves ++ more) = stepsOf moves + stepsOf more := by
  induction moves with
  | nil => simp [stepsOf]
  | cons m moves ih => rw [List.cons_append, stepsOf, stepsOf, ih, Nat.add_assoc]

namespace Window

/-- The diagnostics of the lexer that a move hands out: what taking them gives at its window,
be it to a script or to a reply. -/
def gives (w : Window) : Move → List Diagnostic
  | .takeLexerDiagnostics => w.takeLexerDiagnostics.1.toList
  | .next | .miss _ | .clear | .takeDiagnostics | .log _ => []

/-- The diagnostics of the lexer that moves hand out, one after the other. -/
def handedOut (w : Window) (moves : List Move) : List Diagnostic := w.collect gives moves

theorem handedOut_append (w : Window) (moves more : List Move) :
    w.handedOut (moves ++ more) = w.handedOut moves ++ (w.replay moves).handedOut more :=
  collect_append gives w moves more

theorem handedOut_replicate_next (w : Window) (n : Nat) :
    w.handedOut (List.replicate n .next) = [] := by
  induction n generalizing w with
  | zero => rfl
  | succ n ih => exact ih w.next

/-! ## The place of a window -/

/-- The window shows the token at a place and the one behind it, and the diagnostics handed
out before and those that its lexer holds are the ones of the tokens up to there. -/
structure StandsAt (w : Window) (tokens : List Token) (last : Token) (i : Nat)
    (handed : List Diagnostic) : Prop where
  ahead : w.Ahead (tokens.drop i) last
  ledger : handed ++ w.lexer.diagnostics.toList = illegalAmong (endless (tokens ++ [last])) (i + 2)

namespace StandsAt

variable {w : Window} {tokens : List Token} {last : Token} {i : Nat} {handed : List Diagnostic}

theorem current_eq (h : w.StandsAt tokens last i handed) :
    w.current = endless (tokens ++ [last]) i := by
  rw [endless_append]
  exact h.ahead.current_eq

theorem peek_eq (h : w.StandsAt tokens last i handed) :
    w.peek = endless (tokens ++ [last]) (i + 1) := by
  rw [endless_append, ← List.tail_drop]
  exact h.ahead.peek_eq

/-- What a window shows and what its lexer holds settle where it stands. -/
theorem of_frame (h : w.StandsAt tokens last i handed) {w' : Window}
    (current : w'.current = w.current) (peek : w'.peek = w.peek) (lexer : w'.lexer = w.lexer) :
    w'.StandsAt tokens last i handed := by
  refine ⟨⟨?_, ?_, ?_, h.ahead.kinds, h.ahead.last_kind⟩, ?_⟩
  · rw [current, h.ahead.current_eq]
  · rw [peek, h.ahead.peek_eq]
  · rw [lexer, h.ahead.stream_eq]
  · rw [lexer, h.ledger]

theorem next (h : w.StandsAt tokens last i handed) :
    w.next.StandsAt tokens last (i + 1) handed := by
  have ahead := h.ahead.next.ahead
  rw [List.tail_drop] at ahead
  refine ⟨ahead, ?_⟩
  have read : w.lexer.next.1 = endless (tokens ++ [last]) (i + 2) := by
    rw [endless_append, ← List.tail_drop]
    exact ahead.peek_eq
  have more := illegalAmong_succ (endless (tokens ++ [last])) (i + 2)
  rw [← h.ledger, List.append_assoc, ← read, ← Lexer.diagnostics_next] at more
  exact more.symm

theorem takeLexerDiagnostics (h : w.StandsAt tokens last i handed) :
    w.takeLexerDiagnostics.2.StandsAt tokens last i
      (handed ++ w.takeLexerDiagnostics.1.toList) := by
  refine ⟨⟨h.ahead.current_eq, h.ahead.peek_eq, ?_, h.ahead.kinds, h.ahead.last_kind⟩, ?_⟩
  · rw [← h.ahead.stream_eq]
    exact Lexer.stream_congr rfl rfl
  · rw [← h.ledger]
    exact List.append_nil _

/-- A move leads to the place that its steps say and enters what it hands out. -/
theorem move (h : w.StandsAt tokens last i handed) (m : Move) :
    (w.move m).StandsAt tokens last (i + m.steps) (handed ++ w.gives m) := by
  cases m with
  | next =>
    rw [gives, List.append_nil]
    exact h.next
  | takeLexerDiagnostics => exact h.takeLexerDiagnostics
  | miss | clear | takeDiagnostics | log =>
    rw [gives, List.append_nil]
    exact h.of_frame rfl rfl rfl

theorem replay (h : w.StandsAt tokens last i handed) (moves : List Move) :
    (w.replay moves).StandsAt tokens last (i + stepsOf moves)
      (handed ++ w.handedOut moves) := by
  induction moves generalizing w i handed with
  | nil => simpa [handedOut, collect, stepsOf] using h
  | cons m moves ih =>
    have more := ih (h.move m)
    rwa [List.append_assoc, Nat.add_assoc] at more

/-- What a lexer holds is handed out by moves or still held behind them. -/
theorem held_prefix (h : w.StandsAt tokens last i handed) (moves : List Move) :
    w.lexer.diagnostics.toList <+:
      w.handedOut moves ++ (w.replay moves).lexer.diagnostics.toList := by
  have later : i + 2 ≤ i + stepsOf moves + 2 := by omega
  have kept := illegalAmong_prefix (endless (tokens ++ [last])) later
  rwa [← h.ledger, ← (h.replay moves).ledger, List.append_assoc,
    List.prefix_append_right_inj] at kept

end StandsAt

/-- Each mismatch that a window holds is about two neighbours of a stream of tokens. -/
def MismatchesOf (w : Window) (stream : Nat → Token) : Prop :=
  ∀ d ∈ w.diagnostics.toList, ∃ kind i, d = .mismatch kind (stream i) (stream (i + 1))

namespace StandsAt

variable {w : Window} {tokens : List Token} {last : Token} {i : Nat} {handed : List Diagnostic}

theorem mismatchesOf_move (h : w.StandsAt tokens last i handed)
    (held : w.MismatchesOf (endless (tokens ++ [last]))) (m : Move) :
    (w.move m).MismatchesOf (endless (tokens ++ [last])) := by
  cases m with
  | miss kind =>
    intro d mem
    rcases List.mem_append.mp (Array.toList_push ▸ mem) with before | new
    · exact held d before
    · obtain rfl := List.mem_singleton.mp new
      refine ⟨kind, i, ?_⟩
      rw [← h.current_eq, ← h.peek_eq]
      rfl
  | clear | takeDiagnostics => exact fun _ mem => absurd mem List.not_mem_nil
  | next | takeLexerDiagnostics | log => exact held

theorem mismatchesOf_replay (h : w.StandsAt tokens last i handed)
    (held : w.MismatchesOf (endless (tokens ++ [last]))) (moves : List Move) :
    (w.replay moves).MismatchesOf (endless (tokens ++ [last])) := by
  induction moves generalizing w i handed with
  | nil => exact held
  | cons m moves ih => exact ih (h.move m) (h.mismatchesOf_move held m)

end StandsAt

/-- A new window stands at the first token that its lexer has not read. -/
theorem standsAt_ofLexer {lexer : Lexer} {tokens : List Token} {last : Token} {n : Nat}
    {handed : List Diagnostic} (h : lexer.HasRead tokens last n handed) (recovery : Recovery) :
    (ofLexer recovery lexer).StandsAt tokens last n handed :=
  ⟨ahead_ofLexer h.stream_eq recovery, h.next.next.ledger⟩

end Window

/-! ## Any run of a parser -/

namespace Parser

/-- The diagnostics of the lexer that a reply hands out for good. -/
def Reply.taken : Reply → Request → List Diagnostic
  | diagnostics ds, .takeLexerDiagnostics => ds.toList
  | _, _ => []

/-- The diagnostics of the lexer that the rule of a parser takes before a reply. -/
def takenByRule (p : Parser) : Request → List Diagnostic
  | .parseProgram => p.window.handedOut (p.window.programMoves p.rule)
  | _ => []

/-- The diagnostics of the lexer that are handed out while some requests are answered, to the
rule and then by the reply. -/
def handedOut (p : Parser) : List Request → List Diagnostic
  | [] => []
  | request :: requests =>
    p.takenByRule request ++ (p.answer request).1.taken request ++
      (p.answer request).2.handedOut requests

/-- A request hands out what its moves do. -/
theorem takenByRule_append_taken (p : Parser) (request : Request) :
    p.takenByRule request ++ (p.answer request).1.taken request =
      p.window.handedOut (p.moves request) := by
  cases request with
  | expect kind =>
    show [] = p.window.handedOut [p.window.expectMove kind]
    unfold Window.expectMove
    split <;> rfl
  | skipValue => exact (p.window.handedOut_replicate_next _).symm
  | parseProgram => exact List.append_nil _
  | takeLexerDiagnostics => exact (List.append_nil _).symm
  | _ => rfl

theorem handedOut_movesOver (p : Parser) (requests : List Request) :
    p.window.handedOut (p.movesOver requests) = p.handedOut requests := by
  induction requests generalizing p with
  | nil => rfl
  | cons request requests ih =>
    rw [movesOver, Window.handedOut_append, replay_moves, ih, handedOut, takenByRule_append_taken]

/-- A request can move the window of a parser forward by a number of tokens. -/
def Grows (p : Parser) : Request → Nat → Prop
  | .next, n => n = 1
  | .expect kind, n => n = if p.window.peek.kind = kind then 1 else 0
  | .skipValue, _ | .parseProgram, _ => True
  | .currentIs _, n | .peekIs _, n | .errors, n | .diagnostics, n | .takeDiagnostics, n
  | .lexerDiagnostics, n | .takeLexerDiagnostics, n | .recovery, n | .setRule _, n => n = 0

theorem grows_steps (p : Parser) (request : Request) :
    p.Grows request (stepsOf (p.moves request)) := by
  cases request with
  | expect kind =>
    by_cases h : p.window.peek.kind = kind <;>
      simp [Grows, moves, Window.expectMove, stepsOf, Move.steps, h]
  | skipValue | parseProgram => trivial
  | _ => rfl

/-- Whatever is asked of a parser, its window shows two neighbours of the endless stream of
tokens, and no diagnostic of the lexer is lost or told twice: those handed out, to a rule or by
a reply, and those held are the ones of the tokens read. -/
theorem stands_in_stream (source : String) (file : FileId) (recovery : Recovery) (rule : Rule)
    (pulled : Nat) :
    let stream := endless (tokenize source file).1.toList
    let start : Parser :=
      { ofLexer recovery ((Lexer.ofText source file).pulled pulled) with rule }
    ∃ place : List Request → Nat, place [] = pulled ∧ ∀ requests,
      let p := start.after requests
      pulled ≤ place requests ∧
      p.window.current = stream (place requests) ∧
      p.window.peek = stream (place requests + 1) ∧
      start.window.replay (start.movesOver requests) = p.window ∧
      start.handedOut requests ++ p.window.lexer.diagnostics.toList =
        illegalAmong stream (place requests + 2) ∧
      (p.answer .lexerDiagnostics).1 = .diagnostics p.window.lexer.diagnostics ∧
      (p.answer .takeLexerDiagnostics).1 = .diagnostics p.window.lexer.diagnostics ∧
      (p.answer .takeLexerDiagnostics).2.window.lexer.diagnostics = #[] ∧
      ∀ request,
        (∃ n, p.Grows request n ∧ place (requests ++ [request]) = place requests + n) ∧
        p.window.lexer.diagnostics.toList <+:
          p.handedOut [request] ++ (p.answer request).2.window.lexer.diagnostics.toList := by
  intro stream start
  obtain ⟨tokens, last, all, _, _⟩ := (Lexer.ofText source file).exists_stream_eq
  have first : start.window.StandsAt tokens last pulled [] :=
    Window.standsAt_ofLexer ((Lexer.hasRead_ofText all).pulled pulled) recovery
  have whole : stream = endless (tokens ++ [last]) := congrArg endless all
  refine ⟨fun requests => pulled + stepsOf (start.movesOver requests), rfl, ?_⟩
  intro requests p
  have stands := first.replay (start.movesOver requests)
  rw [replay_movesOver, handedOut_movesOver, List.nil_append] at stands
  rw [whole]
  refine ⟨Nat.le_add_right _ _, stands.current_eq, stands.peek_eq, start.replay_movesOver requests,
    stands.ledger, rfl, rfl, rfl, ?_⟩
  intro request
  refine ⟨⟨stepsOf (p.moves request), p.grows_steps request, ?_⟩, ?_⟩
  · simp [movesOver_append, movesOver, stepsOf_append, p, Nat.add_assoc]
  · have kept := stands.held_prefix (p.movesOver [request])
    rwa [replay_movesOver, handedOut_movesOver] at kept

end Parser

end Monkey
