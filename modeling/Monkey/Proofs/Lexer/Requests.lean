import Monkey.Proofs.Lexer.Standing

/-! # Requests to a lexer

A lexer can be asked for one token, for all that are left, or for its diagnostics, in any
order. Main statement: whatever is asked, the tokens given are those of the text in order and
then the end for ever, and each illegal one of them is told of once. -/

namespace Monkey

/-! ## Pulling tokens -/

namespace Lexer

theorem pulled_succ (lexer : Lexer) (k : Nat) : lexer.pulled (k + 1) = lexer.next.2.pulled k := by
  induction k with
  | zero => rfl
  | succ k ih => rw [pulled, ih, pulled]

/-- Reading to the end is pulling the tokens of the stream. -/
theorem tokenize_eq_pulled (lexer : Lexer) : lexer.tokenize.2 = lexer.pulled lexer.stream.length := by
  induction lexer using next_induction with
  | finish lexer eof =>
    rw [tokenize_of_eof eof, stream_of_eof eof]
    rfl
  | token lexer more ih =>
    rw [tokenize_of_ne_eof more, stream_of_ne_eof more, List.length_cons, pulled_succ]
    exact ih

/-- Each token but the last is read from at least one character. -/
theorem length_stream_le (lexer : Lexer) : lexer.stream.length ≤ lexer.cursor.rest.length + 1 := by
  induction lexer using next_induction with
  | finish lexer eof => simp [stream_of_eof eof]
  | token lexer more ih =>
    have shorter := lexer.length_rest_next
    rw [Token.weight_of_ne more] at shorter
    rw [stream_of_ne_eof more, List.length_cons]
    omega

/-! ## At the end of the text -/

/-- With nothing left to read, asking for a token changes nothing. -/
theorem next_of_finished {lexer : Lexer} (finished : lexer.cursor.rest = []) :
    lexer.next.1.kind = .eof ∧ lexer.next.2 = lexer := by
  have stays : lexer.afterBlanks = lexer.cursor := by
    rw [afterBlanks, finished]
    rfl
  rw [next_of_end (by rw [stays, finished]), stays]
  exact ⟨rfl, rfl⟩

theorem rest_tokenize (lexer : Lexer) : lexer.tokenize.2.cursor.rest = [] := by
  induction lexer using next_induction with
  | finish lexer eof =>
    rw [tokenize_of_eof eof]
    exact rest_next_of_eof eof
  | token lexer more ih =>
    rw [tokenize_of_ne_eof more]
    exact ih

/-! ## Runs of requests -/

/-- The tokens that a reply gives. -/
def Reply.given : Reply → List Token
  | token t => [t]
  | tokens all => all.toList
  | diagnostics _ => []

/-- The diagnostics that a reply hands out for good. -/
def Reply.taken : Reply → Request → List Diagnostic
  | diagnostics ds, .takeDiagnostics => ds.toList
  | _, _ => []

/-- A lexer behind some requests. -/
def after (lexer : Lexer) (requests : List Request) : Lexer :=
  requests.foldl (fun lexer request => (lexer.answer request).2) lexer

/-- The tokens given in answer to some requests, one after the other. -/
def given (lexer : Lexer) : List Request → List Token
  | [] => []
  | request :: requests =>
    (lexer.answer request).1.given ++ (lexer.answer request).2.given requests

/-- The diagnostics taken by some requests, one after the other. -/
def taken (lexer : Lexer) : List Request → List Diagnostic
  | [] => []
  | request :: requests =>
    (lexer.answer request).1.taken request ++ (lexer.answer request).2.taken requests

/-- The replies to some requests, one after the other. -/
def replies (lexer : Lexer) : List Request → List Reply
  | [] => []
  | request :: requests => (lexer.answer request).1 :: (lexer.answer request).2.replies requests

/-! ## The place of a lexer in its text -/

section

variable {lexer : Lexer} {text : List Char} {file : FileId}

theorem StandsIn.answer (h : lexer.StandsIn text file) (request : Request) :
    (lexer.answer request).2.StandsIn text file := by
  cases request with
  | next => exact h.next
  | tokenize =>
    show lexer.tokenize.2.StandsIn text file
    rw [tokenize_eq_pulled]
    exact h.pulled _
  | diagnostics => exact h
  | takeDiagnostics => exact h.of_cursor rfl rfl

theorem StandsIn.after (h : lexer.StandsIn text file) (requests : List Request) :
    (lexer.after requests).StandsIn text file := by
  induction requests generalizing lexer with
  | nil => exact h
  | cons request requests ih => exact ih (h.answer request)

/-! A lexer never goes back. -/

theorem index_le_next (lexer : Lexer) : lexer.cursor.index ≤ lexer.next.2.cursor.index := by
  have blanks : lexer.cursor.index ≤ lexer.afterBlanks.index := by
    rw [afterBlanks, Cursor.index_advanceOver]
    exact Nat.le_add_right _ _
  cases h : lexer.afterBlanks.rest with
  | nil =>
    rw [next_of_end h]
    exact blanks
  | cons c rest =>
    rw [next_of_cons h]
    dsimp only
    rw [Cursor.index_advanceOver]
    omega

theorem index_le_answer (lexer : Lexer) (request : Request) :
    lexer.cursor.index ≤ (lexer.answer request).2.cursor.index := by
  cases request with
  | next => exact lexer.index_le_next
  | tokenize =>
    show _ ≤ lexer.tokenize.2.cursor.index
    induction lexer using next_induction with
    | finish lexer eof =>
      rw [tokenize_of_eof eof]
      exact lexer.index_le_next
    | token lexer more ih =>
      rw [tokenize_of_ne_eof more]
      exact Nat.le_trans lexer.index_le_next ih
  | diagnostics | takeDiagnostics => exact Nat.le_refl _

theorem index_le_after (lexer : Lexer) (requests : List Request) :
    lexer.cursor.index ≤ (lexer.after requests).cursor.index := by
  induction requests generalizing lexer with
  | nil => exact Nat.le_refl _
  | cons request requests ih => exact Nat.le_trans (lexer.index_le_answer request) (ih _)

end

/-! ## The place of a lexer in the stream -/

/-- A stretch of a stream. -/
def stretch (stream : Nat → Token) (n length : Nat) : List Token :=
  (List.range' n length).map stream

theorem stretch_append (stream : Nat → Token) (n length more : Nat) :
    stretch stream n length ++ stretch stream (n + length) more =
      stretch stream n (length + more) := by
  simp [stretch, ← List.map_append]

theorem illegalAmong_eq (stream : Nat → Token) (n : Nat) :
    illegalAmong stream n =
      ((stretch stream 0 n).filter Token.isIllegal).map Token.illegalCharacter := by
  rw [illegalAmong, stretch, List.range_eq_range']

/-- What is left of the tokens, as a stretch of their endless stream. -/
theorem drop_append_eq_stretch (tokens : List Token) (last : Token) (n : Nat) :
    tokens.drop n ++ [last] =
      stretch (endless (tokens ++ [last])) n (tokens.drop n ++ [last]).length := by
  generalize rest : tokens.drop n = left
  induction left generalizing n with
  | nil => simp [stretch, endless_append, rest]
  | cons t left ih =>
    have behind : tokens.drop (n + 1) = left := by rw [← List.tail_drop, rest, List.tail_cons]
    have first : endless (tokens ++ [last]) n = t := by rw [endless_append, rest, List.headD_cons]
    rw [List.cons_append, List.length_cons, Nat.add_comm, ← stretch_append, ← ih (n + 1) behind]
    simp [stretch, first]

section

variable {lexer : Lexer} {tokens : List Token} {last : Token} {n : Nat} {handed : List Diagnostic}

/-- The reply to a request goes on with the stream where the lexer stands, and enters what it
hands out. -/
theorem HasRead.answer (h : lexer.HasRead tokens last n handed) (request : Request) :
    let reply := (lexer.answer request).1
    reply.given = stretch (endless (tokens ++ [last])) n reply.given.length ∧
      (lexer.answer request).2.HasRead tokens last (n + reply.given.length)
        (handed ++ reply.taken request) := by
  cases request with
  | next =>
    refine ⟨?_, ?_⟩
    · simp [Lexer.answer, Reply.given, stretch, h.next_eq]
    · simpa [Lexer.answer, Reply.given, Reply.taken] using h.next
  | tokenize =>
    have all : lexer.tokenize.1.toList = tokens.drop n ++ [last] := h.stream_eq
    refine ⟨?_, ?_⟩
    · simp only [Lexer.answer, Reply.given, all]
      exact drop_append_eq_stretch tokens last n
    · have read := h.pulled_add lexer.stream.length
      rw [← tokenize_eq_pulled] at read
      simpa [Lexer.answer, Reply.given, Reply.taken, stream] using read
  | diagnostics =>
    refine ⟨rfl, ?_⟩
    simpa [Lexer.answer, Reply.given, Reply.taken] using h
  | takeDiagnostics =>
    refine ⟨rfl, ⟨?_, ?_⟩⟩
    · have same : lexer.takeDiagnostics.2.stream = lexer.stream := stream_congr rfl rfl
      exact same.trans h.stream_eq
    · simpa [Lexer.answer, Reply.given, Reply.taken, takeDiagnostics] using h.ledger

theorem HasRead.after (h : lexer.HasRead tokens last n handed) (requests : List Request) :
    lexer.given requests =
        stretch (endless (tokens ++ [last])) n (lexer.given requests).length ∧
      (lexer.after requests).HasRead tokens last (n + (lexer.given requests).length)
        (handed ++ lexer.taken requests) := by
  induction requests generalizing lexer n handed with
  | nil => exact ⟨rfl, by simpa [Lexer.after, given, taken] using h⟩
  | cons request requests ih =>
    obtain ⟨given, read⟩ := h.answer request
    obtain ⟨givenMore, readMore⟩ := ih read
    rw [Lexer.given, Lexer.taken, List.length_append, ← stretch_append, ← given, ← givenMore,
      ← List.append_assoc, ← Nat.add_assoc]
    exact ⟨rfl, readMore⟩

end

/-! ## Behind the end -/

/-- With nothing left to read, no request moves the lexer, and what it held is handed out or
still held. -/
theorem answer_of_finished {lexer : Lexer} (finished : lexer.cursor.rest = [])
    (request : Request) :
    (lexer.answer request).2.cursor = lexer.cursor ∧
      (lexer.answer request).1.taken request ++ (lexer.answer request).2.diagnostics.toList =
        lexer.diagnostics.toList := by
  obtain ⟨eof, stays⟩ := next_of_finished finished
  cases request with
  | next => simp [answer, Reply.taken, stays]
  | tokenize => simp [answer, Reply.taken, tokenize_of_eof eof, stays]
  | diagnostics => exact ⟨rfl, rfl⟩
  | takeDiagnostics => exact ⟨rfl, List.append_nil _⟩

/-- A reply that gives the end leaves nothing to read. -/
theorem rest_answer_of_eof {lexer : Lexer} {request : Request} {t : Token}
    (mem : t ∈ (lexer.answer request).1.given) (eof : t.kind = .eof) :
    (lexer.answer request).2.cursor.rest = [] := by
  cases request with
  | next =>
    obtain rfl := List.mem_singleton.mp mem
    exact rest_next_of_eof eof
  | tokenize => exact lexer.rest_tokenize
  | diagnostics | takeDiagnostics => cases mem

theorem cursor_after_of_finished {lexer : Lexer} (finished : lexer.cursor.rest = [])
    (requests : List Request) : (lexer.after requests).cursor = lexer.cursor := by
  induction requests generalizing lexer with
  | nil => rfl
  | cons request requests ih =>
    have stays := (answer_of_finished finished request).1
    exact (ih (by rw [stays, finished])).trans stays

theorem rest_after_of_finished {lexer : Lexer} (finished : lexer.cursor.rest = [])
    (requests : List Request) : (lexer.after requests).cursor.rest = [] := by
  rw [cursor_after_of_finished finished, finished]

/-- Once the end has been given, nothing is left to read. -/
theorem rest_after_of_eof {lexer : Lexer} {requests : List Request} {t : Token}
    (mem : t ∈ lexer.given requests) (eof : t.kind = .eof) :
    (lexer.after requests).cursor.rest = [] := by
  induction requests generalizing lexer with
  | nil => cases mem
  | cons request requests ih =>
    rcases List.mem_append.mp mem with now | later
    · exact rest_after_of_finished (rest_answer_of_eof now eof) requests
    · exact ih later

/-- The tokens that a lexer with some of them read gives to the end. -/
theorem HasRead.tokenize_eq {lexer : Lexer} {tokens : List Token} {last : Token} {n : Nat}
    {handed : List Diagnostic} (h : lexer.HasRead tokens last n handed) :
    lexer.tokenize.1.toList =
      if n < (tokens ++ [last]).length then (tokens ++ [last]).drop n else [last] := by
  have all : lexer.tokenize.1.toList = tokens.drop n ++ [last] := h.stream_eq
  rw [all]
  split <;> rename_i less <;> rw [List.length_append, List.length_singleton] at less
  · rw [List.drop_append_of_le_length (Nat.le_of_lt_succ less)]
  · rw [List.drop_eq_nil_of_le (by omega), List.nil_append]

end Lexer

/-- Whatever is asked of a lexer, the tokens that it gives are those of the text, one after the
other, and behind them the end for ever; asked for all that are left, it goes on to the next
end. There are at most as many tokens before the end as characters. The diagnostics taken and
those held are those of the illegal tokens given, and once the end is given no request moves
the lexer or makes it record anything. -/
theorem requests_share_stream (source : String) (file : FileId) :
    let tokens := (tokenize source file).1.toList
    let start := Lexer.ofText source file
    ∃ init last, tokens = init ++ [last] ∧ (∀ t ∈ init, t.kind ≠ .eof) ∧ last.kind = .eof ∧
      init.length ≤ source.length ∧
      ∀ requests,
        let lexer := start.after requests
        let given := start.given requests
        given = Lexer.stretch (endless tokens) 0 given.length ∧
        (lexer.answer .tokenize).1.given =
          (if given.length < tokens.length then tokens.drop given.length else [last]) ∧
        start.taken requests ++ lexer.diagnostics.toList =
          (given.filter Token.isIllegal).map Token.illegalCharacter ∧
        (∀ t ∈ given, t.isIllegal = true → ∃ c : Char, t.literal = c.toString ∧
          t.illegalCharacter = {
            code := some .illegalCharacter
            message := s!"illegal character '{c}'"
            labels := [⟨t.span, "not part of the Monkey language", true⟩]
            notes := []
            help := [] }) ∧
        ((∃ t ∈ given, t.kind = .eof) → ∀ request,
          (lexer.answer request).2.cursor = lexer.cursor ∧
          (lexer.answer request).1.taken request ++ (lexer.answer request).2.diagnostics.toList =
            lexer.diagnostics.toList) := by
  intro tokens start
  obtain ⟨init, last, all, kinds, eof⟩ := start.exists_stream_eq
  have whole : tokens = init ++ [last] := all
  refine ⟨init, last, whole, kinds, eof, ?_, fun requests => ?_⟩
  · have bound := start.length_stream_le
    have chars : start.cursor.rest.length = source.length := String.length_toList
    rw [all, List.length_append, List.length_singleton, chars] at bound
    exact Nat.le_of_succ_le_succ bound
  · intro lexer given
    obtain ⟨stretch, read⟩ := (Lexer.hasRead_ofText all).after requests
    rw [Nat.zero_add] at read
    have ledger := read.ledger
    rw [Lexer.illegalAmong_eq, ← stretch] at ledger
    refine ⟨whole ▸ stretch, whole ▸ read.tokenize_eq, ledger, ?_, ?_⟩
    · intro t mem
      suffices inText : t ∈ tokens from illegalCharacter_eq (Array.mem_toList_iff.mp inText)
      have among : t ∈ Lexer.stretch (endless (init ++ [last])) 0 given.length := stretch ▸ mem
      obtain ⟨i, _, rfl⟩ := List.mem_map.mp among
      rw [whole]
      exact endless_append_mem init last i
    · rintro ⟨t, mem, isEof⟩ request
      exact Lexer.answer_of_finished (Lexer.rest_after_of_eof mem isEof) request

/-- A listing of the rest in the middle of a run, and requests behind the end. -/
theorem requests_share_stream_behind_end :
    let source := "a § 1"
    let requests : List Lexer.Request := [.next, .next, .takeDiagnostics, .tokenize, .next]
    let start := Lexer.ofText source 0
    let given := start.given requests
    let illegal : Token := ⟨.illegal, "§", ⟨⟨1, 3, 2⟩, ⟨1, 4, 4⟩, 0⟩⟩
    let last : Token := ⟨.eof, "", ⟨⟨1, 6, 6⟩, ⟨1, 6, 6⟩, 0⟩⟩
    given.map Token.literal = ["a", "§", "1", "", ""] ∧ illegal ∈ given ∧ last ∈ given ∧
      start.taken requests = [illegal.illegalCharacter] ∧
      (∃ c : Char, illegal.literal = c.toString) ∧
      ((start.after requests).answer .tokenize).2.cursor = (start.after requests).cursor := by
  intro source requests start given illegal last
  obtain ⟨_, _, _, _, _, _, run⟩ := requests_share_stream source 0
  obtain ⟨_, _, _, characters, finished⟩ := run requests
  have mem : illegal ∈ given := by decide +kernel
  have ended : last ∈ given := by decide +kernel
  obtain ⟨c, literal, _⟩ := characters illegal mem rfl
  exact ⟨by decide +kernel, mem, ended, by decide +kernel, ⟨c, literal⟩,
    (finished ⟨last, ended, rfl⟩ .tokenize).1⟩

end Monkey
