import Monkey.Proofs.Lexer.Stepping

/-! # Registers in the text

The registers of a stepper hold an index, the index behind it, a character and a place, each moved
on for itself. Main statement: whatever is asked, all of them stand at one point of the text, and
no step is taken from behind its end. -/

namespace Monkey

open String (utf8Len)

/-! ## Where registers stand -/

/-- The registers stand before a character of a text or behind its end: the indices, the character
in hand, and the counts of the text before it belong together. -/
structure Registers.StandIn (source : String) (r : Registers) : Prop where
  nextIndex_eq : r.nextIndex = r.index + 1
  index_le : r.index ≤ source.length
  current_eq : r.current = source.toList[r.index]?
  offset_eq : r.place.offset = utf8Len (source.toList.take r.index)
  offset_isValid : String.Pos.Raw.IsValid source ⟨r.place.offset⟩
  line_eq : r.place.line = 1 + (source.toList.take r.index).count '\n'
  column_eq : r.place.column = 1 + (lastLine (source.toList.take r.index)).length

namespace Registers

theorem index_before {chars : List Char} {i : Nat} (h : i ≤ chars.length) :
    (before chars i).index = i := List.length_take_of_le h

theorem standIn_before {source : String} {i : Nat} (h : i ≤ source.toList.length) :
    (before source.toList i).StandIn source := by
  have index : (before source.toList i).index = i := index_before h
  have offset : (before source.toList i).place.offset = utf8Len (source.toList.take i) := by
    show (Position.first.afterText _).offset = _
    rw [Position.afterText_offset, Position.first, Nat.zero_add]
  refine ⟨rfl, ?_, ?_, ?_, ?_, ?_, ?_⟩
  · rwa [index, ← String.length_toList]
  · rw [index, ← List.head?_drop]
    rfl
  · rw [index, offset]
  · rw [offset]
    exact isValid_utf8Len (List.take_append_drop i _).symm
  · rw [index]
    exact Position.afterText_line _ _
  · rw [index]
    exact Position.afterText_first_column _

end Registers

namespace Lexer

variable {lexer : Lexer} {source : String} {file : FileId}

/-- The registers of a lexer that stands in its text are those before the character at its
index. -/
theorem StandsIn.registers_eq (h : lexer.StandsIn source.toList file) :
    lexer.cursor.index ≤ source.toList.length ∧
      lexer.cursor.registers = Registers.before source.toList lexer.cursor.index := by
  obtain ⟨passed, rest, split, cursor⟩ := h.split
  rw [cursor, split]
  exact ⟨by simp [Cursor.between], (Registers.before_length passed rest).symm⟩

end Lexer

namespace Stepper

section

variable {source : String} {lexer : Lexer} {file : FileId}

/-- Each step on the way was taken from a character in hand. -/
theorem standIn_of_mem_trail (h : lexer.StandsIn source.toList file) {r : Registers}
    (mem : r ∈ (lexer.stepper source).trail) : r.StandIn source ∧ r.current ≠ none := by
  obtain ⟨i, inRange, rfl⟩ := List.mem_map.mp mem
  have less : i < source.toList.length :=
    Nat.lt_of_lt_of_le (List.mem_range.mp inRange) h.registers_eq.1
  have stand := Registers.standIn_before (Nat.le_of_lt less)
  refine ⟨stand, ?_⟩
  rw [stand.current_eq, Registers.index_before (Nat.le_of_lt less), List.getElem?_eq_getElem less]
  exact Option.some_ne_none _

/-- The indices of the steps on the way, and where they have led. -/
theorem map_index_trail (h : lexer.StandsIn source.toList file) :
    let m := lexer.stepper source
    (m.trail ++ [m.registers]).map Registers.index = List.range (m.registers.index + 1) := by
  intro m
  have each : ∀ i ∈ List.range lexer.cursor.index,
      (Registers.index ∘ Registers.before source.toList) i = id i := by
    intro i inRange
    have less := Nat.lt_of_lt_of_le (List.mem_range.mp inRange) h.registers_eq.1
    exact Registers.index_before (Nat.le_of_lt less)
  show ((List.range lexer.cursor.index).map _ ++ [lexer.cursor.registers]).map _ =
    List.range (lexer.cursor.index + 1)
  rw [List.map_append, List.map_map, List.range_succ, List.map_congr_left each, List.map_id]
  rfl

end

/-- On a text of at most `2 ^ 32 - 2` characters, whatever is asked, the stepper replies as the
lexer does and comes to the cursor of the lexer. Its registers stand in the text, and so they did
before each step on the way, where a character was always in hand: no step was taken from behind
the end, and the index has grown by one with each. Further requests never take it back, and once
nothing is in hand they move nothing. -/
theorem registers_stand {source : String} (short : source.length ≤ 2 ^ 32 - 2) (file : FileId)
    (requests : List Lexer.Request) :
    let start := Lexer.ofText source file
    let lexer := start.after requests
    ∃ m : Stepper, Stepper.run source file requests = pure (start.replies requests, m) ∧
      m.registers = lexer.cursor.registers ∧ m.diagnostics = lexer.diagnostics ∧
      m.registers.StandIn source ∧
      (∀ r ∈ m.trail, r.StandIn source ∧ r.current ≠ none) ∧
      (m.trail ++ [m.registers]).map Registers.index = List.range (m.registers.index + 1) ∧
      ∀ more, ∃ later : Stepper, m.answerAll more = pure (lexer.replies more, later) ∧
        m.registers.index ≤ later.registers.index ∧ m.trail <+: later.trail ∧
        (m.registers.current = none → later.registers = m.registers ∧ later.trail = m.trail) := by
  intro start lexer
  have first : start.StandsIn source.toList file := Lexer.standsIn_ofText source file
  have stands : lexer.StandsIn source.toList file := first.after requests
  refine ⟨lexer.stepper source, ?_, rfl, rfl, ?_, fun r => standIn_of_mem_trail stands,
    map_index_trail stands, fun more => ?_⟩
  · rw [run, ofText_eq, pure_bind]
    exact answerAll_eq short first requests
  · obtain ⟨index, registers⟩ := stands.registers_eq
    show lexer.cursor.registers.StandIn source
    rw [registers]
    exact Registers.standIn_before index
  · have forward := lexer.index_le_after more
    refine ⟨(lexer.after more).stepper source, answerAll_eq short stands more, forward, ?_, ?_⟩
    · obtain ⟨steps, further⟩ := Nat.exists_eq_add_of_le forward
      show (List.range _).map _ <+: (List.range _).map _
      rw [further, List.range_add, List.map_append]
      exact List.prefix_append _ _
    · intro behind
      have finished : lexer.cursor.rest = [] := List.head?_eq_none_iff.mp behind
      have stays := Lexer.cursor_after_of_finished finished more
      refine ⟨congrArg Cursor.registers stays, ?_⟩
      show (List.range (lexer.after more).cursor.index).map _ = _
      rw [stays]
      rfl

/-- A mark of two characters at the end, and requests behind it. -/
theorem registers_stand_behind_mark :
    let source := "é\n!="
    let start := Lexer.ofText source 0
    source.length ≤ 2 ^ 32 - 2 ∧
      ∃ m later : Stepper,
        Stepper.run source 0 [.next, .next] = pure (start.replies [.next, .next], m) ∧
        m.registers = ⟨4, 5, none, ⟨2, 3, 5⟩⟩ ∧ m.registers.StandIn source ∧
        m.trail.length = 4 ∧ (∀ r ∈ m.trail, r.current ≠ none) ∧
        m.answerAll [.next, .tokenize] =
          pure ((start.after [.next, .next]).replies [.next, .tokenize], later) ∧
        later.registers = m.registers ∧ later.trail = m.trail := by
  intro source start
  have short : source.length ≤ 2 ^ 32 - 2 := by decide
  obtain ⟨m, answers, same, _, stand, trail, indices, onward⟩ :=
    registers_stand short 0 [.next, .next]
  obtain ⟨later, further, _, _, stays⟩ := onward [.next, .tokenize]
  have registers : m.registers = ⟨4, 5, none, ⟨2, 3, 5⟩⟩ := by
    rw [same]
    decide +kernel
  have steps : m.trail.length = 4 := by
    have lengths := congrArg List.length indices
    rw [registers] at lengths
    simpa using lengths
  have behind : m.registers.current = none := by rw [registers]
  exact ⟨short, m, later, answers, registers, stand, steps, fun r mem => (trail r mem).2, further,
    stays behind⟩

end Stepper

end Monkey
