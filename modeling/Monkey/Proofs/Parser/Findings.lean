import Mathlib.Data.List.Forall2
import Monkey.Proofs.Parser.Segments

/-! # Findings

A parser finds statements and mismatches in turn. For a reader that never fails and stays
in front of the first semicolon, what is found is cut by the segments of the tokens, and
recovery at a semicolon finds the same in a segment up to the first mismatch. -/

namespace Monkey

namespace Finding

/-- The findings up to the first mismatch. -/
def untilMismatch : List Finding → List Finding
  | [] => []
  | .statement s :: found => .statement s :: untilMismatch found
  | .mismatch d :: _ => [.mismatch d]

/-- Behind the first mismatch no further one is kept. -/
theorem filterMap_mismatch?_untilMismatch (found : List Finding) :
    (untilMismatch found).filterMap mismatch? = (found.filterMap mismatch?).head?.toList := by
  induction found with
  | nil => rfl
  | cons f found ih =>
    cases f with
    | statement s => exact ih
    | mismatch d => rfl

/-- The findings stand along a list of tokens: a statement at its keyword, and what comes
next behind it; a mismatch at the token that was found, where the next finding may begin. -/
inductive Along : List Token → List Finding → Prop
  | finish {tokens : List Token} : Along tokens []
  | pass {t : Token} {tokens : List Token} {found : List Finding} (more : Along tokens found) :
      Along (t :: tokens) found
  | statement {s : Statement} {tokens : List Token} {found : List Finding}
      (more : Along tokens found) : Along (s.keyword :: tokens) (.statement s :: found)
  | mismatch {kind : Kind} {after t : Token} {tokens : List Token} {found : List Finding}
      (more : Along (t :: tokens) found) :
      Along (t :: tokens) (.mismatch (.mismatch kind after t) :: found)

theorem Along.pass_all {gap tokens : List Token} {found : List Finding}
    (more : Along tokens found) : Along (gap ++ tokens) found := by
  induction gap with
  | nil => exact more
  | cons t gap ih => exact .pass ih

end Finding

/-! ## Readers that stay in front of a semicolon -/

namespace Reader

/-- A reader that never fails, finds nothing wrong and stays in front of the first
semicolon, or stops on it. -/
structure Tame (reader : Reader) : Prop where
  outcome : ∀ tokens last, ∃ value, (reader.read tokens last).outcome = .value value
  mismatches : ∀ tokens last, (reader.read tokens last).mismatches = []
  gap : ∀ tokens last, ∃ gap, tokens = gap ++ (reader.read tokens last).left ∧
    ∀ t ∈ gap, t.kind ≠ .semicolon

theorem tame_skip : Tame skip := by
  refine ⟨fun _ _ => ⟨none, rfl⟩, fun _ _ => rfl, ?_⟩
  intro tokens last
  refine ⟨tokens.takeWhile (·.kind != .semicolon), List.takeWhile_append_dropWhile.symm, ?_⟩
  intro t ht
  simpa using List.mem_takeWhile_imp ht

theorem tame_nothing : Tame nothing :=
  ⟨fun _ _ => ⟨none, rfl⟩, fun _ _ => rfl, fun _ _ => ⟨[], rfl, nofun⟩⟩

theorem tame_any : Tame any :=
  ⟨fun _ _ => ⟨_, rfl⟩, fun _ _ => rfl, fun _ _ => ⟨[], rfl, nofun⟩⟩

theorem tame_last : Tame last :=
  ⟨fun _ _ => ⟨_, rfl⟩, fun _ _ => rfl, tame_skip.gap⟩

theorem tame_name : Tame name := by
  have cases : ∀ tokens last, name.read tokens last = any.read tokens last ∨
      name.read tokens last = skip.read tokens last := by
    intro tokens last
    by_cases named : (tokens.headD last).kind = .ident
    · exact .inl (read_name_of_eq named)
    · exact .inr (read_name_of_ne named)
  refine ⟨?_, ?_, ?_⟩ <;> intro tokens last <;> rcases cases tokens last with same | same <;>
    rw [same]
  · exact tame_any.outcome tokens last
  · exact tame_skip.outcome tokens last
  · exact tame_any.mismatches tokens last
  · exact tame_skip.mismatches tokens last
  · exact tame_any.gap tokens last
  · exact tame_skip.gap tokens last

/-! ## Both modes along a segment -/

theorem findings_of_mismatch (reader : Reader) {recovery : Recovery} {last t : Token}
    {rest : List Token} {d : Diagnostic} {left : List Token}
    (turn : reader.turn recovery last t rest = ⟨none, [d], left⟩) :
    reader.findings recovery last (t :: rest) =
      .mismatch d :: reader.findings recovery last left := by
  rw [findings, turn]
  rfl

variable {reader : Reader} {last t : Token} {rest : List Token}

theorem Tame.findings_of_complete (tame : reader.Tame) {recovery : Recovery} {tokens : List Token}
    {build : Option Expression → Statement} {value : Option Expression}
    (turn : reader.turn recovery last t rest = reader.complete recovery build tokens last)
    (read : (reader.read tokens last).outcome = .value value) :
    reader.findings recovery last (t :: rest) =
      .statement (build value) ::
        reader.findings recovery last (reader.read tokens last).left.tail := by
  rw [findings, turn, reader.complete_of_value recovery read build, tame.mismatches]
  dsimp only
  rw [findings_drop_semicolon]
  rfl

/-- The findings in front of some tokens in both modes: synchronizing leaves out all that
stands behind the first mismatch. -/
structure Finds (reader : Reader) (last : Token) (tokens behind : List Token)
    (found : List Finding) : Prop where
  skipping : reader.findings .skipToken last tokens =
    found ++ reader.findings .skipToken last behind
  synchronizing : reader.findings .synchronize last tokens =
    Finding.untilMismatch found ++ reader.findings .synchronize last behind

/-- What is found in front of the tokens behind stands along a segment. -/
def FindsAlong (reader : Reader) (last : Token) (tokens segment behind : List Token) : Prop :=
  ∃ found, Finding.Along segment found ∧ reader.Finds last tokens behind found

/-- What is found in the first segment stands along it. -/
def FindsFirst (reader : Reader) (last : Token) (tokens : List Token) : Prop :=
  reader.FindsAlong last tokens (firstSegment tokens last) (behindSemicolon tokens)

theorem Finds.refl (reader : Reader) (last : Token) (tokens : List Token) :
    reader.Finds last tokens tokens [] := ⟨rfl, rfl⟩

theorem Finds.statement {left behind : List Token} {found : List Finding} {s : Statement}
    (finds : reader.Finds last left behind found)
    (turn : ∀ recovery, reader.findings recovery last (t :: rest) =
      .statement s :: reader.findings recovery last left) :
    reader.Finds last (t :: rest) behind (.statement s :: found) :=
  ⟨by rw [turn, finds.skipping]; rfl, by rw [turn, finds.synchronizing]; rfl⟩

/-- Behind a mismatch one mode goes on in the segment, the other behind it. -/
theorem Finds.mismatch {left behind : List Token} {found : List Finding} {d : Diagnostic}
    (finds : reader.Finds last left behind found)
    (turn : ∀ recovery : Recovery, reader.findings recovery last (t :: rest) =
      .mismatch d :: reader.findings recovery last
        (if recovery = .skipToken then left else behind)) :
    reader.Finds last (t :: rest) behind (.mismatch d :: found) :=
  ⟨by rw [turn, if_pos rfl, finds.skipping]; rfl, turn .synchronize⟩

/-! The findings in the first segment, one lemma for each way in which a turn can go. -/

/-- What stands behind a value begins with the token on which the value ended. -/
theorem FindsFirst.tail {left : List Token} (first : reader.FindsFirst last left.tail) :
    reader.FindsAlong last left.tail (firstSegment left last) (behindSemicolon left) := by
  cases left with
  | nil => exact first
  | cons t rest =>
    by_cases stop : t.kind = .semicolon
    · rw [behindSemicolon_cons_of_eq stop]
      exact ⟨[], .finish, .refl reader last rest⟩
    · obtain ⟨found, along, finds⟩ := first
      rw [firstSegment_cons_of_ne stop, behindSemicolon_cons_of_ne stop]
      exact ⟨found, .pass along, finds⟩

theorem findsFirst_of_plain (noLet : t.kind ≠ .letWord) (noReturn : t.kind ≠ .returnWord)
    (first : reader.FindsFirst last rest) : reader.FindsFirst last (t :: rest) := by
  have whole : reader.FindsAlong last rest (firstSegment (t :: rest) last)
      (behindSemicolon (t :: rest)) := first.tail
  obtain ⟨found, along, finds⟩ := whole
  refine ⟨found, along, ?_, ?_⟩
  · rw [reader.findings_cons_of_plain noLet noReturn]
    exact finds.skipping
  · rw [reader.findings_cons_of_plain noLet noReturn]
    exact finds.synchronizing

theorem findsFirst_of_value {s : Statement} {gap left : List Token} (opens : s.keyword = t)
    (noStop : t.kind ≠ .semicolon) (gapNoStop : ∀ t ∈ gap, t.kind ≠ .semicolon)
    (turn : ∀ recovery, reader.findings recovery last (t :: (gap ++ left)) =
      .statement s :: reader.findings recovery last left.tail)
    (first : reader.FindsFirst last left.tail) :
    reader.FindsFirst last (t :: (gap ++ left)) := by
  obtain ⟨found, along, finds⟩ := first.tail
  rw [FindsFirst, firstSegment_cons_of_ne noStop, firstSegment_append gapNoStop,
    behindSemicolon_cons_of_ne noStop, behindSemicolon_append gapNoStop]
  subst opens
  exact ⟨.statement s :: found, .statement along.pass_all, finds.statement turn⟩

theorem findsFirst_of_mismatch {kind : Kind} {after : Token} {gap tokens : List Token}
    (gapNoStop : ∀ t ∈ gap, t.kind ≠ .semicolon) (same : t :: rest = gap ++ tokens)
    (turn : ∀ recovery : Recovery, reader.findings recovery last (t :: rest) =
      .mismatch (.mismatch kind after (tokens.headD last)) :: reader.findings recovery last
        (if recovery = .skipToken then tokens else behindSemicolon tokens))
    (first : reader.FindsFirst last tokens) :
    reader.FindsFirst last (t :: rest) := by
  obtain ⟨found, along, finds⟩ := first
  obtain ⟨more, segment⟩ := exists_firstSegment_eq tokens last
  have finds' := finds.mismatch turn
  rw [same] at finds' ⊢
  rw [FindsFirst, firstSegment_append gapNoStop, behindSemicolon_append gapNoStop]
  rw [segment] at along ⊢
  exact ⟨_, along.mismatch.pass_all, finds'⟩

theorem Tame.findsFirst_of_complete (tame : reader.Tame) {gap tokens : List Token}
    {build : Option Expression → Statement} (opens : ∀ value, (build value).keyword = t)
    (noStop : t.kind ≠ .semicolon) (gapNoStop : ∀ t ∈ gap, t.kind ≠ .semicolon)
    (same : rest = gap ++ tokens)
    (turn : ∀ recovery, reader.turn recovery last t rest =
      reader.complete recovery build tokens last)
    (first : ∀ left, left <:+ rest → reader.FindsFirst last left) :
    reader.FindsFirst last (t :: rest) := by
  obtain ⟨value, read⟩ := tame.outcome tokens last
  obtain ⟨passed, split, passedNoStop⟩ := tame.gap tokens last
  have behind := fun recovery => tame.findings_of_complete (turn recovery) read
  have whole : rest = (gap ++ passed) ++ (reader.read tokens last).left := by
    rw [List.append_assoc, ← split, same]
  have suffix : (reader.read tokens last).left.tail <:+ rest :=
    (List.tail_suffix _).trans (whole ▸ List.suffix_append _ _)
  generalize (reader.read tokens last).left = left at behind whole suffix
  subst whole
  refine findsFirst_of_value (opens value) noStop ?_ behind (first _ suffix)
  intro t ht
  exact (List.mem_append.mp ht).elim (gapNoStop t) (passedNoStop t)

theorem Tame.findsFirst_of_let (tame : reader.Tame) (eof : last.kind = .eof)
    (word : t.kind = .letWord)
    (first : ∀ left, left <:+ rest → reader.FindsFirst last left) :
    reader.FindsFirst last (t :: rest) := by
  have tNoStop : t.kind ≠ .semicolon := by simp [word]
  by_cases named : (rest.headD last).kind = .ident
  · obtain ⟨binder, others, rfl, isName⟩ := exists_cons_of_headD named (by simp [eof])
    have binderNoStop : binder.kind ≠ .semicolon := by simp [isName]
    by_cases bound : (others.headD last).kind = .assign
    · obtain ⟨sign, body, rfl, isSign⟩ := exists_cons_of_headD bound (by simp [eof])
      have signNoStop : sign.kind ≠ .semicolon := by simp [isSign]
      have gapNoStop : ∀ u ∈ [binder, sign], u.kind ≠ .semicolon := by
        simp [binderNoStop, signNoStop]
      exact tame.findsFirst_of_complete (fun _ => rfl) tNoStop gapNoStop rfl
        (fun recovery => reader.turn_of_binding recovery word named bound) first
    · have gapNoStop : ∀ u ∈ [t, binder], u.kind ≠ .semicolon := by simp [tNoStop, binderNoStop]
      have turn : ∀ recovery : Recovery, reader.findings recovery last (t :: binder :: others) =
          .mismatch (.mismatch .assign binder (others.headD last)) ::
            reader.findings recovery last
              (if recovery = .skipToken then others else behindSemicolon others) := by
        intro recovery
        rw [reader.findings_of_mismatch (reader.turn_of_missing_sign recovery word named bound),
          recovery_leave_tail, behindSemicolon_cons_of_ne binderNoStop]
        rfl
      exact findsFirst_of_mismatch gapNoStop rfl turn (first others (List.suffix_cons binder others))
  · have gapNoStop : ∀ u ∈ [t], u.kind ≠ .semicolon := by simp [tNoStop]
    have turn : ∀ recovery : Recovery, reader.findings recovery last (t :: rest) =
        .mismatch (.mismatch .ident t (rest.headD last)) :: reader.findings recovery last
          (if recovery = .skipToken then rest else behindSemicolon rest) := by
      intro recovery
      rw [reader.findings_of_mismatch (reader.turn_of_missing_name recovery word named),
        recovery_leave_tail, behindSemicolon_cons_of_ne tNoStop]
      rfl
    exact findsFirst_of_mismatch gapNoStop rfl turn (first rest List.suffix_rfl)

/-- In the first segment, synchronizing finds what skipping single tokens finds up to the
first mismatch; then both go on behind the semicolon. -/
theorem Tame.findsFirst (tame : reader.Tame) (eof : last.kind = .eof) (tokens : List Token) :
    reader.FindsFirst last tokens := by
  -- Any shorter list may be what is left behind a value or in front of a mismatch.
  induction length : tokens.length using Nat.strong_induction_on generalizing tokens with
  | _ n ih =>
    cases tokens with
    | nil => exact ⟨[], .finish, .refl reader last []⟩
    | cons t rest =>
      have first : ∀ left, left <:+ rest → reader.FindsFirst last left := by
        intro left suffix
        exact ih left.length (length ▸ Nat.lt_succ_of_le suffix.length_le) left rfl
      by_cases isReturn : t.kind = .returnWord
      · exact tame.findsFirst_of_complete (fun _ => rfl) (by simp [isReturn]) (List.forall_mem_nil _)
          (List.nil_append rest).symm (fun recovery => reader.turn_of_return recovery isReturn) first
      by_cases isLet : t.kind = .letWord
      · exact tame.findsFirst_of_let eof isLet first
      · exact findsFirst_of_plain isLet isReturn (first rest List.suffix_rfl)

/-- The findings of all segments, one after another. -/
theorem Tame.findings_segments (tame : reader.Tame) (eof : last.kind = .eof)
    (tokens : List Token) :
    ∃ founds, List.Forall₂ Finding.Along (segments (tokens ++ [last])) founds ∧
      reader.findings .skipToken last tokens = founds.flatten ∧
      reader.findings .synchronize last tokens = (founds.map Finding.untilMismatch).flatten := by
  have finish : ∀ recovery, reader.findings recovery last [] = [] := fun _ => by rw [findings]
  induction length : tokens.length using Nat.strong_induction_on generalizing tokens with
  | _ n ih =>
    cases tokens with
    | nil =>
      exact ⟨[[]], by simp [segments, cutBehind, eof, Finding.Along.finish], finish _, finish _⟩
    | cons t tokens =>
      obtain ⟨found, along, finds⟩ := tame.findsFirst eof (t :: tokens)
      obtain ⟨more, cut, rest⟩ := segments_append eof (t :: tokens)
      rw [cut, finds.skipping, finds.synchronizing]
      rcases rest with rfl | ⟨rfl, nothing⟩
      · have shorter := length_behindSemicolon_lt t tokens
        obtain ⟨founds, alongs, skipping, synchronizing⟩ := ih _ (length ▸ shorter) _ rfl
        exact ⟨found :: founds, .cons along alongs, by simp [skipping], by simp [synchronizing]⟩
      · exact ⟨[found], .cons along .nil, by simp [nothing, finish], by simp [nothing, finish]⟩

end Reader

end Monkey
