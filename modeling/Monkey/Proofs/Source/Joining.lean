import Mathlib.Data.Set.Basic
import Monkey.Proofs.Lexer.Tiling

/-! # Joining spans

Two spans of a file are joined from the earlier start to the later end. Which position is kept
on equal offsets makes no difference where an offset has one position only, and the spans of a
text are such. Main statement: joining is then a least upper bound, so that some spans of a text
are joined to the same one in each order. -/

namespace Monkey

open String (utf8Len)

namespace Span

/-! ## Spans with one position for each offset -/

def positions (s : Span) : List Position := [s.start, s.stop]

theorem start_mem_positions (s : Span) : s.start ∈ s.positions := List.mem_cons_self

theorem stop_mem_positions (s : Span) : s.stop ∈ s.positions :=
  List.mem_cons_of_mem _ List.mem_cons_self

/-- Spans of one file whose positions are told apart by their offsets. -/
structure Coherent (spans : Set Span) : Prop where
  file_eq : ∀ s ∈ spans, ∀ t ∈ spans, s.file = t.file
  position_eq : ∀ s ∈ spans, ∀ t ∈ spans, ∀ p ∈ s.positions, ∀ q ∈ t.positions,
    p.offset = q.offset → p = q

theorem merge_of_file_eq {a b : Span} (same : a.file = b.file) :
    a.merge b = .ok ⟨if a.start.offset ≤ b.start.offset then a.start else b.start,
      if b.stop.offset ≤ a.stop.offset then a.stop else b.stop, a.file⟩ := if_pos same

theorem merge_eq_error_iff (a b : Span) (e : FileMismatch) :
    a.merge b = .error e ↔ a.file ≠ b.file ∧ e = ⟨a.file, b.file⟩ := by
  by_cases same : a.file = b.file
  · simp [merge_of_file_eq same, same]
  · simp [merge, same, eq_comm]

/-- The spans of a family, and all that come of joining them. -/
inductive Merges (spans : Set Span) : Span → Prop
  | member {s : Span} (mem : s ∈ spans) : Merges spans s
  | merge {a b m : Span} (left : Merges spans a) (right : Merges spans b)
      (joined : a.merge b = .ok m) : Merges spans m

/-- A join has the file of a span of the family, and its ends have been ends before. -/
theorem Merges.exists_mem {spans : Set Span} {m : Span} (h : Merges spans m) :
    (∃ s ∈ spans, s.file = m.file) ∧ ∀ p ∈ m.positions, ∃ s ∈ spans, p ∈ s.positions := by
  induction h with
  | @member s mem => exact ⟨⟨s, mem, rfl⟩, fun p among => ⟨s, mem, among⟩⟩
  | @merge a b m _ _ joined left right =>
    have same : a.file = b.file := by
      by_contra other
      rw [(merge_eq_error_iff a b _).mpr ⟨other, rfl⟩] at joined
      cases joined
    rw [merge_of_file_eq same] at joined
    obtain rfl := Except.ok.inj joined
    refine ⟨left.1, ?_⟩
    intro p among
    rcases List.mem_pair.mp among with rfl | rfl
    · dsimp only
      split
      · exact left.2 _ a.start_mem_positions
      · exact right.2 _ b.start_mem_positions
    · dsimp only
      split
      · exact left.2 _ a.stop_mem_positions
      · exact right.2 _ b.stop_mem_positions

/-- Joining adds no position. -/
theorem Coherent.union {spans more : Set Span} (h : Coherent spans)
    (joins : ∀ m ∈ more, Merges spans m) : Coherent (spans ∪ more) := by
  have all : ∀ m ∈ spans ∪ more, Merges spans m := by
    rintro m (mem | mem)
    · exact .member mem
    · exact joins m mem
  constructor
  · intro m mem n mem'
    obtain ⟨⟨s, among, file⟩, _⟩ := (all m mem).exists_mem
    obtain ⟨⟨t, among', file'⟩, _⟩ := (all n mem').exists_mem
    rw [← file, ← file']
    exact h.file_eq s among t among'
  · intro m mem n mem' p inside q inside'
    obtain ⟨s, among, inside⟩ := (all m mem).exists_mem.2 p inside
    obtain ⟨t, among', inside'⟩ := (all n mem').exists_mem.2 q inside'
    exact h.position_eq s among t among' p inside q inside'

/-! ## The hull of some spans -/

/-- The span begins no later and ends no earlier than another one. -/
def Covers (s t : Span) : Prop := s.start.offset ≤ t.start.offset ∧ t.stop.offset ≤ s.stop.offset

theorem Covers.trans {s t u : Span} (h : s.Covers t) (h' : t.Covers u) : s.Covers u :=
  ⟨Nat.le_trans h.1 h'.1, Nat.le_trans h'.2 h.2⟩

/-- The span from the earliest start to the latest end of some spans. -/
structure IsHullOf (m : Span) (parts : List Span) : Prop where
  start_eq : ∃ s ∈ parts, m.start = s.start
  stop_eq : ∃ s ∈ parts, m.stop = s.stop
  file_eq : ∀ s ∈ parts, s.file = m.file
  covers : ∀ s ∈ parts, m.Covers s

theorem isHullOf_singleton (s : Span) : s.IsHullOf [s] := by
  refine ⟨⟨s, List.mem_cons_self, rfl⟩, ⟨s, List.mem_cons_self, rfl⟩, ?_, ?_⟩
  · intro t mem
    rw [List.mem_singleton.mp mem]
  · intro t mem
    rw [List.mem_singleton.mp mem]
    exact ⟨Nat.le_refl _, Nat.le_refl _⟩

/-- Spans of one file are joined to the hull of both. -/
theorem exists_merge {a b : Span} (same : a.file = b.file) :
    ∃ m, a.merge b = .ok m ∧ m.IsHullOf [a, b] := by
  refine ⟨_, merge_of_file_eq same, ?_, ?_, ?_, ?_⟩
  · by_cases le : a.start.offset ≤ b.start.offset
    · exact ⟨a, by simp, if_pos le⟩
    · exact ⟨b, by simp, if_neg le⟩
  · by_cases le : b.stop.offset ≤ a.stop.offset
    · exact ⟨a, by simp, if_pos le⟩
    · exact ⟨b, by simp, if_neg le⟩
  · simp [same]
  · simp only [List.forall_mem_cons, Covers]
    split_ifs <;> simp <;> omega

namespace IsHullOf

variable {m n : Span} {parts more : List Span}

theorem covered (h : m.IsHullOf parts) {s : Span} (all : ∀ t ∈ parts, s.Covers t) : s.Covers m := by
  obtain ⟨t, mem, start⟩ := h.start_eq
  obtain ⟨u, mem', stop⟩ := h.stop_eq
  rw [Covers, start, stop]
  exact ⟨(all t mem).1, (all u mem').2⟩

/-- Hulls are joined to the hull of the parts of both. -/
theorem exists_merge (h : m.IsHullOf parts) (h' : n.IsHullOf more) (same : m.file = n.file) :
    ∃ joined, m.merge n = .ok joined ∧ joined.IsHullOf (parts ++ more) := by
  obtain ⟨joined, merged, both⟩ := Span.exists_merge same
  have left : joined.Covers m := both.covers m (by simp)
  have right : joined.Covers n := both.covers n (by simp)
  have file : m.file = joined.file := both.file_eq m (by simp)
  refine ⟨joined, merged, ?_, ?_, ?_, ?_⟩
  · obtain ⟨s, among, start⟩ := both.start_eq
    rcases List.mem_pair.mp among with rfl | rfl
    · obtain ⟨t, mem, first⟩ := h.start_eq
      exact ⟨t, List.mem_append_left _ mem, start.trans first⟩
    · obtain ⟨t, mem, first⟩ := h'.start_eq
      exact ⟨t, List.mem_append_right _ mem, start.trans first⟩
  · obtain ⟨s, among, stop⟩ := both.stop_eq
    rcases List.mem_pair.mp among with rfl | rfl
    · obtain ⟨t, mem, last⟩ := h.stop_eq
      exact ⟨t, List.mem_append_left _ mem, stop.trans last⟩
    · obtain ⟨t, mem, last⟩ := h'.stop_eq
      exact ⟨t, List.mem_append_right _ mem, stop.trans last⟩
  · intro t mem
    rcases List.mem_append.mp mem with mem | mem
    · exact (h.file_eq t mem).trans file
    · exact (h'.file_eq t mem).trans (same.symm.trans file)
  · intro t mem
    rcases List.mem_append.mp mem with mem | mem
    · exact left.trans (h.covers t mem)
    · exact right.trans (h'.covers t mem)

/-- Where an offset has one position, the same parts have one hull. -/
theorem unique {spans : Set Span} (coherent : Coherent spans) (among : ∀ s ∈ parts, s ∈ spans)
    (h : m.IsHullOf parts) (h' : n.IsHullOf more) (same : ∀ s, s ∈ parts ↔ s ∈ more) :
    m = n := by
  have above : m.Covers n := h'.covered fun t mem => h.covers t ((same t).mpr mem)
  have below : n.Covers m := h.covered fun t mem => h'.covers t ((same t).mp mem)
  obtain ⟨s, mem, start⟩ := h.start_eq
  obtain ⟨s', mem', start'⟩ := h'.start_eq
  obtain ⟨t, inside, stop⟩ := h.stop_eq
  obtain ⟨t', inside', stop'⟩ := h'.stop_eq
  have starts : m.start = n.start := by
    have offset := Nat.le_antisymm above.1 below.1
    rw [start, start'] at offset ⊢
    exact coherent.position_eq s (among s mem) s' (among s' ((same s').mpr mem'))
      _ s.start_mem_positions _ s'.start_mem_positions offset
  have stops : m.stop = n.stop := by
    have offset := Nat.le_antisymm below.2 above.2
    rw [stop, stop'] at offset ⊢
    exact coherent.position_eq t (among t inside) t' (among t' ((same t').mpr inside'))
      _ t.stop_mem_positions _ t'.stop_mem_positions offset
  have files : m.file = n.file := (h.file_eq s mem).symm.trans (h'.file_eq s ((same s).mp mem))
  cases m
  cases n
  simp_all only

end IsHullOf

/-! ## Orders and groupings -/

/-- A way to join some spans two at a time. -/
inductive Grouping where
  | span (s : Span)
  | join (left right : Grouping)

namespace Grouping

def spans : Grouping → List Span
  | span s => [s]
  | join left right => left.spans ++ right.spans

def merged : Grouping → Except FileMismatch Span
  | span s => .ok s
  | join left right => do (← left.merged).merge (← right.merged)

/-- From the left to the right. -/
def inOrder (first : Span) (rest : List Span) : Grouping :=
  rest.foldl (fun grouping s => join grouping (span s)) (span first)

theorem spans_foldl (grouping : Grouping) (rest : List Span) :
    (rest.foldl (fun grouping s => join grouping (span s)) grouping).spans =
      grouping.spans ++ rest := by
  induction rest generalizing grouping with
  | nil => simp
  | cons s rest ih =>
    rw [List.foldl_cons, ih, spans, spans, List.append_assoc, List.singleton_append]

theorem spans_inOrder (first : Span) (rest : List Span) :
    (inOrder first rest).spans = first :: rest := spans_foldl _ _

theorem merged_foldl (grouping : Grouping) (rest : List Span) :
    (rest.foldl (fun grouping s => join grouping (span s)) grouping).merged =
      grouping.merged >>= fun m => rest.foldlM Span.merge m := by
  induction rest generalizing grouping with
  | nil => exact (bind_pure _).symm
  | cons s rest ih =>
    rw [List.foldl_cons, ih, merged, merged]
    cases grouping.merged <;> rfl

theorem merged_inOrder (first : Span) (rest : List Span) :
    (inOrder first rest).merged = rest.foldlM Span.merge first := merged_foldl _ _

theorem exists_mem_spans (grouping : Grouping) : ∃ s, s ∈ grouping.spans := by
  induction grouping with
  | span s => exact ⟨s, List.mem_cons_self⟩
  | join left right found _ =>
    obtain ⟨s, mem⟩ := found
    exact ⟨s, List.mem_append_left _ mem⟩

/-- Spans of one file are joined to a hull of them. -/
theorem exists_isHullOf {file : FileId} (grouping : Grouping)
    (inFile : ∀ s ∈ grouping.spans, s.file = file) :
    ∃ m, grouping.merged = .ok m ∧ m.file = file ∧ m.IsHullOf grouping.spans := by
  induction grouping with
  | span s => exact ⟨s, rfl, inFile s List.mem_cons_self, isHullOf_singleton s⟩
  | join left right leftHull rightHull =>
    obtain ⟨m, merged, file, hull⟩ :=
      leftHull fun s mem => inFile s (List.mem_append_left _ mem)
    obtain ⟨n, merged', file', hull'⟩ :=
      rightHull fun s mem => inFile s (List.mem_append_right _ mem)
    obtain ⟨joined, both, whole⟩ := hull.exists_merge hull' (file.trans file'.symm)
    obtain ⟨s, mem⟩ := (join left right).exists_mem_spans
    refine ⟨joined, ?_, (whole.file_eq s mem).symm.trans (inFile s mem), whole⟩
    rw [Grouping.merged, merged, merged']
    exact both

/-- Groupings of the same spans of a family give the hull of them. -/
theorem exists_hull {family : Set Span} (coherent : Coherent family) (parts : List Span)
    (nonempty : parts ≠ []) (among : ∀ s ∈ parts, s ∈ family) :
    ∃ m, m.IsHullOf parts ∧
      ∀ grouping : Grouping, (∀ s, s ∈ grouping.spans ↔ s ∈ parts) → grouping.merged = .ok m := by
  obtain ⟨first, rest, rfl⟩ := List.exists_cons_of_ne_nil nonempty
  have inFile : ∀ s ∈ first :: rest, s.file = first.file := fun s mem =>
    coherent.file_eq s (among s mem) first (among first List.mem_cons_self)
  obtain ⟨m, _, _, hull⟩ :=
    (inOrder first rest).exists_isHullOf (by rw [spans_inOrder]; exact inFile)
  rw [spans_inOrder] at hull
  refine ⟨m, hull, fun grouping same => ?_⟩
  obtain ⟨n, merged, _, hull'⟩ :=
    grouping.exists_isHullOf fun s mem => inFile s ((same s).mp mem)
  rw [merged, hull.unique coherent among hull' fun s => (same s).symm]

end Grouping

/-! ## The spans of a text -/

/-- The spans of the tokens of a text. -/
def ofTokens (source : String) (file : FileId) : Set Span :=
  {s | ∃ t ∈ (tokenize source file).1, t.span = s}

/-- Parts that a text begins with are told apart by their bytes. -/
theorem eq_of_same_bytes {text front other : List Char} (h : front <+: text) (h' : other <+: text)
    (bytes : utf8Len front = utf8Len other) : front = other := by
  rcases List.prefix_or_prefix_of_prefix h h' with ⟨more, rfl⟩ | ⟨more, rfl⟩ <;>
    · rw [String.utf8Len_append] at bytes
      have none : more = [] := String.utf8Len_eq_zero.mp (by omega)
      rw [none, List.append_nil]

theorem coherent_ofTokens (source : String) (file : FileId) : Coherent (ofTokens source file) := by
  have places : ∀ s ∈ ofTokens source file, s.file = file ∧
      ∀ p ∈ s.positions, ∃ front, front <+: source.toList ∧ p = Position.first.afterText front := by
    rintro s ⟨t, mem, rfl⟩
    obtain ⟨before, after, split, same, _⟩ :=
      (scan_tokenize source file).exists_split t (Array.mem_toList_iff.mpr mem)
    rw [List.nil_append] at same
    rw [same]
    refine ⟨rfl, fun p inside => ?_⟩
    rcases List.mem_pair.mp inside with rfl | rfl
    · exact ⟨before, ⟨_, by rw [split, List.append_assoc]⟩, rfl⟩
    · exact ⟨before ++ t.lexeme.text, ⟨after, split.symm⟩, rfl⟩
  constructor
  · intro s mem t mem'
    rw [(places s mem).1, (places t mem').1]
  · intro s mem t mem' p inside q inside' offset
    obtain ⟨front, starts, rfl⟩ := (places s mem).2 p inside
    obtain ⟨other, starts', rfl⟩ := (places t mem').2 q inside'
    rw [Position.afterText_offset, Position.afterText_offset] at offset
    rw [eq_of_same_bytes starts starts' (by omega)]

/-! ## Joining as a least upper bound -/

/-- Spans of different files are not joined. Among spans of one file in which an offset has one
position joining is idempotent, commutative and associative, its result is the least span that
covers both, and it makes no new positions. The spans of a text are such a family, so however
some of them are ordered and grouped, they are joined from the earliest start to the latest
end. -/
theorem merge_is_join :
    (∀ (a b : Span) (e : FileMismatch),
      a.merge b = .error e ↔ a.file ≠ b.file ∧ e = ⟨a.file, b.file⟩) ∧
    (∀ spans, Coherent spans →
      (∀ more : Set Span, (∀ m ∈ more, Merges spans m) → Coherent (spans ∪ more)) ∧
      ∀ a ∈ spans, a.merge a = .ok a ∧ ∀ b ∈ spans,
        a.merge b = b.merge a ∧
        (∃ m, a.merge b = .ok m ∧ m.Covers a ∧ m.Covers b ∧
          ∀ s : Span, s.Covers a → s.Covers b → s.Covers m) ∧
        ∀ c ∈ spans, (a.merge b >>= fun m => m.merge c) = (b.merge c >>= fun m => a.merge m)) ∧
    ∀ source file, Coherent (ofTokens source file) ∧
      ∀ parts, parts ≠ [] → (∀ s ∈ parts, s ∈ ofTokens source file) →
        ∃ m, m.IsHullOf parts ∧
          (∀ grouping : Grouping, grouping.spans.Perm parts → grouping.merged = .ok m) ∧
          ∀ first rest, (first :: rest).Perm parts → rest.foldlM merge first = .ok m := by
  refine ⟨merge_eq_error_iff, fun spans coherent => ⟨fun more joins => coherent.union joins, ?_⟩,
    fun source file => ⟨coherent_ofTokens source file, ?_⟩⟩
  · intro a memA
    refine ⟨by simp [merge_of_file_eq], fun b memB => ⟨?_, ?_, ?_⟩⟩
    · obtain ⟨m, _, all⟩ := Grouping.exists_hull coherent [a, b] (by simp)
        (by simp [memA, memB])
      calc a.merge b = (Grouping.join (.span a) (.span b)).merged := rfl
        _ = .ok m := all _ (by simp [Grouping.spans])
        _ = (Grouping.join (.span b) (.span a)).merged :=
          (all _ (by simp [Grouping.spans, or_comm])).symm
        _ = b.merge a := rfl
    · obtain ⟨m, merged, hull⟩ := exists_merge (coherent.file_eq a memA b memB)
      refine ⟨m, merged, hull.covers a (by simp), hull.covers b (by simp), ?_⟩
      intro s left right
      exact hull.covered (by simp [left, right])
    · intro c memC
      obtain ⟨m, _, all⟩ := Grouping.exists_hull coherent [a, b, c] (by simp)
        (by simp [memA, memB, memC])
      calc (a.merge b >>= fun m => m.merge c)
          = (Grouping.join (.join (.span a) (.span b)) (.span c)).merged := rfl
        _ = .ok m := all _ (by simp [Grouping.spans])
        _ = (Grouping.join (.span a) (.join (.span b) (.span c))).merged :=
          (all _ (by simp [Grouping.spans])).symm
        _ = (b.merge c >>= fun m => a.merge m) := rfl
  · intro parts nonempty among
    obtain ⟨m, hull, all⟩ := Grouping.exists_hull (coherent_ofTokens source file) parts nonempty among
    refine ⟨m, hull, fun grouping perm => all grouping fun s => perm.mem_iff, ?_⟩
    intro first rest perm
    rw [← Grouping.merged_inOrder]
    refine all _ fun s => ?_
    rw [Grouping.spans_inOrder]
    exact perm.mem_iff

/-- A word, a character of two bytes below it and the end of the text. -/
theorem merge_is_join_two_lines :
    let source := "let\n§"
    let word : Span := ⟨⟨1, 1, 0⟩, ⟨1, 4, 3⟩, 2⟩
    let sign : Span := ⟨⟨2, 1, 4⟩, ⟨2, 2, 6⟩, 2⟩
    let last : Span := .point ⟨2, 2, 6⟩ 2
    let whole : Span := ⟨⟨1, 1, 0⟩, ⟨2, 2, 6⟩, 2⟩
    (∀ s ∈ [word, sign, last], s ∈ ofTokens source 2) ∧
    Coherent (ofTokens source 2) ∧ Coherent (ofTokens source 2 ∪ {whole}) ∧
    word.merge last = last.merge word ∧
    (sign.merge last >>= fun m => m.merge word) = (last.merge word >>= fun m => sign.merge m) ∧
    (Grouping.join (.span last) (.join (.span sign) (.span word))).merged = .ok whole ∧
    [word, last].foldlM merge sign = .ok whole := by
  intro source word sign last whole
  obtain ⟨_, joins, texts⟩ := merge_is_join
  obtain ⟨coherent, folds⟩ := texts source 2
  have tokens : (tokenize source 2).1.toList.map Token.span = [word, sign, last] := by
    decide +kernel
  have mem : ∀ s ∈ [word, sign, last], s ∈ ofTokens source 2 := by
    intro s among
    rw [← tokens] at among
    obtain ⟨t, inside, same⟩ := List.mem_map.mp among
    exact ⟨t, Array.mem_toList_iff.mp inside, same⟩
  have memWord := mem word (by simp)
  have memSign := mem sign (by simp)
  have memLast := mem last (by simp)
  obtain ⟨grows, laws⟩ := joins _ coherent
  have inFamily : Merges (ofTokens source 2) whole :=
    .merge (.member memWord) (.member memLast) rfl
  obtain ⟨m, _, groupings, orders⟩ := folds [word, sign, last] (by simp) mem
  have left : (Grouping.join (.span last) (.join (.span sign) (.span word))).merged = .ok m :=
    groupings _ (by decide)
  have right : [word, last].foldlM merge sign = .ok m := orders sign [word, last] (by decide)
  have same : m = whole := Except.ok.inj (left.symm.trans rfl)
  rw [same] at left right
  refine ⟨mem, coherent, grows {whole} ?_, ((laws word memWord).2 last memLast).1,
    ((laws sign memSign).2 last memLast).2.2 word memWord, left, right⟩
  rintro _ rfl
  exact inFamily

/-- Spans of one file with two positions for an offset are not joined alike in both orders. -/
example :
    let a : Span := ⟨⟨1, 1, 0⟩, ⟨1, 2, 1⟩, 0⟩
    let b : Span := ⟨⟨2, 9, 0⟩, ⟨2, 9, 3⟩, 0⟩
    a.merge b ≠ b.merge a := by decide

end Span

end Monkey
