import Mathlib.Data.List.Pairwise
import Monkey.Proofs.Lexer.Tiling
import Monkey.Proofs.Parser.Findings

/-! # The two modes of recovery

Main statement: recovery at a semicolon reports the first mismatch of each segment that
skipping single tokens reports, and keeps the statements in front of it. -/

namespace Monkey

/-! ## Places in a segment -/

/-- A primary label of a diagnostic marks a token of a segment. -/
def Diagnostic.PointsInto (d : Diagnostic) (segment : List Token) : Prop :=
  ∃ label ∈ d.labels, label.isPrimary = true ∧ ∃ t ∈ segment, t.span = label.span

instance (d : Diagnostic) (segment : List Token) : Decidable (d.PointsInto segment) :=
  inferInstanceAs (Decidable (∃ label ∈ d.labels, _))

/-- The first of some diagnostics that points into a segment. -/
def firstInto (ds : Diagnostics) (segment : List Token) : Option Diagnostic :=
  ds.toList.find? (·.PointsInto segment)

/-- A statement begins before all that a diagnostic marks as the error. -/
def Statement.Precedes (s : Statement) (d : Diagnostic) : Prop :=
  ∀ label ∈ d.labels, label.isPrimary = true →
    s.keyword.span.start.offset < label.span.start.offset

instance (s : Statement) (d : Diagnostic) : Decidable (s.Precedes d) :=
  inferInstanceAs (Decidable (∀ label ∈ d.labels, _))

/-- A statement precedes the first diagnostic, if any, that points into its segment. -/
def Statement.Leads (s : Statement) (cut : List (List Token)) (ds : Diagnostics) : Prop :=
  ∀ segment ∈ cut, s.keyword ∈ segment → ∀ d ∈ firstInto ds segment, s.Precedes d

instance (s : Statement) (cut : List (List Token)) (ds : Diagnostics) :
    Decidable (s.Leads cut ds) :=
  inferInstanceAs (Decidable (∀ segment ∈ cut, _))

/-- One token starts before another. -/
def Token.Before (a b : Token) : Prop := a.span.start.offset < b.span.start.offset

theorem Token.Before.span_ne {a b : Token} (h : a.Before b) : a.span ≠ b.span := by
  intro same
  rw [Before, same] at h
  exact Nat.lt_irrefl _ h

theorem Diagnostic.pointsInto_mismatch (kind : Kind) (after found : Token) (segment : List Token) :
    (Diagnostic.mismatch kind after found).PointsInto segment ↔
      ∃ t ∈ segment, t.span = found.span := by
  simp [PointsInto, Diagnostic.mismatch]

theorem Statement.precedes_mismatch (s : Statement) (kind : Kind) (after found : Token) :
    s.Precedes (.mismatch kind after found) ↔ s.keyword.Before found := by
  simp [Precedes, Diagnostic.mismatch, Token.Before]

/-! ## One segment -/

namespace Finding

section

variable {segment : List Token} {found : List Finding}

/-- Each mismatch is about a token of the segment. -/
theorem Along.mismatch_mem (along : Along segment found) {d : Diagnostic}
    (mem : d ∈ found.filterMap mismatch?) :
    ∃ kind after, ∃ t ∈ segment, d = .mismatch kind after t := by
  induction along with
  | finish => cases mem
  | pass _ ih =>
    obtain ⟨kind, after, t, ht, same⟩ := ih mem
    exact ⟨kind, after, t, List.mem_cons_of_mem _ ht, same⟩
  | statement _ ih =>
    obtain ⟨kind, after, t, ht, same⟩ := ih mem
    exact ⟨kind, after, t, List.mem_cons_of_mem _ ht, same⟩
  | @mismatch kind after t _ _ _ ih =>
    rcases List.mem_cons.mp mem with rfl | mem
    · exact ⟨kind, after, t, List.mem_cons_self, rfl⟩
    · exact ih mem

/-- Each statement begins with a token of the segment. -/
theorem Along.keyword_mem (along : Along segment found) {s : Statement}
    (mem : s ∈ found.filterMap statement?) : s.keyword ∈ segment := by
  induction along with
  | finish => cases mem
  | pass _ ih => exact List.mem_cons_of_mem _ (ih mem)
  | statement _ ih =>
    rcases List.mem_cons.mp mem with rfl | mem
    · exact List.mem_cons_self
    · exact List.mem_cons_of_mem _ (ih mem)
  | mismatch _ ih => exact ih mem

/-- What is found up to the first mismatch precedes it, and nothing else does. -/
theorem Along.statements_untilMismatch (along : Along segment found)
    (increase : segment.Pairwise Token.Before) :
    (untilMismatch found).filterMap statement? = (found.filterMap statement?).filter fun s =>
      ∀ d ∈ (found.filterMap mismatch?).head?, s.Precedes d := by
  induction along with
  | finish => rfl
  | pass _ ih => exact ih increase.tail
  | @statement s tokens found more ih =>
    have leads : ∀ d ∈ (found.filterMap mismatch?).head?, s.Precedes d := by
      intro d mem
      obtain ⟨kind, after, t, ht, rfl⟩ := more.mismatch_mem (List.mem_of_head? mem)
      exact (s.precedes_mismatch kind after t).mpr (List.rel_of_pairwise_cons increase ht)
    have rest := ih increase.tail
    simp only [untilMismatch, List.filterMap_cons, statement?, mismatch?, rest]
    rw [List.filter_cons_of_pos (by simpa using leads)]
    rfl
  | @mismatch kind after t tokens found more ih =>
    -- A statement that is found behind a mismatch begins with its token or later.
    have late : ∀ s ∈ found.filterMap statement?, ¬ s.Precedes (.mismatch kind after t) := by
      intro s mem precedes
      have before := (s.precedes_mismatch kind after t).mp precedes
      rcases List.mem_cons.mp (more.keyword_mem mem) with same | behind
      · exact before.span_ne (by rw [same])
      · exact Nat.lt_asymm before (List.rel_of_pairwise_cons increase behind)
    simp only [untilMismatch, List.filterMap_cons, statement?, mismatch?, List.head?_cons,
      Option.mem_def, Option.some.injEq, forall_eq', List.filterMap_nil]
    symm
    rw [List.filter_eq_nil_iff]
    simpa using late

end

/-! ## All segments -/

section

variable {cut : List (List Token)} {founds : List (List Finding)}

theorem mismatch_mem_flatten (alongs : List.Forall₂ Along cut founds) {d : Diagnostic}
    (mem : d ∈ founds.flatten.filterMap mismatch?) :
    ∃ kind after, ∃ t ∈ cut.flatten, d = .mismatch kind after t := by
  induction alongs with
  | nil => cases mem
  | cons along _ ih =>
    rw [List.flatten_cons, List.filterMap_append, List.mem_append] at mem
    rcases mem with here | later
    · obtain ⟨kind, after, t, ht, same⟩ := along.mismatch_mem here
      exact ⟨kind, after, t, List.mem_append_left _ ht, same⟩
    · obtain ⟨kind, after, t, ht, same⟩ := ih later
      exact ⟨kind, after, t, List.mem_append_right _ ht, same⟩

theorem exists_pointsInto (alongs : List.Forall₂ Along cut founds) {d : Diagnostic}
    (mem : d ∈ founds.flatten.filterMap mismatch?) : ∃ segment ∈ cut, d.PointsInto segment := by
  obtain ⟨kind, after, t, ht, rfl⟩ := mismatch_mem_flatten alongs mem
  obtain ⟨segment, among, here⟩ := List.mem_flatten.mp ht
  exact ⟨segment, among, (Diagnostic.pointsInto_mismatch kind after t segment).mpr ⟨t, here, rfl⟩⟩

theorem exists_keyword_mem (alongs : List.Forall₂ Along cut founds) {s : Statement}
    (mem : s ∈ founds.flatten.filterMap statement?) : ∃ segment ∈ cut, s.keyword ∈ segment := by
  induction alongs with
  | nil => cases mem
  | @cons segment _ _ _ along _ ih =>
    rw [List.flatten_cons, List.filterMap_append, List.mem_append] at mem
    rcases mem with here | later
    · exact ⟨segment, List.mem_cons_self, along.keyword_mem here⟩
    · obtain ⟨other, among, behind⟩ := ih later
      exact ⟨other, List.mem_cons_of_mem _ among, behind⟩

/-- A mismatch points into some segment, and the first one there is reported. -/
theorem filterMap_firstInto_eq_nil_iff {ds : Diagnostics} (alongs : List.Forall₂ Along cut founds)
    (all : ds.toList = founds.flatten.filterMap mismatch?) :
    cut.filterMap (firstInto ds) = [] ↔ ds = #[] := by
  rw [List.filterMap_eq_nil_iff, ← Array.toList_eq_nil_iff]
  constructor
  · intro none
    refine List.eq_nil_iff_forall_not_mem.mpr fun d hd => ?_
    obtain ⟨segment, among, points⟩ := exists_pointsInto alongs (all ▸ hd)
    exact List.find?_eq_none.mp (none segment among) d hd (decide_eq_true points)
  · intro none segment _
    rw [firstInto, none]
    rfl

/-- Mismatches about tokens that stand elsewhere do not point into a segment. -/
theorem filter_pointsInto_eq_nil {ds : List Diagnostic} {segment elsewhere : List Token}
    (about : ∀ d ∈ ds, ∃ kind after, ∃ t ∈ elsewhere, d = .mismatch kind after t)
    (apart : ∀ t ∈ elsewhere, ∀ u ∈ segment, u.span ≠ t.span) :
    ds.filter (·.PointsInto segment) = [] := by
  refine List.filter_eq_nil_iff.mpr fun d mem points => ?_
  obtain ⟨kind, after, t, ht, rfl⟩ := about d mem
  obtain ⟨u, hu, same⟩ :=
    (Diagnostic.pointsInto_mismatch kind after t segment).mp (of_decide_eq_true points)
  exact apart t ht u hu same

/-- The mismatches of each segment are those that point into it. -/
theorem filter_pointsInto (alongs : List.Forall₂ Along cut founds)
    (ordered : cut.flatten.Pairwise Token.Before) :
    cut.map (fun segment => (founds.flatten.filterMap mismatch?).filter (·.PointsInto segment)) =
      founds.map (List.filterMap mismatch?) := by
  induction alongs with
  | nil => rfl
  | @cons segment found cut founds along alongs ih =>
    obtain ⟨_, orderedLater, before⟩ := List.pairwise_append.mp ordered
    have own : (found.filterMap mismatch?).filter (·.PointsInto segment) =
        found.filterMap mismatch? := by
      refine List.filter_eq_self.mpr fun d mem => decide_eq_true ?_
      obtain ⟨kind, after, t, ht, rfl⟩ := along.mismatch_mem mem
      exact (Diagnostic.pointsInto_mismatch kind after t segment).mpr ⟨t, ht, rfl⟩
    have later : (founds.flatten.filterMap mismatch?).filter (·.PointsInto segment) = [] :=
      filter_pointsInto_eq_nil (fun _ mem => mismatch_mem_flatten alongs mem)
        fun t ht u hu => (before u hu t ht).span_ne
    have earlier : ∀ other ∈ cut, (found.filterMap mismatch?).filter (·.PointsInto other) = [] :=
      fun other among => filter_pointsInto_eq_nil (fun _ mem => along.mismatch_mem mem)
        fun t ht u hu => (before t ht u (List.mem_flatten_of_mem among hu)).span_ne.symm
    simp only [List.map_cons, List.flatten_cons, List.filterMap_append, List.filter_append]
    rw [own, later, List.append_nil, ← ih orderedLater]
    refine congrArg _ (List.map_congr_left fun other among => ?_)
    rw [earlier other among, List.nil_append]

/-- A token stands in one segment only. -/
theorem segment_unique (ordered : cut.flatten.Pairwise Token.Before) {segment other : List Token}
    (mem : segment ∈ cut) (among : other ∈ cut) {t : Token} (ht : t ∈ segment) (hu : t ∈ other) :
    segment = other := by
  have apart : cut.Pairwise List.Disjoint :=
    (List.pairwise_flatten.mp ordered).2.imp fun before x hx hy => (before x hx x hy).span_ne rfl
  have symmetric : Std.Symm (List.Disjoint (α := Token)) := ⟨fun _ _ apart _ hx hy => apart hy hx⟩
  by_contra distinct
  exact apart.forall mem among distinct ht hu

variable {ds : Diagnostics} (alongs : List.Forall₂ Along cut founds)
  (ordered : cut.flatten.Pairwise Token.Before)
  (all : ds.toList = founds.flatten.filterMap mismatch?)

include alongs ordered all

theorem map_firstInto :
    cut.map (firstInto ds) = founds.map fun found => (found.filterMap mismatch?).head? := by
  have first : firstInto ds = fun segment =>
      ((founds.flatten.filterMap mismatch?).filter (·.PointsInto segment)).head? := by
    funext segment
    rw [List.head?_filter, ← all]
    rfl
  have heads := congrArg (List.map List.head?) (filter_pointsInto alongs ordered)
  rw [List.map_map, List.map_map] at heads
  rw [first]
  exact heads

theorem mismatches_untilMismatch :
    (founds.map untilMismatch).flatten.filterMap mismatch? = cut.filterMap (firstInto ds) := by
  have heads := map_firstInto alongs ordered all
  calc (founds.map untilMismatch).flatten.filterMap mismatch?
      = founds.flatMap fun found => (found.filterMap mismatch?).head?.toList := by
        rw [List.filterMap_flatten, List.map_map]
        exact congrArg List.flatten
          (List.map_congr_left fun found _ => filterMap_mismatch?_untilMismatch found)
    _ = (founds.map fun found => (found.filterMap mismatch?).head?).filterMap id := by
        rw [List.filterMap_map, List.filterMap_eq_flatMap_toList]
        rfl
    _ = cut.filterMap (firstInto ds) := by
        rw [← heads, List.filterMap_map]
        rfl

/-- The segment in which some findings were made. -/
theorem exists_segment {found : List Finding} (mem : found ∈ founds) :
    ∃ segment ∈ cut, Along segment found ∧
      firstInto ds segment = (found.filterMap mismatch?).head? := by
  obtain ⟨i, bound, rfl⟩ := List.mem_iff_getElem.mp mem
  obtain ⟨length, along⟩ := List.forall₂_iff_get.mp alongs
  have inCut : i < cut.length := length ▸ bound
  have heads := congrArg (·[i]?) (map_firstInto alongs ordered all)
  refine ⟨cut[i], List.getElem_mem inCut, along i inCut bound, ?_⟩
  simpa [inCut, bound] using heads

theorem statements_untilMismatch :
    (founds.map untilMismatch).flatten.filterMap statement? =
      (founds.flatten.filterMap statement?).filter (·.Leads cut ds) := by
  have parts : ∀ found ∈ founds, (untilMismatch found).filterMap statement? =
      (found.filterMap statement?).filter (·.Leads cut ds) := by
    intro found mem
    obtain ⟨segment, among, along, first⟩ := exists_segment alongs ordered all mem
    have increase := (List.pairwise_flatten.mp ordered).1 segment among
    rw [along.statements_untilMismatch increase, ← first]
    refine List.filter_congr fun s hs => decide_eq_decide.mpr ⟨fun leads other hOther hs' => ?_, ?_⟩
    · rwa [← segment_unique ordered among hOther (along.keyword_mem hs) hs']
    · exact fun leads => leads segment among (along.keyword_mem hs)
  rw [List.filterMap_flatten, List.map_map, List.filterMap_flatten, List.filter_flatten,
    List.map_map]
  exact congrArg List.flatten (List.map_congr_left parts)

end

end Finding

/-! ## Whole texts -/

/-- The findings of a text in both modes, segment by segment. -/
theorem exists_findings_readWith {rule : Rule} {reader : Reader} (follows : rule.Follows reader)
    (tame : reader.Tame) (source : String) (file : FileId) :
    let cut := segments (tokenize source file).1.toList
    let skipped := readWith rule source file .skipToken
    let synced := readWith rule source file .synchronize
    ∃ founds, List.Forall₂ Finding.Along cut founds ∧
      skipped.1.statements.toList = founds.flatten.filterMap Finding.statement? ∧
      skipped.2.diagnostics.toList = founds.flatten.filterMap Finding.mismatch? ∧
      synced.1.statements.toList =
        (founds.map Finding.untilMismatch).flatten.filterMap Finding.statement? ∧
      synced.2.diagnostics.toList =
        (founds.map Finding.untilMismatch).flatten.filterMap Finding.mismatch? := by
  obtain ⟨tokens, last, skipping⟩ := readWith_follows follows source file .skipToken
  obtain ⟨tokens', last', synchronizing⟩ := readWith_follows follows source file .synchronize
  have same := skipping.tokens_eq.symm.trans synchronizing.tokens_eq
  obtain ⟨rfl, sameLast⟩ := List.append_inj' same rfl
  obtain rfl : last = last' := by simpa using sameLast
  obtain ⟨founds, alongs, skips, syncs⟩ := tame.findings_segments skipping.last_kind tokens
  have skipProgram := reader.program_eq_findings .skipToken last tokens
  have syncProgram := reader.program_eq_findings .synchronize last tokens
  rw [skips] at skipProgram
  rw [syncs] at syncProgram
  dsimp only
  rw [skipping.statements_eq, skipping.diagnostics_eq, synchronizing.statements_eq,
    synchronizing.diagnostics_eq, skipProgram, syncProgram, skipping.tokens_eq]
  exact ⟨founds, alongs, rfl, rfl, rfl, rfl⟩

/-- The rules that never fail and never pass over a semicolon. -/
theorem StandardRule.exists_tame {rule : StandardRule}
    (mem : rule ∈ [.skip, .nothing, .name, .any, .last]) :
    ∃ reader, rule.rule.Follows reader ∧ reader.Tame := by
  cases rule with
  | skip => exact ⟨.skip, Rule.skip_follows, Reader.tame_skip⟩
  | nothing => exact ⟨.nothing, Rule.nothing_follows, Reader.tame_nothing⟩
  | name => exact ⟨.name, Rule.name_follows, Reader.tame_name⟩
  | any => exact ⟨.any, Rule.any_follows, Reader.tame_any⟩
  | last => exact ⟨.last, Rule.last_follows, Reader.tame_last⟩
  | refuse | single | parenthesized | nested => simp at mem

/-- Each statement and each mismatch of a text has a segment. Recovery at a semicolon reports
the first mismatch of each segment that skipping single tokens reports, and keeps the
statements that lead their segment; so both agree on a text in which one of them finds
nothing wrong. -/
theorem recovery_modes_agree {rule : StandardRule}
    (mem : rule ∈ [.skip, .nothing, .name, .any, .last]) (source : String) (file : FileId) :
    let cut := segments (tokenize source file).1.toList
    let skipped := readWith rule.rule source file .skipToken
    let synced := readWith rule.rule source file .synchronize
    (∀ d ∈ skipped.2.diagnostics.toList, ∃ segment ∈ cut, d.PointsInto segment) ∧
      (∀ s ∈ skipped.1.statements.toList, ∃ segment ∈ cut, s.keyword ∈ segment) ∧
      synced.2.diagnostics.toList = cut.filterMap (firstInto skipped.2.diagnostics) ∧
      synced.1.statements.toList =
        skipped.1.statements.toList.filter (·.Leads cut skipped.2.diagnostics) ∧
      synced.1.statements.toList.Sublist skipped.1.statements.toList ∧
      (skipped.2.diagnostics = #[] ↔ synced.2.diagnostics = #[]) ∧
      (synced.2.diagnostics = #[] → synced.1 = skipped.1) := by
  intro cut skipped synced
  obtain ⟨reader, follows, tame⟩ := StandardRule.exists_tame mem
  obtain ⟨founds, alongs, skippedStatements, skippedMismatches, syncedStatements,
    syncedMismatches⟩ := exists_findings_readWith follows tame source file
  have whole : cut.flatten = (tokenize source file).1.toList := flatten_cutBehind _ _
  have ordered : cut.flatten.Pairwise Token.Before := by
    rw [whole]
    exact (scan_tokenize source file).starts_increase
  have mismatches : synced.2.diagnostics.toList = cut.filterMap (firstInto skipped.2.diagnostics) :=
    syncedMismatches.trans (Finding.mismatches_untilMismatch alongs ordered skippedMismatches)
  have statements : synced.1.statements.toList =
      skipped.1.statements.toList.filter (·.Leads cut skipped.2.diagnostics) := by
    rw [syncedStatements, skippedStatements]
    exact Finding.statements_untilMismatch alongs ordered skippedMismatches
  have clean : skipped.2.diagnostics = #[] ↔ synced.2.diagnostics = #[] := by
    have reported := Finding.filterMap_firstInto_eq_nil_iff alongs skippedMismatches
    rw [← mismatches, Array.toList_eq_nil_iff] at reported
    exact reported.symm
  refine ⟨?_, ?_, mismatches, statements, statements ▸ List.filter_sublist, clean, fun none => ?_⟩
  · exact fun d hd => Finding.exists_pointsInto alongs (skippedMismatches ▸ hd)
  · exact fun s hs => Finding.exists_keyword_mem alongs (skippedStatements ▸ hs)
  · have leads : ∀ s ∈ skipped.1.statements.toList, s.Leads cut skipped.2.diagnostics := by
      intro s _ segment _ _ d first
      rw [clean.mpr none] at first
      cases first
    have same : synced.1.statements.toList = skipped.1.statements.toList := by
      rw [statements, List.filter_eq_self]
      exact fun s hs => decide_eq_true (leads s hs)
    exact congrArg Program.mk (Array.toList_inj.mp same)

/-- A keyword inside a broken statement opens a statement in one mode only. -/
theorem recovery_modes_agree_broken_binding :
    let source := "let = return x; let a = 1;"
    let rule := StandardRule.name
    let cut := segments (tokenize source 0).1.toList
    let skipped := readWith rule.rule source 0 .skipToken
    let synced := readWith rule.rule source 0 .synchronize
    rule ∈ [StandardRule.skip, .nothing, .name, .any, .last] ∧
      synced.2.diagnostics.toList = cut.filterMap (firstInto skipped.2.diagnostics) ∧
      synced.1.statements.toList =
        skipped.1.statements.toList.filter (·.Leads cut skipped.2.diagnostics) ∧
      skipped.1.text = "return x;\nlet a;" ∧ synced.1.text = "let a;" := by
  intro source rule
  have mem : rule ∈ [StandardRule.skip, .nothing, .name, .any, .last] := by decide
  obtain ⟨_, _, mismatches, statements, _⟩ := recovery_modes_agree mem source 0
  exact ⟨mem, mismatches, statements, by decide +kernel, by decide +kernel⟩

end Monkey
