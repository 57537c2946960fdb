import Mathlib.Data.List.TakeWhile

/-! # Cutting behind marks

A list is cut behind each of its marks, so that every part but the last one ends with a mark
and has no other. -/

namespace Monkey

variable {α : Type} {p : α → Bool}

/-- The parts of a list, each up to and including a mark. -/
def cutBehind (p : α → Bool) : List α → List (List α)
  | [] => []
  | x :: xs =>
    if p x then [x] :: cutBehind p xs
    else match cutBehind p xs with
      | [] => [[x]]
      | part :: more => (x :: part) :: more

theorem cutBehind_of_free {body : List α} (free : ∀ x ∈ body, p x = false) (nonempty : body ≠ []) :
    cutBehind p body = [body] := by
  induction body with
  | nil => exact absurd rfl nonempty
  | cons x body ih =>
    obtain ⟨first, others⟩ := List.forall_mem_cons.mp free
    rw [cutBehind, if_neg (Bool.eq_false_iff.mp first)]
    cases body with
    | nil => rfl
    | cons y body => rw [ih others (List.cons_ne_nil _ _)]

theorem cutBehind_mark {body : List α} {mark : α} (free : ∀ x ∈ body, p x = false)
    (isMark : p mark = true) (rest : List α) :
    cutBehind p (body ++ mark :: rest) = (body ++ [mark]) :: cutBehind p rest := by
  induction body with
  | nil => simp [cutBehind, isMark]
  | cons x body ih =>
    obtain ⟨first, others⟩ := List.forall_mem_cons.mp free
    rw [List.cons_append, cutBehind, if_neg (Bool.eq_false_iff.mp first), ih others]
    rfl

/-- Cutting as an induction: a list is empty, or has no mark, or is cut behind its first one. -/
theorem cut_induction (p : α → Bool) {motive : List α → Prop} (nil : motive [])
    (last : ∀ body, (∀ x ∈ body, p x = false) → body ≠ [] → motive body)
    (mark : ∀ body x rest, (∀ y ∈ body, p y = false) → p x = true → motive rest →
      motive (body ++ x :: rest)) (list : List α) : motive list := by
  induction h : list.length using Nat.strong_induction_on generalizing list with
  | _ n ih =>
    have split := List.takeWhile_append_dropWhile (p := (!p ·)) (l := list)
    have free : ∀ x ∈ list.takeWhile (!p ·), p x = false := by
      intro x mem
      simpa using List.mem_takeWhile_imp mem
    cases rest : list.dropWhile (!p ·) with
    | nil =>
      rw [rest, List.append_nil] at split
      rw [split] at free
      by_cases empty : list = []
      · exact empty ▸ nil
      · exact last list free empty
    | cons x more =>
      have isMark : p x = true := by
        simpa [rest] using List.head?_dropWhile_not (!p ·) list
      rw [rest] at split
      have shorter : more.length < n := by
        rw [← h, ← split, List.length_append, List.length_cons]
        omega
      rw [← split]
      exact mark _ x more free isMark (ih _ shorter more rfl)

/-- Cutting loses nothing. -/
theorem flatten_cutBehind (p : α → Bool) (list : List α) : (cutBehind p list).flatten = list := by
  induction list using cut_induction p with
  | nil => rfl
  | last body free nonempty => simp [cutBehind_of_free free nonempty]
  | mark body x rest free isMark ih => simp [cutBehind_mark free isMark, ih]

/-- Every part but the last one ends with a mark and has no other. -/
theorem of_mem_dropLast_cutBehind {list part : List α} (mem : part ∈ (cutBehind p list).dropLast) :
    ∃ body x, part = body ++ [x] ∧ (∀ y ∈ body, p y = false) ∧ p x = true := by
  induction list using cut_induction p with
  | nil => exact absurd mem List.not_mem_nil
  | last body free nonempty =>
    rw [cutBehind_of_free free nonempty] at mem
    exact absurd mem List.not_mem_nil
  | mark body x rest free isMark ih =>
    rw [cutBehind_mark free isMark] at mem
    by_cases none : cutBehind p rest = []
    · rw [none] at mem
      exact absurd mem List.not_mem_nil
    · rw [List.dropLast_cons_of_ne_nil none] at mem
      rcases List.mem_cons.mp mem with rfl | later
      · exact ⟨body, x, rfl, free, isMark⟩
      · exact ih later

/-- A list that ends with a mark is cut apart from what stands behind it. -/
theorem cutBehind_append {front : List α} (ends : ∀ x ∈ front.getLast?, p x = true)
    (rest : List α) : cutBehind p (front ++ rest) = cutBehind p front ++ cutBehind p rest := by
  induction front using cut_induction p with
  | nil => rfl
  | last body free nonempty =>
    have isLast := List.getLast?_eq_some_getLast nonempty
    have marked := ends _ isLast
    rw [free _ (List.mem_of_getLast? isLast)] at marked
    cases marked
  | mark body x more free isMark ih =>
    have ends' : ∀ y ∈ more.getLast?, p y = true := by
      intro y isLast
      apply ends y
      rw [List.getLast?_append, List.getLast?_cons, isLast]
      rfl
    rw [List.append_assoc, List.cons_append, cutBehind_mark free isMark,
      cutBehind_mark free isMark, ih ends', List.cons_append]

/-- Parts of a list whose marks are seen before and after a map. -/
theorem cutBehind_map {β : Type} {q : β → Bool} {f : α → β} (same : ∀ x, q (f x) = p x)
    (list : List α) : cutBehind q (list.map f) = (cutBehind p list).map (List.map f) := by
  induction list with
  | nil => rfl
  | cons x list ih =>
    rw [List.map_cons, cutBehind, cutBehind, same, ih]
    split
    · rfl
    · cases cutBehind p list <;> rfl

end Monkey
