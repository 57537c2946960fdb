import Mathlib.Data.List.Induction
import Monkey.Source.Cache

/-! # The numbers of files

A cache is asked to add files and to forget them all, in any order. The number that a file is
known by counts the files that came before it since they were forgotten last, and it finds the
file as long as they are not forgotten again. -/

namespace Monkey.SourceCache

/-! ## Histories -/

/-- A cache behind some requests. -/
def after (cache : SourceCache) (requests : List Request) : SourceCache :=
  requests.foldl (fun cache request => (cache.answer request).2) cache

/-- The requests behind the last one to forget all files. Each of them adds a file. -/
def sinceClear (requests : List Request) : List Request :=
  (requests.reverse.takeWhile (· ≠ .clear)).reverse

variable (requests : List Request) (name source : String)

theorem after_append_add :
    empty.after (requests ++ [.add name source]) = ((empty.after requests).add name source).2 := by
  rw [after, List.foldl_append]
  rfl

theorem after_append_clear : empty.after (requests ++ [.clear]) = empty := by
  rw [after, List.foldl_append]
  rfl

theorem sinceClear_append_add :
    sinceClear (requests ++ [.add name source]) = sinceClear requests ++ [.add name source] := by
  simp [sinceClear]

theorem sinceClear_append_clear : sinceClear (requests ++ [.clear]) = [] := by
  simp [sinceClear]

theorem size_after : (empty.after requests).files.size = (sinceClear requests).length := by
  induction requests using List.reverseRecOn with
  | nil => rfl
  | append_singleton requests request ih =>
    cases request with
    | add name source =>
      rw [after_append_add, sinceClear_append_add, List.length_append, ← ih]
      exact Array.size_push _
    | clear =>
      rw [after_append_clear, sinceClear_append_clear]
      rfl

/-! ## Files and the requests that added them -/

/-- A request among some is the last one, or it is among those before. -/
theorem append_singleton_eq_iff {requests before rest : List Request} {last request : Request} :
    requests ++ [last] = before ++ request :: rest ↔
      (requests = before ∧ last = request ∧ rest = []) ∨
        ∃ front, requests = before ++ request :: front ∧ rest = front ++ [last] := by
  rcases rest.eq_nil_or_concat with rfl | ⟨front, final, rfl⟩
  · simp
  · have assoc : before ++ request :: (front ++ [final]) =
        before ++ request :: front ++ [final] := by simp
    rw [List.concat_eq_append, assoc]
    constructor
    · intro same
      obtain ⟨earlier, ends⟩ := List.append_inj' same rfl
      exact .inr ⟨front, earlier, by rw [ends]⟩
    · rintro (⟨_, _, none⟩ | ⟨more, rfl, same⟩)
      · simp at none
      · rw [← assoc, same, List.append_assoc, List.cons_append]

/-- The file in a place is the one that was added when so many files had been added before. -/
theorem getElem?_after {i : Nat} {file : SourceFile} :
    (empty.after requests).files[i]? = some file ↔ ∃ before name source rest,
      requests = before ++ .add name source :: rest ∧ .clear ∉ rest ∧
        (sinceClear before).length = i ∧ file = .ofText name source := by
  induction requests using List.reverseRecOn with
  | nil => simp [after, empty]
  | append_singleton requests request ih =>
    cases request with
    | add name source =>
      have files : (empty.after (requests ++ [.add name source])).files =
          (empty.after requests).files.push (.ofText name source) := by
        rw [after_append_add]
        rfl
      rw [files, Array.getElem?_push, size_after]
      constructor
      · intro found
        split at found
        · rename_i place
          exact ⟨requests, name, source, [], rfl, by simp, place.symm, (Option.some.inj found).symm⟩
        · obtain ⟨before, name', source', rest, rfl, kept, place, same⟩ := ih.mp found
          exact ⟨before, name', source', rest ++ [.add name source], by simp, by simpa using kept,
            place, same⟩
      · rintro ⟨before, name', source', rest, split, kept, place, rfl⟩
        rcases append_singleton_eq_iff.mp split with ⟨rfl, same, rfl⟩ | ⟨front, rfl, rfl⟩
        · cases same
          rw [if_pos place.symm]
        · have earlier := ih.mpr ⟨before, name', source', front, rfl, by simpa using kept, place, rfl⟩
          have bound := (Array.getElem?_eq_some_iff.mp earlier).1
          rw [size_after] at bound
          rw [if_neg (Nat.ne_of_lt bound), earlier]
    | clear =>
      rw [after_append_clear]
      refine iff_of_false (by simp [empty]) ?_
      rintro ⟨before, name, source, rest, split, kept, _⟩
      rcases append_singleton_eq_iff.mp split with ⟨_, other, _⟩ | ⟨front, _, rfl⟩
      · cases other
      · simp at kept

/-! ## Numbers -/

/-- A file is known by how many there were before it, as long as there are numbers left. -/
theorem toNat_add_of_lt {cache : SourceCache} {name source : String}
    (room : cache.files.size < UInt32.size) :
    (cache.add name source).1.toNat = cache.files.size := UInt32.toNat_ofNat_of_lt room

/-- At no time there are more files than numbers. -/
def Fits (requests : List Request) : Prop :=
  ∀ front, front <+: requests → (sinceClear front).length ≤ UInt32.size

theorem fits_of_length_le {requests : List Request} (few : requests.length ≤ UInt32.size) :
    Fits requests := by
  intro front begins
  have last : front.reverse.takeWhile (· ≠ .clear) <+: front.reverse := List.takeWhile_prefix _
  have tail := last.length_le
  have whole := begins.length_le
  rw [List.length_reverse] at tail
  rw [sinceClear, List.length_reverse]
  omega

section

variable {requests : List Request} (fits : Fits requests)

include fits

/-- The number of a file counts those before it. -/
theorem toNat_add {before rest : List Request} {name source : String}
    (split : requests = before ++ .add name source :: rest) :
    ((empty.after before).add name source).1.toNat = (sinceClear before).length := by
  have room := fits (before ++ [.add name source]) ⟨rest, by simp [split]⟩
  rw [sinceClear_append_add, List.length_append, List.length_singleton] at room
  rw [toNat_add_of_lt (by rw [size_after]; exact room), size_after]

/-- The files that are found are those that have not been forgotten, by their numbers. -/
theorem get?_after_eq_some_iff (id : FileId) (file : SourceFile) :
    (empty.after requests).get? id = some file ↔ ∃ before name source rest,
      requests = before ++ .add name source :: rest ∧ .clear ∉ rest ∧
        id = ((empty.after before).add name source).1 ∧ file = .ofText name source := by
  rw [get?, getElem?_after]
  constructor
  · rintro ⟨before, name, source, rest, split, kept, place, same⟩
    refine ⟨before, name, source, rest, split, kept, UInt32.toNat_inj.mp ?_, same⟩
    rw [toNat_add fits split, place]
  · rintro ⟨before, name, source, rest, split, kept, rfl, same⟩
    exact ⟨before, name, source, rest, split, kept, (toNat_add fits split).symm, same⟩

end

theorem isSome_get?_after (id : FileId) :
    ((empty.after requests).get? id).isSome ↔ id.toNat < (sinceClear requests).length := by
  rw [get?, ← size_after]
  simp

/-! ## More files -/

/-- Adds files one after another, with their numbers. -/
def addAll (cache : SourceCache) : List (String × String) → List FileId × SourceCache
  | [] => ([], cache)
  | (name, source) :: more =>
    let added := cache.add name source
    let others := added.2.addAll more
    (added.1 :: others.1, others.2)

variable {cache : SourceCache} {id : FileId}

theorem get?_add_of_ne {name source : String} (other : id ≠ (cache.add name source).1) :
    (cache.add name source).2.get? id = cache.get? id := by
  have place : id.toNat ≠ cache.files.size := by
    intro same
    exact other (UInt32.toNat_inj.mp (by rw [add, ← same, UInt32.ofNat_toNat]))
  rw [get?, add, Array.getElem?_push, if_neg place]
  rfl

/-- A number that no new file is given finds what it has found before. -/
theorem get?_addAll_of_notMem {more : List (String × String)} (other : id ∉ (cache.addAll more).1) :
    (cache.addAll more).2.get? id = cache.get? id := by
  induction more generalizing cache with
  | nil => rfl
  | cons file more ih =>
    have first := List.ne_of_not_mem_cons other
    have others := List.not_mem_of_not_mem_cons other
    exact (ih others).trans (get?_add_of_ne first)

/-- A number that a new file is given has found nothing before, unless the numbers run out. -/
theorem get?_of_mem_addAll {more : List (String × String)}
    (room : cache.files.size + more.length ≤ UInt32.size) (mem : id ∈ (cache.addAll more).1) :
    cache.get? id = none := by
  induction more generalizing cache with
  | nil => cases mem
  | cons file more ih =>
    rw [List.length_cons] at room
    rcases List.mem_cons.mp mem with rfl | later
    · rw [get?, toNat_add_of_lt (by omega)]
      exact Array.getElem?_eq_none (Nat.le_refl _)
    · have grown : (cache.add file.1 file.2).2.files.size = cache.files.size + 1 :=
        Array.size_push _
      have missing := ih (by omega) later
      rw [get?, Array.getElem?_eq_none_iff, grown] at missing
      exact Array.getElem?_eq_none (by omega)

end Monkey.SourceCache
