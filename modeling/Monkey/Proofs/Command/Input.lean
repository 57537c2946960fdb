import Monkey.Command.Run
import Monkey.Proofs.Lexer.Tiling
import Monkey.Proofs.Source.Cut

/-! # Lines of the input

The interactive loop cuts the bytes of its input behind line feeds and decodes each line for
itself. Main statement: on the bytes of a text these are the lines of the text, since the byte
of a line feed occurs in no other character. -/

namespace Monkey.Command

/-! ## Cutting bytes -/

theorem toList_loop_eq (bytes : ByteArray) (i : Nat) (read : List UInt8) :
    ByteArray.toList.loop bytes i read = read.reverse ++ bytes.data.toList.drop i := by
  induction i, read using ByteArray.toList.loop.induct bytes with
  | case1 i read more ih =>
    have inside : i < bytes.data.toList.length := more
    rw [ByteArray.toList.loop, if_pos more, ih, List.drop_eq_getElem_cons inside,
      List.reverse_cons, List.append_assoc, List.singleton_append]
    have same : bytes.get! i = bytes.data.toList[i] := getElem!_pos bytes.data i more
    rw [same]
  | case2 i read stop =>
    have outside : bytes.data.toList.length ≤ i := Nat.le_of_not_lt stop
    rw [ByteArray.toList.loop, if_neg stop, List.drop_eq_nil_of_le outside, List.append_nil]

theorem toList_toByteArray (bytes : List UInt8) : bytes.toByteArray.toList = bytes := by
  rw [ByteArray.toList, toList_loop_eq]
  simp

/-- The lines that are cut off and the beginning of the next one, behind one more byte. -/
def byteStep (found : Array ByteArray × ByteArray) (byte : UInt8) :
    Array ByteArray × ByteArray :=
  if byte = 10 then (found.1.push (found.2.push byte), ByteArray.empty)
  else (found.1, found.2.push byte)

/-- All lines, with the last one if it has begun. -/
def finishLines (found : Array ByteArray × ByteArray) : List ByteArray :=
  if found.2.isEmpty then found.1.toList else (found.1.push found.2).toList

theorem push_toByteArray (line : List UInt8) (byte : UInt8) :
    line.toByteArray.push byte = (line ++ [byte]).toByteArray := by
  apply ByteArray.ext
  simp

theorem finishLines_foldl (lines : Array ByteArray) (line : List UInt8)
    (free : ∀ byte ∈ line, decide (byte = 10) = false) (bytes : List UInt8) :
    finishLines (bytes.foldl byteStep (lines, line.toByteArray)) =
      lines.toList ++ (cutBehind (· = 10) (line ++ bytes)).map List.toByteArray := by
  induction bytes generalizing lines line with
  | nil =>
    rw [List.append_nil, List.foldl_nil, finishLines]
    cases line with
    | nil => simp [cutBehind, ByteArray.isEmpty]
    | cons byte line =>
      rw [cutBehind_of_free free (List.cons_ne_nil _ _), if_neg (by simp [ByteArray.isEmpty])]
      simp
  | cons byte bytes ih =>
    rw [List.foldl_cons, byteStep]
    by_cases isEnd : byte = 10
    · rw [if_pos isEnd, cutBehind_mark free (decide_eq_true isEnd), push_toByteArray]
      have rest := ih (lines.push (line ++ [byte]).toByteArray) [] (List.forall_mem_nil _)
      rw [List.nil_append] at rest
      simpa using rest
    · have free' : ∀ b ∈ line ++ [byte], decide (b = 10) = false := by
        intro b mem
        rcases List.mem_append.mp mem with before | here
        · exact free b before
        · simpa [List.mem_singleton.mp here] using isEnd
      have rest := ih lines (line ++ [byte]) free'
      rw [if_neg isEnd, push_toByteArray]
      simpa using rest

theorem byteLines_toByteArray (bytes : List UInt8) :
    byteLines bytes.toByteArray = (cutBehind (· = 10) bytes).map List.toByteArray := by
  have folded := finishLines_foldl #[] [] (List.forall_mem_nil _) bytes
  rw [List.nil_append] at folded
  rw [byteLines, toList_toByteArray]
  exact folded

/-! ## Cutting text -/

/-- A line feed is the only character with its byte. -/
theorem newline_notMem_utf8EncodeChar {c : Char} (other : c ≠ '\n') :
    10 ∉ String.utf8EncodeChar c := by
  have code : c.val.toNat ≠ 10 := by
    intro same
    exact other (Char.ext (UInt32.toNat_inj.mp same))
  have byte : ∀ n : Nat, n % 256 ≠ 10 → ¬ 10 = UInt8.ofNat n := by
    intro n small same
    have value := congrArg UInt8.toNat same
    exact small (by simpa using value.symm)
  unfold String.utf8EncodeChar
  dsimp only
  split_ifs <;> simp only [List.mem_cons, List.not_mem_nil, or_false, not_or] <;>
    repeat' apply And.intro
  all_goals
    apply byte
    omega

theorem newline_notMem_bytesOf {text : List Char} (free : ∀ c ∈ text, decide (c = '\n') = false) :
    ∀ byte ∈ bytesOf text, decide (byte = 10) = false := by
  intro byte mem
  obtain ⟨c, among, inside⟩ := List.mem_flatMap.mp mem
  have other : c ≠ '\n' := of_decide_eq_false (free c among)
  refine decide_eq_false ?_
  rintro rfl
  exact newline_notMem_utf8EncodeChar other inside

theorem cutBehind_bytesOf (text : List Char) :
    cutBehind (· = 10) (bytesOf text) = (cutBehind (· = '\n') text).map bytesOf := by
  induction text using cut_induction (· = '\n') with
  | nil => rfl
  | last body free nonempty =>
    have some : bytesOf body ≠ [] := by
      obtain ⟨c, cs, rfl⟩ := List.exists_cons_of_ne_nil nonempty
      have size := c.utf8Size_pos
      rw [← List.length_pos_iff, length_bytesOf, String.utf8Len_cons]
      omega
    rw [cutBehind_of_free free nonempty, cutBehind_of_free (newline_notMem_bytesOf free) some]
    rfl
  | mark body c rest free isMark ih =>
    obtain rfl : c = '\n' := of_decide_eq_true isMark
    have split : bytesOf (body ++ '\n' :: rest) = bytesOf body ++ 10 :: bytesOf rest :=
      bytesOf_append body ('\n' :: rest)
    rw [split, cutBehind_mark (newline_notMem_bytesOf free) rfl, ih, cutBehind_mark free isMark,
      List.map_cons, bytesOf_append]
    rfl

/-- The lines of a text, each with its line feed. The last one may have none. -/
def textLines (source : String) : List String :=
  (cutBehind (· = '\n') source.toList).map String.ofList

theorem decodeText_toByteArray (text : String) : decodeText text.toByteArray = .ok text := by
  rw [decodeText, String.fromUTF8?, dif_pos text.isValidUTF8]
  rfl

/-- The loop is given the lines of its input. -/
theorem byteLines_decode (source : String) :
    (byteLines source.toUTF8).map decodeText = (textLines source).map .ok := by
  have decode : ∀ text : List Char,
      decodeText (bytesOf text).toByteArray = .ok (String.ofList text) := by
    intro text
    rw [← decodeText_toByteArray, toByteArray_eq, String.toList_ofList]
  have bytes : source.toUTF8 = (bytesOf source.toList).toByteArray := toByteArray_eq source
  rw [bytes, byteLines_toByteArray, cutBehind_bytesOf, textLines, List.map_map, List.map_map,
    List.map_map]
  exact List.map_congr_left fun text _ => decode text

end Monkey.Command
