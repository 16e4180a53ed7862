import RiscvEmulator.Library.InstructionFormat

/-!
# Words in a little-endian byte string

`words` cuts a byte string into 32-bit words, lowest byte first, and `wordBytes` lays
a word out again. A byte string whose length is a multiple of 4 and its list of words
determine each other.
-/
namespace RiscvEmulator.Library.WordBytes
open InstructionFormat (Word)

/-- The four bytes of a word, lowest first. -/
def wordBytes (w : Word) : List (BitVec 8) :=
  [w.extractLsb' 0 8, w.extractLsb' 8 8, w.extractLsb' 16 8, w.extractLsb' 24 8]

def wordOf (b0 b1 b2 b3 : BitVec 8) : Word := b3 ++ b2 ++ b1 ++ b0

/-- The words of a byte string; up to three bytes at its end are left over. -/
def words : List (BitVec 8) → List Word
  | b0 :: b1 :: b2 :: b3 :: rest => wordOf b0 b1 b2 b3 :: words rest
  | _ => []

theorem wordBytes_wordOf (b0 b1 b2 b3 : BitVec 8) :
    wordBytes (wordOf b0 b1 b2 b3) = [b0, b1, b2, b3] := by
  have byte0 : (wordOf b0 b1 b2 b3).extractLsb' 0 8 = b0 := BitVec.extractLsb'_append_eq_right
  have byte1 : (wordOf b0 b1 b2 b3).extractLsb' 8 8 = b1 := by
    rw [wordOf, BitVec.extractLsb'_append_eq_of_le (by decide)]
    exact BitVec.extractLsb'_append_eq_right
  have byte2 : (wordOf b0 b1 b2 b3).extractLsb' 16 8 = b2 := by
    rw [wordOf, BitVec.extractLsb'_append_eq_of_le (by decide),
      BitVec.extractLsb'_append_eq_of_le (by decide)]
    exact BitVec.extractLsb'_append_eq_right
  have byte3 : (wordOf b0 b1 b2 b3).extractLsb' 24 8 = b3 := by
    rw [wordOf, BitVec.extractLsb'_append_eq_of_le (by decide),
      BitVec.extractLsb'_append_eq_of_le (by decide)]
    exact BitVec.extractLsb'_append_eq_left
  rw [wordBytes, byte0, byte1, byte2, byte3]

theorem wordOf_wordBytes (w : Word) :
    wordOf (w.extractLsb' 0 8) (w.extractLsb' 8 8) (w.extractLsb' 16 8) (w.extractLsb' 24 8) =
      w := by
  have h16 : w.extractLsb' 24 8 ++ w.extractLsb' 16 8 = w.extractLsb' 16 16 :=
    BitVec.extractLsb'_append_extractLsb'_eq_extractLsb' rfl
  have h8 : w.extractLsb' 16 16 ++ w.extractLsb' 8 8 = w.extractLsb' 8 24 :=
    BitVec.extractLsb'_append_extractLsb'_eq_extractLsb' rfl
  have h0 : w.extractLsb' 8 24 ++ w.extractLsb' 0 8 = w.extractLsb' 0 32 :=
    BitVec.extractLsb'_append_extractLsb'_eq_extractLsb' rfl
  rw [wordOf, h16, h8, h0]
  exact BitVec.extractLsb'_eq_self

theorem wordBytes_injective {v w : Word} (h : wordBytes v = wordBytes w) : v = w := by
  simp only [wordBytes, List.cons.injEq, and_true] at h
  obtain ⟨h0, h8, h16, h24⟩ := h
  rw [← wordOf_wordBytes v, ← wordOf_wordBytes w, h0, h8, h16, h24]

@[simp] theorem length_wordBytes (w : Word) : (wordBytes w).length = 4 := rfl

@[simp] theorem words_wordBytes_append (w : Word) (bytes : List (BitVec 8)) :
    words (wordBytes w ++ bytes) = w :: words bytes := by
  have cut : words (wordBytes w ++ bytes) =
      wordOf (w.extractLsb' 0 8) (w.extractLsb' 8 8) (w.extractLsb' 16 8) (w.extractLsb' 24 8) ::
        words bytes := rfl
  rw [cut, wordOf_wordBytes]

theorem words_flatMap (ws : List Word) : words (ws.flatMap wordBytes) = ws := by
  induction ws with
  | nil => rfl
  | cons w ws ih => rw [List.flatMap_cons, words_wordBytes_append, ih]

theorem length_flatMap (ws : List Word) : (ws.flatMap wordBytes).length = 4 * ws.length := by
  induction ws with
  | nil => rfl
  | cons w ws ih =>
    rw [List.flatMap_cons, List.length_append, length_wordBytes, ih, List.length_cons]
    omega

/-- Four bytes make a word; the bytes left over make none. -/
theorem length_words (bytes : List (BitVec 8)) : (words bytes).length = bytes.length / 4 := by
  fun_induction words bytes with
  | case1 b0 b1 b2 b3 rest ih =>
    simp only [List.length_cons, ih]
    omega
  | case2 bytes hshort =>
    have hlt : bytes.length < 4 := by
      by_contra hlong
      match bytes, hshort with
      | b0 :: b1 :: b2 :: b3 :: rest, hshort => exact hshort b0 b1 b2 b3 rest rfl
      | [], _ | [_], _ | [_, _], _ | [_, _, _], _ => simp at hlong
    simp only [List.length_nil]
    omega

/-- Cutting at a multiple of 4 cuts no word. -/
theorem words_append {left : List (BitVec 8)} (right : List (BitVec 8))
    (hlen : left.length % 4 = 0) : words (left ++ right) = words left ++ words right := by
  fun_induction words left with
  | case1 b0 b1 b2 b3 rest ih =>
    have hrest : rest.length % 4 = 0 := by
      simp only [List.length_cons] at hlen
      omega
    simp only [List.cons_append, words, ih hrest]
  | case2 left hshort =>
    match left, hshort with
    | [], _ => rfl
    | [_], _ | [_, _], _ | [_, _, _], _ => simp at hlen
    | b0 :: b1 :: b2 :: b3 :: rest, hshort => exact absurd rfl (hshort b0 b1 b2 b3 rest)

/-- Whole words give their bytes back. -/
theorem flatMap_words {bytes : List (BitVec 8)} (hlen : bytes.length % 4 = 0) :
    (words bytes).flatMap wordBytes = bytes := by
  fun_induction words bytes with
  | case1 b0 b1 b2 b3 rest ih =>
    have hrest : rest.length % 4 = 0 := by
      simp only [List.length_cons] at hlen
      omega
    rw [List.flatMap_cons, wordBytes_wordOf, ih hrest]
    rfl
  | case2 bytes hshort =>
    match bytes, hshort with
    | [], _ => rfl
    | [_], _ | [_, _], _ | [_, _, _], _ => simp at hlen
    | b0 :: b1 :: b2 :: b3 :: rest, hshort => exact absurd rfl (hshort b0 b1 b2 b3 rest)

/-- Word `i` is made of the four bytes from offset `4 * i`. -/
theorem wordBytes_getElem (bytes : List (BitVec 8)) (i : Nat) (hi : i < (words bytes).length) :
    wordBytes (words bytes)[i] = (bytes.drop (4 * i)).take 4 := by
  fun_induction words bytes generalizing i with
  | case1 b0 b1 b2 b3 rest ih =>
    cases i with
    | zero => exact wordBytes_wordOf b0 b1 b2 b3
    | succ i =>
      have hdrop : (b0 :: b1 :: b2 :: b3 :: rest).drop (4 * (i + 1)) = rest.drop (4 * i) := by
        rw [show 4 * (i + 1) = 4 * i + 4 by omega]
        rfl
      rw [List.getElem_cons_succ, hdrop]
      exact ih i (Nat.lt_of_succ_lt_succ hi)
  | case2 => cases hi

/-- The four bytes from offset `4 * i` make one word, word `i`. -/
theorem words_slice (bytes : List (BitVec 8)) (i : Nat) (hi : i < (words bytes).length) :
    words ((bytes.drop (4 * i)).take 4) = [(words bytes)[i]] := by
  rw [← wordBytes_getElem bytes i hi, ← List.append_nil (wordBytes _), words_wordBytes_append]
  rfl

theorem words_getElem (bytes : List (BitVec 8)) (i : Nat) (hi : i < (words bytes).length)
    (hlt : 4 * i + 3 < bytes.length) :
    (words bytes)[i] = wordOf bytes[4 * i] bytes[4 * i + 1] bytes[4 * i + 2] bytes[4 * i + 3] := by
  apply wordBytes_injective
  rw [wordBytes_getElem, wordBytes_wordOf]
  apply List.ext_getElem
  · simp only [List.length_take, List.length_drop, List.length_cons, List.length_nil]
    omega
  · intro k hk hk'
    simp only [List.length_cons, List.length_nil] at hk'
    interval_cases k <;> simp

end RiscvEmulator.Library.WordBytes
