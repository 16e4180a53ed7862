import Mathlib.Data.List.Basic

/-!
# Slices of a buffer

Reading and overwriting a slice of a list, with the two facts each write obeys: the
slice holds what was written, and every other place keeps what it held. `writeAll` makes
several writes; if their slices are apart, the first fact holds for each of them.
-/
namespace RiscvEmulator.Library.ByteBuffer

variable {α : Type}

/-- The `size` elements from `start`, if the buffer has them. -/
def readAt (buffer : List α) (start size : Nat) : Option (List α) :=
  if start + size ≤ buffer.length then some ((buffer.drop start).take size) else none

/-- The buffer with `items` written from `start`, if they fit. -/
def writeAt (buffer : List α) (start : Nat) (items : List α) : Option (List α) :=
  if start + items.length ≤ buffer.length then
    some (buffer.take start ++ items ++ buffer.drop (start + items.length))
  else none

variable {buffer buffer' items : List α} {start size : Nat}

theorem readAt_eq_some (h : readAt buffer start size = some items) :
    start + size ≤ buffer.length ∧ items.length = size ∧
      ∀ k, k < size → items[k]? = buffer[start + k]? := by
  unfold readAt at h
  split at h
  · next hfit =>
    obtain rfl := Option.some.inj h
    refine ⟨hfit, ?_, ?_⟩
    · rw [List.length_take, List.length_drop]
      omega
    · intro k hk
      rw [List.getElem?_take_of_lt hk, List.getElem?_drop]
  · cases h

theorem readAt_of_le (hfit : start + size ≤ buffer.length) :
    readAt buffer start size = some ((buffer.drop start).take size) := if_pos hfit

/-- Items that are all the same are read as so many of them. -/
theorem readAt_replicate {item : α} (hfit : start + size ≤ buffer.length)
    (hsame : ∀ i, start ≤ i → i < start + size → buffer[i]? = some item) :
    readAt buffer start size = some (List.replicate size item) := by
  rw [readAt_of_le hfit]
  congr 1
  apply List.ext_getElem?
  intro i
  by_cases hi : i < size
  · rw [List.getElem?_take_of_lt hi, List.getElem?_drop, hsame _ (by omega) (by omega),
      List.getElem?_replicate_of_lt hi]
  · rw [List.getElem?_take_eq_none (by omega), List.getElem?_eq_none (by simp; omega)]

theorem writeAt_of_le (hfit : start + items.length ≤ buffer.length) :
    ∃ buffer', writeAt buffer start items = some buffer' := ⟨_, if_pos hfit⟩

theorem fits_of_writeAt (h : writeAt buffer start items = some buffer') :
    start + items.length ≤ buffer.length := by
  unfold writeAt at h
  split at h
  · next hfit => exact hfit
  · cases h

theorem length_of_writeAt (h : writeAt buffer start items = some buffer') :
    buffer'.length = buffer.length := by
  have hfit := fits_of_writeAt h
  rw [writeAt, if_pos hfit] at h
  obtain rfl := Option.some.inj h
  simp only [List.length_append, List.length_take, List.length_drop]
  omega

/-- The slice holds what was written. -/
theorem getElem?_of_writeAt (h : writeAt buffer start items = some buffer') {k : Nat}
    (hk : k < items.length) : buffer'[start + k]? = items[k]? := by
  have hfit := fits_of_writeAt h
  rw [writeAt, if_pos hfit] at h
  obtain rfl := Option.some.inj h
  have hprefix : (buffer.take start).length = start := by
    rw [List.length_take]
    omega
  rw [List.append_assoc, List.getElem?_append_right (by omega), hprefix,
    Nat.add_sub_cancel_left, List.getElem?_append_left hk]

/-- Every place outside the slice keeps what it held. -/
theorem getElem?_of_writeAt_outside (h : writeAt buffer start items = some buffer') {j : Nat}
    (hj : j < start ∨ start + items.length ≤ j) : buffer'[j]? = buffer[j]? := by
  have hfit := fits_of_writeAt h
  rw [writeAt, if_pos hfit] at h
  obtain rfl := Option.some.inj h
  have hprefix : (buffer.take start).length = start := by
    rw [List.length_take]
    omega
  rcases hj with hj | hj
  · rw [List.append_assoc, List.getElem?_append_left (by omega), List.getElem?_take_of_lt hj]
  · rw [List.append_assoc, List.getElem?_append_right (by omega), hprefix,
      List.getElem?_append_right (by omega), List.getElem?_drop]
    congr 1
    omega

theorem slice_ext {left right : List α} {i j count : Nat}
    (h : ∀ k, k < count → left[i + k]? = right[j + k]?) :
    (left.drop i).take count = (right.drop j).take count := by
  apply List.ext_getElem?
  intro k
  by_cases hk : k < count
  · rw [List.getElem?_take_of_lt hk, List.getElem?_take_of_lt hk, List.getElem?_drop,
      List.getElem?_drop, h k hk]
  · rw [List.getElem?_take_eq_none (Nat.le_of_not_lt hk),
      List.getElem?_take_eq_none (Nat.le_of_not_lt hk)]

/-- A slice inside the one written is that slice of what was written. -/
theorem slice_of_writeAt (h : writeAt buffer start items = some buffer') {offset count : Nat}
    (hinside : offset + count ≤ items.length) :
    (buffer'.drop (start + offset)).take count = (items.drop offset).take count := by
  apply slice_ext
  intro k hk
  rw [Nat.add_assoc, getElem?_of_writeAt h (by omega)]

/-- A slice apart from the one written keeps what it held. -/
theorem slice_of_writeAt_outside (h : writeAt buffer start items = some buffer') {place count : Nat}
    (houtside : place + count ≤ start ∨ start + items.length ≤ place) :
    (buffer'.drop place).take count = (buffer.drop place).take count := by
  apply slice_ext
  intro k hk
  exact getElem?_of_writeAt_outside h (by omega)

/-- Two buffers of one length with the same items at some places. -/
structure AgreeOn (places : Nat → Prop) (buffer buffer' : List α) : Prop where
  length : buffer'.length = buffer.length
  items : ∀ i, places i → buffer'[i]? = buffer[i]?

theorem AgreeOn.mono {places places' : Nat → Prop} (h : AgreeOn places buffer buffer')
    (himp : ∀ i, places' i → places i) : AgreeOn places' buffer buffer' :=
  ⟨h.length, fun i hi => h.items i (himp i hi)⟩

/-- The same write either fails for both of them, or makes them agree on its slice too. -/
theorem AgreeOn.writeAt {places : Nat → Prop} (h : AgreeOn places buffer buffer') (start : Nat)
    (items : List α) :
    (writeAt buffer start items = none ∧ writeAt buffer' start items = none) ∨
      ∃ written written', writeAt buffer start items = some written ∧
        writeAt buffer' start items = some written' ∧
        AgreeOn (fun i => places i ∨ (start ≤ i ∧ i < start + items.length)) written written' := by
  by_cases hfit : start + items.length ≤ buffer.length
  · obtain ⟨written, hwrite⟩ := writeAt_of_le hfit
    obtain ⟨written', hwrite'⟩ := writeAt_of_le (h.length ▸ hfit)
    refine .inr ⟨written, written', hwrite, hwrite', ?_, fun i hi => ?_⟩
    · rw [length_of_writeAt hwrite, length_of_writeAt hwrite', h.length]
    · by_cases hslice : start ≤ i ∧ i < start + items.length
      · obtain ⟨k, rfl⟩ := Nat.exists_eq_add_of_le hslice.1
        rw [getElem?_of_writeAt hwrite (by omega), getElem?_of_writeAt hwrite' (by omega)]
      · rw [getElem?_of_writeAt_outside hwrite (by omega),
          getElem?_of_writeAt_outside hwrite' (by omega)]
        exact h.items i (hi.resolve_right hslice)
  · refine .inl ⟨if_neg hfit, if_neg ?_⟩
    rw [h.length]
    exact hfit

/-- Several writes, each given by its start and its items. -/
def writeAll (buffer : List α) : List (Nat × List α) → Option (List α)
  | [] => some buffer
  | (start, items) :: writes =>
    match writeAt buffer start items with
    | some buffer => writeAll buffer writes
    | none => none

/-- The slices of two writes have no place in common. -/
def Apart (a b : Nat × List α) : Prop :=
  a.1 + a.2.length ≤ b.1 ∨ b.1 + b.2.length ≤ a.1

/-- The writes fill the places from `start` on, each where the one before it ends. -/
def Contiguous (start : Nat) : List (Nat × List α) → Prop
  | [] => True
  | (next, items) :: writes => next = start ∧ Contiguous (start + items.length) writes

section Writes
variable {writes : List (Nat × List α)}

theorem contiguous_of_isChain {write : Nat × List α}
    (h : (write :: writes).IsChain fun a b => a.1 + a.2.length = b.1) :
    Contiguous write.1 (write :: writes) := by
  induction writes generalizing write with
  | nil => exact ⟨rfl, trivial⟩
  | cons next writes ih =>
    obtain ⟨hnext, hrest⟩ := List.isChain_cons_cons.mp h
    have hcontiguous := ih hrest
    rw [← hnext] at hcontiguous
    exact ⟨rfl, hcontiguous⟩

/-- Contiguous writes end where the last of them ends. -/
theorem length_of_contiguous (hcontiguous : Contiguous start writes) {last : Nat × List α}
    (hlast : writes.getLast? = some last) :
    start + (writes.flatMap Prod.snd).length = last.1 + last.2.length := by
  induction writes generalizing start with
  | nil => cases hlast
  | cons write writes ih =>
    obtain ⟨hstart, hrest⟩ := hcontiguous
    rw [List.flatMap_cons, List.length_append, ← Nat.add_assoc]
    cases writes with
    | nil =>
      have hsame : write = last := Option.some.inj hlast
      rw [← hsame, hstart, List.flatMap_nil, List.length_nil, Nat.add_zero]
    | cons next writes =>
      rw [List.getLast?_cons_cons] at hlast
      exact ih hrest hlast

theorem writeAll_cons (h : writeAll buffer ((start, items) :: writes) = some buffer') :
    ∃ middle, writeAt buffer start items = some middle ∧ writeAll middle writes = some buffer' := by
  unfold writeAll at h
  split at h
  · next middle hwrite => exact ⟨middle, hwrite, h⟩
  · cases h

theorem getElem?_of_writeAll_outside (h : writeAll buffer writes = some buffer') {j : Nat}
    (hj : ∀ write ∈ writes, j < write.1 ∨ write.1 + write.2.length ≤ j) :
    buffer'[j]? = buffer[j]? := by
  induction writes generalizing buffer with
  | nil => rw [← Option.some.inj h]
  | cons write writes ih =>
    obtain ⟨middle, hwrite, hrest⟩ := writeAll_cons h
    rw [ih hrest (fun w hw => hj w (List.mem_cons_of_mem _ hw)),
      getElem?_of_writeAt_outside hwrite (hj write List.mem_cons_self)]

/-- A later write does not damage an earlier one that is apart from it. -/
theorem getElem?_of_writeAll (h : writeAll buffer writes = some buffer')
    (hapart : writes.Pairwise Apart) {write : Nat × List α} (hmem : write ∈ writes) {k : Nat}
    (hk : k < write.2.length) : buffer'[write.1 + k]? = write.2[k]? := by
  induction writes generalizing buffer with
  | nil => exact absurd hmem List.not_mem_nil
  | cons first writes ih =>
    obtain ⟨middle, hwrite, hrest⟩ := writeAll_cons h
    obtain ⟨hfirst, hothers⟩ := List.pairwise_cons.mp hapart
    rcases List.mem_cons.mp hmem with rfl | hmem
    · have houtside : buffer'[write.1 + k]? = middle[write.1 + k]? := by
        refine getElem?_of_writeAll_outside hrest fun other hother => ?_
        rcases hfirst other hother with hbefore | hafter
        · exact .inl (by omega)
        · exact .inr (by omega)
      rw [houtside, getElem?_of_writeAt hwrite hk]
    · exact ih hrest hothers hmem

/-- Contiguous writes put their items one after the other. -/
theorem writeAll_contiguous (h : writeAll buffer writes = some buffer')
    (hcontiguous : Contiguous start writes) :
    buffer' = buffer.take start ++ writes.flatMap Prod.snd ++
      buffer.drop (start + (writes.flatMap Prod.snd).length) := by
  induction writes generalizing buffer start with
  | nil =>
    obtain rfl := Option.some.inj h
    simp
  | cons write writes ih =>
    obtain ⟨middle, hwrite, hrest⟩ := writeAll_cons h
    obtain ⟨rfl, hnext⟩ := hcontiguous
    have hfit := fits_of_writeAt hwrite
    rw [ih hrest hnext]
    rw [writeAt, if_pos hfit] at hwrite
    obtain rfl := Option.some.inj hwrite
    have hlength : (buffer.take write.1 ++ write.2).length = write.1 + write.2.length := by
      rw [List.length_append, List.length_take]
      omega
    have htake : ((buffer.take write.1 ++ write.2) ++
        buffer.drop (write.1 + write.2.length)).take (write.1 + write.2.length) =
        buffer.take write.1 ++ write.2 := List.take_left' hlength
    have hdrop (n : Nat) : ((buffer.take write.1 ++ write.2) ++
        buffer.drop (write.1 + write.2.length)).drop (write.1 + write.2.length + n) =
        buffer.drop (write.1 + write.2.length + n) := by
      rw [← List.drop_drop, List.drop_left' hlength, List.drop_drop]
    rw [htake, hdrop, List.flatMap_cons, List.length_append, List.append_assoc, List.append_assoc,
      List.append_assoc, List.append_assoc, Nat.add_assoc]

end Writes
end RiscvEmulator.Library.ByteBuffer
