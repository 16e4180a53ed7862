import RiscvEmulator.Guarantees.ArenaAllocations

/-!
# The aligned-offset query and the allocation it predicts

`getFreeOffsetAlignedTo` and `allocateRaw` both ask `std::align` for room behind the first
free byte. `HasRoom` is when it finds some; then both give the same offset, and otherwise
the query gives the size of the storage, which is no offset an object can have, and the
allocation throws.
-/
namespace RiscvEmulator.Guarantees
open Source Library.ExceptList Library.Alignment

variable {arena : Arena} {type : ItemType} {size alignment : Nat}

/-- What the first free byte lacks to the alignment. -/
def padding (arena : Arena) (alignment : Nat) : Nat :=
  shortfall alignment (arena.base + arena.getFreeOffset)

/-- `std::align` returns a pointer, and not a null pointer. -/
structure HasRoom (arena : Arena) (size alignment : Nat) : Prop where
  fits : size + padding arena alignment ≤ arena.freeSpace
  notNull : arena.base + arena.getFreeOffset + padding arena alignment ≠ 0

theorem align_of_fits (h : size + padding arena alignment ≤ arena.freeSpace) :
    align alignment size (arena.base + arena.getFreeOffset) arena.freeSpace =
      some (arena.base + arena.getFreeOffset + padding arena alignment,
        arena.freeSpace - padding arena alignment) := if_pos h

theorem align_of_not_fits (h : ¬size + padding arena alignment ≤ arena.freeSpace) :
    align alignment size (arena.base + arena.getFreeOffset) arena.freeSpace = none := if_neg h

section Calls

theorem query_of_hasRoom (h : HasRoom arena type.size type.alignment) :
    arena.getFreeOffsetAlignedTo type = arena.getFreeOffset + padding arena type.alignment := by
  unfold Arena.getFreeOffsetAlignedTo
  rw [align_of_fits h.fits]
  simp only [if_neg h.notNull]
  omega

theorem query_of_no_room (h : ¬HasRoom arena type.size type.alignment) :
    arena.getFreeOffsetAlignedTo type = arena.raw.length := by
  unfold Arena.getFreeOffsetAlignedTo
  by_cases hfits : type.size + padding arena type.alignment ≤ arena.freeSpace
  · have hnull : arena.base + arena.getFreeOffset + padding arena type.alignment = 0 := by
      by_contra hne
      exact h ⟨hfits, hne⟩
    rw [align_of_fits hfits]
    simp only [if_pos hnull]
    rfl
  · rw [align_of_not_fits hfits]
    rfl

theorem allocateRaw_of_hasRoom (h : HasRoom arena size alignment) :
    ∃ cursor, arena.allocateRaw size alignment =
      .ok (arena.getFreeOffset + padding arena alignment, cursor) := by
  unfold Arena.allocateRaw
  split
  · next halign =>
    rw [align_of_fits h.fits] at halign
    cases halign
  · next ptr freeSpace halign =>
    rw [align_of_fits h.fits] at halign
    obtain ⟨rfl, rfl⟩ := Prod.mk.inj (Option.some.inj halign)
    rw [if_neg h.notNull]
    refine ⟨_, congrArg Except.ok (Prod.ext ?_ rfl)⟩
    show arena.base + arena.getFreeOffset + padding arena alignment - arena.base = _
    omega

theorem allocateRaw_of_no_room (h : ¬HasRoom arena size alignment) :
    arena.allocateRaw size alignment = throwValue .badAlloc := by
  unfold Arena.allocateRaw
  split
  · rfl
  · next ptr freeSpace halign =>
    obtain ⟨_, rfl, hfits, rfl, -⟩ := align_eq_some halign
    rw [if_pos]
    by_contra hne
    exact h ⟨hfits, hne⟩

theorem allocateObject_of_no_room (h : ¬HasRoom arena type.size type.alignment) :
    arena.allocateObject type = throwValue .badAlloc := by
  unfold Arena.allocateObject
  rw [allocateRaw_of_no_room h]
  rfl

/-- The room is inside the storage, and starts at a multiple of the alignment. -/
theorem room_inside (h : HasRoom arena size alignment) :
    arena.getFreeOffset + padding arena alignment + size ≤ arena.raw.length := by
  have hfits := h.fits
  have hfree := arena.free_le
  unfold Arena.getFreeOffset Arena.raw
  omega

theorem room_aligned (arena : Arena) (hpositive : 0 < alignment) :
    (arena.base + (arena.getFreeOffset + padding arena alignment)) % alignment = 0 := by
  rw [← Nat.add_assoc]
  exact Nat.mod_eq_zero_of_dvd (dvd_alignUp _ hpositive)

theorem allocateObject_of_hasRoom (h : HasRoom arena type.size type.alignment) :
    ∃ arena', arena.allocateObject type =
      .ok (arena.getFreeOffset + padding arena type.alignment, arena') := by
  obtain ⟨cursor, hraw⟩ := allocateRaw_of_hasRoom h
  obtain ⟨-, -, -, -, -, hstorage, -⟩ := Arena.allocateRaw_ok hraw
  have hinside := room_inside h
  obtain ⟨arena', hitems⟩ := @Arena.withItems_of_le cursor type
    (arena.getFreeOffset + padding arena type.alignment) 1
    (by rw [hstorage, Nat.one_mul]; exact hinside)
  unfold Arena.allocateObject
  rw [hraw, ok_bind]
  dsimp only
  rw [hitems]
  exact ⟨arena', rfl⟩

end Calls

/-- Of any arena and any object type: the query gives the size of the storage exactly when
the allocation throws, which leaves the free space as it was, and otherwise it gives the
offset of the object the allocation returns, aligned and inside the storage. -/
theorem query_predicts_allocation (arena : Arena) (type : ItemType) :
    arena.getFreeSpace ≤ arena.raw.length ∧
    (arena.getFreeOffsetAlignedTo type = arena.raw.length ↔
      arena.allocateObject type = throwValue .badAlloc) ∧
    (arena.allocateObject type = throwValue .badAlloc →
      (arena.afterCall (arena.allocateObject type)).getFreeSpace = arena.getFreeSpace) ∧
    (arena.allocateObject type ≠ throwValue .badAlloc →
      (∃ arena', arena.allocateObject type = .ok (arena.getFreeOffsetAlignedTo type, arena')) ∧
      (arena.base + arena.getFreeOffsetAlignedTo type) % type.alignment = 0 ∧
      arena.getFreeOffsetAlignedTo type + type.size ≤ arena.raw.length) := by
  refine ⟨arena.free_le, ?_⟩
  by_cases hroom : HasRoom arena type.size type.alignment
  · have hquery := query_of_hasRoom hroom
    have hinside := room_inside hroom
    have hsized : 0 < type.size := type.sized
    obtain ⟨arena', hallocate⟩ := allocateObject_of_hasRoom hroom
    rw [hquery, hallocate]
    refine ⟨⟨fun hend => ?_, fun hthrow => ?_⟩, fun hthrow => ?_,
      fun _ => ⟨⟨arena', rfl⟩, ?_, hinside⟩⟩
    · omega
    · cases hthrow
    · cases hthrow
    · exact room_aligned arena (AllocationRequest.object type).alignment_pos
  · have hthrow := allocateObject_of_no_room hroom
    rw [hthrow]
    refine ⟨⟨fun _ => rfl, fun _ => query_of_no_room hroom⟩, fun _ => rfl, fun hne => ?_⟩
    exact absurd rfl hne

end RiscvEmulator.Guarantees
