import RiscvEmulator.Library.Alignment
import RiscvEmulator.Source.Arena

/-!
# Allocations from the arena

Sequences of successful allocations from a fresh arena. Every block is aligned and lies
inside the storage. But `std::align` takes only the padding from `freeSpace`, so an
allocation leaves the cursor at the start of its own block: the block ends past
`getFreeOffset()` and the next one may overlap it, unless the block is empty.
-/
namespace RiscvEmulator.Guarantees
open Source Library.ExceptList Library.Alignment

/-- A call of `allocate`. -/
inductive AllocationRequest where
  | object (type : ItemType)
  | array (type : ItemType) (itemCount : BitVec 64)

namespace AllocationRequest

def size : AllocationRequest → Nat
  | .object type => type.size
  | .array type itemCount => type.size * itemCount.toNat

def alignment : AllocationRequest → Nat
  | .object type => type.alignment
  | .array type _ => type.alignment

def allocate (arena : Arena) : AllocationRequest → Except Abort (Nat × Arena)
  | .object type => arena.allocateObject type
  | .array type itemCount => arena.allocateArray type itemCount

end AllocationRequest

/-- A returned range of bytes, by its offset in `raw()`. -/
structure Block where
  start : Nat
  size : Nat
  alignment : Nat

/-- A sequence of allocations that all succeed. -/
def allocateAll (arena : Arena) : List AllocationRequest → Except Abort (List Block × Arena)
  | [] => .ok ([], arena)
  | request :: requests => do
    let (offset, arena) ← request.allocate arena
    let (blocks, arena) ← allocateAll arena requests
    return (⟨offset, request.size, request.alignment⟩ :: blocks, arena)

/-- No byte belongs to both blocks. -/
def Block.Disjoint (a b : Block) : Prop :=
  ∀ i, ¬(a.start ≤ i ∧ i < a.start + a.size ∧ b.start ≤ i ∧ i < b.start + b.size)

/-- What the users of the arena rely on, of the blocks it has returned. -/
structure BlocksSound (arena : Arena) (blocks : List Block) : Prop where
  disjoint : blocks.Pairwise Block.Disjoint
  aligned : ∀ block ∈ blocks, (arena.base + block.start) % block.alignment = 0
  inside : ∀ block ∈ blocks, block.start + block.size ≤ arena.raw.length
  below : ∀ block ∈ blocks, block.start + block.size ≤ arena.getFreeOffset

/-- The blocks are sound after each allocation of the sequence. -/
def AllocationsSound (arena : Arena) (requests : List AllocationRequest) : Prop :=
  ∀ before after blocks arena', requests = before ++ after →
    allocateAll arena before = .ok (blocks, arena') → BlocksSound arena' blocks

theorem AllocationRequest.alignment_pos (request : AllocationRequest) :
    0 < request.alignment := by
  cases request with
  | object type =>
    obtain ⟨n, hn⟩ := type.aligned
    rw [AllocationRequest.alignment, hn]
    exact Nat.two_pow_pos n
  | array type itemCount =>
    obtain ⟨n, hn⟩ := type.aligned
    rw [AllocationRequest.alignment, hn]
    exact Nat.two_pow_pos n

section Step
variable {arena arena' : Arena} {request : AllocationRequest} {offset : Nat}

/-- A successful call is an `allocateRaw` whose storage was written over. -/
theorem allocate_raw (h : request.allocate arena = .ok (offset, arena'))
    (hsize : request.size < 2 ^ 64) :
    ∃ cursor, arena.allocateRaw request.size request.alignment = .ok (offset, cursor) ∧
      arena'.base = cursor.base ∧ arena'.freeSpace = cursor.freeSpace ∧
      arena'.storage.length = cursor.storage.length := by
  cases request with
  | object type =>
    obtain ⟨⟨start, cursor⟩, hraw, h⟩ := bind_ok h
    obtain ⟨filled, hitems, h⟩ := bind_ok h
    obtain ⟨rfl, rfl⟩ := Prod.mk.inj (Except.ok.inj h)
    obtain ⟨hbase, hfree, hstorage⟩ := Arena.withItems_ok hitems
    exact ⟨cursor, hraw, hbase, hfree, Arena.length_constructItems hstorage⟩
  | array type itemCount =>
    obtain ⟨⟨start, cursor⟩, hraw, h⟩ := bind_ok h
    obtain ⟨filled, hitems, h⟩ := bind_ok h
    obtain ⟨rfl, rfl⟩ := Prod.mk.inj (Except.ok.inj h)
    obtain ⟨hbase, hfree, hstorage⟩ := Arena.withItems_ok hitems
    have hwrap : type.size * itemCount.toNat % 2 ^ 64 = type.size * itemCount.toNat :=
      Nat.mod_eq_of_lt hsize
    rw [hwrap] at hraw
    exact ⟨cursor, hraw, hbase, hfree, Arena.length_constructItems hstorage⟩

/-- What one allocation does: its block starts where it leaves the cursor. -/
theorem allocate_ok (h : request.allocate arena = .ok (offset, arena'))
    (hsize : request.size < 2 ^ 64) :
    arena'.base = arena.base ∧ arena'.raw.length = arena.raw.length ∧
      arena.getFreeOffset ≤ offset ∧ offset = arena'.getFreeOffset ∧
      (arena.base + offset) % request.alignment = 0 ∧
      offset + request.size ≤ arena.raw.length := by
  obtain ⟨cursor, hraw, hbase, hfree, hlength⟩ := allocate_raw h hsize
  obtain ⟨padding, hpadding, hfit, hoffset, hbase', hstorage, hfree'⟩ := Arena.allocateRaw_ok hraw
  have hle := arena.free_le
  have haligned : (arena.base + offset) % request.alignment = 0 := by
    rw [hoffset, hpadding, ← Nat.add_assoc]
    exact Nat.mod_eq_zero_of_dvd (dvd_alignUp _ request.alignment_pos)
  unfold Arena.raw
  unfold Arena.getFreeOffset at hoffset ⊢
  rw [hbase, hbase', hlength, hstorage, hfree, hfree']
  refine ⟨rfl, rfl, ?_, ?_, haligned, ?_⟩ <;> omega

end Step

section Run
variable {arena arena' : Arena} {requests : List AllocationRequest} {blocks : List Block}

/-- Every block of a sequence is aligned and inside the storage, and starts at or before
the final cursor. -/
theorem allocateAll_ok (h : allocateAll arena requests = .ok (blocks, arena'))
    (hsize : ∀ request ∈ requests, request.size < 2 ^ 64) :
    arena'.base = arena.base ∧ arena'.raw.length = arena.raw.length ∧
      arena.getFreeOffset ≤ arena'.getFreeOffset ∧
      ∀ block ∈ blocks, (arena.base + block.start) % block.alignment = 0 ∧
        block.start + block.size ≤ arena.raw.length ∧ block.start ≤ arena'.getFreeOffset := by
  induction requests generalizing arena blocks with
  | nil =>
    obtain ⟨rfl, rfl⟩ := Prod.mk.inj (Except.ok.inj h)
    refine ⟨rfl, rfl, Nat.le_refl _, fun block hmem => ?_⟩
    exact absurd hmem List.not_mem_nil
  | cons request requests ih =>
    obtain ⟨⟨offset, middle⟩, hfirst, h⟩ := bind_ok h
    obtain ⟨⟨rest, last⟩, hrest, h⟩ := bind_ok h
    obtain ⟨rfl, rfl⟩ := Prod.mk.inj (Except.ok.inj h)
    obtain ⟨hbase, hlength, hadvance, hstart, haligned, hinside⟩ :=
      allocate_ok hfirst (hsize request List.mem_cons_self)
    obtain ⟨hbase', hlength', hadvance', hblocks⟩ :=
      ih hrest (fun r hr => hsize r (List.mem_cons_of_mem _ hr))
    refine ⟨hbase'.trans hbase, hlength'.trans hlength, by omega, ?_⟩
    intro block hmem
    rcases List.mem_cons.mp hmem with rfl | hmem
    · exact ⟨haligned, hinside, by rw [hstart]; exact hadvance'⟩
    · have hblock := hblocks block hmem
      rwa [hbase, hlength] at hblock

/-- The blocks are those of the requests, in order. -/
theorem allocateAll_sizes (h : allocateAll arena requests = .ok (blocks, arena')) :
    blocks.map Block.size = requests.map AllocationRequest.size := by
  induction requests generalizing arena blocks with
  | nil =>
    obtain ⟨rfl, rfl⟩ := Prod.mk.inj (Except.ok.inj h)
    rfl
  | cons request requests ih =>
    obtain ⟨⟨offset, middle⟩, hfirst, h⟩ := bind_ok h
    obtain ⟨⟨rest, last⟩, hrest, h⟩ := bind_ok h
    obtain ⟨rfl, rfl⟩ := Prod.mk.inj (Except.ok.inj h)
    rw [List.map_cons, List.map_cons, ih hrest]

theorem allocateAll_append {before after : List AllocationRequest}
    (h : allocateAll arena (before ++ after) = .ok (blocks, arena')) :
    ∃ first middle second, allocateAll arena before = .ok (first, middle) ∧
      allocateAll middle after = .ok (second, arena') ∧ blocks = first ++ second := by
  induction before generalizing arena blocks with
  | nil => exact ⟨[], arena, blocks, rfl, h, rfl⟩
  | cons request before ih =>
    obtain ⟨⟨offset, next⟩, hfirst, h⟩ := bind_ok h
    obtain ⟨⟨rest, last⟩, hrest, h⟩ := bind_ok h
    obtain ⟨rfl, rfl⟩ := Prod.mk.inj (Except.ok.inj h)
    obtain ⟨first, middle, second, hbefore, hafter, rfl⟩ := ih hrest
    refine ⟨⟨offset, request.size, request.alignment⟩ :: first, middle, second, ?_, hafter, rfl⟩
    rw [allocateAll, hfirst]
    simp only [bind, Except.bind, hbefore]
    rfl

/-- The block returned last ends past the cursor unless it is empty. -/
theorem last_block_past_cursor {before : List AllocationRequest} {request : AllocationRequest}
    (h : allocateAll arena (before ++ [request]) = .ok (blocks, arena'))
    (hsize : request.size < 2 ^ 64) (hbelow : ∀ block ∈ blocks,
      block.start + block.size ≤ arena'.getFreeOffset) : request.size = 0 := by
  obtain ⟨first, middle, second, -, hlast, rfl⟩ := allocateAll_append h
  obtain ⟨⟨offset, last⟩, hrequest, hlast⟩ := bind_ok hlast
  obtain ⟨rfl, rfl⟩ := Prod.mk.inj (Except.ok.inj hlast)
  obtain ⟨-, -, -, hstart, -, -⟩ := allocate_ok hrequest hsize
  have hend := hbelow ⟨offset, request.size, request.alignment⟩
    (List.mem_append_right _ List.mem_cons_self)
  simp only at hend
  omega

theorem request_of_block (h : allocateAll arena requests = .ok (blocks, arena')) {block : Block}
    (hmem : block ∈ blocks) : ∃ request ∈ requests, request.size = block.size := by
  have hsizes : block.size ∈ blocks.map Block.size := List.mem_map_of_mem hmem
  rw [allocateAll_sizes h] at hsizes
  exact List.mem_map.mp hsizes

/-- Empty blocks are sound wherever they are. -/
theorem blocksSound_of_empty (h : allocateAll arena requests = .ok (blocks, arena'))
    (hempty : ∀ request ∈ requests, request.size = 0) : BlocksSound arena' blocks := by
  have hfit : ∀ request ∈ requests, request.size < 2 ^ 64 := by
    intro request hmem
    rw [hempty request hmem]
    decide
  obtain ⟨hbase, hlength, -, hblocks⟩ := allocateAll_ok h hfit
  have hzero : ∀ block ∈ blocks, block.size = 0 := by
    intro block hmem
    obtain ⟨request, hrequest, hsame⟩ := request_of_block h hmem
    rw [← hsame, hempty request hrequest]
  refine ⟨?_, ?_, ?_, ?_⟩
  · refine List.pairwise_of_forall_mem_list ?_
    intro a ha b _ i hboth
    have := hzero a ha
    omega
  · intro block hmem
    rw [hbase]
    exact (hblocks block hmem).1
  · intro block hmem
    rw [hlength]
    exact (hblocks block hmem).2.1
  · intro block hmem
    have := hzero block hmem
    have := (hblocks block hmem).2.2
    omega

end Run

/-- The blocks of a sequence of successful allocations are sound all along exactly when
every allocation is of 0 bytes. -/
theorem allocationsSound_iff (base capacity : Nat) (requests : List AllocationRequest)
    (hsize : ∀ request ∈ requests, request.size < 2 ^ 64)
    (hsuccess : ∃ blocks arena, allocateAll (Arena.new base capacity) requests =
      .ok (blocks, arena)) :
    AllocationsSound (Arena.new base capacity) requests ↔
      ∀ request ∈ requests, request.size = 0 := by
  constructor
  · intro hsound request hmem
    obtain ⟨before, after, rfl⟩ := List.append_of_mem hmem
    obtain ⟨blocks, arena, hall⟩ := hsuccess
    have hsplit : before ++ request :: after = (before ++ [request]) ++ after :=
      List.append_cons before request after
    rw [hsplit] at hall
    obtain ⟨first, middle, second, hfirst, -, -⟩ := allocateAll_append hall
    exact last_block_past_cursor hfirst (hsize request hmem)
      (hsound _ after first middle hsplit hfirst).below
  · intro hempty before after blocks arena hsplit hallocate
    subst hsplit
    exact blocksSound_of_empty hallocate fun request hmem =>
      hempty request (List.mem_append_left _ hmem)

/-- An empty array of words after one of bytes. -/
theorem allocationsSound_iff_empty :
    AllocationsSound (Arena.new 1 16)
        [.array ItemType.byte 0, .array ⟨8, List.replicate 8 0, by decide, ⟨3, rfl⟩⟩ 0] ↔
      ∀ request ∈ [AllocationRequest.array ItemType.byte 0,
        .array ⟨8, List.replicate 8 0, by decide, ⟨3, rfl⟩⟩ 0], request.size = 0 :=
  allocationsSound_iff 1 16 _ (by simp [AllocationRequest.size]) ⟨_, _, rfl⟩

/-- Two bytes allocated one after the other are the same byte. -/
theorem not_allocationsSound_bytes :
    ¬∀ (base capacity : Nat) (requests : List AllocationRequest),
      (∀ request ∈ requests, request.size < 2 ^ 64) →
      (∃ blocks arena, allocateAll (Arena.new base capacity) requests = .ok (blocks, arena)) →
      AllocationsSound (Arena.new base capacity) requests := by
  intro h
  have hall : allocateAll (Arena.new 1 2) [.object ItemType.byte, .object ItemType.byte] =
      .ok ([⟨0, 1, 1⟩, ⟨0, 1, 1⟩], Arena.new 1 2) := rfl
  have hsound := h 1 2 [.object ItemType.byte, .object ItemType.byte]
    (by simp [AllocationRequest.size, ItemType.size, ItemType.byte]) ⟨_, _, hall⟩ _ [] _ _
    (List.append_nil _).symm hall
  obtain ⟨hfirst, -⟩ := List.pairwise_cons.mp hsound.disjoint
  exact hfirst ⟨0, 1, 1⟩ List.mem_cons_self 0 ⟨by decide, by decide, by decide, by decide⟩

end RiscvEmulator.Guarantees
