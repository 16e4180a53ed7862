import RiscvEmulator.Guarantees.ArenaQuery
import RiscvEmulator.Guarantees.ArrayAllocation
import RiscvEmulator.Library.Alignment

/-!
# Where allocations land

An allocation moves the free offset over its padding only, so after any sequence of
allocations the first free byte is the base address rounded up to the largest alignment
asked for so far. The sizes and the number of the allocations do not matter: each is
placed, and succeeds or throws, as if it were the first of that alignment.
-/
namespace RiscvEmulator.Guarantees
open Source Library Alignment ExceptList

/-- The address of the first free byte once the requests were served. -/
def cursorAfter (base : Nat) (requests : List AllocationRequest) : Nat :=
  alignUp (largest (requests.map AllocationRequest.alignment)) base

/-- The same, starting from a byte that is aligned to `first`. -/
def cursorFrom (first base : Nat) (requests : List AllocationRequest) : Nat :=
  alignUp ((requests.map AllocationRequest.alignment).foldl max first) base

@[simp] theorem cursorFrom_nil (first base : Nat) : cursorFrom first base [] = alignUp first base :=
  rfl

@[simp] theorem cursorFrom_cons (first base : Nat) (request : AllocationRequest)
    (requests : List AllocationRequest) :
    cursorFrom first base (request :: requests) =
      cursorFrom (max first request.alignment) base requests := rfl

theorem AllocationRequest.alignment_pow (request : AllocationRequest) :
    ∃ n, request.alignment = 2 ^ n := by
  cases request with
  | object type => exact type.aligned
  | array type itemCount => exact type.aligned

section Step
variable {arena arena' : Arena} {request : AllocationRequest} {offset : Nat}

/-- The block starts at the next multiple of its alignment, and the cursor stays there. -/
theorem allocate_cursor (h : request.allocate arena = .ok (offset, arena'))
    (hsize : request.size < 2 ^ 64) :
    arena.base + offset = alignUp request.alignment (arena.base + arena.getFreeOffset) ∧
      arena'.base + arena'.getFreeOffset = arena.base + offset := by
  obtain ⟨cursor, hraw, -, -, -⟩ := allocate_raw h hsize
  obtain ⟨padding, hpadding, -, hoffset, -, -, -⟩ := Arena.allocateRaw_ok hraw
  obtain ⟨hbase, -, -, hcursor, -, -⟩ := allocate_ok h hsize
  constructor
  · rw [alignUp, shortfall, ← hpadding, hoffset, Nat.add_assoc]
  · rw [hbase, ← hcursor]

theorem hasRoom_iff (arena : Arena) (size alignment : Nat) :
    HasRoom arena size alignment ↔ 0 < arena.base + arena.getFreeOffset ∧
      alignUp alignment (arena.base + arena.getFreeOffset) + size ≤
        arena.base + arena.raw.length := by
  have hfree := arena.free_le
  have hpadding : alignUp alignment (arena.base + arena.getFreeOffset) =
      arena.base + arena.getFreeOffset + padding arena alignment := rfl
  have hoffset : arena.getFreeOffset + arena.freeSpace = arena.raw.length :=
    Nat.sub_add_cancel hfree
  have hnull : arena.base + arena.getFreeOffset = 0 → padding arena alignment = 0 := by
    intro hzero
    simp [padding, hzero]
  constructor
  · rintro ⟨hfits, hnotNull⟩
    omega
  · rintro ⟨hpositive, hfits⟩
    exact ⟨by omega, by omega⟩

/-- Whether a request is served depends on the cursor, the size and the alignment alone. -/
theorem allocate_accepts_iff (hsize : request.size < 2 ^ 64) :
    (∃ offset arena', request.allocate arena = .ok (offset, arena')) ↔
      0 < arena.base + arena.getFreeOffset ∧
        alignUp request.alignment (arena.base + arena.getFreeOffset) + request.size ≤
          arena.base + arena.raw.length := by
  rw [← hasRoom_iff]
  constructor
  · rintro ⟨offset, arena', h⟩
    obtain ⟨cursor, hraw, -⟩ := allocate_raw h hsize
    by_contra hno
    rw [allocateRaw_of_no_room hno] at hraw
    cases hraw
  · intro hroom
    cases request with
    | object type =>
      obtain ⟨arena', h⟩ := allocateObject_of_hasRoom hroom
      exact ⟨_, arena', h⟩
    | array type itemCount =>
      have hexact : type.size * itemCount.toNat % 2 ^ 64 = type.size * itemCount.toNat :=
        Nat.mod_eq_of_lt hsize
      obtain ⟨offset, arena', h, -⟩ :=
        allocateArray_of_hasRoom hsize (by rw [hexact]; exact hroom)
      exact ⟨offset, arena', h⟩

/-- The cursor after one request, from one that is aligned to a power of two. -/
theorem allocate_cursor_of_aligned {first : Nat} (hfirst : ∃ n, first = 2 ^ n)
    (hcursor : arena.base + arena.getFreeOffset = alignUp first arena.base) :
    alignUp request.alignment (arena.base + arena.getFreeOffset) =
      alignUp (max first request.alignment) arena.base := by
  obtain ⟨i, rfl⟩ := hfirst
  obtain ⟨j, hj⟩ := request.alignment_pow
  rw [hcursor, hj, alignUp_alignUp_pow]

end Step

/-- What is known of a sequence of requests before it is served. -/
structure Predicted (first : Nat) (arena : Arena) (requests : List AllocationRequest) : Prop where
  accepts_iff : (∃ blocks arena', allocateAll arena requests = .ok (blocks, arena')) ↔
    ∀ i request, requests[i]? = some request →
      0 < arena.base ∧ cursorFrom first arena.base (requests.take (i + 1)) + request.size ≤
        arena.base + arena.raw.length
  cursor : ∀ blocks arena', allocateAll arena requests = .ok (blocks, arena') →
    arena'.base + arena'.getFreeOffset = cursorFrom first arena.base requests
  starts : ∀ blocks arena', allocateAll arena requests = .ok (blocks, arena') →
    ∀ i block, blocks[i]? = some block →
      arena.base + block.start = cursorFrom first arena.base (requests.take (i + 1))

theorem predicted_nil {first : Nat} {arena : Arena}
    (hcursor : arena.base + arena.getFreeOffset = alignUp first arena.base) :
    Predicted first arena [] where
  accepts_iff := by simp [allocateAll]
  cursor := by
    intro blocks arena' h
    obtain ⟨rfl, rfl⟩ := Prod.mk.inj (Except.ok.inj h)
    exact hcursor
  starts := by
    intro blocks arena' h i block hblock
    obtain ⟨rfl, rfl⟩ := Prod.mk.inj (Except.ok.inj h)
    cases hblock

section Cons
variable {first offset : Nat} {arena middle : Arena} {request : AllocationRequest}
  {requests : List AllocationRequest}

theorem allocateAll_cons_iff (hfirst : request.allocate arena = .ok (offset, middle))
    {blocks : List Block} {arena' : Arena} :
    allocateAll arena (request :: requests) = .ok (blocks, arena') ↔
      ∃ rest, allocateAll middle requests = .ok (rest, arena') ∧
        blocks = ⟨offset, request.size, request.alignment⟩ :: rest := by
  rw [allocateAll, hfirst, ok_bind]
  constructor
  · intro h
    obtain ⟨⟨rest, last⟩, hrest, h⟩ := bind_ok h
    obtain ⟨rfl, rfl⟩ := Prod.mk.inj (Except.ok.inj h)
    exact ⟨rest, hrest, rfl⟩
  · rintro ⟨rest, hrest, rfl⟩
    dsimp only
    rw [hrest]
    rfl

/-- A sequence whose first request is served is predicted when its rest is. -/
theorem Predicted.cons (hpow : ∃ n, first = 2 ^ n)
    (hcursor : arena.base + arena.getFreeOffset = alignUp first arena.base)
    (hsize : request.size < 2 ^ 64) (hserved : request.allocate arena = .ok (offset, middle))
    (hrest : Predicted (max first request.alignment) middle requests) :
    Predicted first arena (request :: requests) := by
  obtain ⟨hbase, hlength, -⟩ := allocate_ok hserved hsize
  obtain ⟨hstart, -⟩ := allocate_cursor hserved hsize
  have hplaced := hstart.trans (allocate_cursor_of_aligned hpow hcursor)
  obtain ⟨hnotNull, hfits⟩ := (allocate_accepts_iff hsize).mp ⟨offset, middle, hserved⟩
  rw [allocate_cursor_of_aligned hpow hcursor] at hfits
  have hpositive : 0 < arena.base := by
    rcases Nat.eq_zero_or_pos arena.base with hzero | hpositive
    · rw [hcursor, hzero] at hnotNull
      simp [alignUp] at hnotNull
    · exact hpositive
  obtain ⟨hiff, hend, hstarts⟩ := hrest
  simp only [hbase, hlength] at hiff hend hstarts
  refine ⟨⟨?_, ?_⟩, ?_, ?_⟩
  · rintro ⟨blocks, arena', h⟩ i other hother
    obtain ⟨rest, hrest, rfl⟩ := (allocateAll_cons_iff hserved).mp h
    cases i with
    | zero =>
      obtain rfl := Option.some.inj hother
      exact ⟨hpositive, hfits⟩
    | succ i => exact hiff.mp ⟨rest, arena', hrest⟩ i other hother
  · intro hall
    obtain ⟨rest, arena', hrest⟩ := hiff.mpr fun i other hother => hall (i + 1) other hother
    exact ⟨_, arena', (allocateAll_cons_iff hserved).mpr ⟨rest, hrest, rfl⟩⟩
  · intro blocks arena' h
    obtain ⟨rest, hrest, rfl⟩ := (allocateAll_cons_iff hserved).mp h
    exact hend rest arena' hrest
  · intro blocks arena' h i block hblock
    obtain ⟨rest, hrest, rfl⟩ := (allocateAll_cons_iff hserved).mp h
    cases i with
    | zero =>
      obtain rfl := Option.some.inj hblock
      exact hplaced
    | succ i => exact hstarts rest arena' hrest i block hblock

/-- A sequence whose first request is not served is not served. -/
theorem predicted_of_rejected (hpow : ∃ n, first = 2 ^ n)
    (hcursor : arena.base + arena.getFreeOffset = alignUp first arena.base)
    (hsize : request.size < 2 ^ 64)
    (hrejected : ¬∃ offset middle, request.allocate arena = .ok (offset, middle)) :
    Predicted first arena (request :: requests) := by
  have hnone :
      ¬∃ blocks arena', allocateAll arena (request :: requests) = .ok (blocks, arena') := by
    rintro ⟨blocks, arena', h⟩
    obtain ⟨⟨offset, middle⟩, hserved, -⟩ := bind_ok h
    exact hrejected ⟨offset, middle, hserved⟩
  refine ⟨⟨fun h => absurd h hnone, fun hall => ?_⟩, ?_, ?_⟩
  · obtain ⟨hpositive, hfits⟩ := hall 0 request rfl
    refine absurd ((allocate_accepts_iff hsize).mpr ⟨by omega, ?_⟩) hrejected
    rw [allocate_cursor_of_aligned hpow hcursor]
    exact hfits
  · exact fun blocks arena' h => absurd ⟨blocks, arena', h⟩ hnone
  · exact fun blocks arena' h => absurd ⟨blocks, arena', h⟩ hnone

end Cons

theorem predicted {first : Nat} {arena : Arena} {requests : List AllocationRequest}
    (hpow : ∃ n, first = 2 ^ n)
    (hcursor : arena.base + arena.getFreeOffset = alignUp first arena.base)
    (hsize : ∀ request ∈ requests, request.size < 2 ^ 64) : Predicted first arena requests := by
  induction requests generalizing first arena with
  | nil => exact predicted_nil hcursor
  | cons request requests ih =>
    rw [List.forall_mem_cons] at hsize
    by_cases hserved : ∃ offset middle, request.allocate arena = .ok (offset, middle)
    · obtain ⟨offset, middle, hserved⟩ := hserved
      obtain ⟨hbase, -⟩ := allocate_ok hserved hsize.1
      obtain ⟨hstart, hnext⟩ := allocate_cursor hserved hsize.1
      refine Predicted.cons hpow hcursor hsize.1 hserved ?_
      refine ih (max_pow hpow request.alignment_pow) ?_ hsize.2
      rw [hnext, hstart, hbase, allocate_cursor_of_aligned hpow hcursor]
    · exact predicted_of_rejected hpow hcursor hsize.1 hserved

/-- From a fresh arena, a sequence of requests is served exactly when each of them fits behind
the base address rounded up to the largest alignment so far. That is where each block is
placed, and where the first free byte is in the end: no allocation takes up any memory. -/
theorem allocations_placed (base capacity : Nat) (requests : List AllocationRequest)
    (hsize : ∀ request ∈ requests, request.size < 2 ^ 64) :
    ((∃ blocks arena, allocateAll (Arena.new base capacity) requests = .ok (blocks, arena)) ↔
      ∀ i request, requests[i]? = some request →
        0 < base ∧ cursorAfter base (requests.take (i + 1)) + request.size ≤ base + capacity) ∧
    ∀ blocks arena, allocateAll (Arena.new base capacity) requests = .ok (blocks, arena) →
      base + arena.getFreeOffset = cursorAfter base requests ∧
      ∀ i block, blocks[i]? = some block →
        base + block.start = cursorAfter base (requests.take (i + 1)) := by
  have hfresh : (Arena.new base capacity).base + (Arena.new base capacity).getFreeOffset =
      alignUp 1 (Arena.new base capacity).base := by
    simp [Arena.new, Arena.getFreeOffset]
  have hcapacity : (Arena.new base capacity).raw.length = capacity := List.length_replicate
  obtain ⟨hiff, hcursor, hstarts⟩ := predicted ⟨0, rfl⟩ hfresh hsize
  rw [hcapacity] at hiff
  refine ⟨hiff, fun blocks arena h => ⟨?_, hstarts blocks arena h⟩⟩
  obtain ⟨hbase, -⟩ := allocateAll_ok h hsize
  rw [← show arena.base = base from hbase]
  exact (hcursor blocks arena h).trans (by rw [hbase]; rfl)

/-- Three bytes, then eight bytes aligned to eight, then five bytes. -/
def mixedRequests : List AllocationRequest :=
  [.array ItemType.byte 3, .object ⟨8, List.replicate 8 0, by decide, ⟨3, rfl⟩⟩,
    .array ItemType.byte 5]

/-- Twelve bytes from address 4 are enough for the sixteen: the last two blocks both start at 8. -/
theorem allocations_placed_mixed :
    cursorAfter 4 mixedRequests = 8 ∧
      ∃ blocks arena, allocateAll (Arena.new 4 12) mixedRequests = .ok (blocks, arena) := by
  refine ⟨rfl, (allocations_placed 4 12 mixedRequests (by decide)).1.mpr ?_⟩
  intro i request hrequest
  match i with
  | 0 | 1 | 2 =>
    obtain rfl := Option.some.inj hrequest
    decide
  | i + 3 => cases hrequest

end RiscvEmulator.Guarantees
