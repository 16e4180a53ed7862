import RiscvEmulator.Guarantees.ElfBounds
import RiscvEmulator.Guarantees.ElfImage

/-!
# Where the loader is defined

If the program header table is inside the file and no segment wraps, the loader makes no
read outside the file and no write outside its buffers: it returns or throws.
-/
namespace RiscvEmulator.Guarantees
open Source Spec Library.ByteBuffer Library.ExceptList

variable {native : Endian} {source : List Byte} {elfHeader : ElfHeader}

@[simp] theorem throwValue_ne_undefined {α : Type} (exception : StdException) :
    (throwValue exception : Except Abort α) ≠ .error .undefinedBehaviour := by
  intro h
  cases h

theorem ne_undefined_of_ok {α : Type} {x : Except Abort α} (h : ∃ a, x = .ok a) :
    x ≠ .error .undefinedBehaviour := by
  obtain ⟨a, ha⟩ := h
  rw [ha]
  exact nofun

section Loads

theorem dereference_ok : ∀ {ptr : List Byte}, 1 ≤ ptr.length → ∃ value, dereference ptr = .ok value
  | _ :: _, _ => ⟨_, rfl⟩

theorem loadU16_ok {ptr : List Byte} (h : 2 ≤ ptr.length) :
    ∃ value, loadU16 native ptr = .ok value := by
  obtain ⟨value, hload, -⟩ := @loadU16_number native ptr h
  exact ⟨value, hload⟩

theorem loadU32_ok {ptr : List Byte} (h : 4 ≤ ptr.length) :
    ∃ value, loadU32 native ptr = .ok value := by
  obtain ⟨value, hload, -⟩ := @loadU32_number native ptr h
  exact ⟨value, hload⟩

theorem loadU64_ok {ptr : List Byte} (h : 8 ≤ ptr.length) :
    ∃ value, loadU64 native ptr = .ok value := by
  obtain ⟨value, hload, -⟩ := @loadU64_number native ptr h
  exact ⟨value, hload⟩

theorem validate_defined : elfHeader.validate source ≠ .error .undefinedBehaviour := by
  unfold ElfHeader.validate
  split
  · simp
  split
  · simp
  split
  · simp
  · simp

/-- The 64 bytes the header is read from are there. -/
theorem elfHeader_read_defined : ElfHeader.read native source ≠ .error .undefinedBehaviour := by
  unfold ElfHeader.read
  split
  · simp
  next hsize =>
  have helf : ElfHeader.elfHeaderSize = 64 := rfl
  have hlength (n : Nat) : (source.drop n).length = source.length - n := List.length_drop
  rw [helf] at hsize
  have h8 (n : Nat) (hn : n + 1 ≤ 64) : dereference (source.drop n) ≠ .error .undefinedBehaviour :=
    ne_undefined_of_ok (dereference_ok (by rw [hlength]; omega))
  have h16 (n : Nat) (hn : n + 2 ≤ 64) :
      loadU16 native (source.drop n) ≠ .error .undefinedBehaviour :=
    ne_undefined_of_ok (loadU16_ok (by rw [hlength]; omega))
  have h32 (n : Nat) (hn : n + 4 ≤ 64) :
      loadU32 native (source.drop n) ≠ .error .undefinedBehaviour :=
    ne_undefined_of_ok (loadU32_ok (by rw [hlength]; omega))
  have h64 (n : Nat) (hn : n + 8 ≤ 64) :
      loadU64 native (source.drop n) ≠ .error .undefinedBehaviour :=
    ne_undefined_of_ok (loadU64_ok (by rw [hlength]; omega))
  refine bind_ne_error (h32 0 (by omega)) fun magic => ?_
  refine bind_ne_error (h8 4 (by omega)) fun elfClass => ?_
  refine bind_ne_error (h8 5 (by omega)) fun data => ?_
  refine bind_ne_error (h8 6 (by omega)) fun version => ?_
  refine bind_ne_error (h8 7 (by omega)) fun osABI => ?_
  refine bind_ne_error (h16 16 (by omega)) fun type => ?_
  refine bind_ne_error (h16 18 (by omega)) fun machine => ?_
  refine bind_ne_error (h64 24 (by omega)) fun entry => ?_
  refine bind_ne_error (h64 32 (by omega)) fun programHeaderOffset => ?_
  refine bind_ne_error (h16 54 (by omega)) fun programHeaderEntrySize => ?_
  refine bind_ne_error (h16 56 (by omega)) fun programHeaderEntryCount => ?_
  exact bind_ne_error validate_defined fun _ => pure_ne_error _ _

theorem readSegmentHeader_ok {offset : BitVec 64} (hinside : offset.toNat + 56 ≤ source.length) :
    ∃ header, SegmentHeader.read native source offset = .ok header := by
  have hsize : 56 ≤ (source.drop offset.toNat).length := by
    rw [List.length_drop]
    omega
  unfold SegmentHeader.read
  dsimp only
  generalize source.drop offset.toNat = entry at hsize ⊢
  have hlength (n : Nat) : (entry.drop n).length = entry.length - n := List.length_drop
  obtain ⟨type, htype⟩ := @loadU32_ok native (entry.drop 0) (by rw [hlength]; omega)
  obtain ⟨flags, hflags⟩ := @loadU32_ok native (entry.drop 4) (by rw [hlength]; omega)
  obtain ⟨sourceStart, hsource⟩ := @loadU64_ok native (entry.drop 8) (by rw [hlength]; omega)
  obtain ⟨destinationStart, hdest⟩ := @loadU64_ok native (entry.drop 16) (by rw [hlength]; omega)
  obtain ⟨sourceSize, hfile⟩ := @loadU64_ok native (entry.drop 32) (by rw [hlength]; omega)
  obtain ⟨destinationSize, hmemory⟩ := @loadU64_ok native (entry.drop 40) (by rw [hlength]; omega)
  refine ⟨{ type, flags, sourceStart, destinationStart, sourceSize, destinationSize }, ?_⟩
  rw [htype, hflags, hsource, hdest, hfile, hmemory]
  rfl

end Loads

section Headers
variable {remaining i : Nat} {data code : List SegmentHeader}

/-- A nonempty PT_LOAD entry whose end, as the loader computes it, is not in the file. -/
def OutOfFile (source : List Byte) (header : SegmentHeader) : Prop :=
  header.type = SegmentHeader.typeLoad ∧ isEmpty header = false ∧
    source.length < header.sourceEnd.toNat

/-- Over entries that are in the file, the loop ends with the headers it keeps or throws
because of one of the entries. -/
theorem readSegmentHeadersLoop_total
    (hreads : ∀ j, i ≤ j → j < i + remaining →
      ∃ header, SegmentHeader.read native source (entryOffset elfHeader j) = .ok header) :
    (∃ kept, readSegmentHeadersLoop native elfHeader source remaining i data code = .ok kept) ∨
      ((∃ header ∈ entriesFrom native source elfHeader i remaining, OutOfFile source header) ∧
        readSegmentHeadersLoop native elfHeader source remaining i data code =
          throwValue (.runtimeError "ELF segment is out of file bounds")) := by
  induction remaining generalizing i data code with
  | zero => exact .inl ⟨_, rfl⟩
  | succ remaining ih =>
    obtain ⟨first, hread⟩ := hreads i (Nat.le_refl i) (by omega)
    have hrest : ∀ j, i + 1 ≤ j → j < i + 1 + remaining →
        ∃ header, SegmentHeader.read native source (entryOffset elfHeader j) = .ok header :=
      fun j hlow hhigh => hreads j (by omega) (by omega)
    have hcontinue (data code : List SegmentHeader) :
        (∃ kept, readSegmentHeadersLoop native elfHeader source remaining (i + 1) data code =
          .ok kept) ∨
        ((∃ header ∈ first :: entriesFrom native source elfHeader (i + 1) remaining,
            OutOfFile source header) ∧
          readSegmentHeadersLoop native elfHeader source remaining (i + 1) data code =
            throwValue (.runtimeError "ELF segment is out of file bounds")) := by
      rcases @ih (i + 1) data code hrest with hkept | ⟨⟨header, hmem, hout⟩, hthrow⟩
      · exact .inl hkept
      · exact .inr ⟨⟨header, List.mem_cons_of_mem first hmem, hout⟩, hthrow⟩
    rw [entriesFrom_succ hread]
    unfold readSegmentHeadersLoop
    rw [hread, ok_bind]
    split
    · exact hcontinue data code
    next htype =>
    split
    · exact hcontinue data code
    next hempty =>
    split
    · next hout =>
      have hentry : OutOfFile source first := ⟨not_not.mp htype, decide_eq_false hempty, hout⟩
      exact .inr ⟨⟨first, List.mem_cons_self, hentry⟩, rfl⟩
    split
    · exact hcontinue data (code ++ [first])
    · exact hcontinue (data ++ [first]) code

theorem entries_readable (hinside : EntriesInside source elfHeader) :
    ∀ j, 0 ≤ j → j < 0 + elfHeader.programHeaderEntryCount.toNat →
      ∃ header, SegmentHeader.read native source (entryOffset elfHeader j) = .ok header :=
  fun j _ hj => readSegmentHeader_ok (hinside j (by omega))

/-- The loader keeps the headers of a table inside the file if it finds no fault in one. -/
theorem readSegmentHeaders_accepts (hinside : EntriesInside source elfHeader)
    (hentries : ∀ header ∈ entriesFrom native source elfHeader 0
      elfHeader.programHeaderEntryCount.toNat, ¬OutOfFile source header) :
    ∃ kept, readSegmentHeaders native elfHeader source = .ok kept := by
  rcases @readSegmentHeadersLoop_total native source elfHeader _ 0 [] []
    (entries_readable hinside) with hkept | ⟨⟨header, hmem, hout⟩, -⟩
  · exact hkept
  · exact absurd hout (hentries header hmem)

theorem readSegmentHeaders_defined (hinside : EntriesInside source elfHeader) :
    readSegmentHeaders native elfHeader source ≠ .error .undefinedBehaviour := by
  rcases @readSegmentHeadersLoop_total native source elfHeader _ 0 [] []
    (entries_readable hinside) with hkept | ⟨-, hthrow⟩
  · exact ne_undefined_of_ok hkept
  · unfold readSegmentHeaders
    rw [hthrow]
    simp

theorem validateDataHeaders_defined : validateDataHeaders data ≠ .error .undefinedBehaviour := by
  unfold validateDataHeaders
  split
  · simp
  split
  · simp
  · simp

theorem validateCodeHeaders_defined : validateCodeHeaders code ≠ .error .undefinedBehaviour := by
  unfold validateCodeHeaders
  split
  · simp
  split
  · simp
  split
  · simp
  split
  · simp
  · simp

/-- The program header table is inside the file, if there is one. -/
def TableInside (native : Endian) (source : List Byte) : Prop :=
  ∀ elfHeader, ElfHeader.read native source = .ok elfHeader → EntriesInside source elfHeader

theorem readHeaders_defined {std : StdSort SegmentHeader.less}
    (htable : TableInside native source) :
    readHeaders std native source ≠ .error .undefinedBehaviour := by
  intro h
  unfold readHeaders at h
  rcases bind_error h with helf | ⟨elfHeader, helf, h⟩
  · exact elfHeader_read_defined helf
  rcases bind_error h with hsegments | ⟨segments, -, h⟩
  · exact readSegmentHeaders_defined (htable elfHeader helf) hsegments
  rcases bind_error h with hdata | ⟨-, -, h⟩
  · exact validateDataHeaders_defined hdata
  rcases bind_error h with hcode | ⟨-, -, h⟩
  · exact validateCodeHeaders_defined hcode
  · cases h

/-- The segments of the accepted headers are inside the file unless their end wraps. -/
theorem readHeaders_inside {std : StdSort SegmentHeader.less}
    (h : readHeaders std native source = .ok (data, code))
    (hnowrap : ∀ header ∈ loadHeaders native source, NoWrap header) :
    ∀ header ∈ data ++ code,
      header.sourceStart.toNat + header.sourceSize.toNat ≤ source.length := by
  have haccepted := readHeaders_ok h
  obtain ⟨elfHeader, data₀, code₀, -, hsegments, rfl, rfl, -, -⟩ := readHeaders_cases h
  intro header hmem
  have hkept : header ∈ data₀ ++ code₀ := ((std.perm data₀).append (std.perm code₀)).mem_iff.mp hmem
  rw [← sourceEnd_toNat (hnowrap header (haccepted.load hmem)).source]
  exact kept_checked hsegments hkept

end Headers

section Copies
variable {headers : List SegmentHeader}

/-- Copies that stay inside the file and the buffer are all made. -/
theorem copySegments_accepts {origin : Nat} {buffer : List Byte}
    (hsource : ∀ header ∈ headers,
      header.sourceStart.toNat + header.sourceSize.toNat ≤ source.length)
    (hbuffer : ∀ header ∈ headers,
      origin + header.destinationStart.toNat + header.sourceSize.toNat ≤ buffer.length) :
    ∃ buffer', copySegments source origin headers buffer = .ok buffer' := by
  induction headers generalizing buffer with
  | nil => exact ⟨buffer, rfl⟩
  | cons header headers ih =>
    obtain ⟨hfirst, hrest⟩ := List.forall_mem_cons.mp hsource
    obtain ⟨hfits, hothers⟩ := List.forall_mem_cons.mp hbuffer
    have hfit : origin + header.destinationStart.toNat + (fileBytes source header).length ≤
        buffer.length := by
      rw [length_fileBytes hfirst]
      exact hfits
    obtain ⟨written, hwrite⟩ := writeAt_of_le hfit
    unfold fileBytes at hwrite
    unfold copySegments
    simp only [readAt_of_le hfirst, hwrite]
    apply ih hrest
    intro other hother
    rw [length_of_writeAt hwrite]
    exact hothers other hother

theorem allocateArray_byte_defined {arena : Arena} {total : BitVec 64} :
    arena.allocateArray ItemType.byte total ≠ .error .undefinedBehaviour := by
  intro h
  unfold Arena.allocateArray at h
  rcases bind_error h with hraw | ⟨⟨offset, cursor⟩, hraw, h⟩
  · unfold Arena.allocateRaw at hraw
    split at hraw
    · cases hraw
    split at hraw
    · cases hraw
    · cases hraw
  obtain ⟨hoffset, hfit, hstorage, -⟩ := allocateRaw_byte hraw
  have hinside : offset + total.toNat * ItemType.byte.size ≤ cursor.storage.length := by
    have hfree := arena.free_le
    rw [byte_size_mul] at hfit
    rw [hstorage, hoffset]
    unfold Arena.getFreeOffset
    show arena.storage.length - arena.freeSpace + total.toNat * 1 ≤ arena.storage.length
    omega
  obtain ⟨filled, hitems⟩ := Arena.withItems_of_le hinside
  rcases bind_error h with hwrite | ⟨filled, -, h⟩
  · rw [hitems] at hwrite
    cases hwrite
  · cases h

end Copies

section Map
variable {Handler : Type} {headers : List SegmentHeader} {emulator : Emulator Handler}

theorem mapDataSegments_defined
    (hsource : ∀ header ∈ headers,
      header.sourceStart.toNat + header.sourceSize.toNat ≤ source.length)
    (hwrites : ∀ header ∈ headers,
      header.destinationStart.toNat + header.sourceSize.toNat ≤ totalSize headers) :
    mapDataSegments headers source emulator ≠ .error .undefinedBehaviour := by
  intro h
  unfold mapDataSegments at h
  split at h
  · cases h
  next last hlast =>
  have htotal := totalSize_eq hlast
  rcases bind_error h with hallocate | ⟨⟨origin, memory⟩, hallocate, h⟩
  · unfold allocateDataMemory at hallocate
    split at hallocate
    · cases hallocate
    · exact allocateArray_byte_defined hallocate
  obtain ⟨-, hinside, -, -⟩ := allocateArray_byte (allocateDataMemory_ok hallocate)
  have hcopies : ∃ storage, copySegments source origin headers memory.storage = .ok storage := by
    apply copySegments_accepts hsource
    intro header hmem
    have hwrite := hwrites header hmem
    omega
  rcases bind_error h with hcopy | ⟨filled, -, h⟩
  · unfold Arena.copySegments at hcopy
    split at hcopy
    · cases hcopy
    next e herror =>
      obtain ⟨storage, hok⟩ := hcopies
      rw [hok] at herror
      cases herror
  · cases h

theorem mapCodeSegments_defined (hne : headers ≠ [])
    (hsource : ∀ header ∈ headers,
      header.sourceStart.toNat + header.sourceSize.toNat ≤ source.length)
    (hwrites : ∀ header ∈ headers,
      header.destinationStart.toNat + header.sourceSize.toNat ≤ totalSize headers) :
    mapCodeSegments native headers source emulator ≠ .error .undefinedBehaviour := by
  intro h
  unfold mapCodeSegments at h
  split at h
  · next hlast => exact hne (List.getLast?_eq_none_iff.mp hlast)
  next last hlast =>
  have htotal := totalSize_eq hlast
  dsimp only at h
  split at h
  · cases h
  obtain ⟨program, hcopy⟩ : ∃ program, copySegments source 0 headers
      (List.replicate last.destinationEnd.toNat 0) = .ok program := by
    apply copySegments_accepts hsource
    intro header hmem
    have hwrite := hwrites header hmem
    rw [List.length_replicate]
    omega
  rw [hcopy, ok_bind] at h
  split at h
  · cases h
  · cases h

end Map

/-- The loader returns or throws. -/
theorem loadElf_defined {Handler : Type} {std : StdSort SegmentHeader.less}
    {emulator : Emulator Handler} (htable : TableInside native source)
    (hnowrap : ∀ header ∈ loadHeaders native source, NoWrap header) :
    (loadElf std native source emulator).1 ≠ .error .undefinedBehaviour := by
  unfold loadElf
  split
  · next e hheaders =>
    intro hundefined
    obtain rfl := Except.error.inj hundefined
    exact readHeaders_defined htable hheaders
  next data code hheaders =>
  have haccepted := readHeaders_ok hheaders
  have hsound := destinationsSound_of_noWrap haccepted fun header hmem =>
    (hnowrap header hmem).destination
  have hsource := readHeaders_inside hheaders hnowrap
  split
  · next e hdata =>
    intro hundefined
    obtain rfl := Except.error.inj hundefined
    exact mapDataSegments_defined (fun header hmem => hsource header (List.mem_append_left _ hmem))
      hsound.dataWrites hdata
  next mapped hdata =>
  split
  · next e hcode =>
    intro hundefined
    obtain rfl := Except.error.inj hundefined
    obtain ⟨first, rest, hne, -⟩ := haccepted.codeFirst
    exact mapCodeSegments_defined (by rw [hne]; exact List.cons_ne_nil first rest)
      (fun header hmem => hsource header (List.mem_append_right _ hmem)) hsound.codeWrites hcode
  · nofun

end RiscvEmulator.Guarantees
