import RiscvEmulator.Guarantees.ElfDefined

/-!
# The order of the program headers

`std::sort` leaves the order of equal elements open, but the headers of an accepted file
have different starts, so their sorted order is the file's only one. What the loader does
then depends on the set of the entries and on the bytes of their segments.
-/
namespace RiscvEmulator.Guarantees
open Source Spec Library.ByteBuffer Library.ExceptList Library.Ranges

variable {native : Endian} {source permuted : List Byte} {elfHeader : ElfHeader}

section Table
variable {before after : List Byte} {table table' : List (List Byte)}

/-- The file's program header table, entry by entry, with what is before and after it. -/
structure HasTable (elfHeader : ElfHeader) (source before : List Byte)
    (table : List (List Byte)) (after : List Byte) : Prop where
  offset : before.length = elfHeader.programHeaderOffset.toNat
  count : table.length = elfHeader.programHeaderEntryCount.toNat
  entrySize : ∀ entry ∈ table, entry.length = 56
  bytes : source = before ++ table.flatten ++ after

/-- `permuted` is `source` with the entries of its program header table in another order. -/
def TablePermuted (elfHeader : ElfHeader) (source permuted : List Byte) : Prop :=
  ∃ before table table' after, HasTable elfHeader source before table after ∧
    HasTable elfHeader permuted before table' after ∧ table'.Perm table

theorem length_entries (hentries : ∀ entry ∈ table, entry.length = 56) :
    table.flatten.length = 56 * table.length := by
  induction table with
  | nil => rfl
  | cons entry table ih =>
    obtain ⟨hentry, hrest⟩ := List.forall_mem_cons.mp hentries
    rw [List.flatten_cons, List.length_append, hentry, ih hrest, List.length_cons]
    omega

theorem HasTable.length (h : HasTable elfHeader source before table after) :
    source.length = elfHeader.programHeaderOffset.toNat +
      56 * elfHeader.programHeaderEntryCount.toNat + after.length := by
  rw [h.bytes, List.length_append, List.length_append, length_entries h.entrySize, h.offset,
    h.count]

/-- The table does not reach outside the places of the table. -/
theorem TablePermuted.getElem? (h : TablePermuted elfHeader source permuted) {i : Nat}
    (hi : i < elfHeader.programHeaderOffset.toNat ∨ elfHeader.programHeaderOffset.toNat +
      56 * elfHeader.programHeaderEntryCount.toNat ≤ i) : permuted[i]? = source[i]? := by
  obtain ⟨before, table, table', after, hsource, hpermuted, -⟩ := h
  have hlength := length_entries hsource.entrySize
  have hlength' := length_entries hpermuted.entrySize
  rw [hsource.count] at hlength
  rw [hpermuted.count] at hlength'
  rw [hsource.bytes, hpermuted.bytes, List.append_assoc, List.append_assoc]
  rw [← hsource.offset] at hi
  rcases hi with hbefore | hafter
  · rw [List.getElem?_append_left hbefore, List.getElem?_append_left hbefore]
  · rw [List.getElem?_append_right (by omega), List.getElem?_append_right (by omega),
      List.getElem?_append_right (by omega), List.getElem?_append_right (by omega), hlength,
      hlength']

/-- A segment that shares no byte with the table has the same bytes in both files. -/
theorem TablePermuted.fileBytes_eq (h : TablePermuted elfHeader source permuted)
    {header : SegmentHeader}
    (hapart : header.sourceStart.toNat + header.sourceSize.toNat ≤
        elfHeader.programHeaderOffset.toNat ∨
      elfHeader.programHeaderOffset.toNat + 56 * elfHeader.programHeaderEntryCount.toNat ≤
        header.sourceStart.toNat) :
    fileBytes permuted header = fileBytes source header := by
  apply List.ext_getElem?
  intro k
  by_cases hk : k < header.sourceSize.toNat
  · rw [fileBytes_getElem? hk, fileBytes_getElem? hk, h.getElem? (by omega)]
  · unfold fileBytes
    rw [List.getElem?_take_eq_none (by omega), List.getElem?_take_eq_none (by omega)]

theorem HasTable.entriesInside (h : HasTable elfHeader source before table after)
    (hsize : elfHeader.programHeaderEntrySize = 56) (hfile : source.length < 2 ^ 64) :
    EntriesInside source elfHeader := by
  have hlength := h.length
  intro i hi
  rw [entryOffset_toNat hsize (by omega)]
  omega

theorem dereference_append : ∀ {ptr : List Byte}, 1 ≤ ptr.length →
    ∀ rest, dereference (ptr ++ rest) = dereference ptr
  | _ :: _, _, _ => rfl

theorem loadU16_append : ∀ {ptr : List Byte}, 2 ≤ ptr.length →
    ∀ rest, loadU16 native (ptr ++ rest) = loadU16 native ptr
  | _ :: _ :: _, _, _ => rfl

theorem loadU32_append : ∀ {ptr : List Byte}, 4 ≤ ptr.length →
    ∀ rest, loadU32 native (ptr ++ rest) = loadU32 native ptr
  | _ :: _ :: _ :: _ :: _, _, _ => rfl

theorem loadU64_append : ∀ {ptr : List Byte}, 8 ≤ ptr.length →
    ∀ rest, loadU64 native (ptr ++ rest) = loadU64 native ptr
  | _ :: _ :: _ :: _ :: _ :: _ :: _ :: _ :: _, _, _ => rfl

/-- The ELF header is read from the first 64 bytes, and from the size of the file. -/
theorem readElfHeader_append {start rest rest' : List Byte} (hstart : 64 ≤ start.length)
    (hlength : rest'.length = rest.length) :
    ElfHeader.read native (start ++ rest') = ElfHeader.read native (start ++ rest) := by
  have h8 (n : Nat) (hn : n + 1 ≤ 64) (rest : List Byte) :
      dereference ((start ++ rest).drop n) = dereference (start.drop n) := by
    rw [List.drop_append_of_le_length (by omega)]
    exact dereference_append (by rw [List.length_drop]; omega) rest
  have h16 (n : Nat) (hn : n + 2 ≤ 64) (rest : List Byte) :
      loadU16 native ((start ++ rest).drop n) = loadU16 native (start.drop n) := by
    rw [List.drop_append_of_le_length (by omega)]
    exact loadU16_append (by rw [List.length_drop]; omega) rest
  have h32 (n : Nat) (hn : n + 4 ≤ 64) (rest : List Byte) :
      loadU32 native ((start ++ rest).drop n) = loadU32 native (start.drop n) := by
    rw [List.drop_append_of_le_length (by omega)]
    exact loadU32_append (by rw [List.length_drop]; omega) rest
  have h64 (n : Nat) (hn : n + 8 ≤ 64) (rest : List Byte) :
      loadU64 native ((start ++ rest).drop n) = loadU64 native (start.drop n) := by
    rw [List.drop_append_of_le_length (by omega)]
    exact loadU64_append (by rw [List.length_drop]; omega) rest
  have hsame : (start ++ rest').length = (start ++ rest).length := by
    rw [List.length_append, List.length_append, hlength]
  have hvalidate (header : ElfHeader) :
      header.validate (start ++ rest') = header.validate (start ++ rest) := by
    unfold ElfHeader.validate
    rw [hsame]
  unfold ElfHeader.read
  simp (disch := omega) only [hsame, h8, h16, h32, h64, hvalidate]

theorem TablePermuted.readElfHeader_eq (h : TablePermuted elfHeader source permuted)
    (hapart : 64 ≤ elfHeader.programHeaderOffset.toNat) :
    ElfHeader.read native permuted = ElfHeader.read native source := by
  obtain ⟨before, table, table', after, hsource, hpermuted, -⟩ := h
  have hlength := hsource.length
  have hlength' := hpermuted.length
  rw [hsource.bytes, List.append_assoc, List.length_append] at hlength
  rw [hpermuted.bytes, List.append_assoc, List.length_append] at hlength'
  rw [hsource.bytes, hpermuted.bytes, List.append_assoc, List.append_assoc]
  have hoffset := hsource.offset
  exact readElfHeader_append (by omega) (by omega)

/-- An entry is read from its own bytes. -/
theorem readSegmentHeader_entry {offset : BitVec 64} {entry rest : List Byte}
    (hsize : entry.length = 56) (hentry : source.drop offset.toNat = entry ++ rest) :
    SegmentHeader.read native source offset = SegmentHeader.read native entry 0 := by
  have hzero : entry.drop (0 : BitVec 64).toNat = entry := rfl
  have h32 (n : Nat) (hn : n + 4 ≤ 56) :
      loadU32 native ((entry ++ rest).drop n) = loadU32 native (entry.drop n) := by
    rw [List.drop_append_of_le_length (by omega)]
    exact loadU32_append (by rw [List.length_drop]; omega) rest
  have h64 (n : Nat) (hn : n + 8 ≤ 56) :
      loadU64 native ((entry ++ rest).drop n) = loadU64 native (entry.drop n) := by
    rw [List.drop_append_of_le_length (by omega)]
    exact loadU64_append (by rw [List.length_drop]; omega) rest
  unfold SegmentHeader.read
  dsimp only
  rw [hentry, hzero, h32 0 (by omega), h32 4 (by omega), h64 8 (by omega), h64 16 (by omega),
    h64 32 (by omega), h64 40 (by omega)]

/-- The entries the loader reads are the table's, each read on its own. -/
theorem entriesFrom_table (hsize : elfHeader.programHeaderEntrySize = 56)
    (hentries : ∀ entry ∈ table, entry.length = 56) {i : Nat}
    (hwrap : elfHeader.programHeaderOffset.toNat + 56 * (i + table.length) < 2 ^ 64)
    (hbytes : source.drop (elfHeader.programHeaderOffset.toNat + 56 * i) =
      table.flatten ++ after) :
    entriesFrom native source elfHeader i table.length =
      table.filterMap fun entry => (SegmentHeader.read native entry 0).toOption := by
  induction table generalizing i with
  | nil => rfl
  | cons entry table ih =>
    obtain ⟨hentry, hrest⟩ := List.forall_mem_cons.mp hentries
    rw [List.length_cons] at hwrap
    rw [List.flatten_cons, List.append_assoc] at hbytes
    have hoffset := @entryOffset_toNat elfHeader hsize i (by omega)
    have hread : SegmentHeader.read native source (entryOffset elfHeader i) =
        SegmentHeader.read native entry 0 :=
      readSegmentHeader_entry hentry (by rw [hoffset]; exact hbytes)
    have hinside : (0 : BitVec 64).toNat + 56 ≤ entry.length := by
      rw [hentry]
      exact Nat.le_refl _
    obtain ⟨header, hheader⟩ := @readSegmentHeader_ok native entry 0 hinside
    have hnext : source.drop (elfHeader.programHeaderOffset.toNat + 56 * (i + 1)) =
        table.flatten ++ after := by
      rw [Nat.mul_succ, ← Nat.add_assoc, ← List.drop_drop, hbytes]
      exact List.drop_left' hentry
    rw [List.length_cons, entriesFrom_succ (hread.trans hheader),
      List.filterMap_cons_some (b := header) (by rw [hheader]; rfl),
      ih hrest (by omega) hnext]

theorem HasTable.entries (h : HasTable elfHeader source before table after)
    (hsize : elfHeader.programHeaderEntrySize = 56) (hfile : source.length < 2 ^ 64) :
    entriesFrom native source elfHeader 0 elfHeader.programHeaderEntryCount.toNat =
      table.filterMap fun entry => (SegmentHeader.read native entry 0).toOption := by
  have hlength := h.length
  have hwrap : elfHeader.programHeaderOffset.toNat + 56 * (0 + table.length) < 2 ^ 64 := by
    rw [h.count]
    omega
  have hbytes : source.drop (elfHeader.programHeaderOffset.toNat + 56 * 0) =
      table.flatten ++ after := by
    rw [h.bytes, Nat.mul_zero, Nat.add_zero, ← h.offset, List.append_assoc, List.drop_left]
  rw [← h.count]
  exact entriesFrom_table hsize h.entrySize hwrap hbytes

end Table

/-- Two files with the same ELF header and, in some order, the same entries. -/
structure SameEntries (native : Endian) (elfHeader : ElfHeader) (source permuted : List Byte) :
    Prop where
  read : ElfHeader.read native source = .ok elfHeader
  readPermuted : ElfHeader.read native permuted = .ok elfHeader
  inside : EntriesInside source elfHeader
  insidePermuted : EntriesInside permuted elfHeader
  length : permuted.length = source.length
  entries : (entriesFrom native permuted elfHeader 0 elfHeader.programHeaderEntryCount.toNat).Perm
    (entriesFrom native source elfHeader 0 elfHeader.programHeaderEntryCount.toNat)

theorem SameEntries.symm (h : SameEntries native elfHeader source permuted) :
    SameEntries native elfHeader permuted source where
  read := h.readPermuted
  readPermuted := h.read
  inside := h.insidePermuted
  insidePermuted := h.inside
  length := h.length.symm
  entries := h.entries.symm

theorem SameEntries.mem_loadHeaders (h : SameEntries native elfHeader source permuted)
    {header : SegmentHeader} :
    header ∈ loadHeaders native permuted ↔ header ∈ loadHeaders native source := by
  have hentries := h.entries
  rw [entriesFrom_zero h.read, entriesFrom_zero h.readPermuted] at hentries
  exact (hentries.filter _).mem_iff

theorem sameEntries_of_tablePermuted (hfile : source.length < 2 ^ 64)
    (hread : ElfHeader.read native source = .ok elfHeader)
    (hreadPermuted : ElfHeader.read native permuted = .ok elfHeader)
    (htable : TablePermuted elfHeader source permuted) :
    SameEntries native elfHeader source permuted := by
  obtain ⟨before, table, table', after, hsource, hpermuted, hperm⟩ := htable
  have hsize := (validate_ok (elfHeader_read_ok hread)).1
  have hlength : permuted.length = source.length := hpermuted.length.trans hsource.length.symm
  have hfile' : permuted.length < 2 ^ 64 := by
    rw [hlength]
    exact hfile
  exact {
    read := hread
    readPermuted := hreadPermuted
    inside := hsource.entriesInside hsize hfile
    insidePermuted := hpermuted.entriesInside hsize hfile'
    length := hlength
    entries := by
      rw [hsource.entries hsize hfile, hpermuted.entries hsize hfile']
      exact hperm.filterMap _ }

section Accepted
variable {std std' : StdSort SegmentHeader.less} {data code : List SegmentHeader}

theorem selected_perm {kind : SegmentHeader → Bool} {headers headers' : List SegmentHeader}
    (h : headers'.Perm headers) : (selected kind headers').Perm (selected kind headers) :=
  ((h.filter _).filter kind).filter _

/-- Headers with different starts have one sorted order, whatever the sort does with ties. -/
theorem sort_eq {headers headers' : List SegmentHeader} (hperm : headers'.Perm headers)
    (hstarts : (sortHeadersBySegmentAddresses std headers).Pairwise fun a b =>
      a.destinationStart.toNat < b.destinationStart.toNat) :
    sortHeadersBySegmentAddresses std' headers' = sortHeadersBySegmentAddresses std headers := by
  apply addressOrder_unique hstarts _ (addressOrder_sort std' headers')
  exact (std'.perm headers').trans (hperm.trans (std.perm headers).symm)

/-- A file whose headers are accepted has the same headers accepted in any order. -/
theorem readHeaders_permuted (hsame : SameEntries native elfHeader source permuted)
    (hnowrap : ∀ header ∈ loadHeaders native source, NoWrap header)
    (h : readHeaders std native source = .ok (data, code)) :
    readHeaders std' native permuted = .ok (data, code) := by
  have haccepted := readHeaders_ok h
  obtain ⟨hwrapData, hwrapCode⟩ := haccepted.forall_load fun header hmem =>
    (hnowrap header hmem).destination
  have hdataStarts := haccepted.data_starts hwrapData
  have hcodeStarts := haccepted.code_starts hwrapCode
  obtain ⟨elfHeader', data₀, code₀, helf, hsegments, rfl, rfl, hvalidData, hvalidCode⟩ :=
    readHeaders_cases h
  obtain rfl : elfHeader' = elfHeader := Except.ok.inj (helf.symm.trans hsame.read)
  obtain ⟨⟨data₁, code₁⟩, hkept⟩ : ∃ kept, readSegmentHeaders native elfHeader' permuted =
      .ok kept := by
    apply readSegmentHeaders_accepts hsame.insidePermuted
    intro header hmem hout
    have hchecked := readSegmentHeadersLoop_checked hsegments header
      (hsame.entries.mem_iff.mp hmem) hout.1 hout.2.1
    have hlarge := hout.2.2
    rw [hsame.length] at hlarge
    omega
  obtain ⟨hdata₀, hcode₀⟩ := readSegmentHeadersLoop_ok hsegments
  obtain ⟨hdata₁, hcode₁⟩ := readSegmentHeadersLoop_ok hkept
  have hdataPerm : data₁.Perm data₀ := by
    rw [hdata₀, hdata₁]
    exact (selected_perm hsame.entries).append_left []
  have hcodePerm : code₁.Perm code₀ := by
    rw [hcode₀, hcode₁]
    exact (selected_perm hsame.entries).append_left []
  unfold readHeaders
  rw [hsame.readPermuted, ok_bind, hkept, ok_bind]
  dsimp only
  rw [@sort_eq std std' _ _ hdataPerm hdataStarts, @sort_eq std std' _ _ hcodePerm hcodeStarts,
    hvalidData, ok_bind, hvalidCode, ok_bind]
  rfl

end Accepted

section Map
variable {Handler : Type} {headers : List SegmentHeader} {emulator : Emulator Handler}

theorem copySegments_congr (h : ∀ header ∈ headers,
      readAt permuted header.sourceStart.toNat header.sourceSize.toNat =
        readAt source header.sourceStart.toNat header.sourceSize.toNat)
    (origin : Nat) (buffer : List Byte) :
    copySegments permuted origin headers buffer = copySegments source origin headers buffer := by
  induction headers generalizing buffer with
  | nil => rfl
  | cons header headers ih =>
    obtain ⟨hfirst, hrest⟩ := List.forall_mem_cons.mp h
    unfold copySegments
    rw [hfirst]
    split
    · rfl
    split
    · rfl
    · exact ih hrest _

theorem arena_copySegments_congr {arena : Arena} {origin : Nat}
    (h : copySegments permuted origin headers arena.storage =
      copySegments source origin headers arena.storage) :
    arena.copySegments permuted origin headers = arena.copySegments source origin headers := by
  unfold Arena.copySegments
  split
  · next storage hcopy =>
    rw [h] at hcopy
    split
    · next storage' hcopy' =>
      obtain rfl := Except.ok.inj (hcopy.symm.trans hcopy')
      rfl
    · next e herror => cases hcopy.symm.trans herror
  · next e herror =>
    rw [h] at herror
    split
    · next storage' hcopy' => cases herror.symm.trans hcopy'
    · next e' herror' => rw [Except.error.inj (herror.symm.trans herror')]

/-- The file is used only for the bytes of the segments that are mapped. -/
theorem mapDataSegments_congr (h : ∀ header ∈ headers,
      readAt permuted header.sourceStart.toNat header.sourceSize.toNat =
        readAt source header.sourceStart.toNat header.sourceSize.toNat) :
    mapDataSegments headers permuted emulator = mapDataSegments headers source emulator := by
  have hcopies (arena : Arena) (origin : Nat) :
      arena.copySegments permuted origin headers = arena.copySegments source origin headers :=
    arena_copySegments_congr (copySegments_congr h origin arena.storage)
  unfold mapDataSegments
  simp only [hcopies]

theorem mapCodeSegments_congr (h : ∀ header ∈ headers,
      readAt permuted header.sourceStart.toNat header.sourceSize.toNat =
        readAt source header.sourceStart.toNat header.sourceSize.toNat) :
    mapCodeSegments native headers permuted emulator =
      mapCodeSegments native headers source emulator := by
  unfold mapCodeSegments
  simp only [copySegments_congr h]

end Map

/-- Two loads that both return or both throw, and leave the emulator in the same state. -/
structure SameOutcome {Handler : Type} (a b : Except Abort Unit × Emulator Handler) : Prop where
  outcome : (a.1 = .ok () ∧ b.1 = .ok ()) ∨
    ∃ object object', a.1 = .error (.thrown object) ∧ b.1 = .error (.thrown object')
  raw : b.2.memory.raw = a.2.memory.raw
  freeSpace : b.2.memory.getFreeSpace = a.2.memory.getFreeSpace
  instructions : b.2.instructions = a.2.instructions

section Load
variable {Handler : Type} {std std' : StdSort SegmentHeader.less} {emulator : Emulator Handler}

/-- A result with a meaning is a return or a throw. -/
theorem returned_or_thrown {α : Type} {result : Except Abort α}
    (h : result ≠ .error .undefinedBehaviour) :
    (∃ a, result = .ok a) ∨ ∃ object, result = .error (.thrown object) := by
  cases result with
  | ok a => exact .inl ⟨a, rfl⟩
  | error e =>
    cases e with
    | thrown object => exact .inr ⟨object, rfl⟩
    | undefinedBehaviour => exact absurd rfl h

theorem SameOutcome.of_eq {a b : Except Abort Unit × Emulator Handler} (h : b = a)
    (hdefined : a.1 ≠ .error .undefinedBehaviour) : SameOutcome a b := by
  subst h
  refine ⟨?_, rfl, rfl, rfl⟩
  rcases returned_or_thrown hdefined with ⟨⟨⟩, hok⟩ | ⟨object, hthrown⟩
  · exact .inl ⟨hok, hok⟩
  · exact .inr ⟨object, object, hthrown, hthrown⟩

/-- Loads that reject the headers leave the emulator as it is. -/
theorem SameOutcome.of_rejected {object object' : Thrown}
    (h : readHeaders std native source = .error (.thrown object))
    (h' : readHeaders std' native permuted = .error (.thrown object')) :
    SameOutcome (loadElf std native source emulator) (loadElf std' native permuted emulator) := by
  unfold loadElf
  rw [h, h']
  exact ⟨.inr ⟨object, object', rfl, rfl⟩, rfl, rfl, rfl⟩

/-- Accepted headers are mapped alike from two files with the same segment bytes. -/
theorem loadElf_sameEntries (hsame : SameEntries native elfHeader source permuted)
    (hsegments : ∀ header ∈ loadHeaders native source,
      fileBytes permuted header = fileBytes source header)
    (hnowrap : ∀ header ∈ loadHeaders native source, NoWrap header)
    {data code : List SegmentHeader} (h : readHeaders std native source = .ok (data, code)) :
    loadElf std' native permuted emulator = loadElf std native source emulator := by
  have haccepted := readHeaders_ok h
  have hinside := readHeaders_inside h hnowrap
  have hbytes : ∀ header ∈ data ++ code,
      readAt permuted header.sourceStart.toNat header.sourceSize.toNat =
        readAt source header.sourceStart.toNat header.sourceSize.toNat := by
    intro header hmem
    have hfits := hinside header hmem
    rw [readAt_of_le hfits, readAt_of_le (by rw [hsame.length]; exact hfits)]
    exact congrArg some (hsegments header (haccepted.load hmem))
  have hdata := fun header hmem => hbytes header (List.mem_append_left code hmem)
  have hcode := fun header hmem => hbytes header (List.mem_append_right data hmem)
  unfold loadElf
  rw [h, readHeaders_permuted hsame hnowrap h]
  dsimp only
  simp only [mapDataSegments_congr hdata, mapCodeSegments_congr hcode]

end Load

/-- `permuted` is `source` with its program headers in another order, which changes neither
the ELF header nor the file bytes of a PT_LOAD segment. -/
structure HeadersReordered (native : Endian) (source permuted : List Byte) : Prop where
  table : ∀ elfHeader, ElfHeader.read native source = .ok elfHeader →
    TablePermuted elfHeader source permuted
  header : ElfHeader.read native permuted = ElfHeader.read native source
  segments : ∀ header ∈ loadHeaders native source,
    fileBytes permuted header = fileBytes source header

/-- A table that is apart from the ELF header and from the segments can be in any order. -/
theorem headersReordered_of_apart (hread : ElfHeader.read native source = .ok elfHeader)
    (htable : TablePermuted elfHeader source permuted)
    (hheader : 64 ≤ elfHeader.programHeaderOffset.toNat)
    (hsegments : ∀ header ∈ loadHeaders native source,
      header.sourceStart.toNat + header.sourceSize.toNat ≤ elfHeader.programHeaderOffset.toNat ∨
        elfHeader.programHeaderOffset.toNat + 56 * elfHeader.programHeaderEntryCount.toNat ≤
          header.sourceStart.toNat) :
    HeadersReordered native source permuted where
  table elfHeader' hread' := by
    obtain rfl : elfHeader = elfHeader' := Except.ok.inj (hread.symm.trans hread')
    exact htable
  header := htable.readElfHeader_eq hheader
  segments header hmem := htable.fileBytes_eq (hsegments header hmem)

/-- The order of the program headers makes no difference. -/
theorem loadElf_permuted {Handler : Type} (std std' : StdSort SegmentHeader.less)
    (native : Endian) (source permuted : List Byte) (emulator : Emulator Handler)
    (hfile : source.length < 2 ^ 64) (hreordered : HeadersReordered native source permuted)
    (hnowrap : ∀ header ∈ loadHeaders native source, NoWrap header) :
    SameOutcome (loadElf std native source emulator) (loadElf std' native permuted emulator) := by
  have hsame (elfHeader : ElfHeader) (hread : ElfHeader.read native source = .ok elfHeader) :
      SameEntries native elfHeader source permuted :=
    sameEntries_of_tablePermuted hfile hread (hreordered.header.trans hread)
      (hreordered.table elfHeader hread)
  have hinside : TableInside native source := fun elfHeader hread => (hsame elfHeader hread).inside
  have hinsidePermuted : TableInside native permuted := fun elfHeader hread =>
    (hsame elfHeader (hreordered.header.symm.trans hread)).insidePermuted
  rcases returned_or_thrown (@readHeaders_defined native source std hinside) with
    ⟨⟨data, code⟩, h⟩ | ⟨object, h⟩
  · obtain ⟨elfHeader, -, -, hread, -⟩ := readHeaders_cases h
    have hequal : loadElf std' native permuted emulator = loadElf std native source emulator :=
      loadElf_sameEntries (hsame elfHeader hread) hreordered.segments hnowrap h
    exact .of_eq hequal (loadElf_defined hinside hnowrap)
  rcases returned_or_thrown (@readHeaders_defined native permuted std' hinsidePermuted) with
    ⟨⟨data, code⟩, h'⟩ | ⟨object', h'⟩
  · -- the original file would be accepted too
    obtain ⟨elfHeader, -, -, hread, -⟩ := readHeaders_cases h'
    have hsame' := hsame elfHeader (hreordered.header.symm.trans hread)
    have hback : readHeaders std native source = .ok (data, code) :=
      readHeaders_permuted hsame'.symm
        (fun header hmem => hnowrap header (hsame'.mem_loadHeaders.mp hmem)) h'
    rw [h] at hback
    cases hback
  · exact .of_rejected h h'

/-- Writing the headers in another order permutes the table. -/
theorem tablePermuted_elfFile {headers headers' : List SegmentHeader} (body : List Byte)
    (hperm : headers'.Perm headers) (hlength : headers.length < 2 ^ 16) :
    TablePermuted (elfHeaderOf (BitVec.ofNat 16 headers.length)) (elfFile headers body)
      (elfFile headers' body) := by
  have hentries (headers : List SegmentHeader) :
      ∀ entry ∈ headers.map segmentHeaderBytes, entry.length = 56 := by
    intro entry hmem
    obtain ⟨header, -, rfl⟩ := List.mem_map.mp hmem
    simp [segmentHeaderBytes, littleEndian]
  have hcount : headers.length = (BitVec.ofNat 16 headers.length).toNat := by
    rw [BitVec.toNat_ofNat, Nat.mod_eq_of_lt hlength]
  have hbefore : (elfHeaderBytes headers.length).length = 64 := by
    simp [elfHeaderBytes, littleEndian]
  refine ⟨elfHeaderBytes headers.length, headers.map segmentHeaderBytes,
    headers'.map segmentHeaderBytes, body, ?_, ?_, hperm.map _⟩
  · exact ⟨hbefore, by rw [List.length_map]; exact hcount, hentries headers, by
      rw [elfFile, List.flatMap_def]⟩
  · exact ⟨hbefore, by rw [List.length_map, hperm.length_eq]; exact hcount, hentries headers', by
      rw [elfFile, List.flatMap_def, hperm.length_eq]⟩

def swappedFile : List Byte :=
  elfFile [paddedSegment, codeSegment 176] [0x13, 0, 0, 0, 0xaa, 0xbb]

theorem headersReordered_swappedFile : HeadersReordered .little paddedFile swappedFile := by
  have hread : ElfHeader.read .little paddedFile = .ok (elfHeaderOf 2) := by decide +kernel
  have hperm : [paddedSegment, codeSegment 176].Perm [codeSegment 176, paddedSegment] :=
    List.Perm.swap _ _ _
  have htable : TablePermuted (elfHeaderOf 2) paddedFile swappedFile :=
    tablePermuted_elfFile _ hperm (by decide)
  apply headersReordered_of_apart hread htable (by decide)
  rw [loadHeaders_paddedFile]
  decide

theorem loadElf_permuted_padded :
    SameOutcome (loadElf insertionSort .little paddedFile (Emulator.new 4096 8 : Emulator Unit))
      (loadElf insertionSort .little swappedFile (Emulator.new 4096 8)) :=
  loadElf_permuted insertionSort insertionSort .little paddedFile swappedFile
    (Emulator.new 4096 8) (by decide +kernel) headersReordered_swappedFile noWrap_paddedFile

/-- One byte of data, which is the flags of the table's first entry. -/
def flagsSegment : SegmentHeader :=
  { type := 1, flags := 6, sourceStart := 68, sourceSize := 1, destinationSize := 1 }

def flagsFile : List Byte := elfFile [codeSegment 176, flagsSegment] [0x13, 0, 0, 0]

def swappedFlagsFile : List Byte := elfFile [flagsSegment, codeSegment 176] [0x13, 0, 0, 0]

/-- The segment holds the flags of a code segment, 5, or its own, 6. -/
theorem not_loadElf_permuted_overlapping :
    ¬∀ (std : StdSort SegmentHeader.less) (native : Endian) (source permuted : List Byte)
      (emulator : Emulator Unit), source.length < 2 ^ 64 →
        (∀ elfHeader, ElfHeader.read native source = .ok elfHeader →
          TablePermuted elfHeader source permuted) →
        (∀ header ∈ loadHeaders native source, NoWrap header) →
        SameOutcome (loadElf std native source emulator)
          (loadElf std native permuted emulator) := by
  intro h
  have hheader : ElfHeader.read .little flagsFile = .ok (elfHeaderOf 2) := by decide +kernel
  have hheaders : loadHeaders .little flagsFile = [codeSegment 176, flagsSegment] := by
    decide +kernel
  have htable (elfHeader : ElfHeader) (hread : ElfHeader.read .little flagsFile = .ok elfHeader) :
      TablePermuted elfHeader flagsFile swappedFlagsFile := by
    have hperm : [flagsSegment, codeSegment 176].Perm [codeSegment 176, flagsSegment] :=
      List.Perm.swap _ _ _
    obtain rfl := Except.ok.inj (hheader.symm.trans hread)
    exact tablePermuted_elfFile _ hperm (by decide)
  have hnowrap : ∀ header ∈ loadHeaders .little flagsFile, NoWrap header := by
    intro header hmem
    rw [hheaders, List.mem_cons, List.mem_singleton] at hmem
    rcases hmem with rfl | rfl
    · exact ⟨by decide, by decide⟩
    · exact ⟨by decide, by decide⟩
  have hsame := h insertionSort .little flagsFile swappedFlagsFile (Emulator.new 4096 8)
    (by decide +kernel) htable hnowrap
  have hdiffers : (loadElf insertionSort .little swappedFlagsFile
      (Emulator.new 4096 8 : Emulator Unit)).2.memory.raw ≠
        (loadElf insertionSort .little flagsFile
          (Emulator.new 4096 8 : Emulator Unit)).2.memory.raw := by
    decide +kernel
  exact hdiffers hsame.raw

end RiscvEmulator.Guarantees
