/-
The directory of streams and the heaps are read back as they were written.

An entry of the directory is as long as its name, filled up with zero bytes,
so where the next one stands is found from the name that was read; that is
the length that was written as long as the name is read as it was written.
`RootForm` is what stands at the front of metadata, as it is written, and
`root_read_back` says that it is read back and that each name leads to the
bytes of the first stream that has it.

In a heap each item stands behind those before it, so its offset is how long
the heap of those is. A byte string is read back from there, and so is what
is left of a string behind any of its characters (`heaps_read_back`).
-/
import ClrListing.Metadata.Root
import ClrListing.Proofs.Metadata.Reads
import ClrListing.Proofs.Metadata.Values
import ClrListing.Proofs.Text.Utf8

namespace ClrListing.Metadata

open Text

-- =============================================================== parts

/-- The bytes between two places. -/
theorem slice_eq_ok {bytes : List UInt8} {offset size : Nat} (h : offset + size ≤ bytes.length) :
    slice bytes offset size = .ok ((bytes.drop offset).take size) := by
  unfold slice
  rw [splitBytes_eq, List.length_drop, if_pos (by omega)]
  exact if_pos (by omega)

/-- One of the parts that were written, behind those before it. -/
theorem slice_flatten (before : List (List UInt8)) {after : List (List UInt8)}
    {part rest : List UInt8} {offset size : Nat} (hoffset : before.flatten.length = offset)
    (hsize : part.length = size) :
    slice ((before ++ part :: after).flatten ++ rest) offset size = .ok part := by
  rw [List.flatten_append, List.flatten_cons, List.append_assoc, List.append_assoc,
    slice_eq_ok (by rw [List.length_append, List.length_append]; omega), List.drop_left' hoffset,
    List.take_left' hsize]

/-- A number that is one of the parts that were written, behind those before
it. -/
theorem numberAt_flatten (before : List (List UInt8)) {after : List (List UInt8)}
    {word rest : List UInt8} {offset size n : Nat} (hread : Reads (Reader.number size) word n)
    (hoffset : before.flatten.length = offset) :
    Reader.numberAt ((before ++ word :: after).flatten ++ rest) offset size = .ok n := by
  rw [List.flatten_append, List.flatten_cons, List.append_assoc, List.append_assoc]
  exact numberAt_of_reads before.flatten hread hoffset

-- ============================================================= entries

namespace StreamHeader

/-- How many zero bytes stand behind a name of so many bytes: one at least,
and as many as fill it up to a multiple of four. -/
def filling (size : Nat) : Nat := 4 - size % 4

/-- The bytes of an entry. -/
def bytes (h : StreamHeader) : List UInt8 :=
  [littleEndianBytes 4 h.offset, littleEndianBytes 4 h.size, Utf8.encode h.name.toList,
    List.replicate (filling h.name.utf8ByteSize) 0].flatten

/-- The bytes of the stream that an entry tells of. -/
def extent (h : StreamHeader) (data : List UInt8) : List UInt8 := (data.drop h.offset).take h.size

/-- Whether an entry can stand in metadata of so many bytes. -/
structure Fits (h : StreamHeader) (size : Nat) : Prop where
  /-- No character of the name is the one that ends it. -/
  name : '\x00' ∉ h.name.toList
  nameSize : h.name.utf8ByteSize ≤ 31
  /-- The stream is inside the metadata. -/
  inside : h.offset + h.size ≤ size
  /-- A word of four bytes tells where it ends, as it always does in metadata
  of less than 2³² bytes. -/
  word : h.offset + h.size < 0x100000000

variable {h : StreamHeader} {size : Nat}

/-- An entry takes as many bytes as its name tells once it is read. -/
theorem length_bytes (h : StreamHeader) : h.bytes.length = h.headerSize := by
  unfold bytes headerSize filling
  simp only [List.flatten_cons, List.flatten_nil, List.length_append, length_littleEndianBytes,
    Utf8.length_encode_toList, List.length_replicate, List.length_nil]
  omega

/-- Among the bytes that are looked at for a name, the name stands in front
of a zero byte. -/
theorem exists_nameBytes (hfits : h.Fits size) (rest : List UInt8) :
    ∃ more, ((h.bytes ++ rest).drop 8).take nameLimit
      = Utf8.encode h.name.toList ++ 0 :: more := by
  have hsize : (Utf8.encode h.name.toList).length ≤ 31 := by
    rw [Utf8.length_encode_toList]
    exact hfits.nameSize
  obtain ⟨k, hk⟩ : ∃ k, filling h.name.utf8ByteSize = k + 1 :=
    ⟨3 - h.name.utf8ByteSize % 4, by unfold filling; omega⟩
  have hwords : (littleEndianBytes 4 h.offset ++ littleEndianBytes 4 h.size).length = 8 := by
    rw [List.length_append, length_littleEndianBytes, length_littleEndianBytes]
  obtain ⟨limit, hlimit⟩ : ∃ limit,
      nameLimit - (Utf8.encode h.name.toList).length = limit + 1 :=
    ⟨31 - (Utf8.encode h.name.toList).length, by unfold nameLimit; omega⟩
  have hsplit : h.bytes ++ rest
      = (littleEndianBytes 4 h.offset ++ littleEndianBytes 4 h.size)
        ++ (Utf8.encode h.name.toList ++ 0 :: (List.replicate k 0 ++ rest)) := by
    unfold bytes
    rw [hk, List.replicate_succ]
    simp only [List.flatten_cons, List.flatten_nil, List.append_assoc, List.cons_append,
      List.nil_append]
  refine ⟨(List.replicate k 0 ++ rest).take limit, ?_⟩
  rw [hsplit, List.drop_left' hwords, List.take_append,
    List.take_of_length_le (by unfold nameLimit; omega), hlimit, List.take_succ_cons]

/-- An entry is read back. -/
theorem ofBytes_bytes (hfits : h.Fits size) (rest : List UInt8) :
    ofBytes (h.bytes ++ rest) = .ok h := by
  obtain ⟨more, hmore⟩ := exists_nameBytes hfits rest
  have hword := hfits.word
  have hlong : ¬(h.bytes ++ rest).length < 9 := by
    rw [List.length_append, length_bytes]
    unfold headerSize
    omega
  have hoffset : Reader.numberAt (h.bytes ++ rest) 0 4 = .ok h.offset :=
    numberAt_flatten [] (reads_number (show h.offset < 0x100000000 by omega)) rfl
  have hsize : Reader.numberAt (h.bytes ++ rest) 4 4 = .ok h.size :=
    numberAt_flatten [_] (reads_number (show h.size < 0x100000000 by omega))
      (by simp [length_littleEndianBytes])
  have hends : (!(Utf8.encode h.name.toList ++ 0 :: more).contains 0) = false := by simp
  unfold ofBytes
  dsimp only
  rw [if_neg hlong, hmore, hends, hoffset, hsize, Utf8.takeWhile_encode hfits.name,
    Utf8.decodeLossy_encode, String.ofList_toList]
  rfl

end StreamHeader

-- =========================================================== directory

namespace Root

/-- Entries that stand one behind the other are read back: behind those that
were read stand those that are to be read. -/
theorem readStreams_bytes {streams : List StreamHeader} {before after data : List UInt8}
    (hdata : data = before ++ (streams.flatMap StreamHeader.bytes ++ after))
    (hfits : ∀ h ∈ streams, h.Fits data.length) :
    readStreams data streams.length before.length = .ok streams := by
  induction streams generalizing before with
  | nil => rfl
  | cons h streams ih =>
    have hhead := hfits h List.mem_cons_self
    rw [List.flatMap_cons, List.append_assoc] at hdata
    have hplace : ¬data.length < before.length := by
      rw [hdata, List.length_append]
      omega
    have hentry : StreamHeader.ofBytes (data.drop before.length) = .ok h := by
      rw [hdata, List.drop_left]
      exact StreamHeader.ofBytes_bytes hhead _
    have hinside : (!h.isInside data.length) = false := by
      unfold StreamHeader.isInside
      simp [hhead.inside, hhead.word]
    -- the entry is now one of those that were read, and takes what its name says
    have hrest : readStreams data streams.length (before ++ h.bytes).length = .ok streams :=
      ih (by rw [hdata, List.append_assoc]) fun h' hmem => hfits h' (List.mem_cons_of_mem _ hmem)
    rw [List.length_append, StreamHeader.length_bytes] at hrest
    rw [List.length_cons, readStreams, if_neg hplace, hentry]
    change (if (!h.isInside data.length) = true then throw _ else _) = _
    rw [hinside]
    change (readStreams data streams.length (before.length + h.headerSize) >>= fun rest =>
      pure (h :: rest)) = _
    rw [hrest]
    rfl

/-- A version is read without what fills it up. -/
theorem versionText_encode {version : String} (h : version.toList.getLast? ≠ some '\x00')
    (filling : Nat) :
    versionText (Utf8.encode version.toList ++ List.replicate filling 0) = version := by
  have hzeros : ∀ c ∈ List.replicate filling '\x00', decide (c = '\x00') = true :=
    fun c hc => decide_eq_true (List.eq_of_mem_replicate hc)
  have hends : version.toList.reverse.dropWhile (· = '\x00') = version.toList.reverse := by
    rw [← List.head?_reverse] at h
    cases hreverse : version.toList.reverse with
    | nil => rfl
    | cons c rest =>
      rw [hreverse, List.head?_cons] at h
      exact List.dropWhile_cons_of_neg (by simpa using h)
  unfold versionText
  rw [Utf8.decodeLossy_encode_append, Utf8.decodeLossy_zeros, List.reverse_append,
    List.reverse_replicate, List.dropWhile_append_of_pos hzeros, hends, List.reverse_reverse,
    String.ofList_toList]

/-- The first of the streams that have a name is the one that is found. -/
theorem exists_stream_eq {r : Root} {data : List UInt8}
    (hinside : ∀ h ∈ r.streams, h.offset + h.size ≤ data.length) {name : String}
    (hname : name ∈ r.streams.map StreamHeader.name) :
    ∃ before first after, r.streams = before ++ first :: after ∧ first.name = name
      ∧ (∀ h ∈ before, h.name ≠ name)
      ∧ r.stream? data name = some (first.extent data) := by
  obtain ⟨named, hmem, hnamed⟩ := List.mem_map.mp hname
  obtain ⟨first, hfind⟩ : ∃ first, r.streams.find? (fun h => decide (h.name = name)) = some first :=
    Option.isSome_iff_exists.mp
      (List.find?_isSome.mpr ⟨named, hmem, decide_eq_true hnamed⟩)
  obtain ⟨hfirst, before, after, hsplit, hbefore⟩ := List.find?_eq_some_iff_append.mp hfind
  refine ⟨before, first, after, hsplit, of_decide_eq_true hfirst,
    fun h hh => by simpa using hbefore h hh, ?_⟩
  unfold stream?
  rw [hfind]
  change (slice data first.offset first.size).toOption = _
  rw [slice_eq_ok (hinside first (hsplit ▸ List.mem_append_cons_self))]
  rfl

end Root

-- ================================================================ root

/-- What stands at the front of metadata, as it is written. -/
structure RootForm where
  majorVersion : Nat
  minorVersion : Nat
  reserved : Nat
  version : String
  /-- How many zero bytes the version is filled up with. -/
  filling : Nat
  flags : Nat
  streams : List StreamHeader

namespace RootForm

/-- How many bytes the version takes. -/
def versionSize (form : RootForm) : Nat := form.version.utf8ByteSize + form.filling

/-- The bytes of a version and what fills it up. -/
def versionBytes (form : RootForm) : List UInt8 :=
  Utf8.encode form.version.toList ++ List.replicate form.filling 0

/-- The parts of a root, one behind the other. -/
def parts (form : RootForm) : List (List UInt8) :=
  [littleEndianBytes 4 Root.magic, littleEndianBytes 2 form.majorVersion,
    littleEndianBytes 2 form.minorVersion, littleEndianBytes 4 form.reserved,
    littleEndianBytes 4 form.versionSize, form.versionBytes, littleEndianBytes 2 form.flags,
    littleEndianBytes 2 form.streams.length, form.streams.flatMap StreamHeader.bytes]

/-- The bytes of a root. -/
def bytes (form : RootForm) : List UInt8 := form.parts.flatten

/-- What is read of a root. -/
def root (form : RootForm) : Root :=
  ⟨form.majorVersion, form.minorVersion, form.version, form.streams⟩

/-- Whether a root can stand in front of metadata of so many bytes. -/
structure Fits (form : RootForm) (size : Nat) : Prop where
  majorVersion : form.majorVersion < 0x10000
  minorVersion : form.minorVersion < 0x10000
  /-- What fills a version up is not part of it. -/
  version : form.version.toList.getLast? ≠ some '\x00'
  versionSize : form.versionSize < 0x100000000
  some : form.streams ≠ []
  count : form.streams.length < 0x10000
  streams : ∀ h ∈ form.streams, h.Fits size

variable {form : RootForm} {rest : List UInt8}

theorem length_versionBytes (form : RootForm) : form.versionBytes.length = form.versionSize := by
  unfold versionBytes versionSize
  rw [List.length_append, Utf8.length_encode_toList, List.length_replicate]

/-- A root is read back. -/
theorem ofBytes_bytes (h : form.Fits (form.bytes ++ rest).length) :
    Root.ofBytes (form.bytes ++ rest) = .ok form.root := by
  have hword : ∀ {size n}, n < Nat.pow 256 size →
      Reads (Reader.number size) (littleEndianBytes size n) n := reads_number
  have hlengths := length_littleEndianBytes
  have hversionLength := length_versionBytes form
  -- each part is found behind those before it, whose lengths add up to its place
  have hmagic : Reader.numberAt (form.bytes ++ rest) 0 4 = .ok Root.magic :=
    numberAt_flatten [] (hword (by decide)) rfl
  have hmajor : Reader.numberAt (form.bytes ++ rest) 4 2 = .ok form.majorVersion :=
    numberAt_flatten [_] (hword h.majorVersion) (by simp [hlengths])
  have hminor : Reader.numberAt (form.bytes ++ rest) 6 2 = .ok form.minorVersion :=
    numberAt_flatten [_, _] (hword h.minorVersion) (by simp [hlengths])
  have hsize : Reader.numberAt (form.bytes ++ rest) 12 4 = .ok form.versionSize :=
    numberAt_flatten [_, _, _, _] (hword h.versionSize) (by simp [hlengths])
  have hcount : Reader.numberAt (form.bytes ++ rest) (16 + form.versionSize + 2) 2
      = .ok form.streams.length :=
    numberAt_flatten [_, _, _, _, _, _, _] (hword h.count)
      (by simp [hlengths, hversionLength]; omega)
  have hversion : slice (form.bytes ++ rest) 16 form.versionSize = .ok form.versionBytes :=
    slice_flatten [_, _, _, _, _] (by simp [hlengths]) hversionLength
  have hstreams : Root.readStreams (form.bytes ++ rest) form.streams.length
      (16 + form.versionSize + 4) = .ok form.streams := by
    have hfront : (form.parts.take 8).flatten.length = 16 + form.versionSize + 4 := by
      simp [parts, hlengths, hversionLength]
      omega
    have hdata : form.bytes ++ rest
        = (form.parts.take 8).flatten ++ (form.streams.flatMap StreamHeader.bytes ++ rest) := by
      simp [bytes, parts]
    rw [← hfront]
    exact Root.readStreams_bytes hdata h.streams
  have hlong : ¬(form.bytes ++ rest).length < 20 := by
    simp [bytes, parts, hlengths]
    omega
  have hsome : ¬form.streams.length = 0 := fun hnil => h.some (List.length_eq_zero_iff.mp hnil)
  unfold Root.ofBytes
  rw [hmagic, hsize, hmajor, hminor, if_neg hlong]
  change (slice (form.bytes ++ rest) 16 form.versionSize >>= _) = _
  rw [hversion]
  change (Reader.numberAt (form.bytes ++ rest) (16 + form.versionSize + 2) 2 >>= _) = _
  rw [hcount]
  change (if form.streams.length = 0 then _ else Root.readStreams (form.bytes ++ rest)
    form.streams.length (16 + form.versionSize + 4) >>= _) = _
  rw [if_neg hsome, hstreams]
  change Except.ok (Root.mk _ _ (Root.versionText (Utf8.encode _ ++ List.replicate _ 0)) _) = _
  rw [Root.versionText_encode h.version]
  rfl

end RootForm

/-- Metadata that starts with a root is read as that root, and each name in
its directory leads to the bytes of the first stream that has it. -/
theorem root_read_back {form : RootForm} {rest : List UInt8}
    (h : form.Fits (form.bytes ++ rest).length) :
    Root.ofBytes (form.bytes ++ rest) = .ok form.root
      ∧ ∀ name ∈ form.streams.map StreamHeader.name, ∃ before first after,
          form.streams = before ++ first :: after ∧ first.name = name
            ∧ (∀ h ∈ before, h.name ≠ name)
            ∧ form.root.stream? (form.bytes ++ rest) name
              = some (first.extent (form.bytes ++ rest)) :=
  ⟨RootForm.ofBytes_bytes h, fun _ hname =>
    Root.exists_stream_eq (r := form.root) (fun s hs => (h.streams s hs).inside) hname⟩

/-- A root with two streams of one name, which is not ASCII, and a third
whose name is as long as a name may be. -/
def sampleRoot : RootForm where
  majorVersion := 1
  minorVersion := 1
  reserved := 0
  version := "v4.0"
  filling := 4
  flags := 0
  streams := [⟨92, 2, "#\u00e9"⟩, ⟨94, 1, "#\u00e9"⟩, ⟨95, 0, "a name of thirty-one characters"⟩]

theorem root_read_back_sampleRoot :
    Root.ofBytes (sampleRoot.bytes ++ [7, 8, 9]) = .ok sampleRoot.root
      ∧ ∀ name ∈ sampleRoot.streams.map StreamHeader.name, ∃ before first after,
          sampleRoot.streams = before ++ first :: after ∧ first.name = name
            ∧ (∀ h ∈ before, h.name ≠ name)
            ∧ sampleRoot.root.stream? (sampleRoot.bytes ++ [7, 8, 9]) name
              = some (first.extent (sampleRoot.bytes ++ [7, 8, 9])) := by
  have hlength : (sampleRoot.bytes ++ [7, 8, 9]).length = 95 := by decide +kernel
  refine root_read_back ⟨by decide, by decide, by decide, by decide, by decide, by decide, ?_⟩
  rw [hlength]
  intro h hmem
  simp only [sampleRoot, List.mem_cons, List.not_mem_nil, or_false] at hmem
  rcases hmem with rfl | rfl | rfl <;>
    exact ⟨by decide +kernel, by decide +kernel, by decide, by decide⟩

-- =============================================================== heaps

section Heap

variable {write : α → List UInt8} {before after : List α} {x : α}

/-- A heap: an empty item, and the others one behind the other. -/
def heapBytes (write : α → List UInt8) (items : List α) : List UInt8 := 0 :: items.flatMap write

/-- Behind what stands before an item stands the item. -/
theorem heapBytes_append (write : α → List UInt8) (before : List α) (x : α) (after : List α) :
    heapBytes write (before ++ x :: after)
      = heapBytes write before ++ (write x ++ after.flatMap write) := by
  unfold heapBytes
  rw [List.flatMap_append, List.flatMap_cons, List.cons_append]

end Heap

/-- A byte string behind its length. -/
def blobBytes (blob : List UInt8) : List UInt8 := compressedBytes blob.length ++ blob

/-- A string in front of the zero byte that ends it. -/
def stringBytes (s : String) : List UInt8 := Utf8.encode s.toList ++ [0]

theorem compressedBytes_ne_nil (n : Nat) : compressedBytes n ≠ [] := by
  unfold compressedBytes
  cases Compression.least (n < ·) <;> exact List.cons_ne_nil _ _

theorem reads_blob {blob : List UInt8} (h : blob.length < compressedLimit) :
    Reads BlobHeap.read (blobBytes blob) blob :=
  (reads_compressed h).bind (reads_take rfl)

/-- A byte string is read back from where it was put. -/
theorem BlobHeap.get_append {blob : List UInt8} (h : blob.length < compressedLimit)
    (before after : List UInt8) :
    BlobHeap.get ⟨before ++ (blobBytes blob ++ after)⟩ before.length = .ok blob := by
  have hsome : 0 < (blobBytes blob).length := by
    unfold blobBytes
    rw [List.length_append]
    have hlength := List.length_pos_of_ne_nil (compressedBytes_ne_nil blob.length)
    omega
  unfold BlobHeap.get
  dsimp only
  rw [if_neg (by rw [List.length_append, List.length_append]; omega), List.drop_left]
  exact (reads_blob h).value after

/-- What is left of a string behind any of its characters is read back from
there. -/
theorem StringHeap.get_append {front back : String} (h : '\x00' ∉ back.toList)
    (before after : List UInt8) :
    StringHeap.get ⟨before ++ (stringBytes (front ++ back) ++ after)⟩
      (before.length + front.utf8ByteSize) = .ok back := by
  have hsplit : before ++ (stringBytes (front ++ back) ++ after)
      = (before ++ Utf8.encode front.toList) ++ (Utf8.encode back.toList ++ 0 :: after) := by
    unfold stringBytes
    rw [String.toList_append, Machine.encode_append]
    simp only [List.append_assoc, List.cons_append, List.nil_append]
  have hplace : (before ++ Utf8.encode front.toList).length
      = before.length + front.utf8ByteSize := by
    rw [List.length_append, Utf8.length_encode_toList]
  have hends : StringHeap.untilZero (Utf8.encode back.toList ++ 0 :: after)
      = some (Utf8.encode back.toList) := by
    unfold StringHeap.untilZero
    rw [if_pos (by simp), Utf8.takeWhile_encode h]
  unfold StringHeap.get
  dsimp only
  rw [hsplit, if_neg (by rw [List.length_append, hplace, List.length_append,
      List.length_cons]; omega),
    ← hplace, List.drop_left, hends, Option.bind_some, Utf8.decode_encode]
  exact congrArg Except.ok String.ofList_toList

/-- Heaps give back what was put in them: each byte string from its offset,
and of each string what is left of it behind any of its characters, so also
the whole of it. -/
theorem heaps_read_back {blobs : List (List UInt8)} {strings : List String}
    (hblobs : ∀ blob ∈ blobs, blob.length < 2 ^ 29)
    (hstrings : ∀ s ∈ strings, '\x00' ∉ s.toList) :
    (∃ heap, BlobHeap.ofBytes (heapBytes blobBytes blobs) = .ok heap
      ∧ ∀ before blob after, blobs = before ++ blob :: after →
          heap.get (heapBytes blobBytes before).length = .ok blob)
    ∧ ∃ heap, StringHeap.ofBytes (heapBytes stringBytes strings) = .ok heap
      ∧ ∀ before front back after, strings = before ++ (front ++ back) :: after →
          heap.get ((heapBytes stringBytes before).length + front.utf8ByteSize) = .ok back := by
  refine ⟨⟨⟨heapBytes blobBytes blobs⟩, rfl, ?_⟩, ⟨⟨heapBytes stringBytes strings⟩, rfl, ?_⟩⟩
  · rintro before blob after rfl
    rw [heapBytes_append]
    exact BlobHeap.get_append (hblobs blob List.mem_append_cons_self) _ _
  · rintro before front back after rfl
    have hback : '\x00' ∉ back.toList := by
      have h := hstrings (front ++ back) List.mem_append_cons_self
      rw [String.toList_append, List.mem_append] at h
      exact fun hmem => h (.inr hmem)
    rw [heapBytes_append]
    exact StringHeap.get_append hback _ _

/-- Byte strings on both sides of where their lengths take more bytes. -/
def sampleBlobs : List (List UInt8) :=
  [0, 0x7f, 0x80, 0x3fff, 0x4000].map fun n => List.replicate n 5

theorem heaps_read_back_samples :
    (∃ heap, BlobHeap.ofBytes (heapBytes blobBytes sampleBlobs) = .ok heap
      ∧ heap.get (heapBytes blobBytes (sampleBlobs.take 4)).length
        = .ok (List.replicate 0x4000 5))
    ∧ ∃ heap, StringHeap.ofBytes (heapBytes stringBytes ["", "caf\u00e9s"]) = .ok heap
      ∧ heap.get ((heapBytes stringBytes [""]).length + "caf\u00e9".utf8ByteSize) = .ok "s" := by
  have hblobs : ∀ blob ∈ sampleBlobs, blob.length < 2 ^ 29 := by
    intro blob hmem
    obtain ⟨n, hn, rfl⟩ := List.mem_map.mp hmem
    have hlimit : n ≤ 0x4000 := (by decide : ∀ n ∈ [0, 0x7f, 0x80, 0x3fff, 0x4000], n ≤ 0x4000) n hn
    rw [List.length_replicate]
    omega
  have hstrings : ∀ s ∈ ["", "caf\u00e9s"], '\x00' ∉ s.toList := by decide
  obtain ⟨⟨blobs, hread, hblob⟩, strings, hmade, hstring⟩ := heaps_read_back hblobs hstrings
  exact ⟨⟨blobs, hread, hblob (sampleBlobs.take 4) (List.replicate 0x4000 5) [] rfl⟩,
    strings, hmade, hstring [""] "caf\u00e9" "s" [] rfl⟩

end ClrListing.Metadata
