/-
What stands before the tables, on a machine: the parts of an image that
addresses name, the header of the managed part, the directory of streams,
and the heaps.

Every place is a sum of numbers from the image, and is looked at only
behind a check. Some checks are made far from what they are for: that a
stream is inside the metadata is checked where the directory is read, and
its end is computed once more where the stream is taken.
-/
import ClrListing.Image.Executable
import ClrListing.Metadata.Root
import ClrListing.Proofs.Machine.Cursor

namespace ClrListing.Machine

open Metadata Image

variable {α : Type} {data : List UInt8} {fuel : Nat}

-- ============================================================== images

/-- The `size` bytes from a place on. -/
def slice (bytes : List UInt8) (place size : Nat) : Machine (List UInt8) :=
  match (checkedAdd 64 place size).bind (part? bytes place) with
  | some part => pure part
  | none => fail .outOfBounds

/-- Bytes from a place on are those up to the place behind them. -/
theorem slice_eq_part? (bytes : List UInt8) (place size : Nat) :
    Metadata.slice bytes place size = match part? bytes place (place + size) with
      | some part => pure part
      | none => .error .outOfBounds := by
  unfold Metadata.slice part?
  rw [splitBytes_eq, List.length_drop]
  by_cases hplace : place ≤ bytes.length
  · by_cases hsize : size ≤ bytes.length - place
    · simp [hplace, hsize, show place + size ≤ bytes.length by omega]
      rfl
    · simp [hsize, show ¬ place + size ≤ bytes.length by omega]
  · by_cases hsize : size ≤ bytes.length - place
    · simp [hplace, hsize, show ¬ place + size ≤ bytes.length by omega]
    · simp [hsize, show ¬ place + size ≤ bytes.length by omega]

theorem slice_eq {place size : Nat} (h : place + size < 2 ^ 64) :
    slice data place size = lift (Metadata.slice data place size) := by
  unfold slice
  rw [checkedAdd_eq h, slice_eq_part?, Option.bind_some]
  cases part? data place (place + size) <;> rfl

/-- The place of an address in the first section that holds it. -/
def offsetIn (address : Nat) : List Section → Machine Nat
  | [] => fail (.damaged (.unmappedAddress address))
  | s :: rest =>
    match checkedAdd 32 s.virtualAddress s.virtualSize with
    | none => fail (.damaged (.sectionOverflow s.virtualAddress s.virtualSize))
    | some stop =>
      if s.virtualAddress ≤ address && address < stop then do
        add 64 (← sub address s.virtualAddress) s.rawOffset
      else offsetIn address rest

/-- The `size` bytes from an address on. -/
def bytesAt (x : Executable) (address size : Nat) : Machine (List UInt8) := do
  slice x.bytes (← offsetIn address x.sections) size

/-- The numbers of a section are words of four bytes. -/
structure IsSection (s : Section) : Prop where
  virtualSize : s.virtualSize < 2 ^ 32
  virtualAddress : s.virtualAddress < 2 ^ 32
  rawOffset : s.rawOffset < 2 ^ 32

/-- The numbers that tell where things are in an image are words of four
bytes. -/
structure IsImage (x : Executable) : Prop where
  sections : ∀ s ∈ x.sections, IsSection s
  address : x.clr.address < 2 ^ 32
  size : x.clr.size < 2 ^ 32

theorem always_readSection : Always Headers.readSection IsSection :=
  .after fun _ => (always_number 4).bind fun _ hvirtualSize =>
    (always_number 4).bind fun _ hvirtualAddress => .after fun _ =>
      (always_number 4).bind fun _ hrawOffset => .after fun _ =>
        .pure ⟨hvirtualSize, hvirtualAddress, hrawOffset⟩

/-- Whether the numbers of a directory are words of four bytes. -/
def IsDirectory (d : Directory) : Prop := d.address < 2 ^ 32 ∧ d.size < 2 ^ 32

theorem always_readDirectory :
    Always Headers.readDirectory fun d => ∀ clr ∈ d, IsDirectory clr := by
  refine (always_number 4).bind fun address haddress => ?_
  refine (always_number 4).bind fun size hsize => .pure fun clr hclr => ?_
  split at hclr
  · cases hclr
  · cases hclr
    exact ⟨haddress, hsize⟩

theorem clr_of_readOptional {bytes : List UInt8} {alignment : Nat} {clr : Option Directory}
    (h : Headers.readOptional bytes = .ok (alignment, clr)) : ∀ d ∈ clr, IsDirectory d := by
  unfold Headers.readOptional at h
  obtain ⟨magic, -, h⟩ := Fallible.exists_of_bind_eq_ok h
  split at h
  · cases h
  obtain ⟨alignment', -, h⟩ := Fallible.exists_of_bind_eq_ok h
  obtain ⟨count, -, h⟩ := Fallible.exists_of_bind_eq_ok h
  obtain ⟨-, h⟩ := Fallible.of_guard_eq_ok h
  obtain ⟨directories, hdirectories, h⟩ := Fallible.exists_of_bind_eq_ok h
  cases h
  have hall := (always_readDirectory.times count).of_value hdirectories
  intro d hd
  have hentry := Option.join_eq_some_iff.mp hd
  exact hall.2 _ (List.mem_of_getElem? hentry) d rfl

/-- The numbers of an image are words, whatever its bytes are. -/
theorem isImage_of_ofBytes {bytes : List UInt8} {x : Executable}
    (h : Executable.ofBytes bytes = .ok x) : IsImage x := by
  unfold Executable.ofBytes at h
  obtain ⟨-, h⟩ := Fallible.of_guard_eq_ok h
  split at h
  case h_2 => cases h
  next headers hheaders =>
  split at h
  case h_2 => cases h
  next clr hclr =>
  split at h
  case h_2 => cases h
  cases h
  unfold Headers.read at hheaders
  obtain ⟨mark, -, h⟩ := Fallible.exists_of_bind_eq_ok hheaders
  obtain ⟨-, h⟩ := Fallible.of_guard_eq_ok h
  obtain ⟨start, -, h⟩ := Fallible.exists_of_bind_eq_ok h
  obtain ⟨-, h⟩ := Fallible.of_guard_eq_ok h
  obtain ⟨signature, -, h⟩ := Fallible.exists_of_bind_eq_ok h
  obtain ⟨-, h⟩ := Fallible.of_guard_eq_ok h
  obtain ⟨sectionCount, -, h⟩ := Fallible.exists_of_bind_eq_ok h
  obtain ⟨optionalSize, -, h⟩ := Fallible.exists_of_bind_eq_ok h
  obtain ⟨front, -, h⟩ := Fallible.exists_of_bind_eq_ok h
  obtain ⟨⟨alignment, clr'⟩, hoptional, h⟩ := Fallible.exists_of_branch_eq_ok h
  obtain ⟨-, h⟩ := Fallible.of_guard_eq_ok h
  obtain ⟨sections, hsections, h⟩ := Fallible.exists_of_bind_eq_ok h
  cases h
  have hdirectory : IsDirectory clr := by
    split at hoptional
    · cases hoptional
      cases hclr
    · exact clr_of_readOptional hoptional clr hclr
  exact ⟨((always_readSection.times _).of_value hsections).2, hdirectory.1, hdirectory.2⟩

theorem offsetIn_eq {address : Nat} {sections : List Section} (haddress : address < 2 ^ 32)
    (h : ∀ s ∈ sections, IsSection s) :
    offsetIn address sections = lift (Executable.offsetIn address sections) := by
  induction sections with
  | nil => rfl
  | cons s rest ih =>
    have hraw := (h s List.mem_cons_self).rawOffset
    unfold offsetIn Executable.offsetIn checkedAdd
    by_cases hstop : s.virtualAddress + s.virtualSize < 2 ^ 32
    · rw [if_pos hstop, if_neg (by omega), lift_ite]
      dsimp only
      split
      · next hin =>
        have hle : s.virtualAddress ≤ address := by
          have := (Bool.and_eq_true _ _).mp hin
          exact of_decide_eq_true this.1
        rw [sub_eq hle, pure_bind, add_eq (by omega)]
        unfold Section.offsetOf
        rw [Nat.add_comm]
        rfl
      · exact ih fun s' hs' => h s' (List.mem_cons_of_mem _ hs')
    · rw [if_neg hstop, if_pos (by omega)]
      rfl

theorem offsetIn_lt {address offset : Nat} {sections : List Section} (haddress : address < 2 ^ 32)
    (h : ∀ s ∈ sections, IsSection s)
    (hoffset : Executable.offsetIn address sections = .ok offset) : offset < 2 ^ 33 := by
  induction sections with
  | nil => cases hoffset
  | cons s rest ih =>
    have hraw := (h s List.mem_cons_self).rawOffset
    unfold Executable.offsetIn at hoffset
    split at hoffset
    · cases hoffset
    split at hoffset
    · cases hoffset
      unfold Section.offsetOf
      omega
    · exact ih (fun s' hs' => h s' (List.mem_cons_of_mem _ hs')) hoffset

theorem bytesAt_eq {x : Executable} (hx : IsImage x) {address size : Nat}
    (haddress : address < 2 ^ 32) (hsize : size < 2 ^ 33) :
    bytesAt x address size = lift (x.bytesAt address size) := by
  unfold bytesAt Executable.bytesAt
  refine bind_congr_lift (offsetIn_eq haddress hx.sections) fun offset hoffset => ?_
  have hlt := offsetIn_lt haddress hx.sections hoffset
  exact slice_eq (by omega)

theorem length_of_slice {bytes part : List UInt8} {place size : Nat}
    (h : Metadata.slice bytes place size = .ok part) :
    part.length = size ∧ part.length ≤ bytes.length := by
  unfold Metadata.slice at h
  rw [splitBytes_eq, List.length_drop] at h
  split at h
  · next part' rest hsplit =>
    split at hsplit
    · next hle =>
      cases hsplit
      split at h
      · cases h
        rw [List.length_take, List.length_drop]
        omega
      · cases h
    · cases hsplit
  · cases h

theorem length_of_bytesAt {x : Executable} {part : List UInt8} {address size : Nat}
    (h : x.bytesAt address size = .ok part) :
    part.length = size ∧ part.length ≤ x.bytes.length := by
  unfold Executable.bytesAt at h
  obtain ⟨offset, -, h⟩ := Fallible.exists_of_bind_eq_ok h
  exact length_of_slice h

-- ========================================================== CLR header

/-- The header of the managed part, at the place that is reached. -/
def clrHeader : Cursor ClrHeader := do
  let size ← Cursor.number 4
  if size ≠ ClrHeader.expectedSize then Cursor.fail (.damaged (.clrHeaderSize size))
  let major ← Cursor.number 2
  let minor ← Cursor.number 2
  let address ← Cursor.number 4
  let length ← Cursor.number 4
  if address = 0 || length = 0 then Cursor.fail (.damaged .noMetadataDirectory)
  let flags ← Cursor.number 4
  let entryPoint ← Cursor.number 4
  return ⟨size, major, minor, address, length, flags, entryPoint⟩

/-- Reads the header of the managed part at the front of bytes. -/
def readClrHeader (data : List UInt8) : Machine ClrHeader := do
  if data.length < ClrHeader.expectedSize then fail .outOfBounds
  clrHeader.value data

/-- A cursor at a place gives what is read from fixed places. -/
def Gives (data : List UInt8) (place : Nat) (c : Cursor α) (y : Except Error α) : Prop :=
  (do return (← c data place).1) = lift y

namespace Gives

variable {place : Nat}

theorem pure (a : α) : Gives data place (pure a) (pure a) := rfl

theorem number {f : Nat → Cursor α} {g : Nat → Except Error α} {size : Nat}
    (hdata : data.length < 2 ^ 64) (hsize : 0 < size) (h : place + size ≤ data.length)
    (hf : ∀ n, Gives data (place + size) (f n) (g n)) :
    Gives data place (Cursor.number size >>= f) (Reader.numberAt data place size >>= g) := by
  have hcursor : (Cursor.number size >>= f) data place
      = f (wordAt data place size) data (place + size) := by
    change (Cursor.number size data place >>= fun r => f r.1 data r.2) = _
    rw [number_ok hdata hsize h]
    rfl
  unfold Gives
  rw [hcursor, numberAt_ok hsize h]
  exact hf _

theorem guard {p : Prop} [Decidable p] {e : Error} {f : PUnit → Cursor α}
    {g : PUnit → Except Error α} (h : ¬ p → Gives data place (f ⟨⟩) (g ⟨⟩)) :
    Gives data place (if p then Cursor.fail e >>= f else f ⟨⟩)
      (if p then throw e >>= g else g ⟨⟩) := by
  by_cases hp : p
  · rw [if_pos hp, if_pos hp]
    rfl
  · rw [if_neg hp, if_neg hp]
    exact h hp

end Gives

theorem readClrHeader_eq (hdata : data.length < 2 ^ 64) :
    readClrHeader data = lift (ClrHeader.ofBytes data) := by
  unfold readClrHeader ClrHeader.ofBytes
  refine guard_eq_lift fun hlen => ?_
  unfold ClrHeader.expectedSize at hlen
  have hfour : 0 < 4 := by decide
  have htwo : 0 < 2 := by decide
  refine Gives.number hdata hfour (by omega) fun size => .guard fun _ => ?_
  refine .number hdata htwo (by omega) fun major => .number hdata htwo (by omega) fun minor => ?_
  refine .number hdata hfour (by omega) fun address => ?_
  refine .number hdata hfour (by omega) fun length => .guard fun _ => ?_
  refine .number hdata hfour (by omega) fun flags => ?_
  exact .number hdata hfour (by omega) fun entryPoint => .pure _

/-- The numbers of the header are words of four bytes. -/
theorem words_of_clrHeader {header : ClrHeader} (h : ClrHeader.ofBytes data = .ok header) :
    header.metadataAddress < 2 ^ 32 ∧ header.metadataSize < 2 ^ 32 := by
  unfold ClrHeader.ofBytes at h
  obtain ⟨-, h⟩ := Fallible.of_guard_eq_ok h
  obtain ⟨size, -, h⟩ := Fallible.exists_of_bind_eq_ok h
  obtain ⟨-, h⟩ := Fallible.of_guard_eq_ok h
  obtain ⟨major, -, h⟩ := Fallible.exists_of_bind_eq_ok h
  obtain ⟨minor, -, h⟩ := Fallible.exists_of_bind_eq_ok h
  obtain ⟨address, haddress, h⟩ := Fallible.exists_of_bind_eq_ok h
  obtain ⟨length, hlength, h⟩ := Fallible.exists_of_bind_eq_ok h
  obtain ⟨-, h⟩ := Fallible.of_guard_eq_ok h
  obtain ⟨flags, -, h⟩ := Fallible.exists_of_bind_eq_ok h
  obtain ⟨entryPoint, -, h⟩ := Fallible.exists_of_bind_eq_ok h
  cases h
  exact ⟨(always_number 4).of_value haddress, (always_number 4).of_value hlength⟩

-- ============================================================= streams

/-- The number of so many bytes at the front of bytes. -/
def readNumber (size : Nat) (data : List UInt8) : Machine Nat := (Cursor.number size).value data

/-- Reads the entry at the front of bytes. -/
def readStreamHeader (data : List UInt8) : Machine StreamHeader := do
  if data.length < 9 then fail .outOfBounds
  let nameBytes ← part data 8 (min data.length (8 + StreamHeader.nameLimit))
  match nameBytes.findIdx? (· = 0) with
  | none => fail (.damaged .unterminatedStreamName)
  | some length =>
    let name ← part nameBytes 0 length
    let offset ← readNumber 4 data
    let size ← readNumber 4 (← rest data 4)
    return ⟨offset, size, String.ofList (Text.Utf8.decodeLossy name)⟩

/-- How many bytes an entry takes. -/
def headerSize (h : StreamHeader) : Machine Nat := do
  let filled ← add 64 (← add 64 h.name.utf8ByteSize 1) 3
  add 64 8 (clearLow 64 2 filled)

/-- Reads entries of the directory from a place on. -/
def readStreams (data : List UInt8) : (fuel count place : Nat) → Machine (List StreamHeader)
  | _, 0, _ => return []
  | 0, _ + 1, _ => fault .endless
  | fuel + 1, count + 1, place => do
    match part? data place data.length with
    | none => fail .outOfBounds
    | some front =>
      let header ← readStreamHeader front
      let isInside := match checkedAdd 32 header.offset header.size with
        | some stop => decide (stop ≤ data.length)
        | none => false
      if !isInside then
        fail (.damaged (.streamOutside header.name header.offset header.size))
      let place ← add 64 place (← headerSize header)
      let rest ← readStreams data fuel count place
      return header :: rest

/-- Reads the root at the front of metadata. -/
def readRoot (fuel : Nat) (data : List UInt8) : Machine Root := do
  if data.length < 20 then fail .outOfBounds
  let found ← readNumber 4 data
  if found ≠ Root.magic then fail (.damaged (.metadataMagic found))
  let (versionSize, _) ← Cursor.number 4 data 12
  let versionStop ← add 64 16 versionSize
  match part? data 16 versionStop with
  | none => fail .outOfBounds
  | some version =>
    let (count, place) ← Cursor.number 2 data (← add 64 (← add 64 16 versionSize) 2)
    if count = 0 then fail (.damaged .noStreams)
    let streams ← readStreams data fuel count place
    let major ← readNumber 2 (← rest data 4)
    let minor ← readNumber 2 (← rest data 6)
    return ⟨major, minor, Root.versionText version, streams⟩

/-- The bytes of the first stream of a name. -/
def stream? (r : Root) (data : List UInt8) (name : String) : Machine (Option (List UInt8)) := do
  match r.streams.find? fun h => h.name = name with
  | none => return none
  | some h => return part? data h.offset (← add 32 h.offset h.size)

theorem readNumber_rest (hdata : data.length < 2 ^ 64) {place size : Nat} (hsize : 0 < size)
    (h : place + size ≤ data.length) :
    (rest data place >>= readNumber size) = lift (Reader.numberAt data place size) := by
  rw [rest_eq (by omega), numberAt_ok hsize h, pure_bind]
  unfold readNumber Cursor.value
  rw [number_ok (by rw [List.length_drop]; omega) hsize (by rw [List.length_drop]; omega)]
  rfl

theorem readNumber_eq (hdata : data.length < 2 ^ 64) {size : Nat} (hsize : 0 < size)
    (h : size ≤ data.length) : readNumber size data = lift (Reader.numberAt data 0 size) := by
  have hrest : (rest data 0 >>= readNumber size) = lift (Reader.numberAt data 0 size) :=
    readNumber_rest hdata hsize (by omega)
  rwa [rest_eq (Nat.zero_le _), List.drop_zero, pure_bind] at hrest

theorem readStreamHeader_eq (hdata : data.length < 2 ^ 64) :
    readStreamHeader data = lift (StreamHeader.ofBytes data) := by
  unfold readStreamHeader StreamHeader.ofBytes
  refine guard_eq_lift fun hlen => ?_
  have hname : (data.drop 8).take (min data.length (8 + StreamHeader.nameLimit) - 8)
      = (data.drop 8).take StreamHeader.nameLimit := by
    rw [List.take_eq_take_iff, List.length_drop]
    omega
  rw [part_eq (by unfold StreamHeader.nameLimit; omega) (Nat.min_le_left _ _), hname, pure_bind]
  dsimp only
  generalize (data.drop 8).take StreamHeader.nameLimit = nameBytes
  cases hfind : nameBytes.findIdx? (· = 0) with
  | none =>
    have hlacks : nameBytes.contains 0 = false := by
      rw [← Bool.not_eq_true, List.contains_iff_mem]
      exact fun hmem => absurd (List.findIdx?_eq_none_iff.mp hfind 0 hmem) (by decide)
    rw [hlacks]
    rfl
  | some length =>
    obtain ⟨hlt, hat, -⟩ := List.findIdx?_eq_some_iff_getElem.mp hfind
    have hholds : nameBytes.contains 0 = true :=
      List.contains_iff_mem.mpr (of_decide_eq_true hat ▸ List.getElem_mem hlt)
    have htake : nameBytes.takeWhile (· ≠ 0) = nameBytes.take length := by
      rw [List.takeWhile_eq_take_findIdx_not]
      simp [(List.findIdx?_eq_some_iff_findIdx_eq.mp hfind).2]
    rw [hholds, htake]
    dsimp only
    rw [part_eq (Nat.zero_le _) (Nat.le_of_lt hlt), pure_bind]
    refine bind_congr_lift (readNumber_eq hdata (by decide) (by omega)) fun offset _ => ?_
    rw [← bind_assoc]
    exact bind_congr_lift (readNumber_rest hdata (by decide) (by omega)) fun size _ => rfl

theorem length_decodeLossyAfter (skip : Nat) (bytes : List UInt8) :
    (Text.Utf8.decodeLossyAfter skip bytes).length ≤ bytes.length := by
  induction bytes generalizing skip with
  | nil => exact Nat.le_refl _
  | cons b bytes ih =>
    unfold Text.Utf8.decodeLossyAfter
    cases skip with
    | succ skip => exact Nat.le_succ_of_le (ih skip)
    | zero =>
      dsimp only
      split
      all_goals
        rw [List.length_cons, List.length_cons]
        exact Nat.succ_le_succ (ih _)

/-- A text takes at most four bytes for each of its characters. -/
theorem utf8ByteSize_ofList_le (text : List Char) :
    (String.ofList text).utf8ByteSize ≤ 4 * text.length := by
  induction text with
  | nil => exact Nat.le_refl _
  | cons c text ih =>
    have hcons : String.ofList (c :: text) = String.singleton c ++ String.ofList text := by
      apply String.toList_injective
      simp
    have hchar := c.utf8Size_le_four
    rw [hcons, String.utf8ByteSize_append, String.utf8ByteSize_singleton, List.length_cons]
    omega

/-- The name of a stream is short. -/
theorem name_of_streamHeader {header : StreamHeader} (h : StreamHeader.ofBytes data = .ok header) :
    header.name.utf8ByteSize ≤ 128 := by
  unfold StreamHeader.ofBytes at h
  obtain ⟨-, h⟩ := Fallible.of_guard_eq_ok h
  obtain ⟨-, h⟩ := Fallible.of_guard_eq_ok h
  obtain ⟨offset, -, h⟩ := Fallible.exists_of_bind_eq_ok h
  obtain ⟨size, -, h⟩ := Fallible.exists_of_bind_eq_ok h
  cases h
  refine Nat.le_trans (utf8ByteSize_ofList_le _) ?_
  have hlossy := length_decodeLossyAfter 0
    (((data.drop 8).take StreamHeader.nameLimit).takeWhile (· ≠ 0))
  have hprefix := ((data.drop 8).take StreamHeader.nameLimit).takeWhile_sublist (· ≠ 0) |>.length_le
  have htake := List.length_take_le StreamHeader.nameLimit (data.drop 8)
  unfold StreamHeader.nameLimit at *
  unfold Text.Utf8.decodeLossy
  omega

theorem headerSize_eq {header : StreamHeader} (h : header.name.utf8ByteSize ≤ 128) :
    headerSize header = pure header.headerSize ∧ 9 ≤ header.headerSize
      ∧ header.headerSize ≤ 140 := by
  unfold headerSize StreamHeader.headerSize
  rw [add_eq (by omega), pure_bind, add_eq (by omega), pure_bind,
    clearLow_eq (by omega) (by decide), add_eq (by omega)]
  exact ⟨rfl, by omega, by omega⟩

theorem checkedAdd_isInside {header : StreamHeader} {size : Nat} :
    (match checkedAdd 32 header.offset header.size with
      | some stop => decide (stop ≤ size)
      | none => false) = header.isInside size := by
  unfold StreamHeader.isInside
  by_cases h : header.offset + header.size < 0x100000000
  · rw [checkedAdd_eq (by omega), decide_eq_true h, Bool.true_and]
  · rw [checkedAdd_eq_none (by omega), decide_eq_false h, Bool.false_and]

/-- The directory ends with the metadata, however many entries it should
have. -/
theorem readStreams_eq (hdata : data.length < 2 ^ 32) {place : Nat} (hpos : 0 < fuel)
    (hfuel : place ≤ data.length → data.length + 2 ≤ fuel + place) (count : Nat) :
    readStreams data fuel count place = lift (Root.readStreams data count place) := by
  induction count generalizing fuel place with
  | zero => cases fuel <;> rfl
  | succ count ih =>
    cases fuel with
    | zero => omega
    | succ fuel =>
      unfold readStreams Root.readStreams
      by_cases hplace : place ≤ data.length
      · rw [part?_to_end hplace, if_neg (Nat.not_lt.mpr hplace)]
        dsimp only
        refine bind_congr_lift (readStreamHeader_eq (by rw [List.length_drop]; omega))
          fun header hheader => ?_
        rw [checkedAdd_isInside]
        refine guard_eq_lift fun _ => ?_
        obtain ⟨hsize, hleast, hmost⟩ := headerSize_eq (name_of_streamHeader hheader)
        rw [hsize, pure_bind, add_eq (by omega), pure_bind]
        refine bind_congr_lift (ih (by omega) (by omega)) fun rest _ => rfl
      · unfold part?
        rw [if_neg (fun h => hplace h.1), if_pos (by omega)]
        rfl

theorem readRoot_eq (hdata : data.length < 2 ^ 32) (hfuel : data.length + 2 ≤ fuel) :
    readRoot fuel data = lift (Root.ofBytes data) := by
  unfold readRoot Root.ofBytes
  refine guard_eq_lift fun hlen => ?_
  refine bind_congr_lift (readNumber_eq (by omega) (by decide) (by omega)) fun found _ => ?_
  refine guard_eq_lift fun _ => ?_
  dsimp only
  rw [number_ok (by omega) (by decide) (by omega), numberAt_ok (by decide) (by omega), pure_bind,
    pure_bind]
  dsimp only
  have hversion := wordAt_lt data 12 4
  generalize wordAt data 12 4 = versionSize at hversion
  have hstop : 16 + versionSize < 2 ^ 64 := by omega
  have hplace : 16 + versionSize + 2 < 2 ^ 64 := by omega
  rw [add_eq hstop, pure_bind, slice_eq_part?]
  cases part? data 16 (16 + versionSize) with
  | none => rfl
  | some version =>
    dsimp only
    rw [pure_bind, add_eq hplace, pure_bind, pure_bind, number_at (by omega) (by decide),
      numberAt_eq data (by decide)]
    by_cases hcount : 16 + versionSize + 2 + 2 ≤ data.length
    · rw [if_pos hcount, if_pos hcount, pure_bind, pure_bind]
      refine guard_eq_lift fun _ => ?_
      refine bind_congr_lift (readStreams_eq hdata (by omega) (by omega) _) fun streams _ => ?_
      rw [← bind_assoc]
      refine bind_congr_lift (readNumber_rest (by omega) (by decide) (by omega)) fun major _ => ?_
      rw [← bind_assoc]
      exact bind_congr_lift (readNumber_rest (by omega) (by decide) (by omega)) fun minor _ => rfl
    · rw [if_neg hcount, if_neg hcount]
      rfl

/-- The streams of a root are inside the metadata. -/
theorem isInside_of_root {r : Root} (h : Root.ofBytes data = .ok r) :
    ∀ header ∈ r.streams, header.isInside data.length := by
  unfold Root.ofBytes at h
  obtain ⟨-, h⟩ := Fallible.of_guard_eq_ok h
  obtain ⟨found, -, h⟩ := Fallible.exists_of_bind_eq_ok h
  obtain ⟨-, h⟩ := Fallible.of_guard_eq_ok h
  obtain ⟨versionSize, -, h⟩ := Fallible.exists_of_bind_eq_ok h
  obtain ⟨version, -, h⟩ := Fallible.exists_of_bind_eq_ok h
  obtain ⟨count, -, h⟩ := Fallible.exists_of_bind_eq_ok h
  obtain ⟨-, h⟩ := Fallible.of_guard_eq_ok h
  obtain ⟨streams, hstreams, h⟩ := Fallible.exists_of_bind_eq_ok h
  obtain ⟨major, -, h⟩ := Fallible.exists_of_bind_eq_ok h
  obtain ⟨minor, -, h⟩ := Fallible.exists_of_bind_eq_ok h
  cases h
  exact isInside_readStreams hstreams

/-- The end of a stream fits its word where the directory was checked. -/
theorem stream?_eq {r : Root} (h : ∀ header ∈ r.streams, header.isInside data.length)
    (name : String) : stream? r data name = pure (r.stream? data name) := by
  unfold stream? Root.stream?
  cases hfind : r.streams.find? fun h => h.name = name with
  | none => rfl
  | some header =>
    have hinside := h header (List.mem_of_find?_eq_some hfind)
    unfold StreamHeader.isInside at hinside
    rw [Bool.and_eq_true, decide_eq_true_eq] at hinside
    dsimp only
    rw [add_eq hinside.1, pure_bind]
    change _ = pure (Metadata.slice data header.offset header.size).toOption
    rw [slice_eq_part?]
    cases part? data header.offset (header.offset + header.size) <;> rfl

theorem length_of_stream? {r : Root} {name : String} {stream : List UInt8}
    (h : r.stream? data name = some stream) : stream.length ≤ data.length := by
  unfold Root.stream? at h
  obtain ⟨header, -, h⟩ := Option.bind_eq_some_iff.mp h
  cases hslice : Metadata.slice data header.offset header.size with
  | error e =>
    rw [hslice] at h
    cases h
  | ok part =>
    rw [hslice] at h
    cases h
    exact (length_of_slice hslice).2

-- =============================================================== heaps

/-- The string at a place of the heap. -/
def string (h : StringHeap) (place : Nat) : Machine String := do
  if h.data.length ≤ place then fail .outOfBounds
  let bytes ← rest h.data place
  match (StringHeap.untilZero bytes).bind Text.Utf8.decode with
  | some text => return String.ofList text
  | none => fail (.damaged (.invalidString place))

/-- The byte string at a place of the heap. -/
def blob (h : BlobHeap) (place : Nat) : Machine (List UInt8) := do
  if h.data.length ≤ place then fail .outOfBounds
  let (length, behind) ← Cursor.compressed (← rest h.data place) 0
  let some start := checkedAdd 64 place behind | fail .outOfBounds
  let some stop := checkedAdd 64 start length | fail .outOfBounds
  match part? h.data start stop with
  | some bytes => return bytes
  | none => fail .outOfBounds

theorem string_eq (h : StringHeap) (place : Nat) : string h place = lift (h.get place) := by
  unfold string StringHeap.get
  by_cases hplace : h.data.length ≤ place
  · rw [if_pos hplace, if_pos hplace]
    rfl
  · rw [if_neg hplace, if_neg hplace, rest_eq (by omega), pure_bind]
    cases (StringHeap.untilZero (h.data.drop place)).bind Text.Utf8.decode <;> rfl

theorem blob_eq {h : BlobHeap} (hdata : h.data.length < 2 ^ 32) (place : Nat) :
    blob h place = lift (h.get place) := by
  unfold blob BlobHeap.get
  by_cases hplace : h.data.length ≤ place
  · rw [if_pos hplace, if_pos hplace]
    rfl
  rw [if_neg hplace, if_neg hplace, rest_eq (by omega), pure_bind]
  have hlength : (h.data.drop place).length = h.data.length - place := List.length_drop
  have halike := @follows_compressed (h.data.drop place) (by omega) 0 (Nat.zero_le _)
  rw [List.drop_zero] at halike
  have hvalue : BlobHeap.read.value (h.data.drop place)
      = (Reader.compressed (h.data.drop place) >>= fun r => Reader.take r.1 r.2).map Prod.fst := rfl
  rw [hvalue]
  generalize Cursor.compressed (h.data.drop place) 0 = x at halike
  generalize hread : Reader.compressed (h.data.drop place) = y at halike
  cases halike with
  | error e => rfl
  | @ok length behind _ hbehind =>
    have hlimit := always_compressed _ _ _ hread
    change (do
      let some start := checkedAdd 64 place behind | fail .outOfBounds
      let some stop := checkedAdd 64 start length | fail .outOfBounds
      match part? h.data start stop with
      | some bytes => return bytes
      | none => fail .outOfBounds)
      = lift ((Reader.take length ((h.data.drop place).drop behind)).map Prod.fst)
    rw [checkedAdd_eq (by omega)]
    dsimp only
    rw [checkedAdd_eq (by omega)]
    dsimp only
    unfold Reader.take part?
    rw [splitBytes_eq, List.drop_drop, List.length_drop]
    by_cases hfit : length ≤ h.data.length - (place + behind)
    · rw [if_pos hfit, if_pos ⟨by omega, by omega⟩, Nat.add_sub_cancel_left]
      rfl
    · rw [if_neg hfit, if_neg (by omega)]
      rfl

end ClrListing.Machine
