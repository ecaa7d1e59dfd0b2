/-
Portable executables: their sections, and where the managed part is.

The headers are checked first, and the managed part with them, by the
sizes that sections have in the file. Addresses are mapped to offsets
afterwards by the sizes that sections have in memory.
-/
import ClrListing.Metadata.Root

namespace ClrListing.Image

open Metadata

-- ============================================================ headers

/-- A section of an image. -/
structure Section where
  /-- Its size in memory. -/
  virtualSize : Nat
  /-- Its address in memory. -/
  virtualAddress : Nat
  /-- Its size in the file. -/
  rawSize : Nat
  /-- Its offset in the file. -/
  rawOffset : Nat
  deriving DecidableEq, Repr, Inhabited

/-- A part of an image that a directory of the headers names. -/
structure Directory where
  address : Nat
  size : Nat
  deriving DecidableEq, Repr, Inhabited

/-- What the headers of an image tell. -/
structure Headers where
  sections : List Section
  /-- Whether there are optional headers. -/
  hasOptional : Bool
  /-- What sections are filled up to in the file. -/
  fileAlignment : Nat
  /-- Where the managed part is. -/
  clr : Option Directory
  deriving DecidableEq, Repr, Inhabited

namespace Headers

/-- The number of the directory that names the managed part. -/
def clrDirectory : Nat := 14

/-- The offset of the directories in the optional headers, which depends
on the kind of image. -/
def directoriesOffset? (magic : Nat) : Option Nat :=
  if magic = 0x10b then some 96 else if magic = 0x20b then some 112 else none

/-- Reads an entry of the directories; an entry of zeros names nothing. -/
def readDirectory : Reader (Option Directory) := do
  let address ← Reader.number 4
  let size ← Reader.number 4
  return if address = 0 && size = 0 then none else some ⟨address, size⟩

/-- Reads an entry of the section table. -/
def readSection : Reader Section := do
  let _ ← Reader.take 8
  let virtualSize ← Reader.number 4
  let virtualAddress ← Reader.number 4
  let rawSize ← Reader.number 4
  let rawOffset ← Reader.number 4
  let _ ← Reader.take 16
  return ⟨virtualSize, virtualAddress, rawSize, rawOffset⟩

/-- Reads the optional headers: the file alignment and the directory of
the managed part. -/
def readOptional (bytes : List UInt8) : Except Error (Nat × Option Directory) := do
  let magic ← Reader.numberAt bytes 0 2
  match directoriesOffset? magic with
  | none => throw .notExecutable
  | some offset =>
    let alignment ← Reader.numberAt bytes 36 4
    let count ← Reader.numberAt bytes (offset - 4) 4
    if 16 < count then throw .notExecutable
    let directories ← (Reader.times count readDirectory).value (bytes.drop offset)
    return (alignment, (directories[clrDirectory]?).join)

/-- Reads the headers of an image. -/
def read (bytes : List UInt8) : Except Error Headers := do
  let mark ← Reader.numberAt bytes 0 2
  if mark ≠ 0x5a4d then throw .notExecutable
  let start ← Reader.numberAt bytes 0x3c 4
  if start < 0x40 then throw .notExecutable
  let signature ← Reader.numberAt bytes start 4
  if signature ≠ 0x4550 then throw .notExecutable
  let file := bytes.drop (start + 4)
  let sectionCount ← Reader.numberAt file 2 2
  let optionalSize ← Reader.numberAt file 16 2
  let _ ← slice file 0 20
  let (alignment, clr) ←
    if optionalSize = 0 then pure (0, none) else readOptional (file.drop 20)
  if bytes.length / 40 < sectionCount then throw .notExecutable
  let sections ← (Reader.times sectionCount readSection).value (file.drop (20 + optionalSize))
  return ⟨sections, optionalSize ≠ 0, alignment, clr⟩

end Headers

-- ================================================= sections in the file

/-- The multiple of `unit` at or above `n`. -/
def alignUp (n unit : Nat) : Nat := (n + unit - 1) / unit * unit

namespace Section

/-- How much of a section is read from the file. -/
def readSize (s : Section) (fileAlignment : Nat) : Nat :=
  if s.rawSize = 0 then 0
  else
    let inFile := min (alignUp (s.rawOffset + s.rawSize) fileAlignment
      - s.rawOffset / 0x200 * 0x200) (alignUp s.rawSize 0x1000)
    if s.virtualSize = 0 then inFile else min inFile (alignUp s.virtualSize 0x1000)

/-- Whether an address is in what is read of a section. -/
def holds (s : Section) (fileAlignment address : Nat) : Bool :=
  s.virtualAddress ≤ address && address < s.virtualAddress + s.readSize fileAlignment

/-- The offset in the file of an address. -/
def offsetOf (s : Section) (address : Nat) : Nat := s.rawOffset + (address - s.virtualAddress)

end Section

/-- The offset of an address in the first section that holds it in the
file. -/
def Headers.fileOffset? (h : Headers) (address : Nat) : Option Nat :=
  (h.sections.find? fun s => s.holds h.fileAlignment address).map fun s => s.offsetOf address

/-- Checks that the managed part and its metadata are in the file, as far
as their headers go. -/
def Headers.checkClr (h : Headers) (bytes : List UInt8) (clr : Directory) :
    Except Error Unit := do
  let some clrOffset := h.fileOffset? clr.address | throw .notExecutable
  let header ← slice bytes clrOffset ClrHeader.expectedSize
  let address ← Reader.numberAt header 8 4
  let size ← Reader.numberAt header 12 4
  let some offset := h.fileOffset? address | throw .notExecutable
  if bytes.length < offset + size then throw .notExecutable
  let versionSize ← Reader.numberAt bytes (offset + 12) 4
  let version ← slice bytes (offset + 16) versionSize
  if (Text.Utf8.decode version).isNone then throw .notExecutable
  let _ ← slice bytes (offset + 16 + versionSize) 4

-- ============================================================== images

/-- An image with a managed part. -/
structure Executable where
  bytes : List UInt8
  sections : List Section
  /-- Where the managed part is. -/
  clr : Directory
  deriving DecidableEq, Repr, Inhabited

namespace Executable

/-- The image that bytes are. -/
def ofBytes (bytes : List UInt8) : Except Error Executable := do
  if bytes.isEmpty then throw .empty
  let .ok headers := Headers.read bytes | throw .notExecutable
  match headers.clr with
  | some clr =>
    let .ok () := headers.checkClr bytes clr | throw .notExecutable
    return ⟨bytes, headers.sections, clr⟩
  | none =>
    throw (.damaged (if headers.hasOptional then .noClrDirectory else .noOptionalHeader))

/-- The offset in the file of an address, by the first section that holds
it in memory. A section that would end past the last address is damage. -/
def offsetIn (address : Nat) : List Section → Except Error Nat
  | [] => .error (.damaged (.unmappedAddress address))
  | s :: rest =>
    if 0x100000000 ≤ s.virtualAddress + s.virtualSize then
      .error (.damaged (.sectionOverflow s.virtualAddress s.virtualSize))
    else if s.virtualAddress ≤ address && address < s.virtualAddress + s.virtualSize then
      .ok (s.offsetOf address)
    else offsetIn address rest

/-- The `size` bytes from an address on. -/
def bytesAt (x : Executable) (address size : Nat) : Except Error (List UInt8) := do
  slice x.bytes (← offsetIn address x.sections) size

end Executable

end ClrListing.Image
