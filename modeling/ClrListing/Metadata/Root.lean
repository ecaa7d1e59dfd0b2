/-
What stands before the streams of metadata, and the heaps among them.

The header tells where metadata is, and the directory where its streams are.
The heaps that rows refer into are one of strings, each with a zero byte at
its end, and one of byte strings, each with its length before it. Both start
with an empty one.
-/
import ClrListing.Metadata.Bytes
import ClrListing.Text.Utf8

namespace ClrListing.Metadata

-- ========================================================= CLR header

/-- The header of the managed part of an image. -/
structure ClrHeader where
  size : Nat
  majorVersion : Nat
  minorVersion : Nat
  /-- The address of the metadata. -/
  metadataAddress : Nat
  metadataSize : Nat
  flags : Nat
  /-- The method that a program starts with. -/
  entryPoint : Nat
  deriving DecidableEq, Repr, Inhabited

namespace ClrHeader

/-- The size of the header. -/
def expectedSize : Nat := 72

/-- Reads the header at the front of bytes. -/
def ofBytes (data : List UInt8) : Except Error ClrHeader := do
  if data.length < expectedSize then throw .outOfBounds
  let size ← Reader.numberAt data 0 4
  if size ≠ expectedSize then throw (.damaged (.clrHeaderSize size))
  let major ← Reader.numberAt data 4 2
  let minor ← Reader.numberAt data 6 2
  let address ← Reader.numberAt data 8 4
  let length ← Reader.numberAt data 12 4
  if address = 0 || length = 0 then throw (.damaged .noMetadataDirectory)
  let flags ← Reader.numberAt data 16 4
  let entryPoint ← Reader.numberAt data 20 4
  return ⟨size, major, minor, address, length, flags, entryPoint⟩

end ClrHeader

-- ============================================================= streams

/-- An entry of the directory of streams. -/
structure StreamHeader where
  /-- Where the stream starts. -/
  offset : Nat
  size : Nat
  name : String
  deriving DecidableEq, Repr, Inhabited

namespace StreamHeader

/-- How many bytes a name may take, the zero byte at its end included. -/
def nameLimit : Nat := 32

/-- Reads the entry at the front of bytes. Bytes of a name that are not
UTF-8 are replaced. -/
def ofBytes (data : List UInt8) : Except Error StreamHeader := do
  if data.length < 9 then throw .outOfBounds
  let nameBytes := (data.drop 8).take nameLimit
  if !nameBytes.contains 0 then throw (.damaged .unterminatedStreamName)
  let offset ← Reader.numberAt data 0 4
  let size ← Reader.numberAt data 4 4
  return ⟨offset, size,
    String.ofList (Text.Utf8.decodeLossy (nameBytes.takeWhile (· ≠ 0)))⟩

/-- How many bytes an entry takes: its name ends with a zero byte and is
filled up to a multiple of four. The name is counted as it was read, so
replaced bytes count as what they were replaced with. -/
def headerSize (h : StreamHeader) : Nat := 8 + (h.name.utf8ByteSize + 1 + 3) / 4 * 4

/-- Whether the stream ends inside metadata of a given size. -/
def isInside (h : StreamHeader) (size : Nat) : Bool :=
  h.offset + h.size < 0x100000000 && h.offset + h.size ≤ size

end StreamHeader

-- ================================================================ root

/-- The directory of streams and what stands before it. -/
structure Root where
  majorVersion : Nat
  minorVersion : Nat
  version : String
  streams : List StreamHeader
  deriving DecidableEq, Repr, Inhabited

namespace Root

/-- The number that metadata starts with. -/
def magic : Nat := 0x424a5342

/-- Reads `count` entries of the directory from an offset on. -/
def readStreams (data : List UInt8) :
    (count offset : Nat) → Except Error (List StreamHeader)
  | 0, _ => return []
  | count + 1, offset => do
    if data.length < offset then throw .outOfBounds
    let header ← StreamHeader.ofBytes (data.drop offset)
    if !header.isInside data.length then
      throw (.damaged (.streamOutside header.name header.offset header.size))
    let rest ← readStreams data count (offset + header.headerSize)
    return header :: rest

/-- The text of a version: without the zero characters at its end. -/
def versionText (bytes : List UInt8) : String :=
  String.ofList ((Text.Utf8.decodeLossy bytes).reverse.dropWhile (· = '\x00')).reverse

/-- Reads the root at the front of metadata. -/
def ofBytes (data : List UInt8) : Except Error Root := do
  if data.length < 20 then throw .outOfBounds
  let found ← Reader.numberAt data 0 4
  if found ≠ magic then throw (.damaged (.metadataMagic found))
  let versionSize ← Reader.numberAt data 12 4
  let version ← slice data 16 versionSize
  let count ← Reader.numberAt data (16 + versionSize + 2) 2
  if count = 0 then throw (.damaged .noStreams)
  let streams ← readStreams data count (16 + versionSize + 4)
  let major ← Reader.numberAt data 4 2
  let minor ← Reader.numberAt data 6 2
  return ⟨major, minor, versionText version, streams⟩

/-- The bytes of the first stream of a name. -/
def stream? (r : Root) (data : List UInt8) (name : String) : Option (List UInt8) := do
  let header ← r.streams.find? fun h => h.name = name
  (slice data header.offset header.size).toOption

end Root

-- ============================================================= strings

/-- A heap of strings. -/
structure StringHeap where
  data : List UInt8
  deriving DecidableEq, Repr, Inhabited

namespace StringHeap

/-- The heap that bytes are. -/
def ofBytes (data : List UInt8) : Except Error StringHeap :=
  if data.head? = some 0 then .ok ⟨data⟩ else .error (.damaged .stringHeapStart)

/-- The bytes before the first zero byte, if there is one. -/
def untilZero (bytes : List UInt8) : Option (List UInt8) :=
  if bytes.contains 0 then some (bytes.takeWhile (· ≠ 0)) else none

/-- The string at an offset. -/
def get (h : StringHeap) (index : Nat) : Except Error String :=
  if h.data.length ≤ index then .error .outOfBounds
  else match (untilZero (h.data.drop index)).bind Text.Utf8.decode with
    | some text => .ok (String.ofList text)
    | none => .error (.damaged (.invalidString index))

end StringHeap

-- ======================================================== byte strings

/-- A heap of byte strings. -/
structure BlobHeap where
  data : List UInt8
  deriving DecidableEq, Repr, Inhabited

namespace BlobHeap

/-- The heap that bytes are. -/
def ofBytes (data : List UInt8) : Except Error BlobHeap :=
  if data.head? = some 0 then .ok ⟨data⟩ else .error (.damaged .blobHeapStart)

/-- Reads a byte string after its length. -/
def read : Reader (List UInt8) := do Reader.take (← Reader.compressed)

/-- The byte string at an offset. -/
def get (h : BlobHeap) (index : Nat) : Except Error (List UInt8) :=
  if h.data.length ≤ index then .error .outOfBounds else read.value (h.data.drop index)

end BlobHeap

end ClrListing.Metadata
