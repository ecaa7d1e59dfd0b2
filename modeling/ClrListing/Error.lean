/-
What can go wrong, as causes, and the wording of each cause.

Faults of a single member's listing are not errors: they become comment
lines of the listing.
-/
import ClrListing.Diagnostic
import ClrListing.Disk.Basic
import ClrListing.Metadata.Token

namespace ClrListing

open Metadata Text

-- =========================================================== damage

/-- What is damaged in a compiled image. -/
inductive Damage where
  | noOptionalHeader
  | noClrDirectory
  | sectionOverflow (address size : Nat)
  | unmappedAddress (address : Nat)
  | clrHeaderSize (found : Nat)
  | noMetadataDirectory
  | metadataMagic (found : Nat)
  | noStreams
  | streamOutside (name : String) (offset size : Nat)
  | unterminatedStreamName
  | noTablesStream
  | noStringsStream
  | stringHeapStart
  | blobHeapStart
  | invalidString (index : Nat)
  | noRows
  | nullNestedRow (row : Nat)
  | nestedRowOutside (row : Nat)
  | nestingTooDeep (name : String)
  | compressedNumber (first : Nat)
  | compressedToken (value : Nat)
  | signatureTooDeep (limit : Nat)
  | elementType (found : Nat)
  deriving DecidableEq, Repr, Inhabited

/-- The wording of a damage. -/
def Damage.message : Damage → String
  | noOptionalHeader => "File does not have an OptionalHeader"
  | noClrDirectory => "File does not have a CLR runtime header directory"
  | sectionOverflow address size =>
    "Section malformed, causing integer overflow - " ++ address.repr ++ " + " ++ size.repr
  | unmappedAddress address =>
    "RVA could not be converted to offset - " ++ address.repr
  | clrHeaderSize found => "Invalid CLR header size: expected 72, got " ++ found.repr
  | noMetadataDirectory => "CLR header has no metadata directory"
  | metadataMagic found => "CIL_HEADER_MAGIC does not match - " ++ Hex.number found
  | noStreams => "Invalid stream count"
  | streamOutside name offset size =>
    "Stream '" ++ name ++ "' lies outside the metadata - " ++ offset.repr ++ " + " ++ size.repr
  | unterminatedStreamName => "Unterminated stream header name"
  | noTablesStream => "Metadata has no #~ stream"
  | noStringsStream => "Metadata has no #Strings stream"
  | stringHeapStart => "Provided #String heap is empty"
  | blobHeapStart => "Invalid memory for #Blob heap"
  | invalidString index => "Invalid string at index - " ++ index.repr
  | noRows => "No valid rows in any of the tables"
  | nullNestedRow row => "Null row in NestedClass - " ++ row.repr
  | nestedRowOutside row => "NestedClass row " ++ row.repr ++ " out of range"
  | nestingTooDeep name => "Nesting of '" ++ name ++ "' is too deep"
  | compressedNumber first => "Invalid compressed uint - " ++ Hex.byteNumber first
  | compressedToken value => "Invalid compressed token - " ++ Hex.number value
  | signatureTooDeep limit => "Signature nesting exceeds " ++ limit.repr
  | elementType found => "Unexpected element type in signature - " ++ Hex.byteNumber found

-- ==================================================== other causes

/-- How declarations and compiled members can disagree; names are given
as they are displayed. -/
inductive Mismatch where
  | notAType (declaration : String)
  | typeMissing (declaration module : String)
  | nestedTypeMissing (name enclosing : String)
  | memberMissing (declaration type : String)
  | foreignType (token : Token)
  | foreignMethod (token : Token)
  deriving DecidableEq, Repr, Inhabited

/-- The wording of a mismatch. -/
def Mismatch.message : Mismatch → String
  | notAType declaration => "Top-level declaration '" ++ declaration ++ "' is not a type"
  | typeMissing declaration module =>
    "Type '" ++ declaration ++ "' not found in module '" ++ module ++ "'"
  | nestedTypeMissing name enclosing =>
    "Nested type '" ++ name ++ "' not found in '" ++ enclosing ++ "'"
  | memberMissing declaration type =>
    "No compiled member left for '" ++ declaration ++ "' in '" ++ type ++ "'"
  | foreignType token => "Type " ++ token.display ++ " is not part of the module"
  | foreignMethod token => "Method " ++ token.display ++ " is not part of the module"

/-- Why no runtime could be used. -/
inductive AttachFault where
  /-- The process holds no runtime. -/
  | noRuntime
  /-- The runtime gave a reason of its own. -/
  | refused (reason : String)
  deriving DecidableEq, Repr, Inhabited

/-- The wording of an attach fault. -/
def AttachFault.message : AttachFault → String
  | noRuntime => "no managed runtime is loaded in this process"
  | refused reason => reason

/-- Why native code could not be decoded. -/
inductive DecodeFault where
  /-- The bytes at this offset into the code are no instruction. -/
  | invalidInstruction (offset : Nat)
  /-- A decoder gave a reason of its own. -/
  | other (reason : String)
  deriving DecidableEq, Repr, Inhabited

/-- The wording of a decode fault. -/
def DecodeFault.message : DecodeFault → String
  | invalidInstruction offset => "invalid instruction at offset " ++ Hex.number offset
  | other reason => reason

-- ============================================================= errors

/-- An error that ends a whole operation. -/
inductive Error where
  /-- An image is damaged. -/
  | damaged (damage : Damage)
  /-- A read would leave the bytes it reads from. -/
  | outOfBounds
  /-- The image is of a kind that is not read. -/
  | notSupported
  /-- There is nothing to read. -/
  | empty
  /-- A file could not be used. -/
  | file (fault : FileFault)
  /-- The bytes are no portable executable. -/
  | notExecutable
  /-- The source text is not well formed. -/
  | syntaxErrors (diagnostics : Diagnostics)
  /-- The compiler rejected the source. -/
  | compilation (diagnostics : Diagnostics)
  /-- Declarations and compiled members disagree. -/
  | resolution (mismatch : Mismatch)
  /-- No runtime could be used. -/
  | attach (fault : AttachFault)
  /-- Native code could not be decoded. -/
  | decoding (fault : DecodeFault)
  /-- A recorded runtime could not be read. -/
  | snapshot
  deriving DecidableEq, Inhabited

/-- The wording of an error, without what only the image's reader or the
file system knows about it. -/
def Error.message : Error → String
  | damaged damage => damage.message
  | outOfBounds => "Out of Bound read would have occurred!"
  | notSupported => "This file type is not supported"
  | empty => "Provided input was empty"
  | file fault => fault.name
  | notExecutable => "The image is no portable executable"
  | syntaxErrors diagnostics => "Syntax errors:\n" ++ diagnostics.display
  | compilation diagnostics => "Compilation failed:\n" ++ diagnostics.display
  | resolution mismatch => "Resolution fault - " ++ mismatch.message
  | attach fault => "Unable to attach to runtime - " ++ fault.message
  | decoding fault => "Decoder error - " ++ fault.message
  | snapshot => "The snapshot is not well formed"

end ClrListing
