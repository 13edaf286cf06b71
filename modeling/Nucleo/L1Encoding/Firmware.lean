import Nucleo.L1Encoding.Types
import Nucleo.Core.Endian

/-!
# Flash layout and upload header

The slots of the MCUboot layout, the words of its trailer and the 44-byte
header that comes before an uploaded image. Offsets are from the start of
flash.
-/
namespace Nucleo.Firmware
open Endian

/-! ## Layout -/

def primarySlotOffset : Nat := 0x00020000
def primarySlotSize : Nat := 0x00060000
def secondarySlotOffset : Nat := 0x00080000
def secondarySlotSize : Nat := 0x00080000
def stagedImageOffset : Nat := 0x000a0000
def flashWriteSize : Nat := 32
def maxSignedImageSize : Nat := 0x00040000

/-- mirrors Rust/src/lib.rs:127-130 -/
def trailerMagicBlockOffset (slot_offset slot_size : Nat) : Nat := slot_offset + slot_size - 32

/-- mirrors Rust/src/lib.rs:132-135 -/
def trailerImageOkOffset (slot_offset slot_size : Nat) : Nat :=
  trailerMagicBlockOffset slot_offset slot_size - 32

/-- mirrors Rust/src/lib.rs:137-140 -/
def trailerSwapInfoOffset (slot_offset slot_size : Nat) : Nat :=
  trailerImageOkOffset slot_offset slot_size - 64

/-- `MCUBOOT_IMAGE_MAGIC`. -/
def mcubootImageMagic : Bytes := [0x3d, 0xb8, 0xf3, 0x96]

/-- `MCUBOOT_TRAILER_MAGIC`. -/
def mcubootTrailerMagic : Bytes :=
  [0x20, 0x00, 0x2d, 0xe1, 0x5d, 0x29, 0x41, 0x0b, 0x8d, 0x77, 0x67, 0x9c, 0x11, 0x0f, 0x1f, 0x8a]

/-- A flash word as the erase leaves it. -/
def erasedWord : Bytes := List.replicate flashWriteSize 0xff

/-- mirrors Rust/src/lib.rs:142-147 -/
def mcubootMagicBlock : Bytes := erasedWord.take 16 ++ mcubootTrailerMagic

/-- mirrors Rust/src/lib.rs:149-154 -/
def mcubootTestSwapInfoBlock : Bytes := erasedWord.set 0 2

/-- mirrors Rust/src/lib.rs:156-161 -/
def mcubootImageOkBlock : Bytes := erasedWord.set 0 1

/-- mirrors Rust/src/lib.rs:122-125 -/
def hasMcubootImageMagic (bytes : Bytes) : Bool := mcubootImageMagic.isPrefixOf bytes

/-! ## The upload header -/

/-- `UPDATE_HEADER_SIZE`. -/
def updateHeaderSize : Nat := 44

/-- `UPDATE_PROTOCOL_MAGIC`. -/
def updateProtocolMagic : Bytes := ascii "FWUP"

def updateProtocolVersion : UInt8 := 1

/-- mirrors Rust/src/lib.rs:82-86 -/
structure UpdateHeader where
  image_length : Nat
  sha256 : Bytes
  deriving DecidableEq, Repr

/-- mirrors Rust/src/lib.rs:89-95 -/
inductive UpdateHeaderError
  | wrongMagic | unsupportedVersion | nonzeroReservedBytes | invalidLength
  deriving DecidableEq, Repr

/-- mirrors Rust/src/lib.rs:97-120 -/
def UpdateHeader.decode (bytes : Bytes) : Except UpdateHeaderError UpdateHeader :=
  if bytes.take 4 ≠ updateProtocolMagic then .error .wrongMagic
  else if bytes.getD 4 0 ≠ updateProtocolVersion then .error .unsupportedVersion
  else if bytes.extract 5 8 ≠ [0, 0, 0] then .error .nonzeroReservedBytes
  else
    let image_length := ofLE (bytes.extract 8 12)
    if ¬ (0x200 ≤ image_length ∧ image_length ≤ maxSignedImageSize) then .error .invalidLength
    else .ok { image_length, sha256 := bytes.drop 12 }

theorem UpdateHeader.decode_length {bytes : Bytes} {header : UpdateHeader}
    (h : UpdateHeader.decode bytes = .ok header) :
    0x200 ≤ header.image_length ∧ header.image_length ≤ maxSignedImageSize := by
  unfold UpdateHeader.decode at h
  split at h
  · cases h
  split at h
  · cases h
  split at h
  · cases h
  dsimp only at h
  split at h
  · cases h
  · rename_i hlen
    cases h
    exact Decidable.not_not.1 hlen

end Nucleo.Firmware
