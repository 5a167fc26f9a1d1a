import StorageSwitch.Block.Disk
import StorageSwitch.Block.Partition

/-! The master boot record in the first sector of a disk: four partition records of sixteen
bytes, followed by a signature of two. A record is in use when its status byte is not zero,
whatever kind it states.
-/

namespace StorageSwitch.Block

-----------------------------------------------------------------------------------------
-- Kinds of partitions
-----------------------------------------------------------------------------------------

/-- What a partition is said to hold. -/
inductive PartitionKind where
  | empty
  | fat12
  | fat16
  | fat32
  | extended
  | ntfs
  | linux
  | lvm
  | gptProtective
  | unknown (code : UInt8)
  deriving DecidableEq, Repr

namespace PartitionKind

/-- The kind that a type byte stands for. -/
def ofCode (code : UInt8) : PartitionKind :=
  if code = 0x00 then empty
  else if code = 0x01 then fat12
  else if code = 0x04 ∨ code = 0x06 ∨ code = 0x0E then fat16
  else if code = 0x0B ∨ code = 0x0C ∨ code = 0x1B ∨ code = 0x1C then fat32
  else if code = 0x05 ∨ code = 0x0F then extended
  else if code = 0x07 then ntfs
  else if code = 0x83 then linux
  else if code = 0x8E then lvm
  else if code = 0xEE then gptProtective
  else unknown code

/-- The word for the kind. -/
def name : PartitionKind → String
  | empty => "Empty"
  | fat12 => "FAT12"
  | fat16 => "FAT16"
  | fat32 => "FAT32"
  | extended => "Extended"
  | ntfs => "NTFS"
  | linux => "Linux"
  | lvm => "LVM"
  | gptProtective => "GptProtective"
  | unknown code => s!"Unknown({code.toNat})"

/-- The words shown to a user. -/
def description : PartitionKind → String
  | empty => "Empty"
  | fat12 => "FAT12"
  | fat16 => "FAT16"
  | fat32 => "FAT32"
  | extended => "Extended"
  | ntfs => "NTFS/exFAT"
  | linux => "Linux"
  | lvm => "LVM"
  | gptProtective => "GPT protective"
  | unknown _ => "Unknown"

end PartitionKind

-----------------------------------------------------------------------------------------
-- Records
-----------------------------------------------------------------------------------------

/-- The number that four bytes spell, least significant first. -/
def littleEndian (b0 b1 b2 b3 : UInt8) : UInt32 :=
  b0.toUInt32 ||| b1.toUInt32 <<< 8 ||| b2.toUInt32 <<< 16 ||| b3.toUInt32 <<< 24

/-- One of the four records of a boot record. -/
structure PartitionRecord where
  status : UInt8
  typeCode : UInt8
  start : UInt32
  count : UInt32
  deriving DecidableEq, Repr

namespace PartitionRecord

/-- Bytes in a record. -/
def byteSize : Nat := 16

/-- Reads the record whose first byte is at `offset`; bytes beyond the image count as zero.
The cylinder, head and sector fields are not read.
-/
def decodeAt (image : Buffer) (offset : Nat) : PartitionRecord :=
  let byte (i : Nat) : UInt8 := image[offset + i]?.getD 0
  { status := byte 0
    typeCode := byte 4
    start := littleEndian (byte 8) (byte 9) (byte 10) (byte 11)
    count := littleEndian (byte 12) (byte 13) (byte 14) (byte 15) }

/-- Whether the record is in use. -/
def isOccupied (record : PartitionRecord) : Bool := record.status != 0

/-- Whether the record is marked for booting. -/
def isBootable (record : PartitionRecord) : Bool := record.status == 0x80

/-- What the partition is said to hold. -/
def kind (record : PartitionRecord) : PartitionKind := .ofCode record.typeCode

/-- The sectors of the partition. -/
def partition (record : PartitionRecord) : Partition := ⟨record.start, record.count⟩

end PartitionRecord

/-- The four records of a disk's first sector. -/
structure BootRecord where
  records : Vector PartitionRecord 4
  deriving DecidableEq, Repr

namespace BootRecord

/-- Where the first partition record begins. -/
def tableOffset : Nat := 446

/-- Where the signature begins. -/
def signatureOffset : Nat := 510

/-- Whether the two signature bytes are in place. -/
def isSigned (image : Buffer) : Bool :=
  image[signatureOffset]? == some 0x55 && image[signatureOffset + 1]? == some 0xAA

/-- Reads the boot record of a sector or longer image, if it is signed. -/
def parse? (image : Buffer) : Option BootRecord :=
  if image.size < sectorSize then none
  else if isSigned image then
    some ⟨Vector.ofFn fun slot =>
      .decodeAt image (tableOffset + PartitionRecord.byteSize * slot.val)⟩
  else none

/-- The records in use with their slots, in slot order. -/
def occupied (record : BootRecord) : List (Nat × PartitionRecord) :=
  (record.records.toList.zipIdx.map fun (entry, slot) => (slot, entry)).filter
    fun (_, entry) => entry.isOccupied

/-- How many records are in use. -/
def partitionCount (record : BootRecord) : Nat := record.occupied.length

/-- The record in a slot, if the slot exists and is in use. -/
def record? (record : BootRecord) (slot : Nat) : Option PartitionRecord :=
  record.records[slot]?.filter (·.isOccupied)

end BootRecord

end StorageSwitch.Block
