import StorageSwitch.Error

/-! Partitions: runs of consecutive sectors of a disk. -/

namespace StorageSwitch.Block

/-- The sum of two sector numbers, clipped to the largest one. -/
def saturatingAdd (a b : UInt32) : UInt32 :=
  if a.toNat + b.toNat < UInt32.size then a + b else 0xFFFFFFFF

/-- A run of `count` sectors that begins at sector `start`. -/
structure Partition where
  start : UInt32
  count : UInt32
  deriving DecidableEq, Repr

namespace Partition

/-- The disk sector behind a sector of the partition, whether or not the partition is that
long. Fails if no sector has that number.
-/
def translate (partition : Partition) (sector : UInt32) : Except Error UInt32 :=
  if partition.start.toNat + sector.toNat < UInt32.size then
    .ok (partition.start + sector)
  else .error .invalidArgument

/-- The first sector after the partition. -/
def stop (partition : Partition) : UInt32 := saturatingAdd partition.start partition.count

end Partition

end StorageSwitch.Block
