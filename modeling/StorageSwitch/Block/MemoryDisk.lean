import StorageSwitch.Block.Disk

/-! A disk that is nothing but its sectors. What is written to sectors is what later reads of
them find, as long as both stay on the disk.
-/

namespace StorageSwitch.Block

/-- Replaces the bytes of a buffer from `start` on by those of `data`; what does not fit is
dropped.
-/
def overwrite (buffer : Buffer) (start : Nat) (data : Buffer) : Buffer :=
  buffer.mapIdx fun index byte =>
    if start ≤ index then data[index - start]?.getD byte else byte

/-- The bytes of all sectors, in order. -/
structure MemoryDisk where
  bytes : Buffer
  deriving DecidableEq

namespace MemoryDisk

/-- A disk of zero bytes. -/
def blank (sectors : Nat) : MemoryDisk := ⟨Array.replicate (sectors * sectorSize) 0⟩

/-- Where the bytes of some sectors lie and how many they are, provided the sectors are on
the disk and a buffer has room for them.
-/
def extent (disk : MemoryDisk) (buffer : Buffer) (start count : UInt32)
    : Except Error (Nat × Nat) :=
  let first := start.toNat * sectorSize
  let length := count.toNat * sectorSize
  if disk.bytes.size < first + length then .error .invalidArgument
  else if buffer.size < length then .error .io
  else .ok (first, length)

/-- Fills the start of a buffer from sectors. -/
def read (disk : MemoryDisk) (buffer : Buffer) (start count : UInt32)
    : Except Error Unit × Buffer :=
  match disk.extent buffer start count with
  | .error error => (.error error, buffer)
  | .ok (first, length) =>
      (.ok (), overwrite buffer 0 (disk.bytes.extract first (first + length)))

/-- Replaces sectors by the start of a buffer. -/
def write (disk : MemoryDisk) (data : Buffer) (start count : UInt32)
    : Except Error Unit × MemoryDisk :=
  match disk.extent data start count with
  | .error error => (.error error, disk)
  | .ok (first, length) => (.ok (), ⟨overwrite disk.bytes first (data.extract 0 length)⟩)

end MemoryDisk

end StorageSwitch.Block
