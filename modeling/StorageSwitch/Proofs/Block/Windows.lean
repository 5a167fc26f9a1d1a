import StorageSwitch.Block.MemoryDisk
import StorageSwitch.Proofs.Block.Alignment

/-! A partition is a window onto its disk. Reading and writing through the partition is
reading and writing the disk some sectors further on, so what is written through one window
can be read through every other one that looks at the same sectors.
-/

namespace StorageSwitch.Block

-----------------------------------------------------------------------------------------
-- Disks that are nothing but their sectors
-----------------------------------------------------------------------------------------

/-- How a memory disk answers a request, and the disk afterwards. It only reads and writes. -/
def MemoryDisk.serve (disk : MemoryDisk) : (request : DiskRequest) → request.Reply × MemoryDisk
  | .read buffer start count => (disk.read buffer start count, disk)
  | .write data start count => disk.write data start count
  | .init => (.error .notSupported, disk)
  | .control _ => (.error .notSupported, disk)

/-- The result when every disk is a memory disk, and the disks afterwards. -/
def Inquiry.runOn {δ α : Type} [DecidableEq δ] (disks : δ → MemoryDisk)
    : Inquiry δ α → α × (δ → MemoryDisk)
  | settled result => (result, disks)
  | asks disk request conclude =>
      let (reply, after) := (disks disk).serve request
      (conclude reply, fun other => if other = disk then after else disks other)

/-- The first bytes of `data`, followed by what a longer buffer held behind them. -/
def filled (buffer data : Buffer) (length : Nat) : Buffer :=
  data.extract 0 length ++ buffer.extract length buffer.size

theorem size_overwrite (buffer data : Buffer) (start : Nat)
    : (overwrite buffer start data).size = buffer.size :=
  Array.size_mapIdx

/-- Overwriting the start of a buffer that is long enough replaces as many bytes. -/
theorem overwrite_zero {buffer data : Buffer} (fits : data.size ≤ buffer.size)
    : overwrite buffer 0 data = data ++ buffer.extract data.size buffer.size := by
  apply Array.ext
  · simp [overwrite]
    omega
  · intro index _ _
    by_cases early : index < data.size
    · simp [overwrite, early]
    · have behind : data.size + (index - data.size) = index := by omega
      rw [Array.getElem_append_right (Nat.le_of_not_lt early)]
      simp [overwrite, early, behind]

/-- What has been overwritten reads as the new bytes. -/
theorem extract_overwrite {buffer data : Buffer} {start : Nat}
    (fits : start + data.size ≤ buffer.size)
    : (overwrite buffer start data).extract start (start + data.size) = data := by
  apply Array.ext
  · simp [overwrite]
    omega
  · intro index _ within
    simp [overwrite, within]

namespace MemoryDisk

variable {disk after : MemoryDisk} {buffer data : Buffer} {start count : UInt32}

/-- The sectors are on the disk and the buffer has room for them. -/
structure Holds (disk : MemoryDisk) (buffer : Buffer) (start count : UInt32) : Prop where
  onDisk : (start.toNat + count.toNat) * sectorSize ≤ disk.bytes.size
  room : count.toNat * sectorSize ≤ buffer.size

/-- A memory disk reads and writes exactly what it holds. -/
theorem extent_of_holds (holds : disk.Holds buffer start count)
    : disk.extent buffer start count
      = .ok (start.toNat * sectorSize, count.toNat * sectorSize) := by
  have onDisk := holds.onDisk
  rw [Nat.add_mul] at onDisk
  simp only [extent]
  rw [if_neg (Nat.not_lt.mpr onDisk), if_neg (Nat.not_lt.mpr holds.room)]

theorem holds_of_extent {place : Nat × Nat}
    (found : disk.extent buffer start count = .ok place)
    : disk.Holds buffer start count := by
  simp only [extent] at found
  split at found
  · contradiction
  · rename_i onDisk
    split at found
    · contradiction
    · rename_i room
      rw [← Nat.add_mul, Nat.not_lt] at onDisk
      exact ⟨onDisk, Nat.not_lt.mp room⟩

theorem write_eq_ok_iff
    : (disk.write data start count).1 = .ok () ↔ disk.Holds data start count := by
  constructor
  · intro written
    unfold write at written
    split at written
    · contradiction
    · rename_i found
      exact holds_of_extent found
  · intro holds
    rw [write, extent_of_holds holds]

/-- What has been written to sectors is what a later read of them finds.
Witness: both have the same extent, and a write does not change the size of the disk.
-/
theorem read_of_write (holds : disk.Holds data start count)
    (room : count.toNat * sectorSize ≤ buffer.size)
    : (disk.write data start count).2.read buffer start count
      = (.ok (), filled buffer data (count.toNat * sectorSize)) := by
  have size : (data.extract 0 (count.toNat * sectorSize)).size = count.toNat * sectorSize := by
    rw [Array.size_extract, Nat.sub_zero, Nat.min_eq_left holds.room]
  have within : start.toNat * sectorSize + (data.extract 0 (count.toNat * sectorSize)).size
      ≤ disk.bytes.size := by
    rw [size, ← Nat.add_mul]
    exact holds.onDisk
  have written
      : (disk.write data start count).2
        = ⟨overwrite disk.bytes (start.toNat * sectorSize)
            (data.extract 0 (count.toNat * sectorSize))⟩ := by
    rw [write, extent_of_holds holds]
  have afterHolds : (disk.write data start count).2.Holds buffer start count :=
    ⟨by simpa only [written, size_overwrite] using holds.onDisk, room⟩
  have found := extract_overwrite within
  rw [size] at found
  rw [read, extent_of_holds afterHolds]
  simp only [written, found]
  rw [overwrite_zero (Nat.le_trans (Nat.le_of_eq size) room), size, filled]

end MemoryDisk

namespace DeviceTree

variable {δ η : Type} {tree : DeviceTree δ η} {part disk : DeviceId} {range : Partition}
  {driver : δ}

-----------------------------------------------------------------------------------------
-- Two ways to the same sectors
-----------------------------------------------------------------------------------------

/-- Reading and writing sectors of the partition is reading and writing sectors of the disk
from `place` on, and each is one call of the driver.
-/
structure Reaches (tree : DeviceTree δ η) (part : DeviceId) (sector : UInt32)
    (disk : DeviceId) (driver : δ) (place count : UInt32) : Prop where
  read
    : ∀ buffer,
        tree.read part buffer sector count = tree.read disk buffer place count
        ∧ (tree.read part buffer sector count).request?
          = some (driver, .read buffer place count)
  write
    : ∀ data,
        tree.write part data sector count = tree.write disk data place count
        ∧ (tree.write part data sector count).request?
          = some (driver, .write data place count)

/-- Sectors of the disk read as the data, on the disk itself and through every partition of
it that begins no later.
-/
structure ReadsBack [DecidableEq δ] (tree : DeviceTree δ η) (disks : δ → MemoryDisk)
    (disk : DeviceId) (place count : UInt32) (data : Buffer) : Prop where
  onDisk
    : ∀ buffer,
        count.toNat * sectorSize ≤ buffer.size
        → ((tree.read disk buffer place count).runOn disks).1
          = (.ok (), filled buffer data (count.toNat * sectorSize))
  throughPartition
    : ∀ part range,
        tree.device? part = some (.partition range disk)
        → range.start ≤ place
        → ∀ buffer,
            count.toNat * sectorSize ≤ buffer.size
            → ((tree.read part buffer (place - range.start) count).runOn disks).1
              = (.ok (), filled buffer data (count.toNat * sectorSize))

/-- A sector of the disk has a number in every partition that begins no later. -/
theorem start_add_sub {start place : UInt32} (later : start ≤ place)
    : start.toNat + (place - start).toNat < UInt32.size
      ∧ start + (place - start) = place := by
  have ordered := UInt32.le_iff_toNat_le.mp later
  refine ⟨?_, ?_⟩
  · rw [UInt32.toNat_sub_of_le _ _ later, Nat.add_sub_cancel' ordered]
    exact place.toNat_lt
  · rw [UInt32.add_comm, UInt32.sub_add_cancel]

variable (rooted : tree.Rooted) (found : tree.device? part = some (.partition range disk))
  (live : tree.device? disk = some (.disk driver))

include rooted live in
/-- What has been written to the disk reads back everywhere.
Witness: every way to the sectors is the same driver call.
-/
theorem Rooted.readsBack [DecidableEq δ] {disks : δ → MemoryDisk} {data : Buffer}
    {place count : UInt32} (holds : (disks driver).Holds data place count)
    : tree.ReadsBack ((tree.write disk data place count).runOn disks).2 disk place count
        data := by
  have onDisk
      : ∀ buffer,
          count.toNat * sectorSize ≤ buffer.size
          → ((tree.read disk buffer place count).runOn
                ((tree.write disk data place count).runOn disks).2).1
            = (.ok (), filled buffer data (count.toNat * sectorSize)) := by
    intro buffer room
    rw [write_of_disk live, read_of_disk live]
    simp only [Inquiry.runOn, MemoryDisk.serve, if_true]
    exact MemoryDisk.read_of_write holds room
  refine ⟨onDisk, fun other window otherFound later buffer room => ?_⟩
  obtain ⟨numbered, same⟩ := start_add_sub later
  rw [rooted.read_of_partition otherFound, if_pos numbered, same]
  exact onDisk buffer room

include rooted found live in
theorem Rooted.reaches {sector : UInt32}
    (numbered : range.start.toNat + sector.toNat < UInt32.size) (count : UInt32)
    : tree.Reaches part sector disk driver (range.start + sector) count := by
  refine ⟨fun buffer => ?_, fun data => ?_⟩
  · rw [rooted.read_of_partition found, if_pos numbered, read_of_disk live]
    exact ⟨rfl, rfl⟩
  · rw [rooted.write_of_partition found, if_pos numbered, write_of_disk live]
    exact ⟨rfl, rfl⟩

include rooted found live in
/-- A write through the partition succeeds exactly if the sectors have numbers and the disk
holds them and the data, and what it has written reads back everywhere.
-/
theorem Rooted.write_through [DecidableEq δ] (disks : δ → MemoryDisk)
    (sector count : UInt32) (data : Buffer)
    : let written := (tree.write part data sector count).runOn disks
      (written.1 = .ok ()
        ↔ range.start.toNat + sector.toNat < UInt32.size
          ∧ (disks driver).Holds data (range.start + sector) count)
      ∧ (written.1 = .ok ()
        → tree.ReadsBack written.2 disk (range.start + sector) count data) := by
  intro written
  by_cases numbered : range.start.toNat + sector.toNat < UInt32.size
  · have onDisk
        : written = (tree.write disk data (range.start + sector) count).runOn disks := by
      simp only [written]
      rw [rooted.write_of_partition found, if_pos numbered]
    have succeeds
        : written.1 = .ok () ↔ (disks driver).Holds data (range.start + sector) count := by
      rw [onDisk, write_of_disk live]
      exact MemoryDisk.write_eq_ok_iff
    refine ⟨by rw [succeeds, and_iff_right numbered], fun success => ?_⟩
    rw [onDisk]
    exact rooted.readsBack live (succeeds.mp success)
  · have refused : written = (.error .invalidArgument, disks) := by
      simp only [written]
      rw [rooted.write_of_partition found, if_neg numbered]
      rfl
    simp [refused, numbered]

/-- In a tree of any size, a partition is a window onto its disk, which is live. If a sector
has a number on the disk, reading and writing it through the partition is one call of the
disk's driver, the same as on the disk itself; otherwise nobody is asked and the call fails.
Only its size the partition knows by itself. So on disks that are nothing but their sectors,
what is written through a partition reads back on the disk and through every partition that
shows it.
-/
theorem partition_is_window_of_disk [DecidableEq δ] (reached : tree.Reached)
    (found : tree.device? part = some (.partition range disk))
    : ∃ driver,
        tree.device? disk = some (.disk driver)
        ∧ (∀ sector count,
            (range.start.toNat + sector.toNat < UInt32.size
              → tree.Reaches part sector disk driver (range.start + sector) count)
            ∧ (UInt32.size ≤ range.start.toNat + sector.toNat
              → (∀ buffer,
                  tree.read part buffer sector count
                  = .settled (.error .invalidArgument, buffer))
                ∧ ∀ data,
                    tree.write part data sector count = .settled (.error .invalidArgument)))
        ∧ tree.control part .getSize = .settled (.ok range.count)
        ∧ (∀ command,
            command ≠ .getSize → tree.control part command = tree.control disk command)
        ∧ ∀ (disks : δ → MemoryDisk) sector count data,
            let written := (tree.write part data sector count).runOn disks
            (written.1 = .ok ()
              ↔ range.start.toNat + sector.toNat < UInt32.size
                ∧ (disks driver).Holds data (range.start + sector) count)
            ∧ (written.1 = .ok ()
              → tree.ReadsBack written.2 disk (range.start + sector) count data) := by
  have rooted := reached.rooted
  obtain ⟨driver, live⟩ := rooted.rooted found
  refine ⟨driver, live, ?_, ?_, ?_, rooted.write_through found live⟩
  · intro sector count
    refine ⟨fun numbered => rooted.reaches found live numbered count, fun beyond => ?_⟩
    have outside := Nat.not_lt.mpr beyond
    exact ⟨fun buffer => by rw [rooted.read_of_partition found, if_neg outside],
      fun data => by rw [rooted.write_of_partition found, if_neg outside]⟩
  · rw [rooted.control_of_partition found, if_pos rfl]
  · intro command other
    rw [rooted.control_of_partition found, if_neg other]

/-- Two partitions of a disk overlap. What is written through the first one is read through
the second one, and a sector without a number on the disk is refused.
-/
theorem partition_is_window_of_disk_of_overlapping_partitions
    : let sector := bootSector [⟨0x80, 0x83, 2, 4⟩, ⟨1, 0x07, 4, 4⟩]
      let tree := ((empty none : DeviceTree String String).play (fun _ => .ofSector sector)
        [.register "ram"]).2
      let disks : String → MemoryDisk := fun _ => .blank 8
      let data : Buffer := Array.replicate 512 0xA5
      let written := (tree.write ⟨1, 0⟩ data 3 1).runOn disks
      tree.device? ⟨1, 0⟩ = some (.partition ⟨2, 4⟩ ⟨0, 0⟩)
      ∧ tree.device? ⟨2, 0⟩ = some (.partition ⟨4, 4⟩ ⟨0, 0⟩)
      ∧ tree.Reaches ⟨1, 0⟩ 3 ⟨0, 0⟩ "ram" 5 1
      ∧ tree.write ⟨1, 0⟩ data 0xFFFFFFFE 1 = .settled (.error .invalidArgument)
      ∧ written.1 = .ok ()
      ∧ ∀ buffer : Buffer,
          512 ≤ buffer.size
          → ((tree.read ⟨2, 0⟩ buffer 1 1).runOn written.2).1
            = (.ok (), filled buffer data 512) := by
  intro sector tree disks data written
  have first : tree.device? ⟨1, 0⟩ = some (.partition ⟨2, 4⟩ ⟨0, 0⟩) := by decide +kernel
  have second : tree.device? ⟨2, 0⟩ = some (.partition ⟨4, 4⟩ ⟨0, 0⟩) := by decide +kernel
  have onDisk : tree.device? ⟨0, 0⟩ = some (.disk "ram") := by decide +kernel
  have reached := (run_play (fun _ => .ofSector sector)
    (empty none : DeviceTree String String) [.register "ram"]).reached
  obtain ⟨driver, live, reaches, _, _, writes⟩ := partition_is_window_of_disk reached first
  obtain rfl := Device.disk.inj (Option.some.inj (live.symm.trans onDisk))
  have holds : (disks "ram").Holds data (2 + 3) 1 :=
    ⟨by simp [disks, MemoryDisk.blank, sectorSize], by simp [data, sectorSize]⟩
  have success : written.1 = .ok () := (writes disks 3 1 data).1.mpr ⟨by decide, holds⟩
  refine ⟨first, second, (reaches 3 1).1 (by decide),
    ((reaches 0xFFFFFFFE 1).2 (by decide)).2 data, success, fun buffer room => ?_⟩
  exact ((writes disks 3 1 data).2 success).throughPartition ⟨2, 0⟩ ⟨4, 4⟩ second
    (by decide) buffer room

-----------------------------------------------------------------------------------------
-- The sectors that a partition reports
-----------------------------------------------------------------------------------------

include rooted found in
theorem Rooted.read_beyond {sector : UInt32}
    (beyond : UInt32.size ≤ range.start.toNat + sector.toNat) (buffer : Buffer)
    (count : UInt32)
    : tree.read part buffer sector count = .settled (.error .invalidArgument, buffer) := by
  rw [rooted.read_of_partition found, if_neg (Nat.not_lt.mpr beyond)]

include rooted found live in
/-- A sector of a partition is a sector of the disk exactly if it has a number there. -/
theorem Rooted.reaches_iff {sector count : UInt32}
    : tree.Reaches part sector disk driver (range.start + sector) count
      ↔ range.start.toNat + sector.toNat < UInt32.size := by
  refine ⟨fun reaches => ?_, fun numbered => rooted.reaches found live numbered count⟩
  refine Nat.not_le.mp fun beyond => ?_
  obtain ⟨_, asked⟩ := reaches.read #[]
  simp [rooted.read_beyond found beyond, Inquiry.request?] at asked

/-- All sectors of a range have numbers exactly if its end has none or is the first without.
Witness: the last sector of the range, if it has any.
-/
theorem all_numbered_iff {start count : UInt32}
    : (∀ sector < count, start.toNat + sector.toNat < UInt32.size)
      ↔ start.toNat + count.toNat ≤ UInt32.size := by
  constructor
  · intro numbered
    by_cases none : count = 0
    · simpa [none] using Nat.le_of_lt start.toNat_lt
    · have positive : 1 ≤ count.toNat :=
        Nat.one_le_iff_ne_zero.mpr fun same => none (UInt32.toNat_inj.mp same)
      have last : (count - 1).toNat = count.toNat - 1 :=
        UInt32.toNat_sub_of_le _ _ (UInt32.le_iff_toNat_le.mpr positive)
      have := numbered (count - 1) (UInt32.lt_iff_toNat_lt.mpr (by omega))
      omega
  · intro within sector early
    have := UInt32.lt_iff_toNat_lt.mp early
    omega

/-- In a tree of any size, a partition reports its own number of sectors, wherever on the disk
they would lie. Those that have a number on the disk are sectors of the disk, and a read of
any other is refused without asking the driver. So all that are reported can be reached
exactly if the partition ends within the `2 ^ 32` sectors that have numbers. Witness:
`Rooted.reaches_iff` for each sector, and `all_numbered_iff`.
-/
theorem reported_sectors_are_reached_iff (reached : tree.Reached)
    (found : tree.device? part = some (.partition range disk))
    : ∃ driver,
        tree.device? disk = some (.disk driver)
        ∧ tree.control part .getSize = .settled (.ok range.count)
        ∧ (∀ sector < range.count,
            (range.start.toNat + sector.toNat < UInt32.size
              → tree.Reaches part sector disk driver (range.start + sector) 1)
            ∧ (UInt32.size ≤ range.start.toNat + sector.toNat
              → ∀ buffer,
                  tree.read part buffer sector 1
                  = .settled (.error .invalidArgument, buffer)))
        ∧ ((∀ sector < range.count,
              tree.Reaches part sector disk driver (range.start + sector) 1)
            ↔ range.start.toNat + range.count.toNat ≤ UInt32.size) := by
  have rooted := reached.rooted
  obtain ⟨driver, live⟩ := rooted.rooted found
  refine ⟨driver, live, ?_, fun sector _ => ⟨?_, ?_⟩, ?_⟩
  · rw [rooted.control_of_partition found, if_pos rfl]
  · exact (rooted.reaches_iff found live).mpr
  · exact fun beyond buffer => rooted.read_beyond found beyond buffer 1
  · simp only [rooted.reaches_iff found live, all_numbered_iff]

/-- Of two partitions, one ends with the last sector that has a number. The other reports two
sectors more than have one.
-/
theorem reported_sectors_are_reached_iff_of_last_sectors
    : let sector := bootSector [⟨0x80, 0x83, 0xFFFFFFF0, 16⟩, ⟨1, 0x07, 0xFFFFFFFC, 6⟩]
      let tree := ((empty none : DeviceTree String String).play (fun _ => .ofSector sector)
        [.register "rom"]).2
      tree.device? ⟨1, 0⟩ = some (.partition ⟨0xFFFFFFF0, 16⟩ ⟨0, 0⟩)
      ∧ tree.device? ⟨2, 0⟩ = some (.partition ⟨0xFFFFFFFC, 6⟩ ⟨0, 0⟩)
      ∧ tree.control ⟨2, 0⟩ .getSize = .settled (.ok 6)
      ∧ (∀ sector < 16,
          tree.Reaches ⟨1, 0⟩ sector ⟨0, 0⟩ "rom" (0xFFFFFFF0 + sector) 1)
      ∧ tree.Reaches ⟨2, 0⟩ 3 ⟨0, 0⟩ "rom" 0xFFFFFFFF 1
      ∧ ∀ buffer, tree.read ⟨2, 0⟩ buffer 4 1 = .settled (.error .invalidArgument, buffer) := by
  intro sector tree
  have reached := (run_play (fun _ => .ofSector sector)
    (empty none : DeviceTree String String) [.register "rom"]).reached
  have first : tree.device? ⟨1, 0⟩ = some (.partition ⟨0xFFFFFFF0, 16⟩ ⟨0, 0⟩) := by
    decide +kernel
  have second : tree.device? ⟨2, 0⟩ = some (.partition ⟨0xFFFFFFFC, 6⟩ ⟨0, 0⟩) := by
    decide +kernel
  have onDisk : tree.device? ⟨0, 0⟩ = some (.disk "rom") := by decide +kernel
  obtain ⟨driver, live, _, _, all⟩ := reported_sectors_are_reached_iff reached first
  obtain rfl := Device.disk.inj (Option.some.inj (live.symm.trans onDisk))
  obtain ⟨driver, live, size, each, _⟩ := reported_sectors_are_reached_iff reached second
  obtain rfl := Device.disk.inj (Option.some.inj (live.symm.trans onDisk))
  exact ⟨first, second, size, all.mpr (by decide), (each 3 (by decide)).1 (by decide),
    (each 4 (by decide)).2 (by decide)⟩

/-- A partition that begins with the last sector that has a number reports two sectors, and a
read of the second one is refused.
-/
theorem reported_sector_is_refused
    : let sector := bootSector [⟨0x80, 0x83, 0xFFFFFFFF, 2⟩]
      let tree := ((empty none : DeviceTree String String).play (fun _ => .ofSector sector)
        [.register "rom"]).2
      tree.device? ⟨1, 0⟩ = some (.partition ⟨0xFFFFFFFF, 2⟩ ⟨0, 0⟩)
      ∧ (tree.control ⟨1, 0⟩ .getSize).run (fun _ => .ofSector sector) = .ok 2
      ∧ ∀ buffer, tree.read ⟨1, 0⟩ buffer 1 1 = .settled (.error .invalidArgument, buffer) := by
  intro sector tree
  have reached := (run_play (fun _ => .ofSector sector)
    (empty none : DeviceTree String String) [.register "rom"]).reached
  have rooted := reached.rooted
  have found : tree.device? ⟨1, 0⟩ = some (.partition ⟨0xFFFFFFFF, 2⟩ ⟨0, 0⟩) := by
    decide +kernel
  refine ⟨found, ?_, fun buffer => rooted.read_beyond found (by decide) buffer 1⟩
  rw [rooted.control_of_partition found, if_pos rfl]
  rfl

end DeviceTree

end StorageSwitch.Block
