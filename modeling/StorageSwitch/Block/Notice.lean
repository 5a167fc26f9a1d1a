import StorageSwitch.Severity
import StorageSwitch.Block.BootRecord

/-! What the device tree writes to the log. Disks and devices are named by their slots. -/

namespace StorageSwitch.Block

/-- A notice about a disk. -/
inductive Notice where
  | registering (disk : Nat)
  | unreadable (disk : Nat) (error : Error)
  | unsigned (disk : Nat)
  | signed (disk count : Nat)
  | partitionFound (disk slot device : Nat) (range : Partition) (kind : PartitionKind)
  | partitionRefused (disk slot : Nat) (error : Error)
  | partitionsAdded (disk count : Nat)
  | unregistered (disk : Nat)
  deriving DecidableEq, Repr

namespace Notice

/-- Who writes these notices. -/
def target : String := "blockdev"

/-- How much the notice matters. -/
def severity : Notice → Severity
  | registering _ => .info
  | unregistered _ => .info
  | partitionRefused _ _ _ => .warn
  | _ => .debug

/-- The text of the notice. -/
def text : Notice → String
  | registering disk => s!"registering disk {disk}"
  | unreadable disk error => s!"disk {disk}: sector 0 unreadable ({error.message}), not scanning"
  | unsigned disk => s!"disk {disk}: no MBR signature"
  | signed disk count => s!"disk {disk}: MBR with {count} occupied entries"
  | partitionFound disk slot device range kind =>
      s!"disk {disk}: slot {slot} -> device {device} "
        ++ s!"(sectors {range.start.toNat}..{range.stop.toNat}, {kind.description})"
  | partitionRefused disk slot error =>
      s!"disk {disk}: slot {slot} not registered: {error.message}"
  | partitionsAdded disk count => s!"disk {disk}: {count} partition(s)"
  | unregistered disk => s!"unregistered disk {disk}"

end Notice

end StorageSwitch.Block
