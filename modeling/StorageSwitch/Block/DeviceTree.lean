import StorageSwitch.Block.BootRecord
import StorageSwitch.Block.Notice

/-! Disks and their partitions. Devices live in reusable slots; a device's name carries the
generation of its slot, so a name goes stale when its device is removed. A partition names
the disk it lies on, and every operation on it is passed on to that disk. Names have room
for `2 ^ 32` slots; in a larger tree the name of a new device can stand for another one.
-/

namespace StorageSwitch.Block

-----------------------------------------------------------------------------------------
-- Devices and what is told of them
-----------------------------------------------------------------------------------------

/-- The name of a device: its slot, and how often the slot had been freed when it moved in. -/
structure DeviceId where
  index : UInt32
  generation : UInt32
  deriving DecidableEq, Repr

/-- The number of the slot. -/
def DeviceId.slot (id : DeviceId) : Nat := id.index.toNat

/-- What a device is: a whole disk with its driver, or a part of another device. -/
inductive Device (δ : Type) where
  | disk (driver : δ)
  | partition (range : Partition) (parent : DeviceId)
  deriving DecidableEq

/-- The device a partition lies on. -/
def Device.parent? {δ : Type} : Device δ → Option DeviceId
  | .disk _ => none
  | .partition _ parent => some parent

/-- The sectors of a partition. -/
def Device.partition? {δ : Type} : Device δ → Option Partition
  | .disk _ => none
  | .partition range _ => some range

/-- A live device and the number of partitions made from it since it was last initialised. -/
structure Node (δ : Type) where
  device : Device δ
  children : Nat

/-- A place for a device. The generation counts how often the place has been freed. -/
structure Slot (δ : Type) where
  generation : UInt32
  node : Option (Node δ)

/-- A device's place in the tree. -/
structure DeviceInfo where
  id : DeviceId
  parent : Option DeviceId
  partition : Option Partition
  children : Nat
  deriving DecidableEq, Repr

/-- What a hook is told. -/
inductive HookEvent where
  | registered (info : DeviceInfo)
  | unregistered (id : DeviceId)
  deriving DecidableEq, Repr

/-- Slots, the live devices in the order of registration, and the hook to be told. -/
structure DeviceTree (δ η : Type) where
  slots : Array (Slot δ)
  order : List DeviceId
  hook : Option η

/-- What an operation leads to: its result, the tree afterwards, what hooks are told, and
the notices it logs.
-/
structure Outcome (δ η α : Type) where
  result : α
  tree : DeviceTree δ η
  events : List (η × HookEvent)
  notices : List Notice

namespace DeviceTree

variable {δ η : Type}

/-- A tree without devices. -/
def empty (hook : Option η) : DeviceTree δ η := ⟨#[], [], hook⟩

/-- From now on `hook` is told instead. -/
def setHook (tree : DeviceTree δ η) (hook : Option η) : DeviceTree δ η := { tree with hook }

-----------------------------------------------------------------------------------------
-- Slots
-----------------------------------------------------------------------------------------

/-- The device behind a name, unless the name is stale. -/
def node? (tree : DeviceTree δ η) (id : DeviceId) : Option (Node δ) :=
  match tree.slots[id.slot]? with
  | none => none
  | some slot => if slot.generation = id.generation then slot.node else none

/-- What the device behind a name is, unless the name is stale. -/
def device? (tree : DeviceTree δ η) (id : DeviceId) : Option (Device δ) :=
  (tree.node? id).map (·.device)

/-- Puts a device into the first free slot, or into a new one if none is free. Of the number
of the slot the name keeps what fits into thirty-two bits.
-/
def insert (tree : DeviceTree δ η) (node : Node δ) : DeviceId × DeviceTree δ η :=
  match tree.slots.findIdx? (·.node.isNone) with
  | some index =>
      let generation := (tree.slots[index]?.map (·.generation)).getD 0
      let id : DeviceId := ⟨.ofNat index, generation⟩
      (id, { tree with
        slots := tree.slots.setIfInBounds index ⟨generation, some node⟩
        order := tree.order ++ [id] })
  | none =>
      let id : DeviceId := ⟨.ofNat tree.slots.size, 0⟩
      (id, { tree with
        slots := tree.slots.push ⟨0, some node⟩
        order := tree.order ++ [id] })

/-- Counts the partitions of a live device anew. -/
def setChildren (tree : DeviceTree δ η) (id : DeviceId) (children : Nat)
    : DeviceTree δ η :=
  match tree.node? id with
  | none => tree
  | some node =>
      { tree with
        slots := tree.slots.setIfInBounds id.slot
          ⟨id.generation, some { node with children }⟩ }

/-- Frees the slot of a live device, which ends the generation, and forgets the name. -/
def remove (tree : DeviceTree δ η) (id : DeviceId) : DeviceTree δ η :=
  { tree with
    slots :=
      if (tree.node? id).isSome then
        tree.slots.setIfInBounds id.slot ⟨id.generation + 1, none⟩
      else tree.slots
    order := tree.order.filter (· ≠ id) }

-----------------------------------------------------------------------------------------
-- Queries
-----------------------------------------------------------------------------------------

/-- The live devices, in the order of registration. -/
def devices (tree : DeviceTree δ η) : List DeviceId := tree.order

/-- Whether the name stands for a live device. -/
def contains (tree : DeviceTree δ η) (id : DeviceId) : Bool := (tree.node? id).isSome

/-- What a live device is asked for; a stale name has no device. -/
def query {α : Type} (tree : DeviceTree δ η) (id : DeviceId) (field : Node δ → α)
    : Except Error α :=
  match tree.node? id with
  | none => .error .noDevice
  | some node => .ok (field node)

/-- The partitions made from a device since it was last initialised. -/
def children (tree : DeviceTree δ η) (id : DeviceId) : Except Error Nat :=
  tree.query id (·.children)

/-- The device that a device lies on. -/
def parent (tree : DeviceTree δ η) (id : DeviceId) : Except Error (Option DeviceId) :=
  tree.query id (·.device.parent?)

/-- The sectors of a partition. -/
def partition (tree : DeviceTree δ η) (id : DeviceId) : Except Error (Option Partition) :=
  tree.query id (·.device.partition?)

/-- A device's place in the tree. -/
def info (tree : DeviceTree δ η) (id : DeviceId) : Except Error DeviceInfo :=
  tree.query id fun node =>
    ⟨id, node.device.parent?, node.device.partition?, node.children⟩

/-- The live partitions that lie on a device, in the order of registration. -/
def partitionsOf (tree : DeviceTree δ η) (id : DeviceId) : List DeviceId :=
  tree.order.filter fun device =>
    (tree.device? device).bind (·.parent?) = some id

-----------------------------------------------------------------------------------------
-- Telling the hook
-----------------------------------------------------------------------------------------

/-- The events addressed to the hook; without a hook nobody is told. -/
def tell (tree : DeviceTree δ η) (events : List HookEvent) : List (η × HookEvent) :=
  match tree.hook with
  | none => []
  | some hook => events.map fun event => (hook, event)

/-- Tells of a registration as the device stands now. -/
def announce (tree : DeviceTree δ η) (id : DeviceId) : List (η × HookEvent) :=
  match tree.info id with
  | .error _ => []
  | .ok info => tree.tell [.registered info]

-----------------------------------------------------------------------------------------
-- Registration
-----------------------------------------------------------------------------------------

/-- Adds a partition of a live device, which counts it. -/
def addPartition (tree : DeviceTree δ η) (parent : DeviceId) (range : Partition)
    : Except Error (DeviceId × DeviceTree δ η) :=
  match tree.node? parent with
  | none => .error .noDevice
  | some node =>
      let (id, grown) := tree.insert ⟨.partition range parent, 0⟩
      .ok (id, grown.setChildren parent (node.children + 1))

/-- Adds a partition for each record in turn, and counts those that were added. Partitions
are not scanned themselves, which is what becomes of a new name as long as it stands for the
new partition.
-/
def addPartitions (tree : DeviceTree δ η) (disk : DeviceId)
    : List (Nat × PartitionRecord) → Outcome δ η Nat
  | [] => ⟨0, tree, [], []⟩
  | (slot, record) :: rest =>
      match tree.addPartition disk record.partition with
      | .error error =>
          let after := tree.addPartitions disk rest
          { after with
            notices := .partitionRefused disk.slot slot error :: after.notices }
      | .ok (id, grown) =>
          let after := grown.addPartitions disk rest
          ⟨after.result + 1, after.tree, grown.announce id ++ after.events,
            .partitionFound disk.slot slot id.slot record.partition record.kind
              :: after.notices⟩

/-- Adds the partitions that a disk's first sector lists, once it has been read. A sector
that could not be read, or is no boot record, lists none.
-/
def addListed (tree : DeviceTree δ η) (disk : DeviceId)
    (reply : Except Error Unit × Buffer)
    : Outcome δ η Nat :=
  match reply with
  | (.error error, _) => ⟨0, tree, [], [.unreadable disk.slot error]⟩
  | (.ok (), sector) =>
      match BootRecord.parse? sector with
      | none => ⟨0, tree, [], [.unsigned disk.slot]⟩
      | some record =>
          let after := tree.addPartitions disk record.occupied
          { after with
            notices := .signed disk.slot record.partitionCount :: after.notices }

/-- Registers a disk: reads its first sector, adds the partitions listed there, and then
announces the disk itself. The disk is looked up by its name, and only what the name stands
for is read and announced.
-/
def register (tree : DeviceTree δ η) (driver : δ) : Inquiry δ (Outcome δ η DeviceId) :=
  let (disk, grown) := tree.insert ⟨.disk driver, 0⟩
  match grown.device? disk with
  | some (.disk named) =>
      .asks named (.read (Array.replicate sectorSize 0) 0 1) fun reply =>
        let listed := grown.addListed disk reply
        ⟨disk, listed.tree, listed.events ++ listed.tree.announce disk,
          .registering disk.slot :: listed.notices
            ++ [.partitionsAdded disk.slot listed.result]⟩
  | _ => .settled ⟨disk, grown, grown.announce disk, [.registering disk.slot]⟩

-----------------------------------------------------------------------------------------
-- Removal
-----------------------------------------------------------------------------------------

/-- Whether a walk of at most `steps` from a device to the one it lies on meets
`ancestor`.
-/
def liesOn (tree : DeviceTree δ η) (ancestor : DeviceId) : Nat → DeviceId → Bool
  | 0, _ => false
  | steps + 1, device =>
      match (tree.device? device).bind (·.parent?) with
      | none => false
      | some parent => parent == ancestor || tree.liesOn ancestor steps parent

/-- The devices that go with a disk: its partitions in the order of registration, then the
disk. No walk is longer than the number of slots.
-/
def family (tree : DeviceTree δ η) (disk : DeviceId) : List DeviceId :=
  tree.order.filter (fun device => device ≠ disk ∧ tree.liesOn disk tree.slots.size device)
    ++ [disk]

/-- Removes a disk with its partitions. A partition cannot be removed by itself. -/
def unregister (tree : DeviceTree δ η) (id : DeviceId)
    : Outcome δ η (Except Error Unit) :=
  match tree.node? id with
  | none => ⟨.error .noDevice, tree, [], []⟩
  | some node =>
      if node.device.parent?.isSome then ⟨.error .invalidArgument, tree, [], []⟩
      else
        let doomed := tree.family id
        ⟨.ok (), doomed.foldl remove tree, tree.tell (doomed.map .unregistered),
          [.unregistered id.slot]⟩

-----------------------------------------------------------------------------------------
-- Operations on devices
-----------------------------------------------------------------------------------------

/-- Initialises a device, after which it counts its partitions from zero again. A partition
has nothing to initialise.
-/
def init (tree : DeviceTree δ η) (id : DeviceId)
    : DeviceTree δ η × Inquiry δ (Except Error Unit) :=
  match tree.node? id with
  | none => (tree, .settled (.error .noDevice))
  | some node =>
      (tree.setChildren id 0,
        match node.device with
        | .disk driver => .asks driver .init fun reply => reply
        | .partition _ _ => .settled (.ok ()))

/-- The disk driver and the disk sector behind a device's sector, found in at most `steps`
from a device to the one it lies on.
-/
def locate (tree : DeviceTree δ η) : Nat → DeviceId → UInt32 → Except Error (δ × UInt32)
  | 0, _, _ => .error .noDevice
  | steps + 1, id, sector =>
      match tree.device? id with
      | none => .error .noDevice
      | some (.disk driver) => .ok (driver, sector)
      | some (.partition range parent) =>
          match range.translate sector with
          | .error error => .error error
          | .ok sector => tree.locate steps parent sector

/-- Reads `count` sectors from `start` on into `buffer`. -/
def read (tree : DeviceTree δ η) (id : DeviceId) (buffer : Buffer) (start count : UInt32)
    : Inquiry δ (Except Error Unit × Buffer) :=
  match tree.locate tree.slots.size id start with
  | .error error => .settled (.error error, buffer)
  | .ok (driver, sector) => .asks driver (.read buffer sector count) fun reply => reply

/-- Writes `data` to `count` sectors from `start` on. -/
def write (tree : DeviceTree δ η) (id : DeviceId) (data : Buffer) (start count : UInt32)
    : Inquiry δ (Except Error Unit) :=
  match tree.locate tree.slots.size id start with
  | .error error => .settled (.error error)
  | .ok (driver, sector) => .asks driver (.write data sector count) fun reply => reply

/-- Hands a command to the disk that a device lies on, in at most `steps` from a device to
the next; a partition answers for its own size.
-/
def controlWithin (tree : DeviceTree δ η) (command : Command)
    : Nat → DeviceId → Inquiry δ (Except Error UInt32)
  | 0, _ => .settled (.error .noDevice)
  | steps + 1, id =>
      match tree.device? id with
      | none => .settled (.error .noDevice)
      | some (.disk driver) => .asks driver (.control command) fun reply => reply
      | some (.partition range parent) =>
          if command = .getSize then .settled (.ok range.count)
          else tree.controlWithin command steps parent

/-- Sends a device a command. -/
def control (tree : DeviceTree δ η) (id : DeviceId) (command : Command)
    : Inquiry δ (Except Error UInt32) :=
  tree.controlWithin command tree.slots.size id

end DeviceTree

end StorageSwitch.Block
