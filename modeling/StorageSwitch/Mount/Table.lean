import StorageSwitch.Path

/-! The table of mounts. An entry takes the lowest free slot, and a path belongs to the
entry with the longest mount path that covers it. Every entry is given a serial number that
no other entry of the table ever has, so an entry can be told from a later one in its slot.
-/

namespace StorageSwitch

/-- How a mount is reached. -/
inductive MountPoint where
  | path (mount : String)
  | descriptorsOnly
  deriving DecidableEq, Repr

/-- The mount path, unless the mount is reached by descriptors only. -/
def MountPoint.path? : MountPoint → Option String
  | .path mount => some mount
  | .descriptorsOnly => none

/-- A registered driver of type `δ`: where it is mounted, in which slot, and the serial
number that tells this registration from all others.
-/
structure MountEntry (δ : Type) where
  serial : Nat
  index : Nat
  point : MountPoint
  driver : δ
  deriving DecidableEq, Repr

namespace MountEntry

variable {δ : Type}

/-- The mount path, unless the entry is reached by descriptors only. -/
def path? (entry : MountEntry δ) : Option String := entry.point.path?

/-- A path as the entry's driver sees it. -/
def relative (entry : MountEntry δ) (path : String) : String :=
  Path.translate path (entry.path?.getD "")

/-- The length of the mount path in bytes. -/
def reach (entry : MountEntry δ) : Nat := (entry.path?.getD "").utf8ByteSize

/-- Whether the entry takes part in path resolution and covers the path. -/
def covers (entry : MountEntry δ) (path : String) : Bool :=
  match entry.path? with
  | none => false
  | some mount => Path.covers mount path

end MountEntry

/-- A slot in use: its entry and the number of directory streams open through it. -/
structure Mounted (δ : Type) where
  entry : MountEntry δ
  openStreams : Nat
  deriving DecidableEq, Repr

/-- The slots in use so far, how many there may be, and the next serial number. -/
structure MountTable (δ : Type) where
  slots : Array (Option (Mounted δ))
  capacity : Nat
  nextSerial : Nat

namespace MountTable

variable {δ : Type}

/-- A table without entries that numbers its entries from `serial` on. -/
def empty (capacity serial : Nat) : MountTable δ := ⟨#[], capacity, serial⟩

/-- How many slots have ever been in use. -/
def slotCount (table : MountTable δ) : Nat := table.slots.size

/-- The slot's entry and count, if the slot is in use. -/
def mounted? (table : MountTable δ) (index : Nat) : Option (Mounted δ) :=
  table.slots[index]?.join

/-- The entry in a slot. -/
def get? (table : MountTable δ) (index : Nat) : Option (MountEntry δ) :=
  (table.mounted? index).map (·.entry)

/-- The entries in slot order. -/
def entries (table : MountTable δ) : List (MountEntry δ) :=
  table.slots.toList.filterMap fun slot => slot.map (·.entry)

/-- The slot for the next entry: the lowest free one, or a new one while there is room. -/
def freeSlot? (table : MountTable δ) : Option Nat :=
  match table.slots.findIdx? (·.isNone) with
  | some index => some index
  | none => if table.slots.size < table.capacity then some table.slots.size else none

/-- Puts a driver into the next free slot. Memory for a new slot is taken to suffice. -/
def insert (table : MountTable δ) (point : MountPoint) (driver : δ)
    : Except Error (Nat × MountTable δ) :=
  match table.freeSlot? with
  | none => .error .outOfSlots
  | some index =>
      let slot := some ⟨⟨table.nextSerial, index, point, driver⟩, 0⟩
      .ok (index,
        { table with
          slots :=
            if index < table.slots.size then table.slots.setIfInBounds index slot
            else table.slots.push slot
          nextSerial := table.nextSerial + 1 })

/-- Frees a slot. -/
def remove (table : MountTable δ) (index : Nat) : MountTable δ :=
  { table with slots := table.slots.setIfInBounds index none }

/-- Of an entry and the best one before it, the one that a path belongs to: a later entry
wins only if its mount path is longer.
-/
def prefer (path : String) (best : Option (MountEntry δ)) (entry : MountEntry δ)
    : Option (MountEntry δ) :=
  if entry.covers path then
    match best with
    | none => some entry
    | some earlier => if earlier.reach < entry.reach then some entry else best
  else best

/-- The entry that a path belongs to. -/
def resolve (table : MountTable δ) (path : String) : Option (MountEntry δ) :=
  table.entries.foldl (prefer path) none

/-- Whether the entry is still the one in its slot. -/
def isCurrent (table : MountTable δ) (entry : MountEntry δ) : Bool :=
  match table.get? entry.index with
  | none => false
  | some current => current.serial == entry.serial

/-- The directory streams open through an entry that is still in its slot. -/
def openStreams (table : MountTable δ) (entry : MountEntry δ) : Nat :=
  match table.mounted? entry.index with
  | none => 0
  | some slot => if slot.entry.serial = entry.serial then slot.openStreams else 0

/-- Counts the streams of an entry anew, if it is still in its slot. -/
def countStreams (table : MountTable δ) (entry : MountEntry δ) (change : Nat → Nat)
    : MountTable δ :=
  match table.mounted? entry.index with
  | none => table
  | some slot =>
      if slot.entry.serial = entry.serial then
        { table with
          slots := table.slots.setIfInBounds entry.index
            (some { slot with openStreams := change slot.openStreams }) }
      else table

/-- One more stream is open through the entry. -/
def streamOpened (table : MountTable δ) (entry : MountEntry δ) : MountTable δ :=
  table.countStreams entry (· + 1)

/-- One stream through the entry has ended. It has been counted until then, so the count is
positive.
-/
def streamClosed (table : MountTable δ) (entry : MountEntry δ) : MountTable δ :=
  table.countStreams entry (· - 1)

end MountTable

end StorageSwitch
