import StorageSwitch.Descriptor.Binding

/-! The table of descriptors: one packed word for each. The lowest unused descriptor is
handed out first, and a range is reserved as a whole or not at all.
-/

namespace StorageSwitch

/-- The packed words of the descriptors 0, 1, 2, …. -/
structure FdTable where
  words : Array UInt64
  deriving DecidableEq, Repr

namespace FdTable

/-- The most bytes that an array can have, whatever memory there is. -/
def maxBytes : Nat := (1 <<< 63) - 1

/-- A table of unused descriptors, unless its 8-byte words are more bytes than that. Memory
for the words is taken to suffice.
-/
def create (capacity : Nat) : Except Error FdTable :=
  if maxBytes < 8 * capacity then .error .outOfMemory
  else .ok ⟨Array.replicate capacity 0⟩

/-- How many descriptors there are. -/
def capacity (table : FdTable) : Nat := table.words.size

/-- The word of a descriptor, which has none if it is negative or too large. -/
def word? (table : FdTable) (fd : Fd) : Option UInt64 :=
  if 0 ≤ fd then table.words[fd.toNatClampNeg]? else none

/-- What a descriptor of the table leads to: `some none` is an unused descriptor. -/
def slot? (table : FdTable) (fd : Fd) : Option (Option Binding) :=
  (table.word? fd).map Binding.unpack?

/-- The binding of a descriptor that has one. -/
def get? (table : FdTable) (fd : Fd) : Option Binding := (table.slot? fd).join

/-- The bindings of all descriptors, in order. -/
def bindings (table : FdTable) : List (Option Binding) :=
  table.words.toList.map Binding.unpack?

/-- Binds the lowest unused descriptor. -/
def allocate (table : FdTable) (mount : Nat) (file : LocalFd) : Except Error (Fd × FdTable) :=
  match table.words.findIdx? (· == 0) with
  | none => .error .tooManyOpenFiles
  | some index =>
      .ok (Int32.ofNat index,
        ⟨table.words.setIfInBounds index (Binding.pack ⟨mount, file, false⟩)⟩)

/-- Frees a descriptor that still has the given binding, and says whether it did so. A
permanent binding stays.
-/
def release (table : FdTable) (fd : Fd) (binding : Binding) : Bool × FdTable :=
  if !binding.permanent && table.word? fd == some binding.pack then
    (true, ⟨table.words.setIfInBounds fd.toNatClampNeg 0⟩)
  else (false, table)

/-- Binds every descriptor from `min` to `max` permanently, each to itself as the driver
knows it. Nothing is bound unless the range is in the table and unused.
-/
def reserveRange (table : FdTable) (mount : Nat) (min max : Fd) : Except Error FdTable :=
  if min < 0 ∨ max < min ∨ table.capacity ≤ max.toNatClampNeg then .error .invalidArgument
  else
    let first := min.toNatClampNeg
    let last := max.toNatClampNeg
    if (table.words.extract first (last + 1)).all (· == 0) then
      .ok ⟨table.words.mapIdx fun index word =>
        if first ≤ index ∧ index ≤ last then
          Binding.pack ⟨mount, Int32.ofNat index, true⟩
        else word⟩
    else .error .invalidArgument

/-- Whether a word is a permanent binding to a mount slot. -/
def isReservedFor (mount : Nat) (word : UInt64) : Bool :=
  match Binding.unpack? word with
  | none => false
  | some binding => binding.mount == mount && binding.permanent

/-- Whether a word is a binding to a mount slot that a close can end. -/
def isOpenOn (mount : Nat) (word : UInt64) : Bool :=
  match Binding.unpack? word with
  | none => false
  | some binding => binding.mount == mount && !binding.permanent

/-- Frees the descriptors that are reserved for a mount slot, and says how many. -/
def releaseMount (table : FdTable) (mount : Nat) : Nat × FdTable :=
  (table.words.countP (isReservedFor mount),
    ⟨table.words.map fun word => if isReservedFor mount word then 0 else word⟩)

/-- How many descriptors are bound to a mount slot and not reserved. -/
def countOpen (table : FdTable) (mount : Nat) : Nat :=
  table.words.countP (isOpenOn mount)

end FdTable

end StorageSwitch
