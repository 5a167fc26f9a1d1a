import StorageSwitch.File

/-! Where a descriptor leads, packed into one 64-bit word: bit 63 marks a word in use, bit 62
a permanent binding, bits 32 to 47 hold the mount slot and bits 0 to 31 the driver's own
descriptor. The word of an unused descriptor is zero.
-/

namespace StorageSwitch

/-- Where a descriptor leads: to a mount slot and the driver's own descriptor there. A
permanent binding belongs to a reserved range and outlives every close.
-/
structure Binding where
  mount : Nat
  file : LocalFd
  permanent : Bool
  deriving DecidableEq, Repr

namespace Binding

/-- The bit of a word in use. -/
def occupiedBit : UInt64 := 0x8000000000000000

/-- The bit of a permanent binding. -/
def permanentBit : UInt64 := 0x4000000000000000

/-- The bits that a mount slot has room in. -/
def mountMask : UInt64 := 0xFFFF

/-- The word of a binding, which keeps the low 16 bits of the mount slot. -/
def pack (binding : Binding) : UInt64 :=
  occupiedBit
    ||| (UInt64.ofNat binding.mount &&& mountMask) <<< 32
    ||| binding.file.toUInt32.toUInt64
    ||| (if binding.permanent then permanentBit else 0)

/-- The binding in a word, if the word is in use. -/
def unpack? (word : UInt64) : Option Binding :=
  if word &&& occupiedBit = 0 then none
  else some
    { mount := ((word >>> 32) &&& mountMask).toNat
      file := word.toUInt32.toInt32
      permanent := word &&& permanentBit != 0 }

end Binding

end StorageSwitch
