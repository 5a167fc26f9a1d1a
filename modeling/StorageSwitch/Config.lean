import StorageSwitch.Error

/-! Table sizes of a filesystem switch. -/

namespace StorageSwitch

/-- How many descriptors and mounts a switch has room for. -/
structure Config where
  maxFds : Nat
  maxMounts : Nat
  deriving DecidableEq, Repr

namespace Config

/-- Sizes of a switch for which none are given. -/
def default : Config := ⟨16, 8⟩

/-- Accepts tables that are not empty, whose descriptors are non-negative 32-bit numbers and
whose mount slots are 16-bit numbers.
-/
def validate (config : Config) : Except Error Unit :=
  if config.maxFds = 0 ∨ 2147483647 < config.maxFds then .error .invalidArgument
  else if config.maxMounts = 0 ∨ 65535 < config.maxMounts then .error .invalidArgument
  else .ok ()

end Config

end StorageSwitch
