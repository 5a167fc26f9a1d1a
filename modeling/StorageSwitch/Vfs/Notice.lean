import StorageSwitch.Severity
import StorageSwitch.File
import StorageSwitch.Config

/-! What a switch writes to the log. -/

namespace StorageSwitch.Vfs

/-- A notice about a switch. -/
inductive Notice where
  | ready (config : Config)
  | mounted (path : String) (slot : Nat)
  | rangeTaken (min max : Fd) (slot : Nat)
  | rangeReserved (min max : Fd) (slot : Nat)
  | inUse (slot : Nat)
  | unregistered (slot : Nat)
  | opened (path : String) (fd : Fd) (slot : Nat) (file : LocalFd)
  | tableFull (file : LocalFd)
  | released (fd : Fd)
  | unmounted (path : String)
  | dropped (slot : Nat)
  deriving DecidableEq, Repr

namespace Notice

/-- Who writes these notices. -/
def target : String := "vfs"

/-- How much the notice matters. -/
def severity : Notice → Severity
  | ready _ => .info
  | mounted _ _ => .info
  | rangeTaken _ _ _ => .warn
  | rangeReserved _ _ _ => .info
  | inUse _ => .debug
  | unregistered _ => .info
  | opened _ _ _ _ => .debug
  | tableFull _ => .warn
  | released _ => .debug
  | unmounted _ => .debug
  | dropped _ => .debug

/-- The text of the notice. -/
def text : Notice → String
  | ready config =>
      s!"vfs ready: {config.maxFds} descriptors, {config.maxMounts} mount slots"
  | mounted path slot => s!"mounted '{path}' at slot {slot}"
  | rangeTaken min max slot =>
      s!"descriptor range [{min.toInt}, {max.toInt}] is taken, rolled back slot {slot}"
  | rangeReserved min max slot =>
      s!"descriptors [{min.toInt}, {max.toInt}] reserved for slot {slot}"
  | inUse slot => s!"slot {slot} still in use"
  | unregistered slot => s!"unregistered slot {slot}"
  | opened path fd slot file =>
      s!"open '{path}' -> fd {fd.toInt} (slot {slot}, local {file.toInt})"
  | tableFull file => s!"descriptor table full, closing local fd {file.toInt}"
  | released fd => s!"fd {fd.toInt} released"
  | unmounted path => s!"no mount for '{path}'"
  | dropped slot => s!"directory stream on slot {slot} dropped without closedir"

end Notice

end StorageSwitch.Vfs
