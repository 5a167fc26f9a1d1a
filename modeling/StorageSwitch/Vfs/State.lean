import StorageSwitch.Descriptor.Table
import StorageSwitch.Driver.RootListing
import StorageSwitch.Vfs.Notice

/-! The tables of a filesystem switch, and what happens to them without asking a driver:
mounting, reserving descriptors, unmounting, and finding out who is responsible for a path
or a descriptor.
-/

namespace StorageSwitch

/-- Who answers for a mount: the root listing, or a driver that was registered. -/
inductive Driver (δ : Type) where
  | root
  | given (driver : δ)
  deriving DecidableEq, Repr

/-- A registration of a driver with a switch. -/
abbrev Entry (δ : Type) : Type := MountEntry (Driver δ)

/-- A filesystem switch: its sizes, mounts and descriptors, and the slot of the root
listing.
-/
structure Vfs (δ : Type) where
  config : Config
  mounts : MountTable (Driver δ)
  fds : FdTable
  rootIndex : Nat

namespace Vfs

variable {δ : Type}

/-- A result together with the switch afterwards and the notices it logs. -/
structure Change (δ α : Type) where
  result : Except Error α
  vfs : Vfs δ
  notices : List Notice

/-- A switch on which nothing is mounted but the root listing. -/
def create (config : Config) : Except Error (Vfs δ × List Notice) := do
  config.validate
  let (rootIndex, mounts) ← (MountTable.empty config.maxMounts 0).insert (.path "") .root
  let fds ← FdTable.create config.maxFds
  return (⟨config, mounts, fds, rootIndex⟩, [.ready config])

-----------------------------------------------------------------------------------------
-- Registration
-----------------------------------------------------------------------------------------

/-- Mounts a driver at a path. -/
def register (vfs : Vfs δ) (path : String) (driver : δ) : Change δ Nat :=
  match Path.validateMount path with
  | .error error => ⟨.error error, vfs, []⟩
  | .ok () =>
      match vfs.mounts.insert (.path path) (.given driver) with
      | .error error => ⟨.error error, vfs, []⟩
      | .ok (index, mounts) => ⟨.ok index, { vfs with mounts }, [.mounted path index]⟩

/-- Registers a driver without a path and reserves the descriptors from `min` to `max` for
it. If they are not all unused, the registration is undone.
-/
def registerRange (vfs : Vfs δ) (driver : δ) (min max : Fd) : Change δ Nat :=
  if min < 0 ∨ max < min ∨ vfs.fds.capacity ≤ max.toNatClampNeg then
    ⟨.error .invalidArgument, vfs, []⟩
  else
    match vfs.mounts.insert .descriptorsOnly (.given driver) with
    | .error error => ⟨.error error, vfs, []⟩
    | .ok (index, mounts) =>
        match vfs.fds.reserveRange index min max with
        | .error error =>
            ⟨.error error, { vfs with mounts := mounts.remove index },
              [.rangeTaken min max index]⟩
        | .ok fds =>
            ⟨.ok index, { vfs with mounts, fds }, [.rangeReserved min max index]⟩

/-- Reserves the descriptors from `min` to `max` for a registered driver. -/
def reserveRange (vfs : Vfs δ) (index : Nat) (min max : Fd) : Change δ Unit :=
  match vfs.mounts.get? index with
  | none => ⟨.error .invalidArgument, vfs, []⟩
  | some _ =>
      match vfs.fds.reserveRange index min max with
      | .error error => ⟨.error error, vfs, []⟩
      | .ok fds => ⟨.ok (), { vfs with fds }, [.rangeReserved min max index]⟩

/-- Whether an open descriptor or directory stream belongs to the entry. -/
def isBusy (vfs : Vfs δ) (entry : Entry δ) : Bool :=
  0 < vfs.mounts.openStreams entry || 0 < vfs.fds.countOpen entry.index

/-- Removes a mount and frees the descriptors reserved for it. The root listing stays, and
so does a mount that is in use.
-/
def unregister (vfs : Vfs δ) (index : Nat) : Change δ Unit :=
  if index = vfs.rootIndex then ⟨.error .invalidArgument, vfs, []⟩
  else
    match vfs.mounts.get? index with
    | none => ⟨.error .invalidArgument, vfs, []⟩
    | some entry =>
        if vfs.isBusy entry then ⟨.error .busy, vfs, [.inUse index]⟩
        else
          ⟨.ok (),
            { vfs with
              mounts := vfs.mounts.remove index
              fds := (vfs.fds.releaseMount index).2 },
            [.unregistered index]⟩

-----------------------------------------------------------------------------------------
-- Who is responsible
-----------------------------------------------------------------------------------------

/-- The driver in a mount slot. -/
def driverAt? (vfs : Vfs δ) (index : Nat) : Option (Driver δ) :=
  (vfs.mounts.get? index).map (·.driver)

/-- What a descriptor leads to: `some none` is an unused descriptor. -/
def descriptor? (vfs : Vfs δ) (fd : Fd) : Option (Option Binding) := vfs.fds.slot? fd

/-- The entry that a path belongs to. -/
def resolve (vfs : Vfs δ) (path : String) : Option (Entry δ) := vfs.mounts.resolve path

/-- The binding of a descriptor and the entry it leads to. -/
def resolveFd (vfs : Vfs δ) (fd : Fd) : Option (Entry δ × Binding) :=
  match vfs.fds.get? fd with
  | none => none
  | some binding => (vfs.mounts.get? binding.mount).map fun entry => (entry, binding)

-----------------------------------------------------------------------------------------
-- After a driver has answered
-----------------------------------------------------------------------------------------

/-- Binds a descriptor to a file that the entry's driver has opened, provided the entry is
still mounted.
-/
def bind (vfs : Vfs δ) (entry : Entry δ) (file : LocalFd) : Except Error (Fd × Vfs δ) :=
  if vfs.mounts.isCurrent entry then
    match vfs.fds.allocate entry.index file with
    | .error error => .error error
    | .ok (fd, fds) => .ok (fd, { vfs with fds })
  else .error .notFound

/-- Frees a descriptor that still has the binding, and says whether it did so. -/
def release (vfs : Vfs δ) (fd : Fd) (binding : Binding) : Bool × Vfs δ :=
  let (freed, fds) := vfs.fds.release fd binding
  (freed, { vfs with fds })

/-- Counts one more stream of the entry. -/
def streamOpened (vfs : Vfs δ) (entry : Entry δ) : Vfs δ :=
  { vfs with mounts := vfs.mounts.streamOpened entry }

/-- Counts one stream of the entry less. -/
def streamClosed (vfs : Vfs δ) (entry : Entry δ) : Vfs δ :=
  { vfs with mounts := vfs.mounts.streamClosed entry }

end Vfs

end StorageSwitch
