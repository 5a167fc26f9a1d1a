import StorageSwitch.Driver.Request
import StorageSwitch.Mount.Table

/-! The driver behind paths that no mount covers. It holds one directory, the root, which
lists the mounts with a path of their own in slot order. A stream of it only remembers the
next slot to look at, so it goes on over mounts that come and go.
-/

namespace StorageSwitch.RootListing

/-- The root directory as drivers see paths. -/
def rootPath : String := "/"

/-- A directory that anyone may read and nobody may write. -/
def rootStat : Stat := { Stat.empty with mode := ⟨0o040555⟩, nlink := 2 }

/-- How a mount shows in the listing: by its path without the leading separator. A mount
without a path of its own does not show.
-/
def listed? {δ : Type} (entry : MountEntry δ) : Option DirEntry :=
  match entry.path? with
  | none => none
  | some mount =>
      if mount = "" then none
      else some ⟨.ofNat entry.index, String.ofList (mount.toList.drop 1), .directory⟩

/-- The listing's entry for a slot, if the slot shows. -/
def entryAt? {δ : Type} (mounts : MountTable δ) (slot : Nat) : Option DirEntry :=
  (mounts.get? slot).bind listed?

/-- The first slot that shows among the `count` slots from `next` on, and the slot after it;
without one, the slot after all of them.
-/
def scan {δ : Type} (mounts : MountTable δ) : (count next : Nat) → Option DirEntry × Nat
  | 0, next => (none, next)
  | count + 1, next =>
      match entryAt? mounts next with
      | some entry => (some entry, next + 1)
      | none => scan mounts count (next + 1)

/-- The next entry of the listing and the slot to go on from. A stream beyond the last slot
stays where it is.
-/
def next {δ : Type} (mounts : MountTable δ) (slot : Nat) : Option DirEntry × Nat :=
  scan mounts (mounts.slotCount - slot) slot

/-- Reads on in the listing. A position that some other driver made is refused, and nothing
is read once the mount table is gone.
-/
def read {δ σ : Type} (mounts : Option (MountTable δ)) (state : StreamState σ)
    : Except Error (Option DirEntry) × StreamState σ :=
  match state, mounts with
  | .own _, _ => (.error .badDescriptor, state)
  | .rootSlot _, none => (.error .notFound, state)
  | .rootSlot slot, some mounts =>
      let (entry, slot) := next mounts slot
      (.ok entry, .rootSlot slot)

/-- How the root driver answers. The mount table is absent once its switch is gone. -/
def respond {δ σ : Type} (mounts : Option (MountTable δ)) : Responder σ
  | .openFile _ _ _ => .error .notFound
  | .stat path => if path = rootPath then .ok rootStat else .error .notFound
  | .openDir path => if path = rootPath then .ok (.rootSlot 0) else .error .notFound
  | .readDir state => read mounts state
  | .readDirInto state entry =>
      match read mounts state with
      | (.error error, state) => (.error error, state, entry)
      | (.ok none, state) => (.ok false, state, entry)
      | (.ok (some entry), state) => (.ok true, state, entry)
  | .tellDir (.rootSlot slot) => .ok (.ofNat slot)
  | .tellDir (.own _) => .error .badDescriptor
  | .seekDir (.own position) _ => (.error .badDescriptor, .own position)
  | .seekDir (.rootSlot slot) position =>
      if position < 0 then (.error .invalidArgument, .rootSlot slot)
      else (.ok (), .rootSlot position.toNatClampNeg)
  | .closeDir _ => .ok ()
  | request => request.fail .notSupported

end StorageSwitch.RootListing
