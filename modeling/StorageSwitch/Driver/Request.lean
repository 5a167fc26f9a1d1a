import StorageSwitch.File

/-! What a filesystem driver can be asked and what it answers. Paths are the driver's own,
as seen from its mount point, and so are descriptors. `σ` is the type in which drivers keep
the position of a directory stream.
-/

namespace StorageSwitch

/-- The position of a directory stream: a slot number in the listing of the root directory,
or what a driver made of it.
-/
inductive StreamState (σ : Type) where
  | rootSlot (next : Nat)
  | own (position : σ)
  deriving DecidableEq, Repr

/-- One call of a filesystem driver. Reads are handed the buffer they may fill, and stream
calls the position they may move.
-/
inductive Request (σ : Type) where
  | openFile (path : String) (flags : OpenFlags) (mode : UInt32)
  | stat (path : String)
  | link (source target : String)
  | unlink (path : String)
  | rename (source target : String)
  | openDir (path : String)
  | makeDir (path : String) (mode : UInt32)
  | removeDir (path : String)
  | access (path : String) (mode : AccessMode)
  | truncate (path : String) (length : UInt64)
  | setTimes (path : String) (times : Option FileTimes)
  | closeFile (file : LocalFd)
  | read (file : LocalFd) (buffer : Buffer)
  | write (file : LocalFd) (data : Buffer)
  | statFile (file : LocalFd)
  | seek (file : LocalFd) (offset : Int64) (whence : Whence)
  | readAt (file : LocalFd) (buffer : Buffer) (offset : UInt64)
  | writeAt (file : LocalFd) (data : Buffer) (offset : UInt64)
  | control (file : LocalFd) (command argument : Int32)
  | deviceControl (file : LocalFd) (command : Int32) (argument : UInt64)
  | sync (file : LocalFd)
  | readDir (state : StreamState σ)
  | readDirInto (state : StreamState σ) (entry : DirEntry)
  | tellDir (state : StreamState σ)
  | seekDir (state : StreamState σ) (position : Int64)
  | closeDir (state : StreamState σ)
  deriving DecidableEq, Repr

namespace Request

variable {σ : Type}

/-- The word for the operation that is asked for. -/
def name : Request σ → String
  | openFile _ _ _ => "open"
  | stat _ => "stat"
  | link _ _ => "link"
  | unlink _ => "unlink"
  | rename _ _ => "rename"
  | openDir _ => "opendir"
  | makeDir _ _ => "mkdir"
  | removeDir _ => "rmdir"
  | access _ _ => "access"
  | truncate _ _ => "truncate"
  | setTimes _ _ => "utime"
  | closeFile _ => "close"
  | read _ _ => "read"
  | write _ _ => "write"
  | statFile _ => "fstat"
  | seek _ _ _ => "lseek"
  | readAt _ _ _ => "pread"
  | writeAt _ _ _ => "pwrite"
  | control _ _ _ => "fcntl"
  | deviceControl _ _ _ => "ioctl"
  | sync _ => "fsync"
  | readDir _ => "readdir"
  | readDirInto _ _ => "readdir_r"
  | tellDir _ => "telldir"
  | seekDir _ _ => "seekdir"
  | closeDir _ => "closedir"

/-- What a driver answers to a request. A call that is handed a buffer, a stream position
or a directory entry to change also gives it back, whether or not the call failed.
-/
@[reducible] def Reply : Request σ → Type
  | openFile _ _ _ => Except Error LocalFd
  | stat _ => Except Error Stat
  | openDir _ => Except Error (StreamState σ)
  | read _ _ => Except Error Nat × Buffer
  | write _ _ => Except Error Nat
  | statFile _ => Except Error Stat
  | seek _ _ _ => Except Error Int64
  | readAt _ _ _ => Except Error Nat × Buffer
  | writeAt _ _ _ => Except Error Nat
  | control _ _ _ => Except Error Int32
  | deviceControl _ _ _ => Except Error Int32
  | readDir _ => Except Error (Option DirEntry) × StreamState σ
  | readDirInto _ _ => Except Error Bool × StreamState σ × DirEntry
  | tellDir _ => Except Error Int64
  | seekDir _ _ => Except Error Unit × StreamState σ
  | link _ _ => Except Error Unit
  | unlink _ => Except Error Unit
  | rename _ _ => Except Error Unit
  | makeDir _ _ => Except Error Unit
  | removeDir _ => Except Error Unit
  | access _ _ => Except Error Unit
  | truncate _ _ => Except Error Unit
  | setTimes _ _ => Except Error Unit
  | closeFile _ => Except Error Unit
  | sync _ => Except Error Unit
  | closeDir _ => Except Error Unit

/-- The reply of a driver that fails and leaves alone what it was handed. -/
def fail (error : Error) : (request : Request σ) → request.Reply
  | openFile _ _ _ => .error error
  | stat _ => .error error
  | openDir _ => .error error
  | read _ buffer => (.error error, buffer)
  | write _ _ => .error error
  | statFile _ => .error error
  | seek _ _ _ => .error error
  | readAt _ buffer _ => (.error error, buffer)
  | writeAt _ _ _ => .error error
  | control _ _ _ => .error error
  | deviceControl _ _ _ => .error error
  | readDir state => (.error error, state)
  | readDirInto state entry => (.error error, state, entry)
  | tellDir _ => .error error
  | seekDir state _ => (.error error, state)
  | link _ _ => .error error
  | unlink _ => .error error
  | rename _ _ => .error error
  | makeDir _ _ => .error error
  | removeDir _ => .error error
  | access _ _ => .error error
  | truncate _ _ => .error error
  | setTimes _ _ => .error error
  | closeFile _ => .error error
  | sync _ => .error error
  | closeDir _ => .error error

/-- The stream position that a reply gives back, if the request lent one. -/
def stateAfter : (request : Request σ) → request.Reply → Option (StreamState σ)
  | readDir _, (_, state) => some state
  | readDirInto _ _, (_, state, _) => some state
  | seekDir _ _, (_, state) => some state
  | _, _ => none

end Request

/-- A driver's answer to every request it may get. -/
abbrev Responder (σ : Type) : Type := (request : Request σ) → request.Reply

/-- A driver that provides no operation. -/
def Responder.unsupported {σ : Type} : Responder σ := Request.fail .notSupported

instance {σ : Type} : Inhabited (Responder σ) := ⟨.unsupported⟩

end StorageSwitch
