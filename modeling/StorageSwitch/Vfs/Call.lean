import StorageSwitch.Driver.Request
import StorageSwitch.Vfs.State

/-! What callers ask a switch for, the driver request that each call amounts to once its
target is known, and the answers.
-/

namespace StorageSwitch

/-- Calls on one path that are passed on as they are. -/
inductive PathCall where
  | stat
  | unlink
  | makeDir (mode : UInt32)
  | removeDir
  | access (mode : AccessMode)
  | truncate (length : UInt64)
  | setTimes (times : Option FileTimes)
  deriving DecidableEq, Repr

/-- The request for a path as the driver sees it. -/
def PathCall.request {σ : Type} (call : PathCall) (path : String) : Request σ :=
  match call with
  | stat => .stat path
  | unlink => .unlink path
  | makeDir mode => .makeDir path mode
  | removeDir => .removeDir path
  | access mode => .access path mode
  | truncate length => .truncate path length
  | setTimes times => .setTimes path times

/-- Calls on two paths of one mount. -/
inductive PairCall where
  | link
  | rename
  deriving DecidableEq, Repr

/-- The request for two paths as the driver sees them. -/
def PairCall.request {σ : Type} (call : PairCall) (source target : String) : Request σ :=
  match call with
  | link => .link source target
  | rename => .rename source target

/-- Calls on a descriptor that are passed on as they are. -/
inductive FileCall where
  | read (buffer : Buffer)
  | write (data : Buffer)
  | stat
  | seek (offset : Int64) (whence : Whence)
  | readAt (buffer : Buffer) (offset : UInt64)
  | writeAt (data : Buffer) (offset : UInt64)
  | control (command argument : Int32)
  | deviceControl (command : Int32) (argument : UInt64)
  | sync
  deriving DecidableEq, Repr

/-- The request for a descriptor as the driver knows it. -/
def FileCall.request {σ : Type} (call : FileCall) (file : LocalFd) : Request σ :=
  match call with
  | read buffer => .read file buffer
  | write data => .write file data
  | stat => .statFile file
  | seek offset whence => .seek file offset whence
  | readAt buffer offset => .readAt file buffer offset
  | writeAt data offset => .writeAt file data offset
  | control command argument => .control file command argument
  | deviceControl command argument => .deviceControl file command argument
  | sync => .sync file

/-- Calls on an open directory stream. -/
inductive StreamCall where
  | read
  | readInto (entry : DirEntry)
  | tell
  | seek (position : Int64)
  deriving DecidableEq, Repr

namespace StreamCall

/-- The request for a stream in a given position. -/
def request {σ : Type} (call : StreamCall) (state : StreamState σ) : Request σ :=
  match call with
  | read => .readDir state
  | readInto entry => .readDirInto state entry
  | tell => .tellDir state
  | seek position => .seekDir state position

/-- Whether the stream is lent to the driver, which may move it, until the driver answers. -/
def lends : StreamCall → Bool
  | tell => false
  | _ => true

end StreamCall

/-- A call of a switch. Streams go by the numbers given out when they were opened. -/
inductive Call (δ : Type) where
  | register (path : String) (driver : δ)
  | registerRange (driver : δ) (min max : Fd)
  | reserveRange (index : Nat) (min max : Fd)
  | unregister (index : Nat)
  | openFile (path : String) (flags : OpenFlags) (mode : UInt32)
  | onPath (call : PathCall) (path : String)
  | onPair (call : PairCall) (source target : String)
  | closeFile (fd : Fd)
  | onFile (call : FileCall) (fd : Fd)
  | openDir (path : String)
  | onStream (call : StreamCall) (stream : Nat)
  | closeDir (stream : Nat)
  | dropDir (stream : Nat)
  deriving DecidableEq, Repr

/-- What a caller gets back. A driver's reply comes with the request that it answers. -/
inductive Answer (σ : Type) where
  | failed (error : Error)
  | done
  | mounted (index : Nat)
  | opened (fd : Fd)
  | streaming (stream : Nat)
  | replied (request : Request σ) (reply : request.Reply)

instance {σ : Type} : Inhabited (Answer σ) := ⟨.done⟩

end StorageSwitch
