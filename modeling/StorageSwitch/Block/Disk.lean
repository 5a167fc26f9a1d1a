import StorageSwitch.File

/-! What a disk driver can be asked, and operations that need at most one answer from one.
Such an operation is either settled or waits for a single reply, so the number of driver
calls it makes can be read off its value.
-/

namespace StorageSwitch.Block

/-- Bytes in a sector. -/
def sectorSize : Nat := 512

-----------------------------------------------------------------------------------------
-- Requests
-----------------------------------------------------------------------------------------

/-- A device control command. Commands without a name are passed on as they are. -/
inductive Command where
  | getSize
  | getSectorSize
  | getReadOnly
  | sync
  | other (code : UInt8)
  deriving DecidableEq, Repr

/-- The command that a number stands for. -/
def Command.ofRaw (raw : UInt8) : Command :=
  if raw = 0 then .getSize
  else if raw = 1 then .getSectorSize
  else if raw = 2 then .getReadOnly
  else if raw = 3 then .sync
  else .other raw

/-- The number of a command. -/
def Command.raw : Command → UInt8
  | .getSize => 0
  | .getSectorSize => 1
  | .getReadOnly => 2
  | .sync => 3
  | .other code => code

/-- The word for the command. -/
def Command.name : Command → String
  | .getSize => "GetSize"
  | .getSectorSize => "GetSectorSize"
  | .getReadOnly => "GetReadOnly"
  | .sync => "Sync"
  | .other code => s!"Other({code.toNat})"

/-- One call of a disk driver. A read is handed the buffer it may fill. -/
inductive DiskRequest where
  | init
  | read (buffer : Buffer) (start count : UInt32)
  | write (data : Buffer) (start count : UInt32)
  | control (command : Command)
  deriving DecidableEq, Repr

/-- What a driver answers to a request. A read also gives the buffer back, which may have
changed even if the read failed.
-/
@[reducible] def DiskRequest.Reply : DiskRequest → Type
  | .init => Except Error Unit
  | .read _ _ _ => Except Error Unit × Buffer
  | .write _ _ _ => Except Error Unit
  | .control _ => Except Error UInt32

/-- The word for the operation that is asked for. -/
def DiskRequest.name : DiskRequest → String
  | .init => "init"
  | .read _ _ _ => "read"
  | .write _ _ _ => "write"
  | .control _ => "ioctl"

/-- The reply of a driver that fails and leaves alone what it was handed. -/
def DiskRequest.fail (error : Error) : (request : DiskRequest) → request.Reply
  | .init => .error error
  | .read buffer _ _ => (.error error, buffer)
  | .write _ _ _ => .error error
  | .control _ => .error error

/-- A driver's answer to every request it may get. -/
abbrev DiskResponder : Type := (request : DiskRequest) → request.Reply

/-- A driver that provides no operation. -/
def DiskResponder.unsupported : DiskResponder := DiskRequest.fail .notSupported

-----------------------------------------------------------------------------------------
-- Operations that ask at most once
-----------------------------------------------------------------------------------------

/-- A result, or the request on whose reply it depends. -/
inductive Inquiry (δ α : Type) where
  | settled (result : α)
  | asks (disk : δ) (request : DiskRequest) (conclude : request.Reply → α)

namespace Inquiry

variable {δ α : Type}

/-- The result when every disk answers as `respond` says. -/
def run (respond : δ → DiskResponder) : Inquiry δ α → α
  | settled result => result
  | asks disk request conclude => conclude (respond disk request)

/-- The one call that is made, if any. -/
def request? : Inquiry δ α → Option (δ × DiskRequest)
  | settled _ => none
  | asks disk request _ => some (disk, request)

end Inquiry

end StorageSwitch.Block
