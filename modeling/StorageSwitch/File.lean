import StorageSwitch.Error

/-! What is said about files: descriptors, flags, attributes, times, seek origins and
directory entries.
-/

namespace StorageSwitch

/-- A descriptor as callers see it. -/
abbrev Fd := Int32

/-- A descriptor as the driver that opened the file knows it. -/
abbrev LocalFd := Int32

/-- The bytes that a call fills or takes. -/
abbrev Buffer := Array UInt8

-----------------------------------------------------------------------------------------
-- Flags
-----------------------------------------------------------------------------------------

/-- A flag that has a name. -/
structure NamedFlag where
  name : String
  bit : Int32
  deriving DecidableEq, Repr

/-- The union of the bits of some flags. -/
def NamedFlag.union (flags : List NamedFlag) : Int32 :=
  flags.foldl (fun bits flag => bits ||| flag.bit) 0

/-- The names of the flags that are fully set in `bits`, in the order of the list. -/
def NamedFlag.namesIn (flags : List NamedFlag) (bits : Int32) : List String :=
  (flags.filter fun flag => bits &&& flag.bit = flag.bit).map (·.name)

/-- How a file is to be opened. Bits without a name are kept and passed on. -/
structure OpenFlags where
  bits : Int32
  deriving DecidableEq, Repr

namespace OpenFlags

/-- The named flags, in the order in which they are listed. -/
def known : List NamedFlag :=
  [⟨"WRONLY", 0x1⟩, ⟨"RDWR", 0x2⟩, ⟨"CREAT", 0x40⟩, ⟨"EXCL", 0x80⟩, ⟨"NOCTTY", 0x100⟩,
    ⟨"TRUNC", 0x200⟩, ⟨"APPEND", 0x400⟩, ⟨"NONBLOCK", 0x800⟩, ⟨"SYNC", 0x1000⟩,
    ⟨"DIRECTORY", 0x10000⟩]

/-- Reading only: no flag is set. -/
def readOnly : OpenFlags := ⟨0⟩

/-- The flags in `bits`, if every bit has a name. -/
def ofBits? (bits : Int32) : Option OpenFlags :=
  if bits &&& NamedFlag.union known = bits then some ⟨bits⟩ else none

/-- The named flags in `bits`; other bits are dropped. -/
def truncate (bits : Int32) : OpenFlags := ⟨bits &&& NamedFlag.union known⟩

/-- The names of the flags that are set. -/
def names (flags : OpenFlags) : List String := NamedFlag.namesIn known flags.bits

/-- The two bits that say how the file is accessed. -/
def accessBits (flags : OpenFlags) : Int32 := flags.bits &&& 3

/-- Anything but writing only can read. -/
def isReadable (flags : OpenFlags) : Bool := flags.accessBits != 1

/-- Anything but reading only can write. -/
def isWritable (flags : OpenFlags) : Bool := flags.accessBits != 0

end OpenFlags

/-- What access is asked for. Bits without a name are kept and passed on. -/
structure AccessMode where
  bits : Int32
  deriving DecidableEq, Repr

namespace AccessMode

/-- The named modes, in the order in which they are listed. -/
def known : List NamedFlag := [⟨"X_OK", 1⟩, ⟨"W_OK", 2⟩, ⟨"R_OK", 4⟩]

/-- Asks only whether the file exists. -/
def existence : AccessMode := ⟨0⟩

/-- The modes in `bits`, if every bit has a name. -/
def ofBits? (bits : Int32) : Option AccessMode :=
  if bits &&& NamedFlag.union known = bits then some ⟨bits⟩ else none

/-- The named modes in `bits`; other bits are dropped. -/
def truncate (bits : Int32) : AccessMode := ⟨bits &&& NamedFlag.union known⟩

/-- The names of the modes that are set. -/
def names (mode : AccessMode) : List String := NamedFlag.namesIn known mode.bits

end AccessMode

-----------------------------------------------------------------------------------------
-- Attributes
-----------------------------------------------------------------------------------------

/-- What a file is. -/
inductive FileType where
  | regular
  | directory
  | charDevice
  | blockDevice
  | fifo
  | socket
  | symlink
  deriving DecidableEq, Repr

namespace FileType

/-- The word for the file type. -/
def name : FileType → String
  | regular => "Regular"
  | directory => "Directory"
  | charDevice => "CharDevice"
  | blockDevice => "BlockDevice"
  | fifo => "Fifo"
  | socket => "Socket"
  | symlink => "Symlink"

/-- All file types. -/
def all : List FileType :=
  [regular, directory, charDevice, blockDevice, fifo, socket, symlink]

end FileType

/-- File type and permissions in one word. -/
structure FileMode where
  bits : UInt32
  deriving DecidableEq, Repr

namespace FileMode

/-- The four bits that hold the file type. -/
def typeBits (mode : FileMode) : UInt32 := mode.bits &&& 0xF000

/-- The type bits of a directory. -/
def directoryBits : UInt32 := 0x4000

/-- The file type; bits that name no other type mean a regular file. -/
def fileType (mode : FileMode) : FileType :=
  if mode.typeBits = directoryBits then .directory
  else if mode.typeBits = 0x2000 then .charDevice
  else if mode.typeBits = 0x6000 then .blockDevice
  else if mode.typeBits = 0x1000 then .fifo
  else if mode.typeBits = 0xC000 then .socket
  else if mode.typeBits = 0xA000 then .symlink
  else .regular

/-- Whether the type bits are those of a directory. -/
def isDirectory (mode : FileMode) : Bool := mode.typeBits == directoryBits

/-- The permission bits. -/
def permissions (mode : FileMode) : UInt32 := mode.bits &&& 0x1FF

end FileMode

/-- The attributes of a file. -/
structure Stat where
  ino : UInt64
  mode : FileMode
  nlink : UInt32
  size : UInt64
  blockSize : UInt32
  blocks : UInt64
  accessTime : Int64
  modifyTime : Int64
  changeTime : Int64
  deriving DecidableEq, Repr

/-- Nothing is known of the file. -/
def Stat.empty : Stat := ⟨0, ⟨0⟩, 0, 0, 0, 0, 0, 0, 0⟩

/-- The times that a file can be given. -/
structure FileTimes where
  access : Int64
  modify : Int64
  deriving DecidableEq, Repr

/-- Both times at the epoch. -/
def FileTimes.epoch : FileTimes := ⟨0, 0⟩

/-- What a seek offset counts from. -/
inductive Whence where
  | start
  | current
  | fileEnd
  deriving DecidableEq, Repr

/-- The word for the origin. -/
def Whence.name : Whence → String
  | .start => "Set"
  | .current => "Cur"
  | .fileEnd => "End"

/-- The origin that a number stands for, if it stands for one. -/
def Whence.ofRaw? (raw : Int32) : Option Whence :=
  if raw = 0 then some .start
  else if raw = 1 then some .current
  else if raw = 2 then some .fileEnd
  else none

/-- One entry of a directory. -/
structure DirEntry where
  ino : UInt64
  name : String
  fileType : FileType
  deriving DecidableEq, Repr

/-- An entry that has not been filled. -/
def DirEntry.empty : DirEntry := ⟨0, "", .regular⟩

end StorageSwitch
