/-! Failures shared by the filesystem switch and the block devices, with their platform
numbers. Reading a number back gives the failure it stands for, whatever its sign.
-/

namespace StorageSwitch

/-- What an operation can fail with. `errno` is a number that only its driver knows. -/
inductive Error where
  | invalidArgument
  | outOfSlots
  | outOfMemory
  | tooManyOpenFiles
  | badDescriptor
  | notFound
  | notSupported
  | busy
  | crossDevice
  | nameTooLong
  | noDevice
  | io
  | errno (code : Int32)
  deriving DecidableEq, Repr

namespace Error

/-- The platform number of a failure. A full registry and exhausted memory share one. -/
def code : Error → Int32
  | invalidArgument => 22
  | outOfSlots => 12
  | outOfMemory => 12
  | tooManyOpenFiles => 24
  | badDescriptor => 9
  | notFound => 2
  | notSupported => 88
  | busy => 16
  | crossDevice => 18
  | nameTooLong => 91
  | noDevice => 19
  | io => 5
  | errno code => code

/-- The failure that a non-negative platform number stands for. -/
def ofMagnitude (code : Int32) : Error :=
  if code = 22 then invalidArgument
  else if code = 12 then outOfMemory
  else if code = 24 then tooManyOpenFiles
  else if code = 9 then badDescriptor
  else if code = 2 then notFound
  else if code = 88 then notSupported
  else if code = 16 then busy
  else if code = 18 then crossDevice
  else if code = 91 then nameTooLong
  else if code = 19 then noDevice
  else if code = 5 then io
  else errno code

/-- The failure that a platform number of either sign stands for. The least number has no
magnitude of its width and stands for itself.
-/
def ofCode (code : Int32) : Error := ofMagnitude code.abs

/-- The word for the failure, by which programs tell failures apart. -/
def name : Error → String
  | invalidArgument => "InvalidArgument"
  | outOfSlots => "OutOfSlots"
  | outOfMemory => "OutOfMemory"
  | tooManyOpenFiles => "TooManyOpenFiles"
  | badDescriptor => "BadDescriptor"
  | notFound => "NotFound"
  | notSupported => "NotSupported"
  | busy => "Busy"
  | crossDevice => "CrossDevice"
  | nameTooLong => "NameTooLong"
  | noDevice => "NoDevice"
  | io => "Io"
  | errno _ => "Errno"

/-- The failures whose numbers are known to all drivers. -/
def common : List Error :=
  [invalidArgument, outOfSlots, outOfMemory, tooManyOpenFiles, badDescriptor, notFound,
    notSupported, busy, crossDevice, nameTooLong, noDevice, io]

/-- The text shown to a user. -/
def message : Error → String
  | invalidArgument => "Invalid argument"
  | outOfSlots => "No free registry slot"
  | outOfMemory => "Out of memory"
  | tooManyOpenFiles => "Too many open files"
  | badDescriptor => "Bad file descriptor"
  | notFound => "No such file or directory"
  | notSupported => "Operation not supported"
  | busy => "Resource busy"
  | crossDevice => "Cross-device link"
  | nameTooLong => "File name too long"
  | noDevice => "No such device"
  | io => "I/O error"
  | errno code => s!"Error {code.toInt}"

end Error

/-- The outcome that a driver status encodes: a non-negative status is a value, a negative
one the platform number of a failure.
-/
def checkStatus (status : Int32) : Except Error Int32 :=
  if status < 0 then .error (.ofCode status) else .ok status

end StorageSwitch
