import StorageSwitch.Error

/-! Paths and the mount paths that cover them. Lengths are counted in encoded bytes, and a
mount path covers whole components only, so what remains of a covered path starts at a
character boundary.
-/

namespace StorageSwitch.Path

/-- The character between two components. -/
def separator : Char := '/'

/-- Longest mount path, in bytes. -/
def mountMax : Nat := 16

/-- Size of the buffer that a joined path has to fit, with its terminator. -/
def joinMax : Nat := 256

-----------------------------------------------------------------------------------------
-- Mount paths
-----------------------------------------------------------------------------------------

/-- Accepts the empty mount path, and any other that starts with a separator, does not end
with one and has at most `mountMax` bytes. A lone separator is refused.
-/
def validateMount (mount : String) : Except Error Unit :=
  if mount = "" then .ok ()
  else if mount.utf8ByteSize = 1 ∨ mountMax < mount.utf8ByteSize then
    .error .invalidArgument
  else if mount.toList.head? ≠ some separator ∨ mount.toList.getLast? = some separator then
    .error .invalidArgument
  else .ok ()

/-- A mount path covers the paths that begin with it and go on, if at all, with a separator.
The empty mount path covers every path.
-/
def covers (mount path : String) : Bool :=
  match mount.toList.isPrefixOf? path.toList with
  | none => false
  | some [] => true
  | some (next :: _) => mount == "" || next == separator

-----------------------------------------------------------------------------------------
-- What a driver sees
-----------------------------------------------------------------------------------------

/-- What remains after the first `count` bytes, unless they end inside a character or
beyond the text.
-/
def dropBytes : Nat → List Char → Option (List Char)
  | 0, text => some text
  | _ + 1, [] => none
  | count + 1, char :: text =>
      if char.utf8Size ≤ count + 1 then dropBytes (count + 1 - char.utf8Size) text else none

/-- The part of `path` below a mount path that covers it; the mount point itself is seen as
the root directory.
-/
def translate (path mount : String) : String :=
  match dropBytes mount.utf8ByteSize path.toList with
  | none => "/"
  | some [] => "/"
  | some rest => String.ofList rest

-----------------------------------------------------------------------------------------
-- Joining
-----------------------------------------------------------------------------------------

/-- Without the separators at the start. -/
def trimStart (text : List Char) : List Char := text.dropWhile (· == separator)

/-- Without the separators at the end. -/
def trimEnd (text : List Char) : List Char :=
  (text.reverse.dropWhile (· == separator)).reverse

/-- Both parts with exactly one separator between them. With nothing to append, a base that
is more than separators stays as it is.
-/
def joinTrimmed (base rel : List Char) : List Char :=
  if rel = [] ∧ base ≠ [] then base else base ++ separator :: rel

/-- Joins `base` and `rel` with one separator. Fails unless the two parts and a separator
are shorter than `bound` bytes, also where the separator is then left out. Memory for the
path is taken to suffice.
-/
def concat (base rel : String) (bound : Nat) : Except Error String :=
  let head := trimEnd base.toList
  let tail := trimStart rel.toList
  if bound ≤ (String.ofList head).utf8ByteSize + 1 + (String.ofList tail).utf8ByteSize then
    .error .nameTooLong
  else .ok (String.ofList (joinTrimmed head tail))

/-- Joins two paths within the usual buffer. -/
def join (base rel : String) : Except Error String := concat base rel joinMax

end StorageSwitch.Path
