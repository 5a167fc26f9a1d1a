/-! A lock for short critical sections, as its state between two steps. -/

namespace StorageSwitch

/-- A lock is free or held by one guard. -/
inductive Lock where
  | free
  | held
  deriving DecidableEq, Repr

namespace Lock

/-- Whether a guard holds the lock. -/
def isHeld : Lock → Bool
  | free => false
  | held => true

/-- Takes a free lock; a held one cannot be taken. -/
def tryAcquire : Lock → Option Lock
  | free => some held
  | held => none

/-- Gives up the guard. -/
def release (_ : Lock) : Lock := free

end Lock

end StorageSwitch
