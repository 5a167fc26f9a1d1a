import StorageSwitch.Proofs.Block.BootSector
import StorageSwitch.Proofs.Block.Slots

/-! Runs of a device tree: whatever its owner calls, in any order, while the disks answer as
they like. A disk is asked at most once in a call and cannot reach the tree, so its answers
are all that a run leaves open besides the calls.
-/

namespace StorageSwitch.Block

namespace DeviceTree

/-- A call of the owner of a tree. Queries are left out: they ask no disk and change
nothing.
-/
inductive Call (δ η : Type) where
  | register (driver : δ)
  | unregister (id : DeviceId)
  | init (id : DeviceId)
  | setHook (hook : Option η)
  | read (id : DeviceId) (buffer : Buffer) (start count : UInt32)
  | write (id : DeviceId) (data : Buffer) (start count : UInt32)
  | control (id : DeviceId) (command : Command)

/-- One call of a run: the tree before it, and how the disks answer while it lasts. -/
structure Moment (δ η : Type) where
  before : DeviceTree δ η
  call : Call δ η
  respond : δ → DiskResponder

variable {δ η : Type}

/-- The tree that a call leads to. -/
def Moment.after (moment : Moment δ η) : DeviceTree δ η :=
  match moment.call with
  | .register driver => ((moment.before.register driver).run moment.respond).tree
  | .unregister id => (moment.before.unregister id).tree
  | .init id => (moment.before.init id).1
  | .setHook hook => moment.before.setHook hook
  | .read _ _ _ _ | .write _ _ _ _ | .control _ _ => moment.before

/-- The disk that a call registers. -/
def Moment.registered? (moment : Moment δ η) : Option DeviceId :=
  match moment.call with
  | .register driver => some ((moment.before.register driver).run moment.respond).result
  | _ => none

/-- A run from `start`: its calls, the latest first, and the tree that it ends in. -/
inductive Run (start : DeviceTree δ η) : List (Moment δ η) → DeviceTree δ η → Prop
  | rest : Run start [] start
  | next {history : List (Moment δ η)} {tree : DeviceTree δ η}
    (run : Run start history tree) (call : Call δ η) (respond : δ → DiskResponder)
    : Run start (⟨tree, call, respond⟩ :: history) (Moment.mk tree call respond).after

/-- Whether initialising a disk has been called for since a call registered it last. -/
def Initialised (disk : DeviceId) : List (Moment δ η) → Prop
  | [] => False
  | moment :: earlier =>
      moment.call = .init disk
      ∨ (moment.registered? ≠ some disk ∧ Initialised disk earlier)

/-- Makes calls one after another. The result is the run as a history and a tree. -/
def play (respond : δ → DiskResponder) (tree : DeviceTree δ η)
    : List (Call δ η) → List (Moment δ η) × DeviceTree δ η
  | [] => ([], tree)
  | call :: calls =>
      let moment : Moment δ η := ⟨tree, call, respond⟩
      let rest := play respond moment.after calls
      (rest.1 ++ [moment], rest.2)

variable {start middle tree : DeviceTree δ η} {history later : List (Moment δ η)}

/-- Runs compose. Witness: induction on the second run. -/
theorem Run.trans (first : start.Run history middle) (second : middle.Run later tree)
    : start.Run (later ++ history) tree := by
  induction second with
  | rest => exact first
  | next _ call respond ih => exact .next ih call respond

theorem run_play (respond : δ → DiskResponder) (start : DeviceTree δ η)
    (calls : List (Call δ η))
    : start.Run (start.play respond calls).1 (start.play respond calls).2 := by
  induction calls generalizing start with
  | nil => exact .rest
  | cons call calls ih => exact Run.trans (.next .rest call respond) (ih _)

theorem call_mem_of_play {respond : δ → DiskResponder} {calls : List (Call δ η)}
    {moment : Moment δ η} (member : moment ∈ (start.play respond calls).1)
    : moment.call ∈ calls := by
  induction calls generalizing start with
  | nil => simp [play] at member
  | cons call calls ih =>
      rcases List.mem_append.mp member with later | first
      · exact List.mem_cons_of_mem _ (ih later)
      · rw [List.mem_singleton.mp first]
        exact List.mem_cons_self ..

-----------------------------------------------------------------------------------------
-- Steps of runs
-----------------------------------------------------------------------------------------

/-- The trees that come about step by step, of whatever size. Every call consists of these
steps. A registration inserts the disk and adds partitions to the disk that the new name
stands for; should the name of such a partition stand for a disk in turn, the scan of that
one adds partitions to it as well.
-/
inductive Reached : DeviceTree δ η → Prop
  | empty (hook : Option η) : Reached (empty hook)
  | insertDisk {tree : DeviceTree δ η} (reached : Reached tree) (driver : δ)
    : Reached (tree.insert ⟨.disk driver, 0⟩).2
  | addPartition {tree grown : DeviceTree δ η} {disk id : DeviceId} {driver : δ}
    {range : Partition} (reached : Reached tree)
    (live : tree.device? disk = some (.disk driver))
    (added : tree.addPartition disk range = .ok (id, grown))
    : Reached grown
  | unregister {tree : DeviceTree δ η} (reached : Reached tree) (id : DeviceId)
    : Reached (tree.unregister id).tree
  | init {tree : DeviceTree δ η} (reached : Reached tree) (id : DeviceId)
    : Reached (tree.init id).1
  | setHook {tree : DeviceTree δ η} (reached : Reached tree) (hook : Option η)
    : Reached (tree.setHook hook)

/-- A disk that is scanned stays where it is, so what its sector lists can be added step by
step.
-/
theorem Reached.addListed {disk : DeviceId} {driver : δ} (reached : tree.Reached)
    (live : tree.device? disk = some (.disk driver)) (reply : Except Error Unit × Buffer)
    : (tree.addListed disk reply).tree.Reached := by
  have step {tree grown : DeviceTree δ η} {id : DeviceId} {range : Partition}
      (before : tree.Reached ∧ tree.device? disk = some (.disk driver))
      (added : tree.addPartition disk range = .ok (id, grown))
      : grown.Reached ∧ grown.device? disk = some (.disk driver) :=
    ⟨before.1.addPartition before.2 added, (addPartition_gains added).kept before.2⟩
  exact (addListed_keeps step ⟨reached, live⟩ reply).1

theorem Reached.after (moment : Moment δ η) (reached : moment.before.Reached)
    : moment.after.Reached := by
  obtain ⟨tree, call, respond⟩ := moment
  cases call with
  | register driver =>
      rcases tree.register_tree driver respond with same | ⟨_, reply, live, listed⟩
      · simpa only [Moment.after, same] using reached.insertDisk driver
      · simpa only [Moment.after, listed] using (reached.insertDisk driver).addListed live reply
  | unregister id => exact reached.unregister id
  | init id => exact reached.init id
  | setHook hook => exact reached.setHook hook
  | read _ _ _ _ | write _ _ _ _ | control _ _ => exact reached

/-- Every run leads through trees that come about step by step. Witness: induction on the
run.
-/
theorem Run.reached {hook : Option η} (run : (DeviceTree.empty hook).Run history tree)
    : tree.Reached := by
  induction run with
  | rest => exact .empty hook
  | next _ call respond ih => exact ih.after ⟨_, call, respond⟩

/-- A call takes no slot away. -/
theorem Moment.size_le_after (moment : Moment δ η)
    : moment.before.slots.size ≤ moment.after.slots.size := by
  obtain ⟨tree, call, respond⟩ := moment
  cases call with
  | register driver => exact Nat.le_trans (size_le_insert ..) (size_le_register ..)
  | unregister id => exact size_unregister tree id ▸ Nat.le_refl _
  | init id => simp [Moment.after, init_tree]
  | setHook _ | read _ _ _ _ | write _ _ _ _ | control _ _ => exact Nat.le_refl _

theorem Moment.room_before (moment : Moment δ η) (room : moment.after.Addressable)
    : moment.before.Addressable :=
  room.of_le moment.size_le_after

/-- A run through more slots than names have room for does not end with fewer. -/
theorem Run.room_start (run : start.Run history tree) (room : tree.Addressable)
    : start.Addressable := by
  induction run with
  | rest => exact room
  | next _ call respond ih => exact ih (Moment.room_before ⟨_, call, respond⟩ room)

/-- The registration of a disk that can do nothing. -/
def registration (tree : DeviceTree δ η) (driver : δ) : Moment δ η :=
  ⟨tree, .register driver, fun _ => .unsupported⟩

/-- A disk whose driver provides nothing is announced alone, wherever its name leads. -/
theorem register_unsupported (tree : DeviceTree δ η) (driver : δ)
    : let inserted := tree.insert ⟨.disk driver, 0⟩
      let outcome := (tree.register driver).run fun _ => .unsupported
      outcome.tree = inserted.2 ∧ outcome.events = inserted.2.announce inserted.1 := by
  unfold register
  dsimp only
  split
  · exact ⟨rfl, rfl⟩
  · exact ⟨rfl, rfl⟩

theorem registration_after (tree : DeviceTree δ η) (driver : δ)
    : (registration tree driver).after = (tree.insert ⟨.disk driver, 0⟩).2 :=
  (register_unsupported tree driver).1

end DeviceTree

-----------------------------------------------------------------------------------------
-- Disks to make runs with
-----------------------------------------------------------------------------------------

/-- The bytes of a partition record. -/
def PartitionRecord.encode (record : PartitionRecord) : List UInt8 :=
  [record.status, 0, 0, 0, record.typeCode, 0, 0, 0] ++ bytesOf record.start
    ++ bytesOf record.count

/-- A signed first sector that lists up to four partition records. -/
def bootSector (records : List PartitionRecord) : Buffer :=
  let listed := records.flatMap PartitionRecord.encode
  let unused := BootRecord.signatureOffset - BootRecord.tableOffset - listed.length
  (List.replicate BootRecord.tableOffset 0 ++ listed ++ List.replicate unused 0
    ++ [0x55, 0xAA]).toArray

/-- A driver that finds the same sector wherever it reads, and provides nothing else. -/
def DiskResponder.ofSector (sector : Buffer) : DiskResponder
  | .read _ _ _ => (.ok (), sector)
  | request => request.fail .notSupported

end StorageSwitch.Block
