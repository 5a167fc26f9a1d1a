import StorageSwitch.Proofs.Block.Counting
import StorageSwitch.Proofs.Block.Runs

/-! In every run the slots of a device tree, its order of registration, the generations in
names, the disks that partitions lie on and the counts of partitions agree, however often
slots are freed and taken again.
-/

namespace StorageSwitch.Block.DeviceTree

variable {δ η : Type} {tree : DeviceTree δ η} {history : List (Moment δ η)}

-----------------------------------------------------------------------------------------
-- What every call keeps
-----------------------------------------------------------------------------------------

/-- No call breaks what is sound. Witness: of all calls, only an initialisation resets a
disk, and a registration undoes that for the name it gives out.
-/
theorem Sound.next (sound : Sound (Initialised · history) tree) {call : Call δ η}
    {respond : δ → DiskResponder} (room : (Moment.mk tree call respond).after.Addressable)
    : Sound (Initialised · (⟨tree, call, respond⟩ :: history))
        (Moment.mk tree call respond).after := by
  cases call with
  | register driver =>
      exact (sound.register room).congr fun {disk _} _ => by
        simp [Initialised, Moment.registered?, ne_comm]
  | unregister id =>
      exact (sound.unregister id).congr fun _ => by simp [Initialised, Moment.registered?]
  | init id =>
      exact (sound.init id).congr fun _ => by
        simp [Initialised, Moment.registered?, eq_comm]
  | setHook hook =>
      exact (sound.setHook hook).congr fun _ => by simp [Initialised, Moment.registered?]
  | read _ _ _ _ | write _ _ _ _ | control _ _ =>
      exact sound.congr fun _ => by simp [Initialised, Moment.registered?]

/-- Every run ends in a sound tree, if every slot of this tree has a number that fits into a
name. Witness: induction on the run, in the course of which no slot goes.
-/
theorem Run.sound {hook : Option η} (run : (empty hook).Run history tree)
    (room : tree.Addressable)
    : Sound (Initialised · history) tree := by
  induction run with
  | rest => exact sound_empty hook _
  | next _ call respond ih => exact (ih (Moment.room_before ⟨_, call, respond⟩ room)).next room

/-- Partitions lie on live disks in trees of any size. Witness: induction on the steps. -/
theorem Reached.rooted (reached : tree.Reached) : tree.Rooted := by
  induction reached with
  | empty hook => exact rooted_empty hook
  | insertDisk _ driver ih => exact ih.gains (gains_insert ..) (by simp [Device.parent?])
  | addPartition _ live added ih =>
      refine ih.gains (addPartition_gains added) fun disk lies => ?_
      exact ⟨_, Option.some.inj lies ▸ live⟩
  | @unregister tree _ id ih =>
      rcases tree.unregister_tree id with same | ⟨_, live, drops⟩
      · rw [same]
        exact ih
      · exact ih.drops drops (ih.mem_family_iff live)
  | init _ id ih =>
      rw [init_tree]
      exact ih.congr (fun _ => device?_setChildren 0) (order_setChildren 0)
  | setHook _ hook ih => exact ih.congr (fun _ => rfl) rfl

-----------------------------------------------------------------------------------------
-- What the views of a tree have in common
-----------------------------------------------------------------------------------------

/-- What holds of the devices of a tree after the calls in `history`. -/
structure Aligned (history : List (Moment δ η)) (tree : DeviceTree δ η) : Prop where
  /-- No device is listed twice. -/
  nodup : tree.devices.Nodup
  /-- The tree accepts the names that it lists and no others. -/
  contains_iff : ∀ id, tree.contains id = true ↔ id ∈ tree.devices
  /-- A device is a disk that lies on nothing, or a partition of a live disk that comes
  earlier.
  -/
  kinds
    : ∀ id ∈ tree.devices,
        (∃ driver, tree.device? id = some (.disk driver) ∧ tree.parent id = .ok none)
        ∨ ∃ range disk driver,
            tree.device? id = some (.partition range disk)
            ∧ tree.parent id = .ok (some disk)
            ∧ tree.device? disk = some (.disk driver)
            ∧ [disk, id].Sublist tree.devices
  /-- A walk over parents ends after at most one step, and the walk that removal makes is
  this one.
  -/
  walks
    : ∀ id, ∃ met,
        tree.Walk id met
        ∧ met.length ≤ 1
        ∧ ∀ ancestor, tree.liesOn ancestor tree.slots.size id = decide (ancestor ∈ met)
  /-- An operation on a disk is a call of its driver. -/
  diskOperations
    : ∀ disk driver,
        tree.device? disk = some (.disk driver)
        → (∀ buffer start count,
            tree.read disk buffer start count
            = .asks driver (.read buffer start count) fun reply => reply)
          ∧ (∀ data start count,
              tree.write disk data start count
              = .asks driver (.write data start count) fun reply => reply)
          ∧ ∀ command,
              tree.control disk command = .asks driver (.control command) fun reply => reply
  /-- An operation on a partition is refused for a sector beyond all numbers, answered at
  once, or one on its disk.
  -/
  partitionOperations
    : ∀ id range disk,
        tree.device? id = some (.partition range disk)
        → (∀ buffer start count,
            tree.read id buffer start count
            = if range.start.toNat + start.toNat < UInt32.size then
                tree.read disk buffer (range.start + start) count
              else .settled (.error .invalidArgument, buffer))
          ∧ (∀ data start count,
              tree.write id data start count
              = if range.start.toNat + start.toNat < UInt32.size then
                  tree.write disk data (range.start + start) count
                else .settled (.error .invalidArgument))
          ∧ ∀ command,
              tree.control id command
              = if command = .getSize then .settled (.ok range.count)
                else tree.control disk command
  /-- A disk counts its partitions, or none if it was initialised. -/
  diskChildren
    : ∀ disk driver,
        tree.device? disk = some (.disk driver)
        → (¬Initialised disk history
            → tree.children disk = .ok (tree.partitionsOf disk).length)
          ∧ (Initialised disk history → tree.children disk = .ok 0)
  /-- A partition counts none. -/
  partitionChildren
    : ∀ id range disk,
        tree.device? id = some (.partition range disk) → tree.children id = .ok 0

/-- The views of a tree agree after every run, as long as every slot has a number that fits
into a name.
-/
theorem devices_stay_aligned {hook : Option η} (run : (empty hook).Run history tree)
    (room : tree.Addressable)
    : Aligned history tree := by
  obtain ⟨formed, counted⟩ := run.sound room
  refine {
    nodup := formed.nodup
    contains_iff := fun id => ?contains
    kinds := fun id listed => ?kinds
    walks := fun id => ?walks
    diskOperations := fun disk driver live =>
      ⟨read_of_disk live, write_of_disk live, control_of_disk live⟩
    partitionOperations := fun id range disk found =>
      ⟨formed.read_of_partition found, formed.write_of_partition found,
        formed.control_of_partition found⟩
    diskChildren := fun disk driver live => ?diskChildren
    partitionChildren := fun id range disk found => ?partitionChildren
  }
  case contains =>
    rw [devices, formed.mem_order_iff, contains_iff]
  case kinds =>
    obtain ⟨device, found⟩ := (formed.mem_order_iff id).mp listed
    obtain ⟨node, live, isDevice⟩ := device?_eq_some_iff.mp found
    cases device with
    | disk driver =>
        exact .inl ⟨driver, found, by simp [parent, query, live, isDevice, Device.parent?]⟩
    | partition range disk =>
        obtain ⟨driver, root⟩ := formed.rooted found
        exact .inr ⟨range, disk, driver, found,
          by simp [parent, query, live, isDevice, Device.parent?], root,
          formed.earlier found⟩
  case walks =>
    refine ⟨_, formed.walk id, ?_, fun ancestor => ?_⟩
    · cases (tree.device? id).bind (·.parent?) <;> simp
    · simp [formed.liesOn_eq, eq_comm]
  case diskChildren =>
    obtain ⟨node, found, isDisk⟩ := device?_eq_some_iff.mp live
    obtain ⟨device, children⟩ := node
    obtain rfl := isDisk
    constructor
    · intro unreset
      simp [DeviceTree.children, query, found, ← counted.disk found unreset]
    · intro reset
      simp [DeviceTree.children, query, found, counted.resetDisk found reset]
  case partitionChildren =>
    obtain ⟨node, live, isPartition⟩ := device?_eq_some_iff.mp found
    obtain ⟨device, children⟩ := node
    obtain rfl := isPartition
    simp [DeviceTree.children, query, live, counted.partition live]

/-- A disk with two partitions goes, and a disk with one takes two of their slots; a third
disk has stayed and was initialised.
-/
theorem devices_stay_aligned_of_reused_slots
    : let calls : List (Call Buffer Unit) := [
        .register (bootSector
          [⟨0x80, 0x83, 2048, 100⟩, ⟨0, 0x83, 1, 1⟩, ⟨1, 0x07, 4096, 50⟩]),
        .register (bootSector [⟨0x80, 0x0C, 63, 10⟩]),
        .unregister ⟨0, 0⟩,
        .register (bootSector [⟨0x80, 0x0C, 8, 8⟩]),
        .init ⟨3, 0⟩
      ]
      let played := (empty none).play DiskResponder.ofSector calls
      played.2.Addressable
      ∧ Aligned played.1 played.2
      ∧ played.2.devices = [⟨3, 0⟩, ⟨4, 0⟩, ⟨0, 1⟩, ⟨1, 1⟩]
      ∧ played.2.contains ⟨0, 0⟩ = false
      ∧ played.2.partitionsOf ⟨3, 0⟩ = [⟨4, 0⟩]
      ∧ (played.2.children ⟨3, 0⟩).toOption = some 0
      ∧ played.2.partitionsOf ⟨0, 1⟩ = [⟨1, 1⟩]
      ∧ (played.2.children ⟨0, 1⟩).toOption = some 1 := by
  intro calls played
  have room : played.2.Addressable := by decide +kernel
  refine ⟨room, devices_stay_aligned (run_play _ _ calls) room, ?_⟩
  decide +kernel

end StorageSwitch.Block.DeviceTree
