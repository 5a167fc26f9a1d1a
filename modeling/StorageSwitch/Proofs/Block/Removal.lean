import StorageSwitch.Proofs.Block.Generations
import StorageSwitch.Proofs.Block.Mirroring

/-! What goes when a disk goes. A disk has the partitions that it came with as long as it is
there, wherever in the slots they lie, and takes them along in the order in which they came.
No disk is asked in the course of this, and no other device notices it.
-/

namespace StorageSwitch.Block.DeviceTree

variable {δ η : Type} {tree left : DeviceTree δ η} {history : List (Moment δ η)}
  {hook : Option η} {id disk : DeviceId} {driver : δ} {gone : List DeviceId}
  {parts : List (DeviceId × Partition)}

-----------------------------------------------------------------------------------------
-- The partitions that a disk came with
-----------------------------------------------------------------------------------------

/-- What a driver is asked in the course of a call, if anything. -/
def Moment.asked (moment : Moment δ η) : Option (δ × DiskRequest) :=
  match moment.call with
  | .register driver => (moment.before.register driver).request?
  | .init id => (moment.before.init id).2.request?
  | .read id buffer start count => (moment.before.read id buffer start count).request?
  | .write id data start count => (moment.before.write id data start count).request?
  | .control id command => (moment.before.control id command).request?
  | .unregister _ | .setHook _ => none

/-- A call registers a disk and the partitions that the answer of its driver lists. -/
structure Moment.Brings (moment : Moment δ η) (driver : δ) (disk : DeviceId)
    (parts : List (DeviceId × Partition)) : Prop where
  call : moment.call = .register driver
  disk : moment.registered? = some disk
  ranges
    : parts.map (·.2)
      = rangesListedBy (moment.respond driver (.read (Array.replicate sectorSize 0) 0 1))
  registers
    : moment.before.Registers driver parts
        ((moment.before.register driver).run moment.respond)

/-- The partitions of a disk, in the order of registration, are `parts`. -/
structure HasParts (tree : DeviceTree δ η) (disk : DeviceId)
    (parts : List (DeviceId × Partition)) : Prop where
  partitionsOf : tree.partitionsOf disk = parts.map (·.1)
  device? : ∀ part ∈ parts, tree.device? part.1 = some (.partition part.2 disk)

theorem HasParts.congr {after : DeviceTree δ η} (has : tree.HasParts disk parts)
    (devices : ∀ id, after.device? id = tree.device? id) (order : after.order = tree.order)
    : after.HasParts disk parts where
  partitionsOf := by
    rw [← has.partitionsOf, DeviceTree.partitionsOf, order]
    simp only [devices, DeviceTree.partitionsOf]
  device? := by simpa only [devices] using has.device?

/-- A disk that stays when another goes keeps its partitions. -/
theorem HasParts.drops (has : tree.HasParts disk parts) (drops : tree.Drops gone left)
    (stay : ∀ id ∈ tree.partitionsOf disk, id ∉ gone)
    : left.HasParts disk parts where
  partitionsOf := (partitionsOf_drops drops stay).trans has.partitionsOf
  device? part member := by
    have here : part.1 ∈ tree.partitionsOf disk :=
      has.partitionsOf ▸ List.mem_map_of_mem member
    rw [drops.device?, if_neg (stay _ here), has.device? part member]

section Register

variable {outcome : Outcome δ η DeviceId} (registers : tree.Registers driver parts outcome)
  (formed : tree.WellFormed)

include registers formed

theorem Registers.device?_eq_of_listed (listed : id ∈ tree.devices)
    : outcome.tree.device? id = tree.device? id := by
  simp only [DeviceTree.device?, registers.others id (registers.not_new formed listed)]

/-- A registration adds partitions of the new disk and of no other. -/
theorem Registers.partitionsOf_eq
    : outcome.tree.partitionsOf disk
      = tree.partitionsOf disk
        ++ if disk = outcome.result then parts.map (·.1) else [] := by
  have root : outcome.tree.device? outcome.result = some (.disk driver) :=
    device?_of_node? registers.disk
  have lies {part : DeviceId} (member : part ∈ parts.map (·.1))
      : (outcome.tree.device? part).bind (·.parent?) = some outcome.result := by
    obtain ⟨new, inParts, rfl⟩ := List.mem_map.mp member
    simp [device?_of_node? (registers.partitions new inParts), Device.parent?]
  have order : outcome.tree.order = tree.order ++ outcome.result :: parts.map (·.1) :=
    registers.devices
  unfold partitionsOf
  rw [order, List.filter_append]
  congr 1
  · refine List.filter_congr fun old listed => ?_
    rw [registers.device?_eq_of_listed formed listed]
  · rw [List.filter_cons_of_neg (by simp [root, Device.parent?])]
    split
    · rename_i new
      refine List.filter_eq_self.mpr fun part member => ?_
      simp [lies member, new]
    · rename_i other
      refine List.filter_eq_nil_iff.mpr fun part member => ?_
      simpa [lies member] using Ne.symm other

/-- The new disk has the partitions that were added. -/
theorem Registers.hasParts : outcome.tree.HasParts outcome.result parts where
  partitionsOf := by
    have unused : tree.partitionsOf outcome.result = [] := by
      refine formed.partitionsOf_eq_nil fun other live => ?_
      have absent := registers.fresh outcome.result (List.mem_cons_self ..)
      rw [contains_iff.mpr ⟨_, live⟩] at absent
      contradiction
    simp [registers.partitionsOf_eq formed, unused]
  device? part member := device?_of_node? (registers.partitions part member)

/-- A disk after a registration is the new one, or was there and keeps its partitions. -/
theorem Registers.disk_cases {other : δ}
    (live : outcome.tree.device? disk = some (.disk other))
    : (disk = outcome.result ∧ other = driver)
      ∨ (tree.device? disk = some (.disk other)
        ∧ ∀ had, tree.HasParts disk had → outcome.tree.HasParts disk had) := by
  by_cases new : disk ∈ outcome.result :: parts.map (·.1)
  · rcases List.mem_cons.mp new with rfl | isPart
    · have same := live.symm.trans (device?_of_node? registers.disk)
      exact .inl ⟨rfl, Device.disk.inj (Option.some.inj same)⟩
    · obtain ⟨part, inParts, rfl⟩ := List.mem_map.mp isPart
      have lies := device?_of_node? (registers.partitions part inParts)
      simp [live] at lies
  · have notDisk : disk ≠ outcome.result := fun same => new (same ▸ List.mem_cons_self ..)
    refine .inr ⟨?_, fun had has => ⟨?_, fun part member => ?_⟩⟩
    · simpa only [DeviceTree.device?, registers.others disk new] using live
    · simpa [registers.partitionsOf_eq formed, notDisk] using has.partitionsOf
    · have listed := (formed.mem_order_iff part.1).mpr ⟨_, has.device? part member⟩
      rw [registers.device?_eq_of_listed formed listed, has.device? part member]

end Register

/-- A disk after a call was brought by it, or was there and keeps its partitions. -/
theorem Moment.brings_or_keeps (moment : Moment δ η) (formed : moment.before.WellFormed)
    (room : moment.after.Addressable) (live : moment.after.device? disk = some (.disk driver))
    : (∃ parts, moment.Brings driver disk parts ∧ moment.after.HasParts disk parts)
      ∨ (moment.before.device? disk = some (.disk driver)
        ∧ ∀ parts, moment.before.HasParts disk parts → moment.after.HasParts disk parts) := by
  obtain ⟨tree, call, respond⟩ := moment
  cases call with
  | register new =>
      obtain ⟨parts, ranges, registers⟩ := register_registers room
      rcases registers.disk_cases formed live with ⟨rfl, rfl⟩ | kept
      · exact .inl ⟨parts, ⟨rfl, rfl, ranges, registers⟩, registers.hasParts formed⟩
      · exact .inr kept
  | unregister id =>
      rcases tree.unregister_tree id with same | ⟨other, root, drops⟩
      · simp only [Moment.after, same] at live ⊢
        exact .inr ⟨live, fun _ has => has⟩
      · have stays : disk ∉ tree.family id := by
          intro away
          have none : (tree.unregister id).tree.device? disk = none := by
            rw [drops.device?, if_pos away]
          exact absurd (none.symm.trans live) (by simp)
        have was : tree.device? disk = some (.disk driver) := by
          rw [← live]
          exact (drops.device?.trans (if_neg stays)).symm
        refine .inr ⟨was, fun parts has => has.drops drops fun part member => ?_⟩
        obtain ⟨_, range, found⟩ := mem_partitionsOf_iff.mp member
        rwa [formed.mem_family_iff root found]
  | init id =>
      have devices (name : DeviceId)
          : (Moment.mk tree (.init id) respond).after.device? name = tree.device? name := by
        simp [Moment.after, init_tree]
      rw [devices] at live
      exact .inr ⟨live, fun _ has => has.congr devices (by simp [Moment.after, init_tree])⟩
  | setHook _ | read _ _ _ _ | write _ _ _ _ | control _ _ =>
      exact .inr ⟨live, fun _ has => has.congr (fun _ => rfl) rfl⟩

/-- Every disk was brought by a call of the run, and has the partitions that it came with.
Witness: induction on the run.
-/
theorem Run.exists_brings (run : (empty hook).Run history tree) (room : tree.Addressable)
    (live : tree.device? disk = some (.disk driver))
    : ∃ moment ∈ history, ∃ parts,
        moment.Brings driver disk parts ∧ tree.HasParts disk parts := by
  induction run with
  | rest => simp [DeviceTree.device?] at live
  | next run call respond ih =>
      have roomBefore := Moment.room_before ⟨_, call, respond⟩ room
      rcases Moment.brings_or_keeps _ (run.sound roomBefore).formed room live with
        ⟨parts, brings, has⟩ | ⟨was, keeps⟩
      · exact ⟨_, List.mem_cons_self .., parts, brings, has⟩
      · obtain ⟨moment, member, parts, brings, has⟩ := ih roomBefore was
        exact ⟨moment, List.mem_cons_of_mem _ member, parts, brings, keeps parts has⟩

-----------------------------------------------------------------------------------------
-- What goes and what stays
-----------------------------------------------------------------------------------------

/-- What removing a disk comes to. -/
structure Removes (tree : DeviceTree δ η) (disk : DeviceId)
    (outcome : Outcome δ η (Except Error Unit)) : Prop where
  result : outcome.result = .ok ()
  /-- The partitions and the disk go, each of them live before and refused after. -/
  distinct : (tree.partitionsOf disk ++ [disk]).Nodup
  gone
    : ∀ id ∈ tree.partitionsOf disk ++ [disk],
        tree.contains id = true ∧ outcome.tree.contains id = false
  /-- All other names stand for the devices they stood for before, as these were. -/
  others
    : ∀ id ∉ tree.partitionsOf disk ++ [disk],
        outcome.tree.node? id = tree.node? id ∧ outcome.tree.info id = tree.info id
  /-- The devices that stay keep their order. -/
  devices
    : outcome.tree.devices = tree.devices.filter (· ∉ tree.partitionsOf disk ++ [disk])
  /-- The hook is told of each device that goes, of the disk last. -/
  events
    : outcome.events
      = tree.tell ((tree.partitionsOf disk).map .unregistered ++ [.unregistered disk])
  hook : outcome.tree.hook = tree.hook

/-- Witness: the devices that go are the disk's family, which the removals drop one after
another.
-/
theorem WellFormed.removes (formed : tree.WellFormed)
    (live : tree.device? disk = some (.disk driver))
    : tree.Removes disk (tree.unregister disk) := by
  obtain ⟨distinct, alive⟩ := formed.family_live live
  rcases tree.unregister_cases disk with ⟨error, refused⟩ | ⟨_, _, removed⟩
  · obtain ⟨node, found, isDisk⟩ := device?_eq_some_iff.mp live
    simp [unregister, found, isDisk, Device.parent?] at refused
  · have drops := drops_foldl_remove tree (tree.family disk)
    rw [formed.family_eq live] at distinct alive removed drops
    rw [removed]
    exact {
      result := rfl
      distinct
      gone := fun id member => by
        obtain ⟨_, node, found⟩ := alive id member
        have none := (drops.node? id).trans (if_pos member)
        exact ⟨by simp [contains, found], by simp only [contains, none, Option.isSome_none]⟩
      others := fun id stays => by
        have same := (drops.node? id).trans (if_neg stays)
        exact ⟨same, by simp only [info, query, same]⟩
      devices := drops.order
      events := by simp
      hook := drops.hook
    }

/-- Unregistering removes whole disks, and nothing else, as long as every slot has a number
that fits into a name. A name without a device and a partition are refused, and then nothing
changes and nobody is told. A disk takes along the partitions that it came with, in the order
in which they were announced then, and no driver is asked. Witness: `WellFormed.removes` and
`Run.exists_brings`.
-/
theorem unregister_removes_whole_disks (run : (empty hook).Run history tree)
    (room : tree.Addressable) (id : DeviceId)
    : let outcome := tree.unregister id
      (tree.contains id = false → outcome = ⟨.error .noDevice, tree, [], []⟩)
      ∧ (∀ range disk,
          tree.device? id = some (.partition range disk)
          → outcome = ⟨.error .invalidArgument, tree, [], []⟩)
      ∧ (∀ driver,
          tree.device? id = some (.disk driver)
          → tree.Removes id outcome
            ∧ ∃ moment ∈ history, ∃ parts,
                moment.Brings driver id parts
                ∧ tree.partitionsOf id = parts.map (·.1)
                ∧ ∀ part ∈ parts, tree.device? part.1 = some (.partition part.2 id))
      ∧ ∀ respond, (Moment.mk tree (.unregister id) respond).asked = none := by
  intro outcome
  refine ⟨fun absent => ?_, fun range disk found => ?_, fun driver live => ?_, fun _ => rfl⟩
  · exact (refuses_of_not_contains absent).unregister
  · obtain ⟨node, live, isPartition⟩ := device?_eq_some_iff.mp found
    simp [outcome, unregister, live, isPartition, Device.parent?]
  · obtain ⟨moment, member, parts, brings, has⟩ := run.exists_brings room live
    exact ⟨(run.sound room).formed.removes live, moment, member, parts, brings, has.partitionsOf,
      has.device?⟩

/-- Two disks have gone, and two that have come since have their partitions in the slots of
both and beyond them. The first of these goes with its own three partitions; a stale name and
a partition of the other disk are refused.
-/
theorem unregister_removes_whole_disks_of_reused_slots
    : let small := bootSector [⟨0x80, 0x83, 64, 8⟩, ⟨0, 0x0C, 128, 8⟩]
      let large := bootSector
        [⟨0x80, 0x83, 64, 8⟩, ⟨0, 0x0C, 128, 8⟩, ⟨1, 0x83, 256, 8⟩, ⟨0x80, 0x83, 512, 8⟩]
      let calls : List (Call Buffer String) := [
        .register small, .register small, .unregister ⟨0, 0⟩, .register large,
        .unregister ⟨2, 0⟩, .register large
      ]
      let tree := ((empty (some "log")).play DiskResponder.ofSector calls).2
      let outcome := tree.unregister ⟨0, 1⟩
      tree.devices = [⟨0, 1⟩, ⟨1, 1⟩, ⟨4, 0⟩, ⟨5, 0⟩, ⟨2, 1⟩, ⟨3, 1⟩, ⟨6, 0⟩, ⟨7, 0⟩]
      ∧ tree.partitionsOf ⟨0, 1⟩ = [⟨1, 1⟩, ⟨4, 0⟩, ⟨5, 0⟩]
      ∧ tree.Removes ⟨0, 1⟩ outcome
      ∧ outcome.tree.devices = [⟨2, 1⟩, ⟨3, 1⟩, ⟨6, 0⟩, ⟨7, 0⟩]
      ∧ outcome.events
        = [("log", .unregistered ⟨1, 1⟩), ("log", .unregistered ⟨4, 0⟩),
            ("log", .unregistered ⟨5, 0⟩), ("log", .unregistered ⟨0, 1⟩)]
      ∧ tree.unregister ⟨0, 0⟩ = ⟨.error .noDevice, tree, [], []⟩
      ∧ tree.unregister ⟨3, 1⟩ = ⟨.error .invalidArgument, tree, [], []⟩ := by
  intro small large calls tree outcome
  have run := run_play DiskResponder.ofSector (empty (some "log")) calls
  have room : tree.Addressable := by decide +kernel
  obtain ⟨_, _, removes, _⟩ := unregister_removes_whole_disks run room ⟨0, 1⟩
  obtain ⟨stale, _⟩ := unregister_removes_whole_disks run room ⟨0, 0⟩
  obtain ⟨_, partition, _⟩ := unregister_removes_whole_disks run room ⟨3, 1⟩
  have lies : (tree.device? ⟨3, 1⟩).bind (·.parent?) = some ⟨2, 1⟩ := by decide +kernel
  obtain ⟨range, found⟩ := bind_parent?_eq_some_iff.mp lies
  have live : tree.contains ⟨0, 1⟩ = true := by decide +kernel
  have root : (tree.device? ⟨0, 1⟩).bind (·.parent?) = none := by decide +kernel
  obtain ⟨device, isDevice⟩ := contains_iff.mp live
  cases device with
  | disk driver =>
      exact ⟨by decide +kernel, by decide +kernel, (removes driver isDevice).1,
        by decide +kernel, by decide +kernel, stale (by decide +kernel),
        partition range ⟨2, 1⟩ found⟩
  | partition _ _ => simp [isDevice, Device.parent?] at root

theorem partitionsOf_crowd (driver : δ) (count : Nat) (disk : DeviceId)
    : (crowd hook driver count).partitionsOf disk = [] := by
  refine List.eq_nil_iff_forall_not_mem.mpr fun id member => ?_
  obtain ⟨_, range, found⟩ := mem_partitionsOf_iff.mp member
  rw [device?_crowd] at found
  split at found
  · cases Option.some.inj found
  · contradiction

/-- When the last disk of a crowd has the name of the first one, both leave the order of
registration together. Witness: without the last disk no name is listed twice.
-/
theorem unregister_crowd (driver : δ) {count : Nat} (wraps : UInt32.ofNat count = 0)
    (positive : 0 < count) (few : count ≤ UInt32.size)
    : let tree := crowd hook driver (count + 1)
      let outcome := tree.unregister ⟨0, 0⟩
      tree.partitionsOf ⟨0, 0⟩ = []
      ∧ outcome.result = .ok ()
      ∧ tree.devices.length = outcome.tree.devices.length + 2 := by
  intro tree outcome
  have bare : tree.partitionsOf ⟨0, 0⟩ = [] := partitionsOf_crowd ..
  have live : tree.device? ⟨0, 0⟩ = some (.disk driver) :=
    (device?_crowd ..).trans (if_pos ⟨Nat.succ_pos count, rfl⟩)
  obtain ⟨_, run⟩ := exists_run_crowd hook driver (count + 1)
  have family : tree.family ⟨0, 0⟩ = [⟨0, 0⟩] := by
    rw [run.reached.rooted.family_eq live, bare, List.nil_append]
  obtain ⟨_, earlier⟩ := exists_run_crowd hook driver count
  have formed := (earlier.sound (by simpa [Addressable, crowd] using few)).formed
  have listed : (⟨0, 0⟩ : DeviceId) ∈ (crowd hook driver count).order :=
    formed.listed ((device?_crowd ..).trans (if_pos ⟨positive, rfl⟩))
  have order : tree.order = (crowd hook driver count).order ++ [⟨0, 0⟩] := by
    rw [order_crowd_succ, wraps]
  rcases tree.unregister_cases ⟨0, 0⟩ with ⟨error, refused⟩ | ⟨_, _, removed⟩
  · obtain ⟨node, found, isDevice⟩ := device?_eq_some_iff.mp live
    simp [unregister, found, isDevice, Device.parent?] at refused
  · refine ⟨bare, by simp only [outcome, removed], ?_⟩
    have left
        : outcome.tree.devices = (crowd hook driver count).order.erase ⟨0, 0⟩ := by
      have drops := (drops_foldl_remove tree (tree.family ⟨0, 0⟩)).order
      simp only [outcome, removed, devices, drops]
      simp [family, order, formed.nodup.erase_eq_filter, bne, beq_eq_decide]
    have some := List.length_pos_of_mem listed
    rw [left, List.length_erase_of_mem listed, devices, order, List.length_append,
      List.length_singleton]
    omega

/-- When one disk more than `2 ^ 32` has been registered, none of which has a partition,
removing the first one takes two devices off the list.
-/
theorem unregister_forgets_two_disks
    : let calls : List (Call String Unit) :=
        List.replicate (UInt32.size + 1) (.register "disk")
      let tree := ((empty none).play (fun _ => .unsupported) calls).2
      let outcome := tree.unregister ⟨0, 0⟩
      tree.partitionsOf ⟨0, 0⟩ = []
      ∧ outcome.result = .ok ()
      ∧ tree.devices.length = outcome.tree.devices.length + 2 := by
  intro calls tree
  have crowded : tree = crowd none "disk" (UInt32.size + 1) := play_empty ..
  -- from here on only the crowd matters, and the registrations are not to be carried out
  clear_value tree
  subst crowded
  exact unregister_crowd "disk" rfl (by decide) (Nat.le_refl _)

end StorageSwitch.Block.DeviceTree
