import StorageSwitch.Proofs.Block.Alignment
import StorageSwitch.Proofs.Block.BootSector
import StorageSwitch.Proofs.Block.Crowds

/-! What registering a disk does: one call of its driver, then the disk and the partitions
that its first sector lists, in the order of the table, whichever slots they move into.
-/

namespace StorageSwitch.Block.DeviceTree

variable {δ η : Type} {tree grown after : DeviceTree δ η} {id disk : DeviceId}
  {range : Partition} {node : Node δ} {parts : List (DeviceId × Partition)}

-----------------------------------------------------------------------------------------
-- Adding partitions
-----------------------------------------------------------------------------------------

/-- `grown` is `tree` with new partitions of a disk, named in the order in which they were
added. The disk counts them, and no other device is touched.
-/
structure AddsPartitions (tree : DeviceTree δ η) (disk : DeviceId)
    (parts : List (DeviceId × Partition)) (grown : DeviceTree δ η) : Prop where
  fresh : ∀ part ∈ parts, tree.node? part.1 = none
  distinct : (parts.map (·.1)).Nodup
  partition
    : ∀ part ∈ parts, grown.node? part.1 = some ⟨.partition part.2 disk, 0⟩
  counts
    : grown.node? disk
      = (tree.node? disk).map fun node =>
          { node with children := node.children + parts.length }
  others
    : ∀ other,
        other ≠ disk → other ∉ parts.map (·.1) → grown.node? other = tree.node? other
  order : grown.order = tree.order ++ parts.map (·.1)
  hook : grown.hook = tree.hook

theorem addsPartitions_nil (tree : DeviceTree δ η) (disk : DeviceId)
    : tree.AddsPartitions disk [] tree where
  fresh := by simp
  distinct := List.nodup_nil
  partition := by simp
  counts := by simp
  others := by simp
  order := by simp
  hook := rfl

/-- One partition, and then more. -/
theorem AddsPartitions.cons (live : tree.node? disk = some node)
    (first : tree.Adds id (.partition range disk) grown)
    (rest : grown.AddsPartitions disk parts after)
    : tree.AddsPartitions disk ((id, range) :: parts) after := by
  have apart : disk ≠ id := by
    intro same
    rw [same, first.fresh] at live
    contradiction
  have added : grown.node? id = some ⟨.partition range disk, 0⟩ := by simp [first.node?]
  have later : id ∉ parts.map (·.1) := by
    intro member
    obtain ⟨part, inParts, rfl⟩ := List.mem_map.mp member
    rw [rest.fresh part inParts] at added
    contradiction
  refine {
    fresh := ?fresh
    distinct := List.nodup_cons.mpr ⟨later, rest.distinct⟩
    partition := ?partition
    counts := ?counts
    others := ?others
    order := by simp [rest.order, first.order]
    hook := rest.hook.trans first.hook
  }
  case fresh =>
    intro part member
    rcases List.mem_cons.mp member with rfl | inParts
    · exact first.fresh
    · have unused := rest.fresh part inParts
      rw [first.node?] at unused
      split at unused
      · contradiction
      · split at unused
        · simpa using unused
        · exact unused
  case partition =>
    intro part member
    rcases List.mem_cons.mp member with rfl | inParts
    · rw [rest.others id apart.symm later, added]
    · exact rest.partition part inParts
  case counts =>
    rw [rest.counts, first.node?, if_neg apart, live]
    simp [Device.parent?, Nat.add_comm, Nat.add_left_comm]
  case others =>
    intro other notDisk absent
    simp only [List.map_cons, List.mem_cons, not_or] at absent
    rw [rest.others other notDisk absent.2, first.node?, if_neg absent.1]
    simp [Device.parent?, notDisk.symm]

-----------------------------------------------------------------------------------------
-- What the hook is told
-----------------------------------------------------------------------------------------

theorem tell_nil : tree.tell [] = [] := by
  unfold tell
  split <;> rfl

theorem tell_append (first second : List HookEvent)
    : tree.tell (first ++ second) = tree.tell first ++ tree.tell second := by
  unfold tell
  split
  · rfl
  · exact List.map_append

theorem tell_congr (same : grown.hook = tree.hook) (events : List HookEvent)
    : grown.tell events = tree.tell events := by
  rw [tell, same, tell]

/-- What the hook is told of a live device. -/
theorem announce_of_node? (found : tree.node? id = some node)
    : tree.announce id
      = tree.tell
          [.registered ⟨id, node.device.parent?, node.device.partition?, node.children⟩] := by
  simp [announce, info, query, found]

/-- What the hook is told of a partition of a disk. -/
def partitionEvent (disk : DeviceId) (part : DeviceId × Partition) : HookEvent :=
  .registered ⟨part.1, some disk, some part.2, 0⟩

/-- Adding partitions for some records adds one for each, and announces each when it has
been added. Witness: induction on the records; none is refused, since the disk stays live.
-/
theorem addPartitions_adds (live : tree.node? disk = some node)
    {records : List (Nat × PartitionRecord)}
    (room : (tree.addPartitions disk records).tree.Addressable)
    : ∃ parts : List (DeviceId × Partition),
        parts.map (·.2) = records.map (·.2.partition)
        ∧ tree.AddsPartitions disk parts (tree.addPartitions disk records).tree
        ∧ (tree.addPartitions disk records).events
          = tree.tell (parts.map (partitionEvent disk))
        ∧ ∀ index slot error,
            Notice.partitionRefused index slot error
              ∉ (tree.addPartitions disk records).notices := by
  induction records generalizing tree node with
  | nil =>
      exact ⟨[], rfl, addsPartitions_nil tree disk, tell_nil.symm, by simp [addPartitions]⟩
  | cons record rest ih =>
      obtain ⟨id, grown, accepted⟩ := exists_addPartition live record.2.partition
      have roomAfter : (grown.addPartitions disk rest).tree.Addressable := by
        simpa only [addPartitions, accepted] using room
      have adds := addPartition_adds accepted (roomAfter.of_le (size_le_addPartitions ..))
      have apart : disk ≠ id := by
        intro same
        rw [same, adds.fresh] at live
        contradiction
      have stays : grown.node? disk = some { node with children := node.children + 1 } := by
        simp [adds.node?, apart, live, Device.parent?]
      have new : grown.node? id = some ⟨.partition record.2.partition disk, 0⟩ := by
        simp [adds.node?]
      obtain ⟨parts, ranges, addsRest, events, accepts⟩ := ih stays roomAfter
      refine ⟨(id, record.2.partition) :: parts, by simp [ranges], ?_, ?_, ?_⟩
      · simpa [addPartitions, accepted] using addsRest.cons live adds
      · simp only [addPartitions, accepted]
        rw [events, announce_of_node? new, ← tell_append]
        exact tell_congr adds.hook _
      · simpa [addPartitions, accepted] using accepts

-----------------------------------------------------------------------------------------
-- Registering a disk
-----------------------------------------------------------------------------------------

/-- Adding what a disk lists adds one partition for each listed range, in the order of the
table.
-/
theorem addListed_adds (live : tree.node? disk = some node)
    {reply : Except Error Unit × Buffer} (room : (tree.addListed disk reply).tree.Addressable)
    : ∃ parts : List (DeviceId × Partition),
        parts.map (·.2) = rangesListedBy reply
        ∧ tree.AddsPartitions disk parts (tree.addListed disk reply).tree
        ∧ (tree.addListed disk reply).events = tree.tell (parts.map (partitionEvent disk))
        ∧ ∀ index slot error,
            Notice.partitionRefused index slot error ∉ (tree.addListed disk reply).notices := by
  obtain ⟨result, image⟩ := reply
  cases result with
  | error error =>
      exact ⟨[], rfl, addsPartitions_nil tree disk, tell_nil.symm, by simp [addListed]⟩
  | ok _ =>
      cases parsed : BootRecord.parse? image with
      | none =>
          have unsigned : ¬Signed image := by simp [← parse?_isSome_iff, parsed]
          refine ⟨[], by simp [rangesListedBy, unsigned], ?_, ?_, ?_⟩
          · simpa [addListed, parsed] using addsPartitions_nil tree disk
          · simpa [addListed, parsed] using tell_nil.symm
          · simp [addListed, parsed]
      | some record =>
          have signed : Signed image := by simp [← parse?_isSome_iff, parsed]
          have roomAfter : (tree.addPartitions disk record.occupied).tree.Addressable := by
            simpa only [addListed, parsed] using room
          obtain ⟨parts, ranges, adds, events, accepts⟩ := addPartitions_adds live roomAfter
          refine ⟨parts, ?_, ?_, ?_, ?_⟩
          · rw [ranges, partitions_of_parse? parsed, rangesListedBy, if_pos signed]
          · simpa [addListed, parsed] using adds
          · simpa [addListed, parsed] using events
          · simpa [addListed, parsed] using accepts

/-- What registering a disk comes to, where `parts` are its partitions in the order of the
table with the names they get.
-/
structure Registers (tree : DeviceTree δ η) (driver : δ)
    (parts : List (DeviceId × Partition)) (outcome : Outcome δ η DeviceId) : Prop where
  /-- The disk and then its partitions follow the older devices. -/
  devices
    : outcome.tree.devices = tree.devices ++ outcome.result :: parts.map (·.1)
  /-- No name is live already or given out twice. -/
  fresh : ∀ id ∈ outcome.result :: parts.map (·.1), tree.contains id = false
  distinct : (outcome.result :: parts.map (·.1)).Nodup
  /-- The disk counts its partitions, and each of them lies on it. -/
  disk : outcome.tree.node? outcome.result = some ⟨.disk driver, parts.length⟩
  partitions
    : ∀ part ∈ parts,
        outcome.tree.node? part.1 = some ⟨.partition part.2 outcome.result, 0⟩
  /-- All other names stand for the devices they stood for before, as these were. -/
  others
    : ∀ id ∉ outcome.result :: parts.map (·.1), outcome.tree.node? id = tree.node? id
  /-- The hook is told of each partition when the disk has been found to list it, and of
  the disk last, with the number of its partitions.
  -/
  events
    : outcome.events
      = tree.tell
          (parts.map (fun part => .registered ⟨part.1, some outcome.result, some part.2, 0⟩)
            ++ [.registered ⟨outcome.result, none, none, parts.length⟩])
  /-- No partition is refused. -/
  accepts
    : ∀ index slot error, Notice.partitionRefused index slot error ∉ outcome.notices

/-- A registration in any tree whose slots all have numbers that fit into names. Witness: the
disk is new and goes in first, and adding a partition touches nothing but the count of the
disk.
-/
theorem register_registers {driver : δ} {respond : δ → DiskResponder}
    (room : ((tree.register driver).run respond).tree.Addressable)
    : ∃ parts : List (DeviceId × Partition),
        parts.map (·.2)
          = rangesListedBy (respond driver (.read (Array.replicate sectorSize 0) 0 1))
        ∧ tree.Registers driver parts ((tree.register driver).run respond) := by
  have inserted := room.of_le (size_le_register tree driver respond)
  have first := adds_disk inserted
  let disk := (tree.insert ⟨.disk driver, 0⟩).1
  let grown := (tree.insert ⟨.disk driver, 0⟩).2
  have live : grown.node? disk = some ⟨.disk driver, 0⟩ := by simp [grown, disk, first.node?]
  generalize listing
    : grown.addListed disk (respond driver (.read (Array.replicate sectorSize 0) 0 1))
      = listed
  have outcome
      : (tree.register driver).run respond
        = ⟨disk, listed.tree, listed.events ++ listed.tree.announce disk,
            .registering disk.slot :: listed.notices
              ++ [.partitionsAdded disk.slot listed.result]⟩ := by
    rw [register_eq inserted, ← listing]
    rfl
  rw [outcome, ← listing] at room
  obtain ⟨parts, ranges, adds, events, accepts⟩ := addListed_adds live room
  rw [listing] at adds events accepts
  have counted : listed.tree.node? disk = some ⟨.disk driver, parts.length⟩ := by
    simp [adds.counts, live]
  have untouched {other : DeviceId} (apart : other ≠ disk)
      : grown.node? other = tree.node? other := by
    simp [grown, first.node?, apart, disk, Device.parent?]
  have apart {part : DeviceId × Partition} (member : part ∈ parts) : part.1 ≠ disk := by
    intro same
    have unused := adds.fresh part member
    rw [same, live] at unused
    contradiction
  refine ⟨parts, ranges, ?_⟩
  rw [outcome]
  refine {
    devices := by simp [devices, adds.order, grown, disk]
    fresh := ?fresh
    distinct := ?distinct
    disk := counted
    partitions := adds.partition
    others := ?others
    events := ?events
    accepts := by simpa using accepts
  }
  case fresh =>
    intro id member
    rcases List.mem_cons.mp member with rfl | isPart
    · simp [contains, disk, first.fresh]
    · obtain ⟨part, inParts, rfl⟩ := List.mem_map.mp isPart
      simp [contains, ← untouched (apart inParts), adds.fresh part inParts]
  case distinct =>
    refine List.nodup_cons.mpr ⟨fun member => ?_, adds.distinct⟩
    obtain ⟨part, inParts, same⟩ := List.mem_map.mp member
    exact apart inParts same
  case others =>
    intro id absent
    obtain ⟨notDisk, notPart⟩ := List.ne_and_not_mem_of_not_mem_cons absent
    exact (adds.others id notDisk notPart).trans (untouched notDisk)
  case events =>
    have told (events : List HookEvent) : listed.tree.tell events = tree.tell events :=
      tell_congr (adds.hook.trans first.hook) events
    dsimp only
    rw [tell_append, events, announce_of_node? counted, told]
    exact congrArg (· ++ _) (tell_congr first.hook _)

end StorageSwitch.Block.DeviceTree
