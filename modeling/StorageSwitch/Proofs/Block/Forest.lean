import StorageSwitch.Proofs.Block.Slots

/-! The devices of a tree form a forest of depth one: disks, and partitions that lie on
disks registered before them. So a walk from a device to the one it lies on ends after at
most one step, no operation runs out of steps, and a disk takes along exactly its own
partitions when it goes.
-/

namespace StorageSwitch.Block.DeviceTree

variable {δ η : Type} {tree grown left : DeviceTree δ η} {id other disk : DeviceId}
  {device : Device δ} {range : Partition} {gone : List DeviceId}

/-- The live devices are in the order of registration, and a partition lies on a live disk.
This much holds of trees of any size.
-/
structure Rooted (tree : DeviceTree δ η) : Prop where
  listed : ∀ {id device}, tree.device? id = some device → id ∈ tree.order
  rooted
    : ∀ {id range disk},
        tree.device? id = some (.partition range disk)
        → ∃ driver, tree.device? disk = some (.disk driver)

/-- The live devices are those in the order of registration, each once, and a partition
lies on a live disk that comes before it.
-/
structure WellFormed (tree : DeviceTree δ η) : Prop extends Rooted tree where
  nodup : tree.order.Nodup
  live_of_mem : ∀ {id}, id ∈ tree.order → ∃ device, tree.device? id = some device
  earlier
    : ∀ {id range disk},
        tree.device? id = some (.partition range disk) → [disk, id].Sublist tree.order

theorem WellFormed.mem_order_iff (formed : tree.WellFormed) (id : DeviceId)
    : id ∈ tree.order ↔ ∃ device, tree.device? id = some device :=
  ⟨formed.live_of_mem, fun ⟨_, live⟩ => formed.listed live⟩

-----------------------------------------------------------------------------------------
-- What keeps partitions on disks
-----------------------------------------------------------------------------------------

theorem rooted_empty (hook : Option η) : (empty hook : DeviceTree δ η).Rooted where
  listed := by simp [device?]
  rooted := by simp [device?]

/-- Only what the devices are and their order matter, not what they count. -/
theorem Rooted.congr {after : DeviceTree δ η} (rooted : tree.Rooted)
    (devices : ∀ id, after.device? id = tree.device? id) (order : after.order = tree.order)
    : after.Rooted where
  listed := fun live => order ▸ rooted.listed (devices _ ▸ live)
  rooted := fun found => by
    rw [devices] at found
    simpa only [devices] using rooted.rooted found

/-- A new device may be a disk or lie on a live one. -/
theorem Rooted.gains (rooted : tree.Rooted) (gains : tree.Gains id device grown)
    (lies
      : ∀ disk,
          device.parent? = some disk → ∃ driver, tree.device? disk = some (.disk driver))
    : grown.Rooted where
  listed {name _} live := by
    rw [gains.order, List.mem_append, List.mem_singleton]
    rcases gains.cases live with before | ⟨new, _⟩
    · exact .inl (rooted.listed before)
    · exact .inr new
  rooted {name range disk} found := by
    have root : ∃ driver, tree.device? disk = some (.disk driver) := by
      rcases gains.cases found with before | ⟨_, rfl⟩
      · exact rooted.rooted before
      · exact lies disk rfl
    obtain ⟨driver, live⟩ := root
    exact ⟨driver, gains.kept live⟩

/-- Devices may go if each partition goes together with its disk. -/
theorem Rooted.drops (rooted : tree.Rooted) (drops : tree.Drops gone left)
    (together
      : ∀ {id range disk},
          tree.device? id = some (.partition range disk) → (id ∈ gone ↔ disk ∈ gone))
    : left.Rooted := by
  have stays {name : DeviceId} {what : Device δ} (live : left.device? name = some what)
      : name ∉ gone ∧ tree.device? name = some what := by
    rw [drops.device?] at live
    split at live
    · contradiction
    · rename_i here
      exact ⟨here, live⟩
  refine { listed := fun live => ?listed, rooted := fun found => ?rooted }
  case listed =>
    obtain ⟨here, was⟩ := stays live
    rw [drops.order]
    exact List.mem_filter.mpr ⟨rooted.listed was, by simpa using here⟩
  case rooted =>
    obtain ⟨here, was⟩ := stays found
    obtain ⟨driver, live⟩ := rooted.rooted was
    have diskStays := fun away => here ((together was).mpr away)
    exact ⟨driver, by rw [drops.device?, if_neg diskStays, live]⟩

-----------------------------------------------------------------------------------------
-- What keeps the devices a forest
-----------------------------------------------------------------------------------------

theorem wellFormed_empty (hook : Option η) : (empty hook : DeviceTree δ η).WellFormed where
  toRooted := rooted_empty hook
  nodup := List.nodup_nil
  live_of_mem := by simp [empty]
  earlier := by simp [device?]

theorem WellFormed.congr {after : DeviceTree δ η} (formed : tree.WellFormed)
    (devices : ∀ id, after.device? id = tree.device? id) (order : after.order = tree.order)
    : after.WellFormed where
  toRooted := formed.toRooted.congr devices order
  nodup := order ▸ formed.nodup
  live_of_mem := fun inOrder => by
    rw [devices]
    exact formed.live_of_mem (order ▸ inOrder)
  earlier := fun found => order ▸ formed.earlier (devices _ ▸ found)

/-- A device with a name of its own may be a disk or lie on a live one. -/
theorem WellFormed.adds (formed : tree.WellFormed) (adds : tree.Adds id device grown)
    (lies
      : ∀ disk,
          device.parent? = some disk → ∃ driver, tree.device? disk = some (.disk driver))
    : grown.WellFormed := by
  have absent : id ∉ tree.order := by
    rw [formed.mem_order_iff]
    simp [device?, adds.fresh]
  refine {
    toRooted := formed.toRooted.gains adds.gains lies
    nodup := ?nodup
    live_of_mem := fun {name} inOrder => ?live
    earlier := fun {name range disk} found => ?earlier
  }
  case nodup =>
    rw [adds.order, List.nodup_append]
    refine ⟨formed.nodup, by simp, fun old inOrder new isNew => ?_⟩
    rw [List.mem_singleton.mp isNew]
    exact fun same => absent (same ▸ inOrder)
  case live =>
    rw [adds.order, List.mem_append, formed.mem_order_iff] at inOrder
    rw [adds.device?]
    by_cases same : name = id
    · simp [same]
    · simpa [same] using inOrder
  case earlier =>
    rw [adds.order]
    rcases adds.gains.cases found with before | ⟨rfl, new⟩
    · exact (formed.earlier before).trans (List.sublist_append_left ..)
    · obtain ⟨driver, live⟩ := lies disk (by rw [← new]; rfl)
      exact (List.singleton_sublist.mpr (formed.listed live)).append (.refl [name])

theorem WellFormed.drops (formed : tree.WellFormed) (drops : tree.Drops gone left)
    (together
      : ∀ {id range disk},
          tree.device? id = some (.partition range disk) → (id ∈ gone ↔ disk ∈ gone))
    : left.WellFormed := by
  refine {
    toRooted := formed.toRooted.drops drops together
    nodup := ?nodup
    live_of_mem := fun {name} inOrder => ?live
    earlier := fun {name range disk} found => ?earlier
  }
  case nodup =>
    rw [drops.order]
    exact formed.nodup.filter _
  case live =>
    rw [drops.order, List.mem_filter] at inOrder
    have here : name ∉ gone := by simpa using inOrder.2
    rw [drops.device?, if_neg here]
    exact formed.live_of_mem inOrder.1
  case earlier =>
    rw [drops.device?] at found
    split at found
    · contradiction
    · rename_i stays
      have diskStays : disk ∉ gone := fun away => stays ((together found).mpr away)
      rw [drops.order]
      simpa [stays, diskStays] using (formed.earlier found).filter (· ∉ gone)

-----------------------------------------------------------------------------------------
-- Walks
-----------------------------------------------------------------------------------------

/-- The walk from a device to the one it lies on, and on from there until a device lies on
none: the devices that it meets.
-/
inductive Walk (tree : DeviceTree δ η) : DeviceId → List DeviceId → Prop
  | ends {id : DeviceId} (root : (tree.device? id).bind (·.parent?) = none) : Walk tree id []
  | step {id parent : DeviceId} {met : List DeviceId}
    (lies : (tree.device? id).bind (·.parent?) = some parent)
    (rest : Walk tree parent met)
    : Walk tree id (parent :: met)

/-- A walk with as many steps as it needs meets what the walk without a limit meets.
Witness: induction on the walk.
-/
theorem Walk.liesOn_eq {met : List DeviceId} {steps : Nat} (walk : tree.Walk id met)
    (enough : met.length ≤ steps) (ancestor : DeviceId)
    : tree.liesOn ancestor steps id = decide (ancestor ∈ met) := by
  induction walk generalizing steps with
  | ends root =>
      cases steps with
      | zero => simp [liesOn]
      | succ steps => simp [liesOn, root]
  | @step id parent met lies _ ih =>
      cases steps with
      | zero => simp at enough
      | succ steps =>
          simp only [liesOn, lies, ih (by simpa using enough), List.mem_cons]
          by_cases here : parent = ancestor
          · simp [here]
          · simp [here, Ne.symm here]

theorem bind_parent?_eq_some_iff
    : (tree.device? id).bind (·.parent?) = some disk
      ↔ ∃ range, tree.device? id = some (.partition range disk) := by
  cases tree.device? id with
  | none => simp
  | some device =>
      cases device with
      | disk _ => simp [Device.parent?]
      | partition _ _ => simp [Device.parent?]

/-- A walk meets at most one device: the disk of a partition. -/
theorem Rooted.walk (rooted : tree.Rooted) (id : DeviceId)
    : tree.Walk id ((tree.device? id).bind (·.parent?)).toList := by
  cases lies : (tree.device? id).bind (·.parent?) with
  | none => exact .ends lies
  | some disk =>
      obtain ⟨range, found⟩ := bind_parent?_eq_some_iff.mp lies
      obtain ⟨driver, live⟩ := rooted.rooted found
      exact .step lies (.ends (by simp [live, Device.parent?]))

theorem exists_size_of_live (live : tree.device? id = some device)
    : ∃ spare, tree.slots.size = spare + 1 := by
  obtain ⟨node, found, _⟩ := device?_eq_some_iff.mp live
  have within := slot_lt found
  exact ⟨tree.slots.size - 1, by omega⟩

/-- A partition and its disk have a slot each. -/
theorem Rooted.exists_size_of_partition (rooted : tree.Rooted)
    (found : tree.device? id = some (.partition range disk))
    : ∃ spare, tree.slots.size = spare + 2 := by
  obtain ⟨driver, live⟩ := rooted.rooted found
  have apart : id ≠ disk := by
    rintro rfl
    simp [found] at live
  obtain ⟨mine, myNode, _⟩ := device?_eq_some_iff.mp found
  obtain ⟨yours, yourNode, _⟩ := device?_eq_some_iff.mp live
  have slots : id.slot ≠ disk.slot := fun same =>
    apart (eq_of_live myNode yourNode same)
  have within := slot_lt myNode
  have within' := slot_lt yourNode
  exact ⟨tree.slots.size - 2, by omega⟩

/-- No walk is cut short. -/
theorem Rooted.liesOn_eq (rooted : tree.Rooted) (ancestor id : DeviceId)
    : tree.liesOn ancestor tree.slots.size id
      = decide ((tree.device? id).bind (·.parent?) = some ancestor) := by
  have walk := rooted.walk id
  cases lies : (tree.device? id).bind (·.parent?) with
  | none =>
      rw [lies] at walk
      simp [walk.liesOn_eq (Nat.zero_le _)]
  | some disk =>
      obtain ⟨range, found⟩ := bind_parent?_eq_some_iff.mp lies
      obtain ⟨spare, size⟩ := exists_size_of_live found
      rw [lies] at walk
      rw [walk.liesOn_eq (by simp [size])]
      simp [eq_comm]

/-- What goes with a disk are its own partitions. -/
theorem Rooted.family_eq (rooted : tree.Rooted) {driver : δ}
    (live : tree.device? disk = some (.disk driver))
    : tree.family disk = tree.partitionsOf disk ++ [disk] := by
  unfold family partitionsOf
  congr 1
  refine List.filter_congr fun device _ => ?_
  rw [rooted.liesOn_eq]
  by_cases same : device = disk
  · simp [same, live, Device.parent?]
  · simp [same]

theorem mem_partitionsOf_iff
    : id ∈ tree.partitionsOf disk
      ↔ id ∈ tree.order ∧ ∃ range, tree.device? id = some (.partition range disk) := by
  simp [partitionsOf, bind_parent?_eq_some_iff]

/-- A partition goes with a disk exactly if the disk that it lies on does. -/
theorem Rooted.mem_family_iff (rooted : tree.Rooted) {driver : δ}
    (live : tree.device? disk = some (.disk driver)) {parent : DeviceId}
    (found : tree.device? id = some (.partition range parent))
    : id ∈ tree.family disk ↔ parent ∈ tree.family disk := by
  obtain ⟨root, parentLive⟩ := rooted.rooted found
  have inOrder := rooted.listed found
  have notDisk : id ≠ disk := by
    intro same
    simp [← same, found] at live
  simp only [rooted.family_eq live, List.mem_append, List.mem_singleton,
    mem_partitionsOf_iff, parentLive, found, inOrder, notDisk]
  simp [eq_comm]

/-- Nothing lies on a name that stands for no disk. -/
theorem Rooted.partitionsOf_eq_nil (rooted : tree.Rooted)
    (noDisk : ∀ driver, tree.device? disk ≠ some (.disk driver))
    : tree.partitionsOf disk = [] := by
  refine List.eq_nil_iff_forall_not_mem.mpr fun id member => ?_
  obtain ⟨_, range, found⟩ := mem_partitionsOf_iff.mp member
  obtain ⟨driver, live⟩ := rooted.rooted found
  exact noDisk driver live

/-- A new device joins the partitions of the disk that it lies on, as the last one. -/
theorem WellFormed.partitionsOf_adds (formed : tree.WellFormed)
    (adds : tree.Adds id device grown)
    : grown.partitionsOf disk
      = tree.partitionsOf disk ++ if device.parent? = some disk then [id] else [] := by
  unfold partitionsOf
  rw [adds.order, List.filter_append]
  congr 1
  · refine List.filter_congr fun name inOrder => ?_
    have apart : name ≠ id := by
      rintro rfl
      obtain ⟨_, live⟩ := (formed.mem_order_iff name).mp inOrder
      simp [device?, adds.fresh] at live
    rw [adds.device?, if_neg apart]
  · by_cases lies : device.parent? = some disk
    · simp [adds.device?, lies]
    · simp [adds.device?, lies]

/-- A disk keeps its partitions if none of them goes. -/
theorem partitionsOf_drops (drops : tree.Drops gone left)
    (stay : ∀ id ∈ tree.partitionsOf disk, id ∉ gone)
    : left.partitionsOf disk = tree.partitionsOf disk := by
  unfold partitionsOf
  rw [drops.order, List.filter_filter]
  refine List.filter_congr fun name inOrder => ?_
  rw [drops.device?]
  by_cases away : name ∈ gone
  · have other : (tree.device? name).bind (·.parent?) ≠ some disk := fun lies =>
      stay name (mem_partitionsOf_iff.mpr ⟨inOrder, bind_parent?_eq_some_iff.mp lies⟩) away
    simp [away, other]
  · simp [away]

-----------------------------------------------------------------------------------------
-- Operations on devices
-----------------------------------------------------------------------------------------

section Disk

variable {driver : δ} (live : tree.device? id = some (.disk driver))

include live

theorem locate_of_disk (sector : UInt32)
    : tree.locate tree.slots.size id sector = .ok (driver, sector) := by
  obtain ⟨spare, size⟩ := exists_size_of_live live
  simp [size, locate, live]

theorem read_of_disk (buffer : Buffer) (start count : UInt32)
    : tree.read id buffer start count
      = .asks driver (.read buffer start count) fun reply => reply := by
  simp [read, locate_of_disk live]

theorem write_of_disk (data : Buffer) (start count : UInt32)
    : tree.write id data start count
      = .asks driver (.write data start count) fun reply => reply := by
  simp [write, locate_of_disk live]

theorem control_of_disk (command : Command)
    : tree.control id command = .asks driver (.control command) fun reply => reply := by
  obtain ⟨spare, size⟩ := exists_size_of_live live
  simp [control, size, controlWithin, live]

end Disk

section Partition

variable (rooted : tree.Rooted) (found : tree.device? id = some (.partition range disk))

include rooted found

theorem Rooted.locate_of_partition (sector : UInt32)
    : tree.locate tree.slots.size id sector
      = if range.start.toNat + sector.toNat < UInt32.size then
          tree.locate tree.slots.size disk (range.start + sector)
        else .error .invalidArgument := by
  obtain ⟨driver, live⟩ := rooted.rooted found
  obtain ⟨spare, size⟩ := rooted.exists_size_of_partition found
  rw [locate_of_disk live, size]
  by_cases fits : range.start.toNat + sector.toNat < UInt32.size
  · simp [locate, found, live, Partition.translate, fits]
  · simp [locate, found, Partition.translate, fits]

theorem Rooted.read_of_partition (buffer : Buffer) (start count : UInt32)
    : tree.read id buffer start count
      = if range.start.toNat + start.toNat < UInt32.size then
          tree.read disk buffer (range.start + start) count
        else .settled (.error .invalidArgument, buffer) := by
  unfold read
  rw [rooted.locate_of_partition found]
  by_cases fits : range.start.toNat + start.toNat < UInt32.size
  · simp [fits]
  · simp [fits]

theorem Rooted.write_of_partition (data : Buffer) (start count : UInt32)
    : tree.write id data start count
      = if range.start.toNat + start.toNat < UInt32.size then
          tree.write disk data (range.start + start) count
        else .settled (.error .invalidArgument) := by
  unfold write
  rw [rooted.locate_of_partition found]
  by_cases fits : range.start.toNat + start.toNat < UInt32.size
  · simp [fits]
  · simp [fits]

theorem Rooted.control_of_partition (command : Command)
    : tree.control id command
      = if command = .getSize then .settled (.ok range.count)
        else tree.control disk command := by
  obtain ⟨driver, live⟩ := rooted.rooted found
  obtain ⟨spare, size⟩ := rooted.exists_size_of_partition found
  rw [control_of_disk live, control, size]
  simp [controlWithin, found, live]

end Partition

end StorageSwitch.Block.DeviceTree
