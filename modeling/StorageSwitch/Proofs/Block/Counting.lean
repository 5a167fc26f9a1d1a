import StorageSwitch.Proofs.Block.Forest

/-! What the devices of a tree count. A disk counts the partitions that lie on it until it
is initialised; from then on it counts none, since partitions are only added while their
disk is being registered. A partition never counts any.
-/

namespace StorageSwitch.Block.DeviceTree

variable {δ η : Type} {tree grown left : DeviceTree δ η} {id disk : DeviceId}
  {device : Device δ} {range : Partition} {reset : DeviceId → Prop} {gone : List DeviceId}

/-- Every disk counts its partitions, except that disks which have been `reset` count none,
as partitions do.
-/
structure Counted (tree : DeviceTree δ η) (reset : DeviceId → Prop) : Prop where
  partition
    : ∀ {id range disk children},
        tree.node? id = some ⟨.partition range disk, children⟩ → children = 0
  disk
    : ∀ {id driver children},
        tree.node? id = some ⟨.disk driver, children⟩
        → ¬reset id
        → children = (tree.partitionsOf id).length
  resetDisk
    : ∀ {id driver children},
        tree.node? id = some ⟨.disk driver, children⟩ → reset id → children = 0

theorem counted_empty (hook : Option η) (reset : DeviceId → Prop)
    : (empty hook : DeviceTree δ η).Counted reset where
  partition := by simp
  disk := by simp
  resetDisk := by simp

/-- Only of disks does it matter whether they have been reset. -/
theorem Counted.congr {now : DeviceId → Prop} (counted : tree.Counted reset)
    (same
      : ∀ {id driver}, tree.device? id = some (.disk driver) → (now id ↔ reset id))
    : tree.Counted now where
  partition := counted.partition
  disk := fun found unreset =>
    counted.disk found fun before => unreset ((same (device?_of_node? found)).mpr before)
  resetDisk := fun found now =>
    counted.resetDisk found ((same (device?_of_node? found)).mp now)

/-- A new device counts nothing yet, and the disk that it lies on counts it. -/
theorem Counted.adds (counted : tree.Counted reset) (formed : tree.WellFormed)
    (adds : tree.Adds id device grown)
    (lies
      : ∀ disk,
          device.parent? = some disk
          → (∃ driver, tree.device? disk = some (.disk driver)) ∧ ¬reset disk)
    : grown.Counted fun other => other ≠ id ∧ reset other := by
  refine { partition := ?partition, disk := ?disk, resetDisk := ?resetDisk }
  case partition =>
    intro other range disk children found
    rcases adds.node?_cases found with ⟨_, new⟩ | ⟨_, parent, before, was, counts⟩ | old
    · exact congrArg Node.children new
    · obtain ⟨⟨driver, live⟩, _⟩ := lies other parent
      obtain ⟨isPartition, _⟩ := Node.mk.inj counts
      simp [device?_of_node? was, ← isPartition] at live
    · exact counted.partition old.2.2
  case disk =>
    intro other driver children found unreset
    rw [formed.partitionsOf_adds adds]
    rcases adds.node?_cases found with ⟨same, new⟩ | ⟨_, parent, before, was, counts⟩ | old
    · have fresh : ∀ driver, tree.device? other ≠ some (.disk driver) := by
        simp [same, device?, adds.fresh]
      obtain ⟨isDisk, none⟩ := Node.mk.inj new
      simp [formed.partitionsOf_eq_nil fresh, ← isDisk, none, Device.parent?]
    · obtain ⟨_, unreset⟩ := lies other parent
      obtain ⟨_, count⟩ := before
      obtain ⟨rfl, rfl⟩ := Node.mk.inj counts
      simp [parent, ← counted.disk was unreset]
    · obtain ⟨apart, elsewhere, was⟩ := old
      simpa [elsewhere] using counted.disk was fun before => unreset ⟨apart, before⟩
  case resetDisk =>
    intro other driver children found wasReset
    rcases adds.node?_cases found with ⟨same, _⟩ | ⟨_, parent, _⟩ | old
    · exact absurd same wasReset.1
    · exact absurd wasReset.2 (lies other parent).2
    · exact counted.resetDisk old.2.2 wasReset.2

/-- The devices that stay count what they did, if each partition goes together with its
disk.
-/
theorem Counted.drops (counted : tree.Counted reset) (drops : tree.Drops gone left)
    (together
      : ∀ {id range disk},
          tree.device? id = some (.partition range disk) → (id ∈ gone ↔ disk ∈ gone))
    : left.Counted reset := by
  have stays {other : DeviceId} {node : Node δ} (found : left.node? other = some node)
      : other ∉ gone ∧ tree.node? other = some node := by
    rw [drops.node?] at found
    split at found
    · contradiction
    · rename_i stays
      exact ⟨stays, found⟩
  refine { partition := ?partition, disk := ?disk, resetDisk := ?resetDisk }
  case partition =>
    intro other range disk children found
    exact counted.partition (stays found).2
  case disk =>
    intro other driver children found unreset
    obtain ⟨here, was⟩ := stays found
    rw [partitionsOf_drops drops, counted.disk was unreset]
    intro id member away
    obtain ⟨_, range, lies⟩ := mem_partitionsOf_iff.mp member
    exact here ((together lies).mp away)
  case resetDisk =>
    intro other driver children found wasReset
    exact counted.resetDisk (stays found).2 wasReset

/-- A device that is initialised counts none from then on. -/
theorem Counted.setChildren_zero (counted : tree.Counted reset)
    : (tree.setChildren id 0).Counted fun other => other = id ∨ reset other := by
  have cases {other : DeviceId} {node : Node δ}
      (found : (tree.setChildren id 0).node? other = some node)
      : (other = id ∧ node.children = 0) ∨ (other ≠ id ∧ tree.node? other = some node) := by
    rw [node?_setChildren] at found
    split at found
    · rename_i same
      obtain ⟨before, _, none⟩ := Option.map_eq_some_iff.mp found
      exact .inl ⟨same, by rw [← none]⟩
    · rename_i apart
      exact .inr ⟨apart, found⟩
  have sameParts (other : DeviceId)
      : (tree.setChildren id 0).partitionsOf other = tree.partitionsOf other := by
    simp [partitionsOf]
  refine { partition := ?partition, disk := ?disk, resetDisk := ?resetDisk }
  case partition =>
    intro other range disk children found
    rcases cases found with ⟨_, none⟩ | ⟨_, was⟩
    · exact none
    · exact counted.partition was
  case disk =>
    intro other driver children found unreset
    rw [sameParts]
    rcases cases found with ⟨same, _⟩ | ⟨_, was⟩
    · exact absurd (.inl same) unreset
    · exact counted.disk was fun before => unreset (.inr before)
  case resetDisk =>
    intro other driver children found wasReset
    rcases cases found with ⟨_, none⟩ | ⟨apart, was⟩
    · exact none
    · exact counted.resetDisk was (wasReset.resolve_left apart)

-----------------------------------------------------------------------------------------
-- What every call keeps
-----------------------------------------------------------------------------------------

/-- The devices are a forest and count their partitions, but for the disks that have been
`reset`.
-/
structure Sound (reset : DeviceId → Prop) (tree : DeviceTree δ η) : Prop where
  formed : tree.WellFormed
  counted : tree.Counted reset

theorem sound_empty (hook : Option η) (reset : DeviceId → Prop)
    : Sound reset (empty hook : DeviceTree δ η) :=
  ⟨wellFormed_empty hook, counted_empty hook reset⟩

theorem Sound.congr {now : DeviceId → Prop} (sound : Sound reset tree)
    (same : ∀ {id driver}, tree.device? id = some (.disk driver) → (now id ↔ reset id))
    : Sound now tree :=
  ⟨sound.formed, sound.counted.congr same⟩

/-- While a disk is being registered, it is live and has not been reset. -/
structure Registering (disk : DeviceId) (reset : DeviceId → Prop) (tree : DeviceTree δ η)
    : Prop extends Sound reset tree where
  live : ∃ driver, tree.device? disk = some (.disk driver)
  unreset : ¬reset disk

/-- The registration of a disk goes on after a partition was added. -/
theorem Registering.adds (registering : Registering disk reset tree)
    (adds : tree.Adds id (.partition range disk) grown)
    : Registering disk reset grown := by
  obtain ⟨⟨formed, counted⟩, ⟨driver, live⟩, unreset⟩ := registering
  have lies (parent : DeviceId) (parent_eq : some disk = some parent)
      : (∃ driver, tree.device? parent = some (.disk driver)) ∧ ¬reset parent := by
    obtain rfl := Option.some.inj parent_eq
    exact ⟨⟨driver, live⟩, unreset⟩
  refine { formed := ?formed, counted := ?counted, live := ?live, unreset }
  case formed => exact formed.adds adds fun parent parent_eq => (lies parent parent_eq).1
  case counted =>
    refine (counted.adds formed adds lies).congr fun {other _} isDisk => ?_
    have apart : other ≠ id := by
      intro same
      simp [adds.device?, same] at isDisk
    simp [apart]
  case live =>
    have apart : disk ≠ id := by
      intro same
      simp [device?, same, adds.fresh] at live
    exact ⟨driver, by rw [adds.device?, if_neg apart, live]⟩

theorem Registering.addListed (registering : Registering disk reset tree)
    {reply : Except Error Unit × Buffer} (room : (tree.addListed disk reply).tree.Addressable)
    : Registering disk reset (tree.addListed disk reply).tree := by
  have step {before after : DeviceTree δ η} {id : DeviceId} {range : Partition}
      (kept : before.Addressable → Registering disk reset before)
      (added : before.addPartition disk range = .ok (id, after)) (room : after.Addressable)
      : Registering disk reset after :=
    (kept (room.of_le (size_le_addPartition added))).adds (addPartition_adds added room)
  exact addListed_keeps step (fun _ => registering) reply room

/-- A registration keeps the tree sound, if every slot has a number that fits into a name.
The new disk has not been reset, whatever its name stood for before.
-/
theorem Sound.register (sound : Sound reset tree) {driver : δ} {respond : δ → DiskResponder}
    (room : ((tree.register driver).run respond).tree.Addressable)
    : Sound
        (fun other => other ≠ ((tree.register driver).run respond).result ∧ reset other)
        ((tree.register driver).run respond).tree := by
  obtain ⟨formed, counted⟩ := sound
  have adds := adds_disk (room.of_le (size_le_register tree driver respond))
  have registering
      : Registering (tree.insert ⟨.disk driver, 0⟩).1
          (fun other => other ≠ (tree.insert ⟨.disk driver, 0⟩).1 ∧ reset other)
          (tree.insert ⟨.disk driver, 0⟩).2 := {
    formed := formed.adds adds (by simp [Device.parent?])
    counted := counted.adds formed adds (by simp [Device.parent?])
    live := ⟨driver, by simp [adds.device?]⟩
    unreset := fun ⟨apart, _⟩ => apart rfl
  }
  rw [result_register]
  rcases tree.register_tree driver respond with same | ⟨_, reply, _, listed⟩
  · rw [same]
    exact registering.toSound
  · rw [listed] at room ⊢
    exact (registering.addListed room).toSound

theorem Sound.unregister (sound : Sound reset tree) (id : DeviceId)
    : Sound reset (tree.unregister id).tree := by
  obtain ⟨formed, counted⟩ := sound
  rcases tree.unregister_tree id with same | ⟨driver, live, drops⟩
  · rw [same]
    exact ⟨formed, counted⟩
  · exact ⟨formed.drops drops (formed.mem_family_iff live),
      counted.drops drops (formed.mem_family_iff live)⟩

/-- Initialising keeps the tree sound, and whatever it was asked for is reset. -/
theorem Sound.init (sound : Sound reset tree) (id : DeviceId)
    : Sound (fun other => other = id ∨ reset other) (tree.init id).1 := by
  rw [init_tree]
  exact ⟨sound.formed.congr (fun _ => device?_setChildren 0) (order_setChildren 0),
    sound.counted.setChildren_zero⟩

theorem Sound.setHook (sound : Sound reset tree) (hook : Option η)
    : Sound reset (tree.setHook hook) := by
  obtain ⟨formed, partition, disk, resetDisk⟩ := sound
  exact ⟨formed.congr (fun _ => rfl) rfl, { partition, disk, resetDisk }⟩

end StorageSwitch.Block.DeviceTree
