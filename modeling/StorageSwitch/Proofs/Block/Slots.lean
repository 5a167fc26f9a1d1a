import StorageSwitch.Block.DeviceTree

/-! What each operation on a device tree does, seen through `node?` and the order of
registration. Later proofs look at a tree only through these two.
-/

namespace StorageSwitch.Block.DeviceTree

variable {δ η : Type} {tree : DeviceTree δ η} {id other : DeviceId} {node : Node δ}

-----------------------------------------------------------------------------------------
-- Names and slots
-----------------------------------------------------------------------------------------

/-- The number of every slot fits into a name. -/
def Addressable (tree : DeviceTree δ η) : Prop := tree.slots.size ≤ UInt32.size

instance (tree : DeviceTree δ η) : Decidable tree.Addressable :=
  inferInstanceAs (Decidable (_ ≤ _))

theorem Addressable.of_le {grown : DeviceTree δ η} (room : grown.Addressable)
    (grows : tree.slots.size ≤ grown.slots.size)
    : tree.Addressable :=
  Nat.le_trans grows room

theorem node?_eq_some_iff
    : tree.node? id = some node
      ↔ tree.slots[id.slot]? = some ⟨id.generation, some node⟩ := by
  unfold node?
  split
  · rename_i outside
    simp [outside]
  · rename_i slot inside
    obtain ⟨generation, occupant⟩ := slot
    by_cases current : generation = id.generation
    · simp [inside, current]
    · simp [inside, current]

theorem slot_lt (found : tree.node? id = some node) : id.slot < tree.slots.size := by
  obtain ⟨within, _⟩ := Array.getElem?_eq_some_iff.mp (node?_eq_some_iff.mp found)
  exact within

/-- A name is its slot and its generation. -/
theorem eq_of_slot_eq (slots : id.slot = other.slot)
    (generations : id.generation = other.generation)
    : id = other := by
  obtain ⟨index, generation⟩ := id
  obtain ⟨otherIndex, otherGeneration⟩ := other
  obtain rfl : index = otherIndex := UInt32.toNat_inj.mp slots
  obtain rfl : generation = otherGeneration := generations
  rfl

/-- Two live devices share no slot. Witness: a slot has one generation. -/
theorem eq_of_live {mine yours : Node δ} (one : tree.node? id = some mine)
    (two : tree.node? other = some yours) (same : id.slot = other.slot)
    : id = other := by
  have mySlot := node?_eq_some_iff.mp one
  have yourSlot := node?_eq_some_iff.mp two
  rw [same, yourSlot] at mySlot
  obtain ⟨generations, _⟩ := Slot.mk.inj (Option.some.inj mySlot)
  exact eq_of_slot_eq same generations.symm

theorem device?_of_node? (found : tree.node? id = some node)
    : tree.device? id = some node.device := by
  simp [device?, found]

theorem device?_eq_some_iff {device : Device δ}
    : tree.device? id = some device
      ↔ ∃ node, tree.node? id = some node ∧ node.device = device := by
  simp [device?]

theorem contains_iff
    : tree.contains id = true ↔ ∃ device, tree.device? id = some device := by
  cases found : tree.node? id with
  | none => simp [contains, device?, found]
  | some node => simp [contains, device?, found]

@[simp] theorem node?_empty (hook : Option η)
    : (empty hook : DeviceTree δ η).node? id = none := by
  simp [node?, empty]

/-- Writing the slot of a live device touches no other device, if the slot either stays in
its generation or is freed. Witness: no second name of that slot was live.
-/
theorem node?_setIfInBounds {slot : Slot δ} {order : List DeviceId} {hook : Option η}
    (found : tree.node? id = some node)
    (kept : slot.generation = id.generation ∨ slot.node = none)
    : (⟨tree.slots.setIfInBounds id.slot slot, order, hook⟩ : DeviceTree δ η).node? other
      = if other = id then slot.node else tree.node? other := by
  have within := slot_lt found
  by_cases same : other = id
  · subst same
    rcases kept with generation | freed
    · simp [node?, within, generation]
    · simp [node?, within, freed]
  · by_cases there : id.slot = other.slot
    · have stale : tree.node? other = none := by
        cases present : tree.node? other with
        | none => rfl
        | some _ => exact absurd (eq_of_live found present there).symm same
      have apart : id.generation ≠ other.generation := fun generation =>
        same (eq_of_slot_eq there generation).symm
      rw [if_neg same, stale]
      unfold node?
      rcases kept with generation | freed
      · simp [← there, within, generation, apart]
      · simp [← there, within, freed]
    · simp [node?, Array.getElem?_setIfInBounds_ne there, same]

-----------------------------------------------------------------------------------------
-- A new device
-----------------------------------------------------------------------------------------

/-- A new device takes a slot that holds none, freed or new. -/
theorem insert_slots (tree : DeviceTree δ η) (node : Node δ)
    : ∃ place,
        (tree.insert node).1.index = .ofNat place
        ∧ tree.slots[place]?.bind (·.node) = none
        ∧ ∀ number,
            (tree.insert node).2.slots[number]?
            = if number = place then some ⟨(tree.insert node).1.generation, some node⟩
              else tree.slots[number]? := by
  unfold insert
  split
  · rename_i index freed
    obtain ⟨within, free, _⟩ := Array.findIdx?_eq_some_iff_getElem.mp freed
    have free : tree.slots[index].node = none := Option.isNone_iff_eq_none.mp free
    refine ⟨index, rfl, by simp [within, free], fun number => ?_⟩
    by_cases same : number = index
    · simp [same, within]
    · simp [same, Array.getElem?_setIfInBounds_ne (Ne.symm same)]
  · exact ⟨tree.slots.size, rfl, by simp, fun number => by simp [Array.getElem?_push]⟩

@[simp] theorem order_insert (tree : DeviceTree δ η) (node : Node δ)
    : (tree.insert node).2.order = tree.order ++ [(tree.insert node).1] := by
  unfold insert
  split <;> rfl

@[simp] theorem hook_insert (tree : DeviceTree δ η) (node : Node δ)
    : (tree.insert node).2.hook = tree.hook := by
  unfold insert
  split <;> rfl

theorem size_le_insert (tree : DeviceTree δ η) (node : Node δ)
    : tree.slots.size ≤ (tree.insert node).2.slots.size := by
  unfold insert
  split <;> simp

/-- The new device is behind the name that has the number of its slot, if there is one. -/
theorem node?_insert (tree : DeviceTree δ η) (node : Node δ)
    : ∃ place,
        (tree.insert node).1.index = .ofNat place
        ∧ place < (tree.insert node).2.slots.size
        ∧ (∀ other, other.slot = place → tree.node? other = none)
        ∧ ∀ other,
            (tree.insert node).2.node? other
            = if other.slot = place then
                if other.generation = (tree.insert node).1.generation then some node
                else none
              else tree.node? other := by
  obtain ⟨place, index, vacant, slots⟩ := tree.insert_slots node
  have taken := (slots place).trans (if_pos rfl)
  obtain ⟨within, _⟩ := Array.getElem?_eq_some_iff.mp taken
  refine ⟨place, index, within, fun other here => ?_, fun other => ?_⟩
  · unfold node?
    split
    · rfl
    · rename_i slot inside
      rw [here] at inside
      have none : slot.node = none := by simpa [inside] using vacant
      simp [none]
  · unfold node?
    rw [slots]
    by_cases here : other.slot = place
    · simp only [if_pos here]
      by_cases current : other.generation = (tree.insert node).1.generation
      · simp [current]
      · simp [current, Ne.symm current]
    · simp only [if_neg here]

/-- A live device stays behind its name. -/
theorem node?_insert_of_live {was : Node δ} (found : tree.node? other = some was)
    : (tree.insert node).2.node? other = some was := by
  obtain ⟨place, _, _, vacant, view⟩ := tree.node?_insert node
  have apart : other.slot ≠ place := by
    intro here
    rw [vacant other here] at found
    contradiction
  rw [view, if_neg apart, found]

/-- A device that is behind a name after another came was there before or is the new one. -/
theorem node?_insert_cases {now : Node δ}
    (found : (tree.insert node).2.node? other = some now)
    : tree.node? other = some now ∨ (other = (tree.insert node).1 ∧ now = node) := by
  obtain ⟨place, index, _, _, view⟩ := tree.node?_insert node
  rw [view] at found
  split at found
  · rename_i here
    split at found
    · rename_i generation
      have sameIndex : other.index = (tree.insert node).1.index := by
        rw [index, ← here]
        exact UInt32.ofNat_toNat.symm
      exact .inr ⟨eq_of_slot_eq (congrArg UInt32.toNat sameIndex) generation,
        (Option.some.inj found).symm⟩
    · contradiction
  · exact .inl found

/-- Inserting puts the device behind a name that stood for none, if the number of its slot
fits into a name. Witness: the slot that takes it had no device, so no name of any generation
led there.
-/
theorem insert_view (room : (tree.insert node).2.Addressable)
    : tree.node? (tree.insert node).1 = none
      ∧ ∀ other,
          (tree.insert node).2.node? other
          = if other = (tree.insert node).1 then some node else tree.node? other := by
  obtain ⟨place, index, within, vacant, view⟩ := tree.node?_insert node
  have here : (tree.insert node).1.slot = place := by
    rw [DeviceId.slot, index]
    exact UInt32.toNat_ofNat_of_lt (Nat.lt_of_lt_of_le within room)
  refine ⟨vacant _ here, fun other => ?_⟩
  rw [view]
  by_cases same : other = (tree.insert node).1
  · simp [same, here]
  · by_cases there : other.slot = place
    · have apart : other.generation ≠ (tree.insert node).1.generation := fun generation =>
        same (eq_of_slot_eq (there.trans here.symm) generation)
      simp [same, there, apart, vacant other there]
    · simp [same, there]

-----------------------------------------------------------------------------------------
-- Counting anew
-----------------------------------------------------------------------------------------

theorem node?_setChildren (children : Nat)
    : (tree.setChildren id children).node? other
      = if other = id then (tree.node? id).map ({ · with children })
        else tree.node? other := by
  unfold setChildren
  cases found : tree.node? id with
  | none =>
      by_cases same : other = id
      · simp [same, found]
      · simp [same]
  | some node =>
      dsimp only
      rw [node?_setIfInBounds found (.inl rfl)]
      rfl

@[simp] theorem order_setChildren (children : Nat)
    : (tree.setChildren id children).order = tree.order := by
  unfold setChildren
  split <;> rfl

@[simp] theorem hook_setChildren (children : Nat)
    : (tree.setChildren id children).hook = tree.hook := by
  unfold setChildren
  split <;> rfl

@[simp] theorem size_setChildren (children : Nat)
    : (tree.setChildren id children).slots.size = tree.slots.size := by
  unfold setChildren
  split <;> simp

/-- A device keeps what it is when its partitions are counted anew. -/
@[simp] theorem device?_setChildren (children : Nat)
    : (tree.setChildren id children).device? other = tree.device? other := by
  unfold device?
  rw [node?_setChildren]
  split
  · rename_i same
    cases found : tree.node? id <;> simp [same, found]
  · rfl

-----------------------------------------------------------------------------------------
-- A device that is new in the tree
-----------------------------------------------------------------------------------------

/-- `grown` is `tree` with one more device, under a name that stood for none. A device that
the new one lies on counts it, and no other is touched.
-/
structure Adds (tree : DeviceTree δ η) (id : DeviceId) (device : Device δ)
    (grown : DeviceTree δ η) : Prop where
  fresh : tree.node? id = none
  node?
    : ∀ other,
        grown.node? other
        = if other = id then some ⟨device, 0⟩
          else if device.parent? = some other then
            (tree.node? other).map fun node => { node with children := node.children + 1 }
          else tree.node? other
  order : grown.order = tree.order ++ [id]
  hook : grown.hook = tree.hook

theorem adds_disk {driver : δ} (room : (tree.insert ⟨.disk driver, 0⟩).2.Addressable)
    : tree.Adds (tree.insert ⟨.disk driver, 0⟩).1 (.disk driver)
        (tree.insert ⟨.disk driver, 0⟩).2 := by
  obtain ⟨fresh, nodes⟩ := insert_view room
  exact {
    fresh
    node? := by simpa [Device.parent?] using nodes
    order := order_insert tree _
    hook := hook_insert tree _
  }

/-- A partition of a live device can always be added. -/
theorem exists_addPartition (live : tree.node? id = some node) (range : Partition)
    : ∃ added grown, tree.addPartition id range = .ok (added, grown) := by
  simp [addPartition, live]

section AddPartition

variable {disk : DeviceId} {range : Partition} {grown : DeviceTree δ η}
  (added : tree.addPartition disk range = .ok (id, grown))

include added

/-- Adding a partition inserts it, and then the device that it lies on counts it. -/
theorem addPartition_eq_ok
    : ∃ counted,
        tree.node? disk = some counted
        ∧ id = (tree.insert ⟨.partition range disk, 0⟩).1
        ∧ grown
          = (tree.insert ⟨.partition range disk, 0⟩).2.setChildren disk
              (counted.children + 1) := by
  unfold addPartition at added
  split at added
  · contradiction
  · rename_i counted live
    obtain ⟨name, tree_eq⟩ := Prod.mk.inj (Except.ok.inj added)
    exact ⟨counted, live, name.symm, tree_eq.symm⟩

theorem size_le_addPartition : tree.slots.size ≤ grown.slots.size := by
  obtain ⟨_, _, _, rfl⟩ := addPartition_eq_ok added
  simpa using tree.size_le_insert _

theorem addPartition_adds (room : grown.Addressable)
    : tree.Adds id (.partition range disk) grown := by
  obtain ⟨counted, live, rfl, rfl⟩ := addPartition_eq_ok added
  obtain ⟨fresh, nodes⟩ := insert_view (room.of_le (Nat.le_of_eq (size_setChildren _).symm))
  have apart : disk ≠ (tree.insert ⟨.partition range disk, 0⟩).1 := by
    intro same
    rw [← same, live] at fresh
    contradiction
  refine { fresh, order := by simp, hook := by simp, node? := fun other => ?_ }
  rw [node?_setChildren]
  by_cases parent : other = disk
  · subst parent
    simp [nodes, apart, live, Device.parent?]
  · simp [nodes, parent, Ne.symm parent, Device.parent?]

end AddPartition

/-- A device of the grown tree is the new one, the one it lies on, or any other. -/
theorem Adds.node?_cases {device : Device δ} {grown : DeviceTree δ η}
    (adds : tree.Adds id device grown) (found : grown.node? other = some node)
    : (other = id ∧ node = ⟨device, 0⟩)
      ∨ (other ≠ id
        ∧ device.parent? = some other
        ∧ ∃ before,
            tree.node? other = some before
            ∧ node = { before with children := before.children + 1 })
      ∨ (other ≠ id ∧ device.parent? ≠ some other ∧ tree.node? other = some node) := by
  rw [adds.node?] at found
  split at found
  · rename_i same
    exact .inl ⟨same, (Option.some.inj found).symm⟩
  · rename_i apart
    split at found
    · rename_i lies
      obtain ⟨before, was, counts⟩ := Option.map_eq_some_iff.mp found
      exact .inr (.inl ⟨apart, lies, before, was, counts.symm⟩)
    · rename_i elsewhere
      exact .inr (.inr ⟨apart, elsewhere, found⟩)

/-- Adding partitions to a device is adding one after another, so what each addition keeps
is kept. Witness: induction on the records; a record that is refused changes nothing.
-/
theorem addPartitions_keeps {kept : DeviceTree δ η → Prop}
    (step
      : ∀ {tree grown added range},
          kept tree → tree.addPartition id range = .ok (added, grown) → kept grown)
    (holds : kept tree) (records : List (Nat × PartitionRecord))
    : kept (tree.addPartitions id records).tree := by
  induction records generalizing tree with
  | nil => exact holds
  | cons record rest ih =>
      cases result : tree.addPartition id record.2.partition with
      | error error => simpa only [addPartitions, result] using ih holds
      | ok new =>
          obtain ⟨added, grown⟩ := new
          simpa only [addPartitions, result] using ih (step holds result)

/-- What every addition of a partition keeps is kept by adding what a sector lists. -/
theorem addListed_keeps {kept : DeviceTree δ η → Prop}
    (step
      : ∀ {tree grown added range},
          kept tree → tree.addPartition id range = .ok (added, grown) → kept grown)
    (holds : kept tree) (reply : Except Error Unit × Buffer)
    : kept (tree.addListed id reply).tree := by
  unfold addListed
  split
  · exact holds
  · split
    · exact holds
    · exact addPartitions_keeps step holds _

theorem size_le_addPartitions (tree : DeviceTree δ η) (disk : DeviceId)
    (records : List (Nat × PartitionRecord))
    : tree.slots.size ≤ (tree.addPartitions disk records).tree.slots.size :=
  addPartitions_keeps (fun grows added => Nat.le_trans grows (size_le_addPartition added))
    (Nat.le_refl _) records

theorem size_le_addListed (tree : DeviceTree δ η) (disk : DeviceId)
    (reply : Except Error Unit × Buffer)
    : tree.slots.size ≤ (tree.addListed disk reply).tree.slots.size :=
  addListed_keeps (fun grows added => Nat.le_trans grows (size_le_addPartition added))
    (Nat.le_refl _) reply

theorem Adds.device? {device : Device δ} {grown : DeviceTree δ η}
    (adds : tree.Adds id device grown)
    : grown.device? other = if other = id then some device else tree.device? other := by
  unfold DeviceTree.device?
  rw [adds.node?]
  split
  · rfl
  · split
    · cases tree.node? other <;> rfl
    · rfl

-----------------------------------------------------------------------------------------
-- Trees of any size
-----------------------------------------------------------------------------------------

/-- `grown` is `tree` with one more device, which got the name `id`. All devices stay behind
their names, and no name but this one leads to the new device.
-/
structure Gains (tree : DeviceTree δ η) (id : DeviceId) (device : Device δ)
    (grown : DeviceTree δ η) : Prop where
  kept : ∀ {other was}, tree.device? other = some was → grown.device? other = some was
  cases
    : ∀ {other now},
        grown.device? other = some now
        → tree.device? other = some now ∨ (other = id ∧ now = device)
  order : grown.order = tree.order ++ [id]

theorem gains_insert (tree : DeviceTree δ η) (node : Node δ)
    : tree.Gains (tree.insert node).1 node.device (tree.insert node).2 where
  kept live := by
    obtain ⟨was, found, rfl⟩ := device?_eq_some_iff.mp live
    exact device?_of_node? (node?_insert_of_live found)
  cases live := by
    obtain ⟨now, found, rfl⟩ := device?_eq_some_iff.mp live
    rcases node?_insert_cases found with before | ⟨new, rfl⟩
    · exact .inl (device?_of_node? before)
    · exact .inr ⟨new, rfl⟩
  order := order_insert tree node

theorem Adds.gains {device : Device δ} {grown : DeviceTree δ η}
    (adds : tree.Adds id device grown)
    : tree.Gains id device grown where
  kept {other _} live := by
    have apart : other ≠ id := by
      rintro rfl
      simp [DeviceTree.device?, adds.fresh] at live
    rw [adds.device?, if_neg apart, live]
  cases {other _} live := by
    rw [adds.device?] at live
    split at live
    · rename_i same
      exact .inr ⟨same, (Option.some.inj live).symm⟩
    · exact .inl live
  order := adds.order

theorem addPartition_gains {disk : DeviceId} {range : Partition} {grown : DeviceTree δ η}
    (added : tree.addPartition disk range = .ok (id, grown))
    : tree.Gains id (.partition range disk) grown := by
  obtain ⟨_, _, rfl, rfl⟩ := addPartition_eq_ok added
  obtain ⟨kept, cases, _⟩ := tree.gains_insert ⟨.partition range disk, 0⟩
  exact {
    kept := fun live => by simpa using kept live
    cases := fun live => cases (by simpa using live)
    order := by simp
  }

/-- Registering a disk inserts it and, if its name then stands for a disk, adds to this one
what a sector lists.
-/
theorem register_tree (tree : DeviceTree δ η) (driver : δ) (respond : δ → DiskResponder)
    : ((tree.register driver).run respond).tree = (tree.insert ⟨.disk driver, 0⟩).2
      ∨ ∃ named reply,
          (tree.insert ⟨.disk driver, 0⟩).2.device? (tree.insert ⟨.disk driver, 0⟩).1
            = some (.disk named)
          ∧ ((tree.register driver).run respond).tree
            = ((tree.insert ⟨.disk driver, 0⟩).2.addListed
                (tree.insert ⟨.disk driver, 0⟩).1 reply).tree := by
  unfold register
  dsimp only
  split
  · rename_i named found
    exact .inr ⟨named, _, found, rfl⟩
  · exact .inl rfl

theorem result_register (tree : DeviceTree δ η) (driver : δ)
    (respond : δ → DiskResponder)
    : ((tree.register driver).run respond).result = (tree.insert ⟨.disk driver, 0⟩).1 := by
  unfold register
  dsimp only
  split <;> rfl

theorem size_le_register (tree : DeviceTree δ η) (driver : δ) (respond : δ → DiskResponder)
    : (tree.insert ⟨.disk driver, 0⟩).2.slots.size
      ≤ ((tree.register driver).run respond).tree.slots.size := by
  rcases tree.register_tree driver respond with same | ⟨_, reply, _, listed⟩
  · exact Nat.le_of_eq (by rw [same])
  · rw [listed]
    exact size_le_addListed ..

/-- A disk with a name of its own is asked for its first sector, and the partitions that this
lists are its own.
-/
theorem register_eq {driver : δ} (room : (tree.insert ⟨.disk driver, 0⟩).2.Addressable)
    : let disk := (tree.insert ⟨.disk driver, 0⟩).1
      tree.register driver
      = .asks driver (.read (Array.replicate sectorSize 0) 0 1) fun reply =>
          let listed := (tree.insert ⟨.disk driver, 0⟩).2.addListed disk reply
          ⟨disk, listed.tree, listed.events ++ listed.tree.announce disk,
            .registering disk.slot :: listed.notices
              ++ [.partitionsAdded disk.slot listed.result]⟩ := by
  have live
      : (tree.insert ⟨.disk driver, 0⟩).2.device? (tree.insert ⟨.disk driver, 0⟩).1
        = some (.disk driver) := by simp [(adds_disk room).device?]
  simp only [register, live]

-----------------------------------------------------------------------------------------
-- Devices that go
-----------------------------------------------------------------------------------------

theorem node?_remove
    : (tree.remove id).node? other = if other = id then none else tree.node? other := by
  unfold remove
  cases found : tree.node? id with
  | none =>
      by_cases same : other = id
      · simpa [same, node?] using found
      · simp [same, node?]
  | some node =>
      simp only [Option.isSome_some, if_true]
      rw [node?_setIfInBounds found (.inr rfl)]

@[simp] theorem order_remove
    : (tree.remove id).order = tree.order.filter (· ≠ id) := rfl

@[simp] theorem size_remove : (tree.remove id).slots.size = tree.slots.size := by
  unfold remove
  split <;> simp

/-- `left` is `tree` without the devices named in `gone`. -/
structure Drops (tree : DeviceTree δ η) (gone : List DeviceId) (left : DeviceTree δ η)
    : Prop where
  node? : ∀ other, left.node? other = if other ∈ gone then none else tree.node? other
  order : left.order = tree.order.filter (· ∉ gone)
  hook : left.hook = tree.hook

/-- Removing devices one after another drops them all. Witness: induction on the devices
that are still to be removed.
-/
theorem drops_foldl_remove (tree : DeviceTree δ η) (gone : List DeviceId)
    : tree.Drops gone (gone.foldl remove tree) := by
  induction gone generalizing tree with
  | nil => exact { node? := by simp, order := by simp [List.filter_eq_self.mpr], hook := rfl }
  | cons id rest ih =>
      have later := ih (tree.remove id)
      refine { node? := fun other => ?_, order := ?_, hook := later.hook }
      · rw [List.foldl_cons, later.node?, node?_remove]
        by_cases same : other = id
        · simp [same]
        · simp [same]
      · rw [List.foldl_cons, later.order, order_remove, List.filter_filter]
        refine List.filter_congr fun other _ => ?_
        simp [Bool.and_comm]

theorem size_foldl_remove (tree : DeviceTree δ η) (gone : List DeviceId)
    : (gone.foldl remove tree).slots.size = tree.slots.size := by
  induction gone generalizing tree with
  | nil => rfl
  | cons first rest ih => rw [List.foldl_cons, ih, size_remove]

theorem Drops.device? {gone : List DeviceId} {left : DeviceTree δ η}
    (drops : tree.Drops gone left)
    : left.device? other = if other ∈ gone then none else tree.device? other := by
  unfold DeviceTree.device?
  rw [drops.node?]
  split <;> rfl

/-- Unregistering is refused, and then nothing happens, or it removes a disk with its family
and tells so of each device.
-/
theorem unregister_cases (tree : DeviceTree δ η) (id : DeviceId)
    : (∃ error, tree.unregister id = ⟨.error error, tree, [], []⟩)
      ∨ ∃ driver,
          tree.device? id = some (.disk driver)
          ∧ tree.unregister id
            = ⟨.ok (), (tree.family id).foldl remove tree,
                tree.tell ((tree.family id).map .unregistered), [.unregistered id.slot]⟩ := by
  unfold unregister
  split
  · exact .inl ⟨_, rfl⟩
  · rename_i node found
    obtain ⟨device, children⟩ := node
    cases device with
    | disk driver => exact .inr ⟨driver, device?_of_node? found, rfl⟩
    | partition range parent => exact .inl ⟨_, rfl⟩

/-- Unregistering drops a disk with its family, and otherwise leaves the tree. -/
theorem unregister_tree (tree : DeviceTree δ η) (id : DeviceId)
    : (tree.unregister id).tree = tree
      ∨ ∃ driver,
          tree.device? id = some (.disk driver)
          ∧ tree.Drops (tree.family id) (tree.unregister id).tree := by
  rcases tree.unregister_cases id with ⟨error, refused⟩ | ⟨driver, live, removed⟩
  · exact .inl (by rw [refused])
  · refine .inr ⟨driver, live, ?_⟩
    rw [removed]
    exact drops_foldl_remove tree _

theorem size_unregister (tree : DeviceTree δ η) (id : DeviceId)
    : (tree.unregister id).tree.slots.size = tree.slots.size := by
  rcases tree.unregister_cases id with ⟨error, refused⟩ | ⟨_, _, removed⟩
  · rw [refused]
  · rw [removed]
    exact size_foldl_remove tree _

theorem init_tree (tree : DeviceTree δ η) (id : DeviceId)
    : (tree.init id).1 = tree.setChildren id 0 := by
  cases found : tree.node? id with
  | none => simp [init, setChildren, found]
  | some node => simp [init, found]

end StorageSwitch.Block.DeviceTree
