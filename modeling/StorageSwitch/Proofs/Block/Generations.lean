import StorageSwitch.Proofs.Block.Registration

/-! How long a name stays refused once its device has gone. A slot counts how often it has
been freed, and a name carries the count at which it was given out. The count is a word of
thirty-two bits, so it comes back after `2 ^ 32` frees, and old names with it.
-/

namespace StorageSwitch.Block.DeviceTree

variable {δ η : Type} {start middle tree grown : DeviceTree δ η} {id : DeviceId}
  {node : Node δ} {history earlier later : List (Moment δ η)} {hook : Option η}

-----------------------------------------------------------------------------------------
-- Names that come and go
-----------------------------------------------------------------------------------------

/-- The names that a call gives out. -/
def Moment.issued (moment : Moment δ η) : List DeviceId :=
  moment.after.devices.filter (· ∉ moment.before.devices)

/-- The names whose devices a call removes. -/
def Moment.removed (moment : Moment δ η) : List DeviceId :=
  moment.before.devices.filter (· ∉ moment.after.devices)

/-- How often devices have been removed from a slot. -/
def frees (index : Nat) (history : List (Moment δ η)) : Nat :=
  (history.flatMap Moment.removed).countP (·.slot = index)

/-- The device that sits in a slot, whatever its name. -/
def occupant? (tree : DeviceTree δ η) (index : Nat) : Option (Node δ) :=
  tree.slots[index]?.bind (·.node)

/-- The generation of a slot; slots that are still to come are in their first one. -/
def generation (tree : DeviceTree δ η) (index : Nat) : UInt32 :=
  (tree.slots[index]?.map (·.generation)).getD 0

theorem frees_append (index : Nat) (first second : List (Moment δ η))
    : frees index (first ++ second) = frees index first + frees index second := by
  simp [frees]

theorem frees_cons (index : Nat) (moment : Moment δ η) (history : List (Moment δ η))
    : frees index (moment :: history)
      = moment.removed.countP (·.slot = index) + frees index history := by
  simp [frees]

/-- A name leads to the device in its slot as long as the generations agree. -/
theorem node?_eq_ite (id : DeviceId)
    : tree.node? id
      = if tree.generation id.slot = id.generation then tree.occupant? id.slot
        else none := by
  unfold node? generation occupant?
  cases tree.slots[id.slot]? with
  | none => simp
  | some slot => simp

theorem occupant?_of_node? (found : tree.node? id = some node)
    : tree.occupant? id.slot = some node := by
  simp [occupant?, node?_eq_some_iff.mp found]

theorem generation_of_node? (found : tree.node? id = some node)
    : tree.generation id.slot = id.generation := by
  simp [generation, node?_eq_some_iff.mp found]

-----------------------------------------------------------------------------------------
-- What keeps generations
-----------------------------------------------------------------------------------------

theorem generation_insert (tree : DeviceTree δ η) (node : Node δ) (index : Nat)
    : (tree.insert node).2.generation index = tree.generation index := by
  unfold insert
  split
  · rename_i place freed
    obtain ⟨within, _⟩ := Array.findIdx?_eq_some_iff_getElem.mp freed
    by_cases same : place = index
    · subst same
      simp [generation, within]
    · simp [generation, Array.getElem?_setIfInBounds_ne same]
  · by_cases same : index = tree.slots.size
    · simp [generation, same]
    · simp [generation, Array.getElem?_push, same]

theorem generation_setChildren (tree : DeviceTree δ η) (id : DeviceId)
    (children index : Nat)
    : (tree.setChildren id children).generation index = tree.generation index := by
  unfold setChildren
  split
  · rfl
  · rename_i node found
    have within := slot_lt found
    by_cases same : id.slot = index
    · subst same
      rw [generation_of_node? found]
      simp [generation, within]
    · simp [generation, Array.getElem?_setIfInBounds_ne same]

theorem generation_addPartition {disk : DeviceId} {range : Partition}
    (added : tree.addPartition disk range = .ok (id, grown)) (index : Nat)
    : grown.generation index = tree.generation index := by
  obtain ⟨_, _, rfl, rfl⟩ := addPartition_eq_ok added
  rw [generation_setChildren, generation_insert]

theorem generation_register (tree : DeviceTree δ η) (driver : δ)
    (respond : δ → DiskResponder) (index : Nat)
    : ((tree.register driver).run respond).tree.generation index = tree.generation index := by
  rcases tree.register_tree driver respond with same | ⟨_, reply, _, listed⟩
  · rw [same, generation_insert]
  · rw [listed, ← generation_insert tree ⟨.disk driver, 0⟩ index]
    exact addListed_keeps
      (fun kept added => (generation_addPartition added index).trans kept) rfl reply

-----------------------------------------------------------------------------------------
-- What ends generations
-----------------------------------------------------------------------------------------

/-- Removing a live device ends the generation of its slot, and of no other. -/
theorem generation_remove (found : tree.node? id = some node) (index : Nat)
    : (tree.remove id).generation index
      = tree.generation index + if id.slot = index then 1 else 0 := by
  have within := slot_lt found
  by_cases same : id.slot = index
  · subst same
    rw [generation_of_node? found]
    simp [remove, generation, found, within]
  · simp [remove, generation, found, Array.getElem?_setIfInBounds_ne same, same]

/-- Removing devices one after another ends a generation for each of them. Witness:
induction on the devices; each is live when its turn comes, since no name comes twice.
-/
theorem generation_foldl_remove {gone : List DeviceId} (distinct : gone.Nodup)
    (live : ∀ id ∈ gone, ∃ node, tree.node? id = some node) (index : Nat)
    : (gone.foldl remove tree).generation index
      = tree.generation index + .ofNat (gone.countP (·.slot = index)) := by
  induction gone generalizing tree with
  | nil => simp
  | cons id rest ih =>
      obtain ⟨unlisted, distinctRest⟩ := List.nodup_cons.mp distinct
      obtain ⟨node, found⟩ := live id (List.mem_cons_self ..)
      have stillLive : ∀ other ∈ rest, ∃ node, (tree.remove id).node? other = some node := by
        intro other member
        have apart : other ≠ id := fun same => unlisted (same ▸ member)
        simpa [node?_remove, apart] using live other (List.mem_cons_of_mem _ member)
      rw [List.foldl_cons, ih distinctRest stillLive, generation_remove found, List.countP_cons]
      by_cases same : id.slot = index
      · simp [same, UInt32.ofNat_add, UInt32.add_assoc, UInt32.add_comm 1]
      · simp [same]

/-- What goes with a disk is live, and nothing goes twice. -/
theorem WellFormed.family_live (formed : tree.WellFormed) {disk : DeviceId} {driver : δ}
    (live : tree.device? disk = some (.disk driver))
    : (tree.family disk).Nodup
      ∧ ∀ id ∈ tree.family disk, id ∈ tree.devices ∧ ∃ node, tree.node? id = some node := by
  have listed : disk ∈ tree.devices := (formed.mem_order_iff disk).mpr ⟨_, live⟩
  have apart : disk ∉ tree.partitionsOf disk := by
    intro member
    obtain ⟨_, range, isPartition⟩ := mem_partitionsOf_iff.mp member
    simp [live] at isPartition
  rw [formed.family_eq live]
  constructor
  · refine List.nodup_append.mpr ⟨formed.nodup.filter _, by simp, ?_⟩
    intro id isPart other isDisk same
    rw [List.mem_singleton.mp isDisk] at same
    exact apart (same ▸ isPart)
  · intro id member
    have inOrder : id ∈ tree.order := by
      rcases List.mem_append.mp member with isPart | isDisk
      · exact (mem_partitionsOf_iff.mp isPart).1
      · exact List.mem_singleton.mp isDisk ▸ listed
    obtain ⟨device, found⟩ := (formed.mem_order_iff id).mp inOrder
    obtain ⟨node, here, _⟩ := device?_eq_some_iff.mp found
    exact ⟨inOrder, node, here⟩

/-- A call that keeps all devices removes none. -/
theorem Moment.removed_eq_nil {moment : Moment δ η}
    (kept : ∀ id ∈ moment.before.devices, id ∈ moment.after.devices)
    : moment.removed = [] := by
  simpa [Moment.removed] using kept

/-- A call frees a slot as often as it removes devices from it. -/
theorem Moment.generation_after {moment : Moment δ η} (formed : moment.before.WellFormed)
    (room : moment.after.Addressable) (index : Nat)
    : moment.after.generation index
      = moment.before.generation index
        + .ofNat (moment.removed.countP (·.slot = index)) := by
  have unfreed (kept : ∀ id ∈ moment.before.devices, id ∈ moment.after.devices)
      (same : moment.after.generation index = moment.before.generation index)
      : moment.after.generation index
        = moment.before.generation index
          + .ofNat (moment.removed.countP (·.slot = index)) := by
    simp [Moment.removed_eq_nil kept, same]
  obtain ⟨tree, call, respond⟩ := moment
  cases call with
  | register driver =>
      refine unfreed ?_ (generation_register tree driver respond index)
      obtain ⟨parts, _, registers⟩ := register_registers room
      intro id listed
      exact registers.devices ▸ List.mem_append_left _ listed
  | unregister id =>
      rcases tree.unregister_cases id with ⟨error, refused⟩ | ⟨driver, live, removes⟩
      · have tree_eq : (Moment.mk tree (.unregister id) respond).after = tree :=
          congrArg Outcome.tree refused
        refine unfreed (fun other listed => ?_) (by rw [tree_eq])
        rw [tree_eq]
        exact listed
      · have tree_eq
            : (Moment.mk tree (.unregister id) respond).after
              = (tree.family id).foldl remove tree := congrArg Outcome.tree removes
        obtain ⟨distinct, family⟩ := formed.family_live live
        have gone
            : (Moment.mk tree (.unregister id) respond).removed.Perm (tree.family id) := by
          refine (List.perm_ext_iff_of_nodup (formed.nodup.filter _) distinct).mpr fun other => ?_
          have left := (drops_foldl_remove tree (tree.family id)).order
          simp only [devices, tree_eq, left, List.mem_filter]
          constructor
          · rintro ⟨listed, absent⟩
            simpa [listed] using absent
          · intro member
            exact ⟨(family other member).1, by simp [member]⟩
        rw [tree_eq, gone.countP_eq]
        exact generation_foldl_remove distinct (fun other member => (family other member).2) index
  | init id =>
      have tree_eq : (Moment.mk tree (.init id) respond).after = tree.setChildren id 0 :=
        init_tree tree id
      refine unfreed (fun other listed => ?_) ?_
      · rw [tree_eq, devices, order_setChildren]
        exact listed
      · rw [tree_eq, generation_setChildren]
  | setHook _ | read _ _ _ _ | write _ _ _ _ | control _ _ =>
      exact unfreed (fun _ listed => listed) rfl

-----------------------------------------------------------------------------------------
-- Generations in runs
-----------------------------------------------------------------------------------------

/-- A call after a run. -/
theorem Run.concat {moment : Moment δ η} {next : DeviceTree δ η}
    (run : start.Run history moment.before) (after : moment.after = next)
    : start.Run (moment :: history) next :=
  after ▸ run.next moment.call moment.respond

/-- A run can be cut after each of its calls. Witness: induction on the calls after it. -/
theorem Run.cut (run : start.Run (later ++ history) tree)
    : ∃ middle, start.Run history middle ∧ middle.Run later tree := by
  induction later generalizing tree with
  | nil => exact ⟨tree, run, .rest⟩
  | cons moment later ih =>
      cases run with
      | next run call respond =>
          obtain ⟨middle, first, second⟩ := ih run
          exact ⟨middle, first, .next second call respond⟩

/-- A run with a call in it leads to the tree before the call, and goes on from the tree
after it.
-/
theorem Run.cut_at {moment : Moment δ η}
    (run : start.Run (later ++ moment :: earlier) tree)
    : start.Run earlier moment.before
      ∧ start.Run (moment :: earlier) moment.after
      ∧ moment.after.Run later tree := by
  obtain ⟨middle, first, second⟩ := run.cut
  cases first with
  | next before call respond => exact ⟨before, .next before call respond, second⟩

/-- In the course of a run, the generation of a slot counts how often the slot is freed.
Witness: induction on the run, with `Moment.generation_after` at each call.
-/
theorem Run.generation_eq (first : (empty hook).Run history middle)
    (run : middle.Run later tree) (room : tree.Addressable) (index : Nat)
    : tree.generation index = middle.generation index + .ofNat (frees index later) := by
  induction run with
  | rest => simp [frees]
  | next run call respond ih =>
      have roomBefore := Moment.room_before ⟨_, call, respond⟩ room
      have formed := ((first.trans run).sound roomBefore).formed
      rw [Moment.generation_after formed room, ih roomBefore, frees_cons, UInt32.ofNat_add,
        UInt32.add_assoc, UInt32.add_comm (.ofNat _)]

/-- A device stays until a call removes it. -/
theorem Run.stays_or_removed (run : middle.Run later tree) (listed : id ∈ middle.devices)
    : id ∈ tree.devices ∨ ∃ since ∈ later, id ∈ since.removed := by
  induction run with
  | rest => exact .inl listed
  | next run call respond ih =>
      rename_i later tree
      rcases ih with here | ⟨since, member, gone⟩
      · by_cases stays : id ∈ (Moment.mk tree call respond).after.devices
        · exact .inl stays
        · exact .inr ⟨_, List.mem_cons_self .., by simp [Moment.removed, here, stays]⟩
      · exact .inr ⟨since, List.mem_cons_of_mem _ member, gone⟩

/-- The name of a device is accepted in a later tree exactly if its slot holds a device and
has been freed a multiple of `2 ^ 32` times. Then the name stands for what is in the slot.
-/
theorem Run.contains_iff_of_listed (first : (empty hook).Run history middle)
    (run : middle.Run later tree) (room : tree.Addressable) (listed : id ∈ middle.devices)
    : tree.contains id = true
      ↔ (tree.occupant? id.slot).isSome = true ∧ 2 ^ 32 ∣ frees id.slot later := by
  have formed := (first.sound (run.room_start room)).formed
  obtain ⟨device, live⟩ := formed.live_of_mem listed
  obtain ⟨node, found, _⟩ := device?_eq_some_iff.mp live
  have current : tree.generation id.slot = id.generation
      ↔ 2 ^ 32 ∣ frees id.slot later := by
    rw [first.generation_eq run room, generation_of_node? found, UInt32.add_eq_left,
      UInt32.ofNat_eq_iff_mod_eq_toNat, Nat.dvd_iff_mod_eq_zero]
    rfl
  rw [contains, node?_eq_ite]
  by_cases same : tree.generation id.slot = id.generation
  · rw [if_pos same]
    exact ⟨fun present => ⟨present, current.mp same⟩, (·.1)⟩
  · rw [if_neg same]
    exact ⟨fun absent => absurd absent Bool.false_ne_true,
      fun both => absurd (current.mpr both.2) same⟩

theorem frees_pos (gone : ∃ since ∈ history, id ∈ since.removed)
    : 0 < frees id.slot history := by
  obtain ⟨since, member, removed⟩ := gone
  have counted : id ∈ history.flatMap Moment.removed :=
    List.mem_flatMap.mpr ⟨since, member, removed⟩
  exact List.countP_pos_iff.mpr ⟨id, counted, by simp⟩

/-- As long as a slot has been freed fewer than `2 ^ 32` times, no name of a device that was
removed from it is accepted. Witness: the removal was one of those frees.
-/
theorem Run.not_contains_of_removed (run : (empty hook).Run history tree)
    (room : tree.Addressable) (few : frees id.slot history < 2 ^ 32)
    (gone : ∃ since ∈ history, id ∈ since.removed)
    : tree.contains id = false := by
  obtain ⟨since, member, removed⟩ := gone
  obtain ⟨later, earlier, rfl⟩ := List.append_of_mem member
  obtain ⟨first, _, second⟩ := run.cut_at
  have fromThere : since.before.Run (later ++ [since]) tree :=
    (Run.concat .rest rfl).trans second
  have listed : id ∈ since.before.devices := (List.mem_filter.mp removed).1
  refine Bool.eq_false_iff.mpr fun accepted => ?_
  obtain ⟨_, wraps⟩ := (first.contains_iff_of_listed fromThere room listed).mp accepted
  have freed : 0 < frees id.slot (later ++ [since]) := frees_pos ⟨since, by simp, removed⟩
  have bound := Nat.le_of_dvd freed wraps
  rw [← List.singleton_append, ← List.append_assoc, frees_append] at few
  omega

/-- As long as a slot has been freed fewer than `2 ^ 32` times, no name of it is given out
twice. Witness: induction on the run; a name that was given out before and is not live has
been removed, and is not live after the call either.
-/
theorem Run.issued_nodup {index : Nat} (run : (empty hook).Run history tree)
    (room : tree.Addressable) (few : frees index history < 2 ^ 32)
    : ((history.flatMap Moment.issued).filter (·.slot = index)).Nodup := by
  induction run with
  | rest => simp
  | next run call respond ih =>
      rename_i history tree
      have after := run.next call respond
      have formed := (after.sound room).formed
      rw [frees_cons] at few
      rw [List.flatMap_cons, List.filter_append]
      refine List.nodup_append.mpr
        ⟨?_, ih (Moment.room_before ⟨tree, call, respond⟩ room) (by omega), ?_⟩
      · exact (formed.nodup.filter _).filter _
      · intro id isNew other isOld same
        subst same
        obtain ⟨isNew, here⟩ := List.mem_filter.mp isNew
        obtain ⟨listed, unlisted⟩ := List.mem_filter.mp isNew
        obtain ⟨since, member, issued⟩ := List.mem_flatMap.mp (List.mem_filter.mp isOld).1
        obtain ⟨later, earlier, rfl⟩ := List.append_of_mem member
        obtain ⟨_, _, second⟩ := run.cut_at
        rcases second.stays_or_removed (List.mem_filter.mp issued).1 with stays | gone
        · simp [stays] at unlisted
        · obtain ⟨ending, inLater, removed⟩ := gone
          have stillFew : frees id.slot (⟨tree, call, respond⟩ :: (later ++ since :: earlier))
              < 2 ^ 32 := by
            rw [of_decide_eq_true here, frees_cons]
            exact few
          have absent := after.not_contains_of_removed room stillFew
            ⟨ending, by simp [inLater], removed⟩
          have live := contains_iff.mpr (formed.live_of_mem listed)
          rw [absent] at live
          contradiction

-----------------------------------------------------------------------------------------
-- Refused and accepted names
-----------------------------------------------------------------------------------------

/-- Every operation on the name fails. None asks a driver or changes the tree. -/
structure Refuses (tree : DeviceTree δ η) (id : DeviceId) : Prop where
  init : tree.init id = (tree, .settled (.error .noDevice))
  read
    : ∀ buffer start count,
        tree.read id buffer start count = .settled (.error .noDevice, buffer)
  write : ∀ data start count, tree.write id data start count = .settled (.error .noDevice)
  control : ∀ command, tree.control id command = .settled (.error .noDevice)
  children : tree.children id = .error .noDevice
  parent : tree.parent id = .error .noDevice
  partition : tree.partition id = .error .noDevice
  info : tree.info id = .error .noDevice
  unregister : tree.unregister id = ⟨.error .noDevice, tree, [], []⟩

/-- A name that the tree does not contain is refused, also by a tree without slots. -/
theorem refuses_of_not_contains (absent : tree.contains id = false) : tree.Refuses id := by
  have none : tree.node? id = none := by simpa [contains] using absent
  have noDevice : tree.device? id = Option.none := by simp [device?, none]
  have nowhere (steps : Nat) (sector : UInt32)
      : tree.locate steps id sector = .error .noDevice := by
    cases steps with
    | zero => rfl
    | succ steps => simp [locate, noDevice]
  have uncontrolled (steps : Nat) (command : Command)
      : tree.controlWithin command steps id = .settled (.error .noDevice) := by
    cases steps with
    | zero => rfl
    | succ steps => simp [controlWithin, noDevice]
  exact {
    init := by simp [DeviceTree.init, none]
    read := by simp [DeviceTree.read, nowhere]
    write := by simp [DeviceTree.write, nowhere]
    control := fun command => uncontrolled _ command
    children := by simp [DeviceTree.children, query, none]
    parent := by simp [DeviceTree.parent, query, none]
    partition := by simp [DeviceTree.partition, query, none]
    info := by simp [DeviceTree.info, query, none]
    unregister := by simp [DeviceTree.unregister, none]
  }

/-- Operations on the name act on the device of `node`: a disk's driver is asked for what
the name is asked for, and a partition passes it on to its disk.
-/
structure ActsOn (tree : DeviceTree δ η) (id : DeviceId) (node : Node δ) : Prop where
  children : tree.children id = .ok node.children
  parent : tree.parent id = .ok node.device.parent?
  partition : tree.partition id = .ok node.device.partition?
  info
    : tree.info id
      = .ok ⟨id, node.device.parent?, node.device.partition?, node.children⟩
  onDisk
    : ∀ driver,
        node.device = .disk driver
        → (tree.init id).2.request? = some (driver, .init)
          ∧ (∀ buffer start count,
              (tree.read id buffer start count).request?
              = some (driver, .read buffer start count))
          ∧ (∀ data start count,
              (tree.write id data start count).request?
              = some (driver, .write data start count))
          ∧ (∀ command, (tree.control id command).request? = some (driver, .control command))
          ∧ (tree.unregister id).result = .ok ()
  onPartition
    : ∀ range disk,
        node.device = .partition range disk
        → (tree.init id).2 = .settled (.ok ())
          ∧ (∀ buffer start count,
              tree.read id buffer start count
              = if range.start.toNat + start.toNat < UInt32.size then
                  tree.read disk buffer (range.start + start) count
                else .settled (.error .invalidArgument, buffer))
          ∧ (∀ data start count,
              tree.write id data start count
              = if range.start.toNat + start.toNat < UInt32.size then
                  tree.write disk data (range.start + start) count
                else .settled (.error .invalidArgument))
          ∧ (∀ command,
              tree.control id command
              = if command = .getSize then .settled (.ok range.count)
                else tree.control disk command)
          ∧ (tree.unregister id).result = .error .invalidArgument

theorem WellFormed.actsOn (formed : tree.WellFormed) (found : tree.node? id = some node)
    : tree.ActsOn id node := by
  refine {
    children := by simp [children, query, found]
    parent := by simp [parent, query, found]
    partition := by simp [partition, query, found]
    info := by simp [info, query, found]
    onDisk := ?onDisk
    onPartition := ?onPartition
  }
  case onDisk =>
    intro driver isDisk
    have live : tree.device? id = some (.disk driver) := isDisk ▸ device?_of_node? found
    refine ⟨?_, ?_, ?_, ?_, ?_⟩
    · simp [init, found, isDisk, Inquiry.request?]
    · simp [read_of_disk live, Inquiry.request?]
    · simp [write_of_disk live, Inquiry.request?]
    · simp [control_of_disk live, Inquiry.request?]
    · simp [unregister, found, isDisk, Device.parent?]
  case onPartition =>
    intro range disk isPartition
    have live : tree.device? id = some (.partition range disk) :=
      isPartition ▸ device?_of_node? found
    refine ⟨?_, formed.read_of_partition live, formed.write_of_partition live,
      formed.control_of_partition live, ?_⟩
    · simp [init, found, isPartition]
    · simp [unregister, found, isPartition, Device.parent?]

-----------------------------------------------------------------------------------------
-- A generation that comes back
-----------------------------------------------------------------------------------------

/-- A tree whose only slot is free. -/
def vacant (hook : Option η) (generation : UInt32) : DeviceTree δ η :=
  ⟨#[⟨generation, none⟩], [], hook⟩

/-- A tree whose only slot holds a disk without partitions. -/
def occupied (hook : Option η) (generation : UInt32) (driver : δ) : DeviceTree δ η :=
  ⟨#[⟨generation, some ⟨.disk driver, 0⟩⟩], [⟨0, generation⟩], hook⟩

/-- The removal of a disk. -/
def removal (tree : DeviceTree δ η) (id : DeviceId) : Moment δ η :=
  ⟨tree, .unregister id, fun _ => .unsupported⟩

theorem registration_empty (hook : Option η) (driver : δ)
    : (registration (empty hook) driver).after = occupied hook 0 driver := by
  simp [registration_after, empty, occupied, insert]

theorem registration_vacant (hook : Option η) (generation : UInt32) (driver : δ)
    : (registration (vacant hook generation) driver).after
      = occupied hook generation driver := by
  simp [registration_after, vacant, occupied, insert]

/-- When the disk goes, its slot is free and in the next generation. -/
theorem removal_occupied (hook : Option η) (generation : UInt32) (driver : δ)
    : (removal (occupied hook generation driver) ⟨0, generation⟩).after
      = vacant hook (generation + 1) := by
  simp [removal, Moment.after, unregister, occupied, vacant, node?, family, Device.parent?,
    remove, DeviceId.slot]

/-- A free slot can be taken and freed as often as one likes. Witness: induction on the
number of rounds.
-/
theorem exists_run_of_rounds (hook : Option η) (driver : δ) (generation : UInt32)
    (rounds : Nat)
    : ∃ history : List (Moment δ η),
        (vacant hook generation).Run history
          (vacant hook (generation + .ofNat rounds)) := by
  induction rounds with
  | zero => exact ⟨[], by simpa using Run.rest⟩
  | succ rounds ih =>
      obtain ⟨history, run⟩ := ih
      have taken
          : (vacant hook generation).Run
              (registration (vacant hook (generation + .ofNat rounds)) driver :: history)
              (occupied hook (generation + .ofNat rounds) driver) :=
        run.concat (registration_vacant hook _ driver)
      have freed
          : (vacant hook generation).Run
              (removal (occupied hook (generation + .ofNat rounds) driver) ⟨0, _⟩
                :: registration (vacant hook (generation + .ofNat rounds)) driver
                :: history)
              (vacant hook (generation + .ofNat rounds + 1)) :=
        taken.concat (removal_occupied hook _ driver)
      have sum : generation + .ofNat rounds + 1 = generation + .ofNat (rounds + 1) := by
        rw [UInt32.ofNat_add, UInt32.add_assoc]
        rfl
      exact ⟨_, sum ▸ freed⟩

/-- After `2 ^ 32` rounds the first name is given out again, for whichever disk comes then.
Witness: one round from the tree without devices, `2 ^ 32 - 1` rounds from there, and the
second disk.
-/
theorem exists_reissued (hook : Option η) (old new : δ)
    : ∃ (later : List (Moment δ η)) (moment : Moment δ η) (tree : DeviceTree δ η)
        (id : DeviceId),
        (empty hook).Run (later ++ [moment]) tree
        ∧ tree.Addressable
        ∧ moment.call = .register old
        ∧ moment.registered? = some id
        ∧ (∃ since ∈ later, id ∈ since.removed)
        ∧ tree.device? id = some (.disk new) := by
  let first : Moment δ η := registration (empty hook) old
  let second : Moment δ η := removal (occupied hook 0 old) ⟨0, 0⟩
  obtain ⟨rounds, run⟩ := exists_run_of_rounds hook old 1 (2 ^ 32 - 1)
  have taken : (empty hook).Run [first] (occupied hook 0 old) :=
    Run.concat .rest (registration_empty hook old)
  have freed : (empty hook).Run [second, first] (vacant hook 1) :=
    Run.concat taken (removal_occupied hook 0 old)
  have back : (empty hook).Run (rounds ++ [second, first]) (vacant hook 0) :=
    freed.trans run
  have again
      : (empty hook).Run (registration (vacant hook 0) new :: rounds ++ [second] ++ [first])
          (occupied hook 0 new) := by
    rw [List.append_assoc]
    exact back.concat (registration_vacant hook 0 new)
  have gone : (⟨0, 0⟩ : DeviceId) ∈ second.removed := by
    rw [Moment.removed, removal_occupied]
    simp [second, removal, occupied, vacant, devices]
  have room : (occupied hook 0 new).Addressable := by
    simp [Addressable, occupied, UInt32.size]
  refine ⟨_, first, _, ⟨0, 0⟩, again, room, rfl, ?_, ⟨second, by simp, gone⟩, ?_⟩
  · simp [first, registration, Moment.registered?, result_register, insert, empty]
  · simp [occupied, device?, node?, DeviceId.slot]

-----------------------------------------------------------------------------------------
-- Stale names
-----------------------------------------------------------------------------------------

/-- As long as every slot has a number that fits into a name, a name that was given out and
whose device has gone since is refused, unless its slot is taken and has been freed a
multiple of `2 ^ 32` times since. Then it is accepted again and acts on what is in the slot.
Up to that many frees of a slot, its names are all different, and none that has gone is
accepted. Beyond, a name can reach a disk that it was not given out for. Witness:
`Run.contains_iff_of_listed` from the call that gave the name out, and `exists_reissued`.
-/
theorem stale_names_are_refused (run : (empty hook).Run history tree)
    (room : tree.Addressable)
    : (∀ later moment earlier id,
        history = later ++ moment :: earlier
        → id ∈ moment.issued
        → (∃ since ∈ later, id ∈ since.removed)
        → (tree.contains id = true
            ↔ (tree.occupant? id.slot).isSome = true
              ∧ 0 < frees id.slot later
              ∧ 2 ^ 32 ∣ frees id.slot later)
          ∧ (tree.contains id = false → tree.Refuses id)
          ∧ (tree.contains id = true
            → ∃ node, tree.occupant? id.slot = some node ∧ tree.ActsOn id node))
      ∧ (∀ index,
          frees index history < 2 ^ 32
          → ((history.flatMap Moment.issued).filter (·.slot = index)).Nodup
            ∧ ∀ since ∈ history, ∀ id ∈ since.removed, id.slot = index → tree.Refuses id)
      ∧ ∀ old new : δ,
          ∃ (later : List (Moment δ η)) (moment : Moment δ η) (tree : DeviceTree δ η)
            (id : DeviceId),
            (empty hook).Run (later ++ [moment]) tree
            ∧ tree.Addressable
            ∧ moment.call = .register old
            ∧ moment.registered? = some id
            ∧ (∃ since ∈ later, id ∈ since.removed)
            ∧ tree.device? id = some (.disk new) := by
  refine ⟨?_, ?_, exists_reissued hook⟩
  · intro later moment earlier id cut issued gone
    subst cut
    obtain ⟨_, first, second⟩ := run.cut_at
    have listed : id ∈ moment.after.devices := (List.mem_filter.mp issued).1
    refine ⟨?_, refuses_of_not_contains, fun accepted => ?_⟩
    · rw [first.contains_iff_of_listed second room listed]
      exact ⟨fun ⟨taken, wraps⟩ => ⟨taken, frees_pos gone, wraps⟩,
        fun ⟨taken, _, wraps⟩ => ⟨taken, wraps⟩⟩
    · obtain ⟨node, found⟩ := Option.isSome_iff_exists.mp accepted
      exact ⟨node, occupant?_of_node? found, (run.sound room).formed.actsOn found⟩
  · intro index few
    refine ⟨run.issued_nodup room few, fun since member id gone here => ?_⟩
    exact refuses_of_not_contains
      (run.not_contains_of_removed room (here ▸ few) ⟨since, member, gone⟩)

/-- A disk with a partition goes, and another disk takes its slot: both old names are
refused.
-/
theorem stale_names_are_refused_of_reused_slot
    : let given : Moment Buffer Unit :=
        ⟨empty (some ()), .register (bootSector [⟨0x80, 0x83, 2048, 100⟩]),
          DiskResponder.ofSector⟩
      let ended : Moment Buffer Unit :=
        ⟨given.after, .unregister ⟨0, 0⟩, DiskResponder.ofSector⟩
      let taken : Moment Buffer Unit :=
        ⟨ended.after, .register (bootSector []), DiskResponder.ofSector⟩
      given.issued = [⟨0, 0⟩, ⟨1, 0⟩]
      ∧ ended.removed = [⟨0, 0⟩, ⟨1, 0⟩]
      ∧ taken.after.devices = [⟨0, 1⟩]
      ∧ (taken.after.occupant? 0).isSome = true
      ∧ frees 0 [taken, ended] = 1
      ∧ taken.after.Refuses ⟨0, 0⟩
      ∧ taken.after.Refuses ⟨1, 0⟩ := by
  intro given ended taken
  have first : (empty (some ())).Run [given] given.after := .next .rest _ _
  have second : (empty (some ())).Run [ended, given] ended.after := .next first _ _
  have run : (empty (some ())).Run [taken, ended, given] taken.after := .next second _ _
  have room : taken.after.Addressable := by decide +kernel
  obtain ⟨stale, _⟩ := stale_names_are_refused run room
  obtain ⟨_, disk, _⟩ := stale [taken, ended] given [] ⟨0, 0⟩ rfl (by decide +kernel)
    ⟨ended, by simp, by decide +kernel⟩
  obtain ⟨_, partition, _⟩ := stale [taken, ended] given [] ⟨1, 0⟩ rfl (by decide +kernel)
    ⟨ended, by simp, by decide +kernel⟩
  exact ⟨by decide +kernel, by decide +kernel, by decide +kernel, by decide +kernel,
    by decide +kernel, disk (by decide +kernel), partition (by decide +kernel)⟩

end StorageSwitch.Block.DeviceTree
