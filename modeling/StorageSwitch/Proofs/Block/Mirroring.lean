import StorageSwitch.Proofs.Block.Registration

/-! Whoever hears what the hook is told can follow the tree. Events come in an order in which
each can be carried out: a disk is announced after its partitions, though it is put into the
tree before them, and it is retired after them. When a call returns, what has been heard is
what the tree holds.
-/

namespace StorageSwitch.Block.DeviceTree

variable {δ η : Type} {tree grown left : DeviceTree δ η} {history : List (Moment δ η)}
  {hook : η} {id disk : DeviceId} {known infos : List DeviceInfo}
  {parts : List (DeviceId × Partition)}

-----------------------------------------------------------------------------------------
-- What is heard
-----------------------------------------------------------------------------------------

/-- What hooks are told in the course of a call. -/
def Moment.told (moment : Moment δ η) : List (η × HookEvent) :=
  match moment.call with
  | .register driver => ((moment.before.register driver).run moment.respond).events
  | .unregister id => (moment.before.unregister id).events
  | .init _ | .setHook _ | .read _ _ _ _ | .write _ _ _ _ | .control _ _ => []

/-- What hooks are told in the course of a run, the earliest first. -/
def told (history : List (Moment δ η)) : List (η × HookEvent) :=
  history.reverse.flatMap Moment.told

/-- What a listener knows after an event: the devices that were announced and not retired,
as they were announced.
-/
def hear (known : List DeviceInfo) : HookEvent → List DeviceInfo
  | .registered info => known ++ [info]
  | .unregistered id => known.filter (·.id ≠ id)

/-- What a listener knows that has heard of nothing before. -/
def replay (events : List HookEvent) : List DeviceInfo := events.foldl hear []

/-- A device may be announced if it is unknown, and as long as the device that it lies on is
unknown.
-/
def Announceable (known : List DeviceInfo) (info : DeviceInfo) : Prop :=
  ∀ other ∈ known, other.id ≠ info.id ∧ info.parent ≠ some other.id

/-- A device may be retired if it is known, and as soon as nothing known lies on it. -/
def Retirable (known : List DeviceInfo) (id : DeviceId) : Prop :=
  id ∈ known.map (·.id) ∧ ∀ other ∈ known, other.parent ≠ some id

/-- Every event fits what is known when it is heard. -/
def Coherent (known : List DeviceInfo) : List HookEvent → Prop
  | [] => True
  | .registered info :: later =>
      Announceable known info ∧ Coherent (hear known (.registered info)) later
  | .unregistered id :: later =>
      Retirable known id ∧ Coherent (hear known (.unregistered id)) later

/-- A listener knows the devices of a tree, each once and as what it is. -/
structure Mirrors (known : List DeviceInfo) (tree : DeviceTree δ η) : Prop where
  devices : (known.map (·.id)).Perm tree.devices
  places
    : ∀ info ∈ known, ∃ device,
        tree.device? info.id = some device
        ∧ device.parent? = info.parent
        ∧ device.partition? = info.partition

theorem coherent_append_iff {first second : List HookEvent}
    : Coherent known (first ++ second)
      ↔ Coherent known first ∧ Coherent (first.foldl hear known) second := by
  induction first generalizing known with
  | nil => simp [Coherent]
  | cons event rest ih => cases event <;> simp [Coherent, ih, and_assoc]

/-- Devices can be announced one after another if none is known, none is announced twice,
and none follows the device that it lies on.
-/
theorem coherent_registered (new : ∀ info ∈ infos, Announceable known info)
    (ordered
      : infos.Pairwise fun earlier later =>
          earlier.id ≠ later.id ∧ later.parent ≠ some earlier.id)
    : Coherent known (infos.map .registered) := by
  induction infos generalizing known with
  | nil => trivial
  | cons info rest ih =>
      obtain ⟨first, later⟩ := List.forall_mem_cons.mp new
      obtain ⟨after, ordered⟩ := List.pairwise_cons.mp ordered
      refine ⟨first, ih (fun next member other heard => ?_) ordered⟩
      rcases List.mem_append.mp heard with old | isFirst
      · exact later next member other old
      · rw [List.mem_singleton.mp isFirst]
        exact after next member

theorem foldl_hear_registered (infos known : List DeviceInfo)
    : (infos.map HookEvent.registered).foldl hear known = known ++ infos := by
  induction infos generalizing known with
  | nil => simp
  | cons info rest ih => simp [hear, ih]

/-- Devices can be retired one after another if they are known, none is retired twice, and
nothing known lies on them.
-/
theorem coherent_unregistered {ids : List DeviceId} (distinct : ids.Nodup)
    (retirable : ∀ id ∈ ids, Retirable known id)
    : Coherent known (ids.map .unregistered) := by
  induction ids generalizing known with
  | nil => trivial
  | cons id rest ih =>
      obtain ⟨first, later⟩ := List.forall_mem_cons.mp retirable
      obtain ⟨absent, distinct⟩ := List.nodup_cons.mp distinct
      refine ⟨first, ih distinct fun next member => ?_⟩
      obtain ⟨isKnown, bare⟩ := later next member
      obtain ⟨info, heard, rfl⟩ := List.mem_map.mp isKnown
      have apart : info.id ≠ id := fun same => absent (same ▸ member)
      exact ⟨List.mem_map.mpr ⟨info, List.mem_filter.mpr ⟨heard, by simpa using apart⟩, rfl⟩,
        fun other stays => bare other (List.mem_filter.mp stays).1⟩

theorem foldl_hear_unregistered (ids : List DeviceId) (known : List DeviceInfo)
    : (ids.map HookEvent.unregistered).foldl hear known
      = known.filter (·.id ∉ ids) := by
  induction ids generalizing known with
  | nil => simp [List.filter_eq_self.mpr]
  | cons id rest ih =>
      rw [List.map_cons, List.foldl_cons, ih, hear, List.filter_filter]
      refine List.filter_congr fun info _ => ?_
      simp [Bool.and_comm]

-----------------------------------------------------------------------------------------
-- What a call tells
-----------------------------------------------------------------------------------------

theorem tell_of_hook (toHook : tree.hook = some hook) (events : List HookEvent)
    : tree.tell events = events.map fun event => (hook, event) := by
  rw [tell, toHook]

theorem hook_register (tree : DeviceTree δ η) (driver : δ) (respond : δ → DiskResponder)
    : ((tree.register driver).run respond).tree.hook = tree.hook := by
  have step {before after : DeviceTree δ η} {disk id : DeviceId} {range : Partition}
      (kept : before.hook = tree.hook)
      (added : before.addPartition disk range = .ok (id, after))
      : after.hook = tree.hook := by
    obtain ⟨_, _, rfl, rfl⟩ := addPartition_eq_ok added
    simpa using kept
  rcases tree.register_tree driver respond with same | ⟨_, reply, _, listed⟩
  · simp [same]
  · rw [listed]
    exact addListed_keeps step (by simp) reply

/-- What a registration announces: the partitions, and then the disk that counts them. -/
def announced (disk : DeviceId) (parts : List (DeviceId × Partition)) : List DeviceInfo :=
  parts.map (fun part => ⟨part.1, some disk, some part.2, 0⟩)
    ++ [⟨disk, none, none, parts.length⟩]

theorem ids_announced (disk : DeviceId) (parts : List (DeviceId × Partition))
    : (announced disk parts).map (·.id) = parts.map (·.1) ++ [disk] := by
  simp [announced, Function.comp_def]

/-- A device that is announced is a partition of the new disk, or the disk. -/
theorem mem_announced_iff {info : DeviceInfo}
    : info ∈ announced disk parts
      ↔ (∃ part ∈ parts, info = ⟨part.1, some disk, some part.2, 0⟩)
        ∨ info = ⟨disk, none, none, parts.length⟩ := by
  simp [announced, eq_comm]

section Register

variable {driver : δ} {outcome : Outcome δ η DeviceId}
  (registers : tree.Registers driver parts outcome)

include registers

theorem Registers.told_eq (toHook : tree.hook = some hook)
    : outcome.events
      = ((announced outcome.result parts).map .registered).map fun event => (hook, event) := by
  rw [registers.events, tell_of_hook toHook]
  simp [announced, Function.comp_def]

/-- What is announced is what the tree says of the devices when the registration is over. -/
theorem Registers.info_eq {info : DeviceInfo}
    (member : info ∈ announced outcome.result parts)
    : outcome.tree.info info.id = .ok info := by
  rcases mem_announced_iff.mp member with ⟨part, inParts, rfl⟩ | rfl
  · simp [DeviceTree.info, query, registers.partitions part inParts, Device.parent?,
      Device.partition?]
  · simp [DeviceTree.info, query, registers.disk, Device.parent?, Device.partition?]

/-- No device of the tree has a name that is given out. -/
theorem Registers.not_new (formed : tree.WellFormed) (listed : id ∈ tree.devices)
    : id ∉ outcome.result :: parts.map (·.1) := by
  intro isNew
  have live := contains_iff.mpr ((formed.mem_order_iff id).mp listed)
  rw [registers.fresh id isNew] at live
  contradiction

/-- No partition has the name of its disk. -/
theorem Registers.part_ne_disk {part : DeviceId × Partition} (member : part ∈ parts)
    : part.1 ≠ outcome.result := by
  obtain ⟨absent, _⟩ := List.nodup_cons.mp registers.distinct
  exact fun same => absent (same ▸ List.mem_map_of_mem member)

theorem Registers.coherent (formed : tree.WellFormed) (mirrors : Mirrors known tree)
    : Coherent known ((announced outcome.result parts).map .registered) := by
  refine coherent_registered (fun info member other heard => ?_) ?_
  · have absent : other.id ∉ outcome.result :: parts.map (·.1) :=
      registers.not_new formed (mirrors.devices.subset (List.mem_map_of_mem heard))
    obtain ⟨notDisk, notPart⟩ := List.ne_and_not_mem_of_not_mem_cons absent
    rcases mem_announced_iff.mp member with ⟨part, inParts, rfl⟩ | rfl
    · have apart : other.id ≠ part.1 := fun same =>
        notPart (same ▸ List.mem_map_of_mem inParts)
      exact ⟨apart, by simpa using Ne.symm notDisk⟩
    · exact ⟨notDisk, by simp⟩
  · refine List.pairwise_append.mpr ⟨?_, by simp, ?_⟩
    · -- partitions have different names, none of which is that of the disk they lie on
      obtain ⟨_, distinct⟩ := List.nodup_cons.mp registers.distinct
      rw [List.pairwise_map]
      refine (List.pairwise_map.mp distinct).imp_of_mem ?_
      intro earlier later inParts _ apart
      exact ⟨apart, by simpa using (registers.part_ne_disk inParts).symm⟩
    · intro earlier isPart later isDisk
      obtain ⟨part, inParts, rfl⟩ := List.mem_map.mp isPart
      rw [List.mem_singleton.mp isDisk]
      exact ⟨registers.part_ne_disk inParts, by simp⟩

theorem Registers.mirrors (formed : tree.WellFormed) (mirrors : Mirrors known tree)
    : Mirrors (known ++ announced outcome.result parts) outcome.tree where
  devices := by
    rw [List.map_append, ids_announced, registers.devices]
    exact mirrors.devices.append (List.perm_append_singleton _ _)
  places info heard := by
    rcases List.mem_append.mp heard with old | new
    · have listed := mirrors.devices.subset (List.mem_map_of_mem old)
      have same := registers.others info.id (registers.not_new formed listed)
      simpa only [device?, same] using mirrors.places info old
    · rcases mem_announced_iff.mp new with ⟨part, inParts, rfl⟩ | rfl
      · exact ⟨_, device?_of_node? (registers.partitions part inParts), rfl, rfl⟩
      · exact ⟨_, device?_of_node? registers.disk, rfl, rfl⟩

end Register

/-- Only disks have devices that lie on them. -/
theorem Mirrors.parent_isDisk (mirrors : Mirrors known tree) (formed : tree.WellFormed)
    {info : DeviceInfo} (heard : info ∈ known) (lies : info.parent = some disk)
    : (∃ range, tree.device? info.id = some (.partition range disk))
      ∧ ∃ driver, tree.device? disk = some (.disk driver) := by
  obtain ⟨device, found, parent, _⟩ := mirrors.places info heard
  cases device with
  | disk driver => simp [Device.parent?, lies] at parent
  | partition range other =>
      obtain rfl : other = disk := by simpa [Device.parent?, lies] using parent
      exact ⟨⟨range, found⟩, formed.rooted found⟩

/-- The family of a disk can be retired. Witness: nothing lies on a partition, and what lies
on the disk are its partitions, which have gone before.
-/
theorem Mirrors.coherent_family (mirrors : Mirrors known tree) (formed : tree.WellFormed)
    {driver : δ} (live : tree.device? disk = some (.disk driver))
    : Coherent known ((tree.family disk).map .unregistered) := by
  have isKnown {id : DeviceId} (listed : id ∈ tree.devices) : id ∈ known.map (·.id) :=
    mirrors.devices.symm.subset listed
  have listed : disk ∈ tree.devices := (formed.mem_order_iff disk).mpr ⟨_, live⟩
  rw [formed.family_eq live, List.map_append, coherent_append_iff,
    foldl_hear_unregistered]
  refine ⟨coherent_unregistered (formed.nodup.filter _) fun part member => ?_, ?_, trivial⟩
  · obtain ⟨inOrder, range, found⟩ := mem_partitionsOf_iff.mp member
    refine ⟨isKnown inOrder, fun other heard lies => ?_⟩
    obtain ⟨_, root, isDisk⟩ := mirrors.parent_isDisk formed heard lies
    simp [found] at isDisk
  · have notPart : disk ∉ tree.partitionsOf disk := by
      simp [mem_partitionsOf_iff, live]
    obtain ⟨info, heard, same⟩ := List.mem_map.mp (isKnown listed)
    refine ⟨List.mem_map.mpr ⟨info, ?_, same⟩, fun other stays lies => ?_⟩
    · exact List.mem_filter.mpr ⟨heard, by simpa [same] using notPart⟩
    · obtain ⟨heard, away⟩ := List.mem_filter.mp stays
      obtain ⟨range, _⟩ := mirrors.parent_isDisk formed heard lies
      have inOrder := mirrors.devices.subset (List.mem_map_of_mem heard)
      simp [mem_partitionsOf_iff.mpr ⟨inOrder, range⟩] at away

/-- A listener that forgets the devices that go still mirrors the tree. -/
theorem Mirrors.drops {gone : List DeviceId} (mirrors : Mirrors known tree)
    (drops : tree.Drops gone left)
    : Mirrors (known.filter (·.id ∉ gone)) left where
  devices := by
    have kept := mirrors.devices.filter (· ∉ gone)
    rw [List.filter_map] at kept
    rwa [DeviceTree.devices, drops.order]
  places info stays := by
    obtain ⟨heard, away⟩ := List.mem_filter.mp stays
    rw [drops.device?, if_neg (by simpa using away)]
    exact mirrors.places info heard

theorem Mirrors.congr (mirrors : Mirrors known tree)
    (devices : ∀ id, grown.device? id = tree.device? id) (order : grown.order = tree.order)
    : Mirrors known grown where
  devices := by simpa only [DeviceTree.devices, order] using mirrors.devices
  places info heard := by simpa only [devices] using mirrors.places info heard

-----------------------------------------------------------------------------------------
-- Calls and runs
-----------------------------------------------------------------------------------------

/-- What the hook is told in the course of a call leads a listener from the devices before
the call to those after it, and says of each new device what the tree says of it when the
call returns.
-/
structure Moment.Reports (moment : Moment δ η) (hook : η) (known : List DeviceInfo)
    (events : List HookEvent) : Prop where
  told : moment.told = events.map fun event => (hook, event)
  coherent : Coherent known events
  mirrors : Mirrors (events.foldl hear known) moment.after
  hook : moment.after.hook = some hook
  info_eq
    : ∀ info, .registered info ∈ events → moment.after.info info.id = .ok info

/-- A call that tells nothing leaves all devices as they are. -/
theorem Moment.reports_nil {moment : Moment δ η} (told : moment.told = [])
    (toHook : moment.after.hook = some hook) (mirrors : Mirrors known moment.after)
    : moment.Reports hook known [] where
  told := told
  coherent := trivial
  mirrors := mirrors
  hook := toHook
  info_eq := by simp

theorem Moment.exists_reports (moment : Moment δ η) (formed : moment.before.WellFormed)
    (room : moment.after.Addressable) (toHook : moment.before.hook = some hook)
    (unswapped : ∀ other, moment.call ≠ .setHook other)
    (mirrors : Mirrors known moment.before)
    : ∃ events, moment.Reports hook known events := by
  obtain ⟨tree, call, respond⟩ := moment
  cases call with
  | register driver =>
      obtain ⟨parts, _, registers⟩ := register_registers room
      refine ⟨_, {
        told := registers.told_eq toHook
        coherent := registers.coherent formed mirrors
        mirrors := ?_
        hook := (hook_register tree driver respond).trans toHook
        info_eq := fun info member => registers.info_eq (by simpa using member)
      }⟩
      rw [foldl_hear_registered]
      exact registers.mirrors formed mirrors
  | unregister id =>
      rcases tree.unregister_cases id with ⟨error, refused⟩ | ⟨driver, live, removed⟩
      · have same : (tree.unregister id).tree = tree := by rw [refused]
        refine ⟨[], Moment.reports_nil ?_ ?_ ?_⟩
        · simp [Moment.told, refused]
        · simpa [Moment.after, same] using toHook
        · simpa [Moment.after, same] using mirrors
      · have drops : tree.Drops (tree.family id) (tree.unregister id).tree := by
          rw [removed]
          exact drops_foldl_remove tree _
        refine ⟨(tree.family id).map .unregistered, {
          told := by simp [Moment.told, removed, tell_of_hook toHook]
          coherent := mirrors.coherent_family formed live
          mirrors := ?_
          hook := drops.hook.trans toHook
          info_eq := by simp
        }⟩
        rw [foldl_hear_unregistered]
        exact mirrors.drops drops
  | init id =>
      refine ⟨[], Moment.reports_nil rfl ?_ ?_⟩
      · simpa [Moment.after, init_tree] using toHook
      · simpa only [Moment.after, init_tree]
          using mirrors.congr (fun _ => device?_setChildren 0) (order_setChildren 0)
  | setHook other => exact absurd rfl (unswapped other)
  | read _ _ _ _ | write _ _ _ _ | control _ _ =>
      exact ⟨[], Moment.reports_nil rfl toHook mirrors⟩

theorem told_cons (moment : Moment δ η) (history : List (Moment δ η))
    : told (moment :: history) = told history ++ moment.told := by
  simp [told]

theorem told_concat (history : List (Moment δ η)) (first : Moment δ η)
    : told (history ++ [first]) = first.told ++ told history := by
  simp [told]

/-- What the hook is told in the course of a run leads a listener from nothing to the devices
at its end. Witness: induction on the run.
-/
theorem Run.mirrors (run : (empty (some hook)).Run history tree)
    (room : tree.Addressable)
    (unswapped : ∀ moment ∈ history, ∀ other, moment.call ≠ .setHook other)
    : ∃ events,
        told history = events.map (fun event => (hook, event))
        ∧ Coherent [] events
        ∧ Mirrors (replay events) tree
        ∧ tree.hook = some hook
        ∧ ∀ moment ∈ history, ∀ info,
            (hook, .registered info) ∈ moment.told
            → moment.after.info info.id = .ok info := by
  induction run with
  | rest => exact ⟨[], rfl, trivial, ⟨.refl _, by simp [replay]⟩, rfl, by simp⟩
  | @next history tree run call respond ih =>
      obtain ⟨last, earlier⟩ := List.forall_mem_cons.mp unswapped
      have roomBefore := Moment.room_before ⟨tree, call, respond⟩ room
      obtain ⟨events, heard, coherent, mirrors, toHook, infos⟩ := ih roomBefore earlier
      obtain ⟨more, reports⟩ :=
        Moment.exists_reports ⟨tree, call, respond⟩ (run.sound roomBefore).formed room toHook
          last mirrors
      refine ⟨events ++ more, ?_, ?_, ?_, reports.hook, ?_⟩
      · rw [told_cons, heard, reports.told, List.map_append]
      · exact coherent_append_iff.mpr ⟨coherent, reports.coherent⟩
      · rw [replay, List.foldl_append]
        exact reports.mirrors
      · refine List.forall_mem_cons.mpr ⟨fun info announced => ?_, infos⟩
        rw [reports.told] at announced
        exact reports.info_eq info (by simpa using announced)

/-- A hook that is never exchanged is told all that is needed to know the devices, as long as
every slot has a number that fits into a name. After every run, and so after each of its
calls, replaying what the hook was told gives the devices of the tree. On the way no device
is announced that is known, none is retired that is unknown, no partition is announced when
its disk is known already, and no disk is retired while a partition of it is known; but when
a call returns, the disk of every partition is known. What is said of a device when it is
announced is what the tree says of it when the registration returns.
-/
theorem hook_mirrors_devices (run : (empty (some hook)).Run history tree)
    (room : tree.Addressable)
    (unswapped : ∀ moment ∈ history, ∀ other, moment.call ≠ .setHook other)
    : ∃ events,
        told history = events.map (fun event => (hook, event))
        ∧ Coherent [] events
        ∧ Mirrors (replay events) tree
        ∧ (∀ info ∈ replay events, ∀ disk,
            info.parent = some disk → disk ∈ (replay events).map (·.id))
        ∧ ∀ moment ∈ history, ∀ info,
            (hook, .registered info) ∈ moment.told
            → moment.after.info info.id = .ok info := by
  obtain ⟨events, heard, coherent, mirrors, _, infos⟩ := run.mirrors room unswapped
  have formed := (run.sound room).formed
  refine ⟨events, heard, coherent, mirrors, fun info known disk lies => ?_, infos⟩
  obtain ⟨_, driver, live⟩ := mirrors.parent_isDisk formed known lies
  exact mirrors.devices.symm.subset ((formed.mem_order_iff disk).mpr ⟨_, live⟩)

/-- A disk with two partitions goes, and a disk with one takes two of their slots; another
disk has stayed and was initialised since.
-/
theorem hook_mirrors_devices_of_reused_slots
    : let calls : List (Call Buffer String) := [
        .register (bootSector [⟨0x80, 0x83, 2048, 100⟩, ⟨1, 0x07, 4096, 50⟩]),
        .register (bootSector [⟨0x80, 0x0C, 63, 10⟩]),
        .unregister ⟨0, 0⟩,
        .unregister ⟨4, 0⟩,
        .register (bootSector [⟨0x80, 0x0C, 8, 8⟩]),
        .init ⟨3, 0⟩
      ]
      let played := (empty (some "log")).play DiskResponder.ofSector calls
      ∃ events,
        told played.1 = events.map (fun event => ("log", event))
        ∧ Coherent [] events
        ∧ Mirrors (replay events) played.2
        ∧ replay events
          = [⟨⟨4, 0⟩, some ⟨3, 0⟩, some ⟨63, 10⟩, 0⟩, ⟨⟨3, 0⟩, none, none, 1⟩,
              ⟨⟨1, 1⟩, some ⟨0, 1⟩, some ⟨8, 8⟩, 0⟩, ⟨⟨0, 1⟩, none, none, 1⟩]
        ∧ played.2.devices = [⟨3, 0⟩, ⟨4, 0⟩, ⟨0, 1⟩, ⟨1, 1⟩] := by
  intro calls played
  have unswapped : ∀ moment ∈ played.1, ∀ other, moment.call ≠ .setHook other := by
    intro moment member other swaps
    have listed := call_mem_of_play member
    rw [swaps] at listed
    simp [calls] at listed
  obtain ⟨events, heard, coherent, mirrors, _⟩ :=
    hook_mirrors_devices (run_play _ _ calls) (by decide +kernel) unswapped
  have same : events = (told played.1).map (·.2) := by simp [played, heard]
  refine ⟨events, heard, coherent, mirrors, ?_⟩
  rw [same]
  decide +kernel

/-- The disks of a crowd are announced one after another, by names that keep thirty-two bits
of their numbers. Witness: induction on the disks that are still to come.
-/
theorem told_crowd (driver : δ) (count more : Nat)
    : told ((crowd (some hook) driver count).play (fun _ => .unsupported)
        (List.replicate more (.register driver))).1
      = (List.range' count more).map fun number =>
          (hook, .registered ⟨⟨.ofNat number, 0⟩, none, none, 0⟩) := by
  induction more generalizing count with
  | zero => rfl
  | succ more ih =>
      have after := registration_crowd (some hook) driver count
      have announces
          : (registration (crowd (some hook) driver count) driver).told
            = [(hook, .registered ⟨⟨.ofNat count, 0⟩, none, none, 0⟩)] := by
        have live
            : (crowd (some hook) driver (count + 1)).node? ⟨.ofNat count, 0⟩
              = some ⟨.disk driver, 0⟩ := by
          rw [node?_crowd]
          exact if_pos ⟨Nat.lt_succ_of_le (Nat.mod_le ..), rfl⟩
        obtain ⟨_, events⟩ := register_unsupported (crowd (some hook) driver count) driver
        rw [insert_crowd_same, announce_of_node? live, tell_of_hook rfl] at events
        exact events
      rw [registration] at after announces
      rw [List.replicate_succ, play, after, told_concat, ih, announces, List.range'_succ,
        List.map_cons, List.singleton_append]

/-- When the numbers start again, the next disk is announced by a name that is known. -/
theorem exists_known_announced (driver : δ) {count : Nat} (wraps : UInt32.ofNat count = 0)
    (positive : 0 < count)
    : ∃ (earlier : List HookEvent) (info : DeviceInfo),
        told ((empty (some hook)).play (fun _ => .unsupported)
            (List.replicate (count + 1) (.register driver))).1
          = (earlier ++ [HookEvent.registered info]).map (fun event => (hook, event))
        ∧ info.id ∈ (replay earlier).map (·.id) := by
  let place (number : Nat) : DeviceInfo := ⟨⟨.ofNat number, 0⟩, none, none, 0⟩
  refine ⟨((List.range' 0 count).map place).map HookEvent.registered, place count, ?_, ?_⟩
  · rw [← crowd_zero (some hook) driver, told_crowd, List.range'_1_concat, Nat.zero_add]
    simp [place, Function.comp_def]
  · rw [replay, foldl_hear_registered]
    simp only [List.nil_append, List.map_map, List.mem_map]
    exact ⟨0, by simpa using positive, by simp [place, wraps]⟩

/-- When `2 ^ 32` disks have been registered, the next one is announced by the name of the
first one, which the hook has been told of and which is still there.
-/
theorem hook_hears_of_name_twice
    : let calls : List (Call String String) :=
        List.replicate (UInt32.size + 1) (.register "disk")
      let played := (empty (some "log")).play (fun _ => .unsupported) calls
      (∀ moment ∈ played.1, ∀ other, moment.call ≠ .setHook other)
      ∧ ∃ (earlier : List HookEvent) (info : DeviceInfo),
          told played.1
            = (earlier ++ [HookEvent.registered info]).map (fun event => ("log", event))
          ∧ info.id ∈ (replay earlier).map (·.id) := by
  intro calls played
  refine ⟨fun moment member other swaps => ?_, exists_known_announced "disk" rfl (by decide)⟩
  have call := List.eq_of_mem_replicate (call_mem_of_play member)
  exact nomatch swaps.symm.trans call

end StorageSwitch.Block.DeviceTree
