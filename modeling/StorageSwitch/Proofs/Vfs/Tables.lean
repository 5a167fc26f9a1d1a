import StorageSwitch.Vfs.State
import StorageSwitch.Proofs.Descriptor.Slots
import StorageSwitch.Proofs.Mount.Slots

/-! The tables of a switch agree with each other: every bound descriptor names a mount
slot in use. Each operation on the tables is inverted once into the edit that it makes,
and what an edit keeps is proved from there.
-/

namespace StorageSwitch.Vfs

variable {δ : Type} {vfs after : Vfs δ}

/-- Both tables are well formed, mount slots fit into packed words, every bound descriptor
leads to a mount slot in use, and the root listing is mounted at the empty path.
-/
structure Consistent (vfs : Vfs δ) : Prop where
  fds : vfs.fds.WellFormed
  mounts : vfs.mounts.WellFormed
  narrow : vfs.mounts.capacity ≤ 65535
  led
    : ∀ fd binding,
        vfs.fds.get? fd = some binding
        → ∃ entry, vfs.mounts.get? binding.mount = some entry
  rooted
    : ∃ entry,
        vfs.mounts.get? vfs.rootIndex = some entry
        ∧ entry.driver = .root
        ∧ entry.point = .path ""

theorem Consistent.fits (consistent : vfs.Consistent) {index : Nat} {entry : Entry δ}
    (found : vfs.mounts.get? index = some entry)
    : index < 65536 := by
  have within := consistent.mounts.index_lt found
  have narrow := consistent.narrow
  omega

/-- A descriptor with a binding leads to an entry, so the look-up of a descriptor fails
only for want of a binding.
-/
theorem Consistent.resolveFd_eq_none_iff (consistent : vfs.Consistent) {fd : Fd}
    : vfs.resolveFd fd = none ↔ vfs.fds.get? fd = none := by
  unfold resolveFd
  cases bound : vfs.fds.get? fd with
  | none => simp
  | some binding =>
      obtain ⟨entry, found⟩ := consistent.led fd binding bound
      simp [found]

/-- The look-up of a descriptor finds its binding and the entry in the slot of the
binding.
-/
theorem resolveFd_eq_some_iff {fd : Fd} {entry : Entry δ} {binding : Binding}
    : vfs.resolveFd fd = some (entry, binding)
      ↔ vfs.fds.get? fd = some binding ∧ vfs.mounts.get? binding.mount = some entry := by
  unfold resolveFd
  cases bound : vfs.fds.get? fd with
  | none => simp
  | some found =>
      simp only [Option.map_eq_some_iff, Prod.mk.injEq, Option.some.injEq]
      grind

-----------------------------------------------------------------------------------------
-- What an operation on the tables comes to
-----------------------------------------------------------------------------------------

/-- The lasting effect of a registration or removal.
- `nothing` leaves every slot and descriptor as it was.
- `mounted` fills a mount slot.
- `ranged` fills a mount slot and reserves descriptors for it.
- `reserved` reserves descriptors for a mount slot in use.
- `unmounted` frees a mount slot and the descriptors reserved for it.
-/
inductive Edit where
  | nothing
  | mounted (index : Nat)
  | ranged (index : Nat) (min max : Fd)
  | reserved (index : Nat) (min max : Fd)
  | unmounted (index : Nat)

/-- How an edit changes the tables. An undone registration counts as nothing, although it
uses up a serial number.
-/
inductive Edits (vfs : Vfs δ) : Edit → Vfs δ → Prop
  | unchanged : Edits vfs .nothing vfs
  | mounted {point driver index mounts}
    (inserted : vfs.mounts.insert point (.given driver) = .ok (index, mounts))
    : Edits vfs (.mounted index) { vfs with mounts }
  | undone {point driver index mounts}
    (inserted : vfs.mounts.insert point (.given driver) = .ok (index, mounts))
    : Edits vfs .nothing { vfs with mounts := mounts.remove index }
  | ranged {point driver index mounts min max fds}
    (inserted : vfs.mounts.insert point (.given driver) = .ok (index, mounts))
    (reserved : vfs.fds.reserveRange index min max = .ok fds)
    : Edits vfs (.ranged index min max) { vfs with mounts, fds }
  | reserved {index entry min max fds} (found : vfs.mounts.get? index = some entry)
    (reserved : vfs.fds.reserveRange index min max = .ok fds)
    : Edits vfs (.reserved index min max) { vfs with fds }
  | unmounted {index entry} (notRoot : index ≠ vfs.rootIndex)
    (found : vfs.mounts.get? index = some entry) (idle : vfs.isBusy entry = false)
    : Edits vfs (.unmounted index)
        { vfs with
          mounts := vfs.mounts.remove index
          fds := (vfs.fds.releaseMount index).2 }

/-- A change that succeeds makes the edit of its result, and one that fails makes none that
lasts.
-/
def Change.Makes {α : Type} (vfs : Vfs δ) (edit : α → Edit) (change : Change δ α) : Prop :=
  match change.result with
  | .ok result => vfs.Edits (edit result) change.vfs
  | .error _ => vfs.Edits .nothing change.vfs

/-- Mounting at a path fills a slot. -/
theorem register_makes (vfs : Vfs δ) (path : String) (driver : δ)
    : (vfs.register path driver).Makes vfs .mounted := by
  unfold register
  cases Path.validateMount path with
  | error error => exact .unchanged
  | ok valid =>
      cases inserted : vfs.mounts.insert (.path path) (.given driver) with
      | error error => exact .unchanged
      | ok placed => exact .mounted inserted

theorem registerRange_makes (vfs : Vfs δ) (driver : δ) (min max : Fd)
    : (vfs.registerRange driver min max).Makes vfs (.ranged · min max) := by
  unfold registerRange
  split
  · exact .unchanged
  · cases inserted : vfs.mounts.insert .descriptorsOnly (.given driver) with
    | error error => exact .unchanged
    | ok placed =>
        cases reserved : vfs.fds.reserveRange placed.1 min max with
        | error error =>
            simp only [reserved]
            exact .undone inserted
        | ok fds =>
            simp only [reserved]
            exact .ranged inserted reserved

theorem reserveRange_makes (vfs : Vfs δ) (index : Nat) (min max : Fd)
    : (vfs.reserveRange index min max).Makes vfs fun _ => .reserved index min max := by
  unfold reserveRange
  cases found : vfs.mounts.get? index with
  | none => exact .unchanged
  | some entry =>
      cases reserved : vfs.fds.reserveRange index min max with
      | error error => exact .unchanged
      | ok fds => exact .reserved found reserved

theorem unregister_makes (vfs : Vfs δ) (index : Nat)
    : (vfs.unregister index).Makes vfs fun _ => .unmounted index := by
  unfold unregister
  split
  · exact .unchanged
  · rename_i notRoot
    cases found : vfs.mounts.get? index with
    | none => exact .unchanged
    | some entry =>
        cases busy : vfs.isBusy entry with
        | true =>
            simp only [busy, if_true]
            exact .unchanged
        | false =>
            simp only [busy]
            exact .unmounted notRoot found busy

-----------------------------------------------------------------------------------------
-- What an edit does to entries and descriptors
-----------------------------------------------------------------------------------------

/-- An idle mount has no open stream and only reserved descriptors. -/
theorem Consistent.idle_iff (consistent : vfs.Consistent) {index : Nat}
    {slot : Mounted (Driver δ)} (found : vfs.mounts.mounted? index = some slot)
    : vfs.isBusy slot.entry = false
      ↔ slot.openStreams = 0
        ∧ ∀ fd binding,
            vfs.fds.get? fd = some binding → binding.mount = index
            → binding.permanent = true := by
  have sameIndex := consistent.mounts.index_eq (MountTable.get?_of_mounted? found)
  have count : vfs.mounts.openStreams slot.entry = slot.openStreams :=
    MountTable.openStreams_eq (by rw [sameIndex]; exact found) rfl
  rw [isBusy, count, Bool.or_eq_false_iff, ← consistent.fds.countOpen_eq_zero_iff,
    sameIndex]
  simp

/-- A record that is in a slot after an edit was there before, or is new and without
streams.
-/
theorem Edits.mounted?_after {edit : Edit} (edits : vfs.Edits edit after)
    (consistent : vfs.Consistent) {index : Nat} {slot : Mounted (Driver δ)}
    (found : after.mounts.mounted? index = some slot)
    : vfs.mounts.mounted? index = some slot
      ∨ (vfs.mounts.mounted? index = none
        ∧ slot.entry.serial = vfs.mounts.nextSerial
        ∧ slot.openStreams = 0) := by
  have filled {point driver place mounts}
      (inserted : vfs.mounts.insert point (.given driver) = .ok (place, mounts))
      (present : mounts.mounted? index = some slot)
      : vfs.mounts.mounted? index = some slot
        ∨ (vfs.mounts.mounted? index = none
          ∧ slot.entry.serial = vfs.mounts.nextSerial
          ∧ slot.openStreams = 0) := by
    have filled := consistent.mounts.insert_eq_ok inserted
    rw [filled.slots] at present
    split at present
    · rename_i same
      rw [← Option.some.inj present, same]
      exact .inr ⟨filled.unused, rfl, rfl⟩
    · exact .inl present
  cases edits with
  | unchanged => exact .inl found
  | mounted inserted => exact filled inserted found
  | undone inserted =>
      have same := (consistent.mounts.insert_eq_ok inserted).mounted?_remove index
      exact .inl (same ▸ found)
  | ranged inserted _ => exact filled inserted found
  | reserved _ _ => exact .inl found
  | unmounted _ _ _ =>
      rw [MountTable.mounted?_remove] at found
      split at found
      · contradiction
      · exact .inl found

/-- A record stays in its slot unless its mount, then idle, is the one that is removed. -/
theorem Edits.mounted?_before {edit : Edit} (edits : vfs.Edits edit after)
    (consistent : vfs.Consistent) {index : Nat} {slot : Mounted (Driver δ)}
    (found : vfs.mounts.mounted? index = some slot)
    : after.mounts.mounted? index = some slot
      ∨ (edit = .unmounted index ∧ vfs.isBusy slot.entry = false) := by
  have kept {point driver place mounts}
      (inserted : vfs.mounts.insert point (.given driver) = .ok (place, mounts))
      : mounts.mounted? index = some slot := by
    have filled := consistent.mounts.insert_eq_ok inserted
    rw [filled.slots, if_neg (by rintro rfl; simp [filled.unused] at found), found]
  cases edits with
  | unchanged => exact .inl found
  | mounted inserted => exact .inl (kept inserted)
  | undone inserted =>
      have same := (consistent.mounts.insert_eq_ok inserted).mounted?_remove index
      exact .inl (same ▸ found)
  | ranged inserted _ => exact .inl (kept inserted)
  | reserved _ _ => exact .inl found
  | @unmounted removed entry _ present idle =>
      by_cases same : index = removed
      · subst same
        rw [MountTable.get?_of_mounted? found] at present
        exact .inr ⟨rfl, by rw [Option.some.inj present, idle]⟩
      · exact .inl (by rw [MountTable.mounted?_remove, if_neg same, found])

theorem Edits.get?_before {edit : Edit} (edits : vfs.Edits edit after)
    (consistent : vfs.Consistent) {index : Nat} {entry : Entry δ}
    (found : vfs.mounts.get? index = some entry) (other : edit ≠ .unmounted index)
    : after.mounts.get? index = some entry := by
  obtain ⟨slot, inSlot, rfl⟩ := MountTable.get?_eq_some_iff.mp found
  rcases edits.mounted?_before consistent inSlot with kept | ⟨removed, _⟩
  · exact MountTable.get?_of_mounted? kept
  · exact absurd removed other

theorem Edits.knows {edit : Edit} (edits : vfs.Edits edit after)
    (consistent : vfs.Consistent) {entry : Entry δ} (known : vfs.mounts.Knows entry)
    : after.mounts.Knows entry := by
  cases edits with
  | unchanged | reserved _ _ => exact known
  | mounted inserted | ranged inserted _ =>
      exact (consistent.mounts.insert_eq_ok inserted).knows known
  | undone inserted => exact ((consistent.mounts.insert_eq_ok inserted).knows known).remove _
  | unmounted _ _ _ => exact known.remove _

/-- Which descriptors are bound after an edit: those of a range that was reserved, and
those bound before unless they were reserved for the mount that was removed.
-/
theorem Edits.get?_eq_some_iff {edit : Edit} (edits : vfs.Edits edit after)
    (consistent : vfs.Consistent) {fd : Fd} {binding : Binding}
    : after.fds.get? fd = some binding
      ↔ match edit with
        | .nothing | .mounted _ => vfs.fds.get? fd = some binding
        | .ranged index min max | .reserved index min max =>
            if min ≤ fd ∧ fd ≤ max then binding = ⟨index, fd, true⟩
            else vfs.fds.get? fd = some binding
        | .unmounted index => vfs.fds.get? fd = some binding ∧ binding.mount ≠ index := by
  have reserving {index min max fds} (fits : index < 65536)
      (reserved : vfs.fds.reserveRange index min max = .ok fds)
      : fds.get? fd = some binding
        ↔ if min ≤ fd ∧ fd ≤ max then binding = ⟨index, fd, true⟩
          else vfs.fds.get? fd = some binding := by
    obtain ⟨_, _, _, slots⟩ := consistent.fds.reserveRange_eq_ok fits reserved
    simp only [FdTable.get?_eq_some_iff, slots]
    split
    · simp [eq_comm]
    · rfl
  cases edits with
  | unchanged | undone _ | mounted _ => rfl
  | ranged inserted reserved =>
      have within := (consistent.mounts.insert_eq_ok inserted).within
      have narrow := consistent.narrow
      exact reserving (by omega) reserved
  | reserved found reserved => exact reserving (consistent.fits found) reserved
  | @unmounted index entry _ found idle =>
      obtain ⟨slot, inSlot, rfl⟩ := MountTable.get?_eq_some_iff.mp found
      obtain ⟨_, onlyReserved⟩ := (consistent.idle_iff inSlot).mp idle
      rw [(consistent.fds.releaseMount_spec index).2]
      constructor
      · rintro ⟨bound, kept⟩
        exact ⟨bound, fun same => kept ⟨same, onlyReserved fd binding bound same⟩⟩
      · rintro ⟨bound, differs⟩
        exact ⟨bound, fun gone => differs gone.1⟩

/-- A range that is reserved was unused. -/
theorem Edits.range_unused {edit : Edit} (edits : vfs.Edits edit after)
    (consistent : vfs.Consistent) {index : Nat} {min max fd : Fd}
    (reserves : edit = .ranged index min max ∨ edit = .reserved index min max)
    (within : min ≤ fd ∧ fd ≤ max)
    : vfs.fds.get? fd = none := by
  have unused {fds : FdTable} (fits : index < 65536)
      (reserved : vfs.fds.reserveRange index min max = .ok fds)
      : vfs.fds.get? fd = none := by
    obtain ⟨_, free, _⟩ := consistent.fds.reserveRange_eq_ok fits reserved
    rw [FdTable.get?, free fd within.1 within.2]
    rfl
  rcases reserves with rfl | rfl
  · cases edits with
    | ranged inserted reserved =>
        have bound := (consistent.mounts.insert_eq_ok inserted).within
        have narrow := consistent.narrow
        exact unused (by omega) reserved
  · cases edits with
    | reserved found reserved => exact unused (consistent.fits found) reserved

/-- An edit keeps a binding unless the binding is permanent and its mount is removed. Witness:
a range that is reserved was unused, and a mount that is removed has only permanent bindings.
-/
theorem Edits.binding_kept {edit : Edit} (edits : vfs.Edits edit after)
    (consistent : vfs.Consistent) {fd : Fd} {binding : Binding}
    (bound : vfs.fds.get? fd = some binding)
    : after.fds.get? fd = some binding
      ∨ (edit = .unmounted binding.mount ∧ binding.permanent = true) := by
  have outside {index min max}
      (reserves : edit = .ranged index min max ∨ edit = .reserved index min max)
      : ¬(min ≤ fd ∧ fd ≤ max) := by
    intro within
    rw [edits.range_unused consistent reserves within] at bound
    contradiction
  rw [edits.get?_eq_some_iff consistent]
  cases edit with
  | nothing | mounted => exact .inl bound
  | ranged index min max => exact .inl ((if_neg (outside (.inl rfl))).mpr bound)
  | reserved index min max => exact .inl ((if_neg (outside (.inr rfl))).mpr bound)
  | unmounted index =>
      by_cases same : binding.mount = index
      · subst same
        cases edits with
        | unmounted notRoot found idle =>
            obtain ⟨slot, inSlot, rfl⟩ := MountTable.get?_eq_some_iff.mp found
            exact .inr ⟨rfl, ((consistent.idle_iff inSlot).mp idle).2 fd binding bound rfl⟩
      · exact .inl ⟨bound, same⟩

theorem Edits.rootIndex {edit : Edit} (edits : vfs.Edits edit after)
    : after.rootIndex = vfs.rootIndex := by
  cases edits <;> rfl

/-- An edit keeps the tables consistent.
Witness: a binding that stays leads to a record that stays, since a mount is only removed
when its bindings are, and a binding that is made leads to a slot that is in use.
-/
theorem Edits.consistent {edit : Edit} (edits : vfs.Edits edit after)
    (consistent : vfs.Consistent)
    : after.Consistent := by
  refine ⟨?_, ?_, ?_, ?_, ?_⟩
  · cases edits with
    | unchanged | mounted _ | undone _ => exact consistent.fds
    | ranged inserted reserved =>
        have within := (consistent.mounts.insert_eq_ok inserted).within
        have narrow := consistent.narrow
        exact (consistent.fds.reserveRange_eq_ok (by omega) reserved).2.2.1
    | reserved found reserved =>
        exact (consistent.fds.reserveRange_eq_ok (consistent.fits found) reserved).2.2.1
    | unmounted _ _ _ => exact (consistent.fds.releaseMount_spec _).1
  · cases edits with
    | unchanged | reserved _ _ => exact consistent.mounts
    | mounted inserted | ranged inserted _ =>
        exact (consistent.mounts.insert_eq_ok inserted).wellFormed consistent.mounts
    | undone inserted =>
        have filled := consistent.mounts.insert_eq_ok inserted
        exact (filled.wellFormed consistent.mounts).remove _
    | unmounted _ _ _ => exact consistent.mounts.remove _
  · cases edits with
    | unchanged | reserved _ _ | unmounted _ _ _ => exact consistent.narrow
    | mounted inserted | ranged inserted _ | undone inserted =>
        exact (consistent.mounts.insert_eq_ok inserted).capacity ▸ consistent.narrow
  · intro fd binding bound
    have before := (edits.get?_eq_some_iff consistent).mp bound
    have old (bound : vfs.fds.get? fd = some binding) (other : edit ≠ .unmounted binding.mount)
        : ∃ entry, after.mounts.get? binding.mount = some entry := by
      obtain ⟨entry, found⟩ := consistent.led fd binding bound
      exact ⟨entry, edits.get?_before consistent found other⟩
    cases edits with
    | unchanged | mounted _ | undone _ => exact old before (by simp)
    | ranged inserted _ =>
        dsimp only at before
        split at before
        · subst before
          exact ⟨_, (consistent.mounts.insert_eq_ok inserted).get?_self⟩
        · exact old before (by simp)
    | reserved found _ =>
        dsimp only at before
        split at before
        · subst before
          exact ⟨_, found⟩
        · exact old before (by simp)
    | unmounted _ _ _ => exact old before.1 (by simpa using Ne.symm before.2)
  · obtain ⟨entry, found, isRoot⟩ := consistent.rooted
    refine ⟨entry, ?_, isRoot⟩
    rw [edits.rootIndex]
    apply edits.get?_before consistent found
    cases edits with
    | unmounted notRoot _ _ => simpa using notRoot
    | _ => simp

-----------------------------------------------------------------------------------------
-- A new switch, and what a driver's answer changes
-----------------------------------------------------------------------------------------

/-- A new switch has the tables that were made for its sizes, and the root listing in one
slot.
-/
theorem eq_of_create {config : Config} {notices : List Notice}
    (made : create config = .ok (vfs, notices))
    : config.validate = .ok ()
      ∧ ∃ rootIndex mounts fds,
          (MountTable.empty config.maxMounts 0).insert (.path "") .root
            = .ok (rootIndex, mounts)
          ∧ FdTable.create config.maxFds = .ok fds
          ∧ vfs = ⟨config, mounts, fds, rootIndex⟩ := by
  unfold create at made
  cases valid : config.validate with
  | error error => simp [valid, Bind.bind, Except.bind] at made
  | ok _ =>
      cases rooted : (MountTable.empty config.maxMounts 0).insert
          (.path "") (Driver.root (δ := δ)) with
      | error error => simp [valid, rooted, Bind.bind, Except.bind] at made
      | ok placed =>
          cases tabled : FdTable.create config.maxFds with
          | error error => simp [valid, rooted, tabled, Bind.bind, Except.bind] at made
          | ok fds =>
              simp only [valid, rooted, tabled, Bind.bind, Except.bind, pure, Except.pure,
                Except.ok.injEq, Prod.mk.injEq] at made
              exact ⟨rfl, placed.1, placed.2, fds, rfl, rfl, made.1.symm⟩

/-- A new switch is consistent and has no bound descriptor. -/
theorem create_eq_ok {config : Config} {notices : List Notice}
    (made : create config = .ok (vfs, notices))
    : vfs.Consistent
      ∧ (∀ fd, vfs.fds.get? fd = none)
      ∧ ∀ index slot, vfs.mounts.mounted? index = some slot → slot.openStreams = 0 := by
  obtain ⟨valid, rootIndex, mounts, fds, rooted, tabled, rfl⟩ := eq_of_create made
  have sizes : config.maxFds ≤ 2147483647 ∧ config.maxMounts ≤ 65535 := by
    simp only [Config.validate] at valid
    grind
  have blank := MountTable.wellFormed_empty (δ := Driver δ) config.maxMounts 0
  have filled := blank.insert_eq_ok rooted
  obtain ⟨fdsFormed, unbound⟩ := FdTable.create_eq_ok tabled sizes.1
  refine ⟨⟨fdsFormed, filled.wellFormed blank, ?_, ?_, ?_⟩, unbound, ?_⟩
  · exact filled.capacity ▸ sizes.2
  · intro fd binding bound
    simp [unbound] at bound
  · exact ⟨_, filled.get?_self, rfl, rfl⟩
  · intro index slot found
    rw [filled.slots] at found
    split at found
    · rw [← Option.some.inj found]
    · simp at found

/-- Binding an opened file binds the lowest unused descriptor, provided the entry is
current, and changes nothing else.
-/
theorem Consistent.bind_eq_ok (consistent : vfs.Consistent) {entry : Entry δ}
    {file : LocalFd} {fd : Fd} (known : vfs.mounts.Knows entry)
    (bound : vfs.bind entry file = .ok (fd, after))
    : vfs.mounts.get? entry.index = some entry
      ∧ vfs.fds.LowestUnused fd
      ∧ (∃ fds, after = { vfs with fds })
      ∧ after.Consistent
      ∧ ∀ other,
          after.fds.slot? other
          = if other = fd then some (some ⟨entry.index, file, false⟩)
            else vfs.fds.slot? other := by
  unfold bind at bound
  split at bound
  · rename_i current
    have found := known.isCurrent_iff.mp current
    split at bound
    · contradiction
    · rename_i allocated
      obtain ⟨rfl, rfl⟩ := Prod.mk.inj (Except.ok.inj bound)
      obtain ⟨lowest, formed, slots⟩ :=
        consistent.fds.allocate_eq_ok (consistent.fits found) allocated
      refine ⟨found, lowest, ⟨_, rfl⟩, { consistent with fds := formed, led := ?_ }, slots⟩
      intro other binding present
      rw [FdTable.get?_eq_some_iff, slots] at present
      split at present
      · rw [← Option.some.inj (Option.some.inj present)]
        exact ⟨entry, found⟩
      · exact consistent.led other binding (FdTable.get?_eq_some_iff.mpr present)
  · contradiction

/-- An opened file gets no descriptor exactly when its mount has gone or no descriptor is
unused.
-/
theorem Consistent.bind_eq_error_iff (consistent : vfs.Consistent) {entry : Entry δ}
    {file : LocalFd} {error : Error} (known : vfs.mounts.Knows entry)
    : vfs.bind entry file = .error error
      ↔ (error = .notFound ∧ vfs.mounts.get? entry.index ≠ some entry)
        ∨ (error = .tooManyOpenFiles
          ∧ vfs.mounts.get? entry.index = some entry
          ∧ ∀ fd, vfs.fds.slot? fd ≠ some none) := by
  unfold bind
  by_cases current : vfs.mounts.isCurrent entry = true
  · have found := known.isCurrent_iff.mp current
    rw [if_pos current]
    cases allocated : vfs.fds.allocate entry.index file with
    | error cause =>
        have full := consistent.fds.allocate_eq_error_iff.mp allocated
        simp only [found, Except.error.injEq]
        grind
    | ok placed =>
        have unused (full : ∀ fd, vfs.fds.slot? fd ≠ some none) : False := by
          obtain ⟨⟨free, _⟩, _⟩ :=
            consistent.fds.allocate_eq_ok (consistent.fits found) allocated
          exact full _ free
        simp only [found, reduceCtorEq, false_iff]
        grind
  · have gone : vfs.mounts.get? entry.index ≠ some entry :=
      fun found => current (known.isCurrent_iff.mpr found)
    rw [if_neg current, Except.error.injEq]
    grind

/-- Releasing a descriptor frees it if its binding is ephemeral and unchanged, and changes
nothing else.
-/
theorem Consistent.release_spec (consistent : vfs.Consistent) (fd : Fd) {binding : Binding}
    (fits : binding.Fits)
    : (vfs.release fd binding).2.Consistent
      ∧ (∃ fds, (vfs.release fd binding).2 = { vfs with fds })
      ∧ ∀ other,
          (vfs.release fd binding).2.fds.slot? other
          = if other = fd ∧ binding.permanent = false ∧ vfs.fds.get? fd = some binding then
              some none
            else vfs.fds.slot? other := by
  obtain ⟨freed, formed, slots⟩ := consistent.fds.release_spec fd fits
  refine ⟨{ consistent with fds := formed, led := ?_ }, ⟨_, rfl⟩, ?_⟩
  · intro other found bound
    simp only [release, FdTable.get?_eq_some_iff, slots] at bound
    split at bound
    · simp at bound
    · exact consistent.led other found (FdTable.get?_eq_some_iff.mpr bound)
  · intro other
    simp only [release, slots, freed]
    grind

/-- Releasing the descriptor that a file has just got gives the old switch back. -/
theorem Consistent.release_bind (consistent : vfs.Consistent) {entry : Entry δ}
    {file : LocalFd} {fd : Fd} (bound : vfs.bind entry file = .ok (fd, after))
    : after.release fd ⟨entry.index, file, false⟩ = (true, vfs) := by
  unfold bind at bound
  split at bound
  · split at bound
    · contradiction
    · rename_i allocated
      obtain ⟨rfl, rfl⟩ := Prod.mk.inj (Except.ok.inj bound)
      simp only [release, consistent.fds.release_allocate allocated]
  · contradiction

theorem Consistent.countStreams (consistent : vfs.Consistent) (entry : Entry δ)
    (change : Nat → Nat)
    : Consistent { vfs with mounts := vfs.mounts.countStreams entry change } where
  fds := consistent.fds
  mounts := consistent.mounts.countStreams entry change
  narrow := by simpa using consistent.narrow
  led := by simpa using consistent.led
  rooted := by simpa using consistent.rooted

end StorageSwitch.Vfs
