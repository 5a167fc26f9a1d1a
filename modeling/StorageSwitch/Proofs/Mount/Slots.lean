import StorageSwitch.Mount.Table

/-! What each operation does to the slots of a mount table, seen through `mounted?`.
Serial numbers tell apart all entries that the table has ever had, so an entry that is
known to the table is compared with those in its slots by serial number alone.
-/

namespace StorageSwitch.MountTable

variable {δ : Type} {table after : MountTable δ}

/-- The entry has been registered here: its serial number has been given out, and an entry
of that number that is still in a slot is this one.
-/
def Knows (table : MountTable δ) (entry : MountEntry δ) : Prop :=
  entry.serial < table.nextSerial
  ∧ ∀ index current,
      table.get? index = some current → current.serial = entry.serial → current = entry

/-- The table has not outgrown its capacity, and every entry in a slot carries the number
of the slot and is known.
-/
structure WellFormed (table : MountTable δ) : Prop where
  roomy : table.slots.size ≤ table.capacity
  placed
    : ∀ index entry,
        table.get? index = some entry → entry.index = index ∧ table.Knows entry

theorem get?_eq_some_iff {index : Nat} {entry : MountEntry δ}
    : table.get? index = some entry
      ↔ ∃ slot, table.mounted? index = some slot ∧ slot.entry = entry := by
  simp [get?]

theorem get?_of_mounted? {index : Nat} {slot : Mounted δ}
    (found : table.mounted? index = some slot)
    : table.get? index = some slot.entry := by
  simp [get?, found]

theorem WellFormed.index_lt (formed : table.WellFormed) {index : Nat}
    {entry : MountEntry δ} (found : table.get? index = some entry)
    : index < table.capacity := by
  obtain ⟨slot, inSlot, _⟩ := get?_eq_some_iff.mp found
  obtain ⟨_, _⟩ := Array.getElem?_eq_some_iff.mp (Option.join_eq_some_iff.mp inSlot)
  have bound := formed.roomy
  omega

theorem WellFormed.knows (formed : table.WellFormed) {index : Nat} {entry : MountEntry δ}
    (found : table.get? index = some entry)
    : table.Knows entry :=
  (formed.placed index entry found).2

theorem WellFormed.index_eq (formed : table.WellFormed) {index : Nat}
    {entry : MountEntry δ} (found : table.get? index = some entry)
    : entry.index = index :=
  (formed.placed index entry found).1

/-- A known entry is current exactly when it is the one in its slot.
Witness: an entry of that serial number in the slot can only be itself.
-/
theorem Knows.isCurrent_iff {entry : MountEntry δ} (known : table.Knows entry)
    : table.isCurrent entry = true ↔ table.get? entry.index = some entry := by
  unfold isCurrent
  cases found : table.get? entry.index with
  | none => simp
  | some current =>
      simp only [beq_iff_eq, Option.some.injEq]
      exact ⟨known.2 _ current found, fun same => by rw [same]⟩

theorem openStreams_eq {entry : MountEntry δ} {slot : Mounted δ}
    (found : table.mounted? entry.index = some slot) (current : slot.entry = entry)
    : table.openStreams entry = slot.openStreams := by
  simp [openStreams, found, current]

@[simp] theorem mounted?_empty (capacity serial index : Nat)
    : (empty capacity serial : MountTable δ).mounted? index = none := by
  simp [empty, mounted?]

theorem wellFormed_empty (capacity serial : Nat)
    : (empty capacity serial : MountTable δ).WellFormed :=
  ⟨Nat.zero_le _, by simp [get?]⟩

theorem mounted?_eq_none_iff {index : Nat}
    : table.mounted? index = none
      ↔ ∀ within : index < table.slots.size, table.slots[index] = none := by
  unfold mounted?
  by_cases within : index < table.slots.size
  · simp [within]
  · simp [within]

theorem get?_eq_none_iff {index : Nat}
    : table.get? index = none ↔ table.mounted? index = none := by
  simp [get?]

/-- If the search through the slots finds no free one, all of them are in use. -/
theorem mounted?_ne_none (full : table.slots.findIdx? (·.isNone) = none) {index : Nat}
    (within : index < table.slots.size)
    : table.mounted? index ≠ none := by
  intro unused
  have free := mounted?_eq_none_iff.mp unused within
  have used := Array.findIdx?_eq_none_iff.mp full _ (Array.getElem_mem within)
  rw [free] at used
  contradiction

/-- The free slot that is found is the lowest one and within capacity.
Witness: either a slot that was freed, or the one after all slots in use.
-/
theorem freeSlot?_eq_some {index : Nat} (roomy : table.slots.size ≤ table.capacity)
    (found : table.freeSlot? = some index)
    : table.mounted? index = none
      ∧ (∀ lower, lower < index → table.mounted? lower ≠ none)
      ∧ index < table.capacity
      ∧ index ≤ table.slots.size := by
  unfold freeSlot? at found
  split at found
  · rename_i position freed
    obtain rfl := Option.some.inj found
    obtain ⟨within, free, earlier⟩ := Array.findIdx?_eq_some_iff_getElem.mp freed
    refine ⟨?_, ?_, by omega, by omega⟩
    · exact mounted?_eq_none_iff.mpr fun _ => Option.isNone_iff_eq_none.mp free
    · intro lower before unused
      have none := mounted?_eq_none_iff.mp unused (by omega)
      exact earlier lower before (by rw [none]; rfl)
  · rename_i full
    split at found
    · rename_i room
      obtain rfl := Option.some.inj found
      refine ⟨?_, fun lower => mounted?_ne_none full, room, Nat.le_refl _⟩
      exact mounted?_eq_none_iff.mpr fun within => absurd within (Nat.lt_irrefl _)
    · contradiction

/-- No slot is found exactly when all slots that there may be are in use. -/
theorem WellFormed.freeSlot?_eq_none_iff (formed : table.WellFormed)
    : table.freeSlot? = none ↔ ∀ index < table.capacity, table.get? index ≠ none := by
  constructor
  · intro full index within unused
    unfold freeSlot? at full
    split at full
    · contradiction
    · rename_i used
      split at full
      · contradiction
      · exact mounted?_ne_none used (by omega) (get?_eq_none_iff.mp unused)
  · intro full
    cases found : table.freeSlot? with
    | none => rfl
    | some index =>
        obtain ⟨unused, _, within, _⟩ := freeSlot?_eq_some formed.roomy found
        exact absurd (get?_eq_none_iff.mpr unused) (full index within)

/-- The new table after a driver was put into a slot: the lowest free slot has a new entry
without streams, and no other slot has changed.
-/
structure Filled (table after : MountTable δ) (index : Nat) (point : MountPoint)
    (driver : δ) : Prop where
  unused : table.mounted? index = none
  lowest : ∀ lower, lower < index → table.mounted? lower ≠ none
  within : index < table.capacity
  roomy : after.slots.size ≤ after.capacity
  capacity : after.capacity = table.capacity
  nextSerial : after.nextSerial = table.nextSerial + 1
  slots
    : ∀ other,
        after.mounted? other
        = if other = index then some ⟨⟨table.nextSerial, index, point, driver⟩, 0⟩
          else table.mounted? other

theorem WellFormed.insert_eq_ok (formed : table.WellFormed) {point : MountPoint}
    {driver : δ} {index : Nat}
    (inserted : table.insert point driver = .ok (index, after))
    : table.Filled after index point driver := by
  unfold insert at inserted
  split at inserted
  · contradiction
  · rename_i slot found
    obtain ⟨rfl, rfl⟩ := Prod.mk.inj (Except.ok.inj inserted)
    obtain ⟨unused, lowest, within, atMost⟩ := freeSlot?_eq_some formed.roomy found
    refine ⟨unused, lowest, within, ?_, rfl, rfl, ?_⟩
    · have room := formed.roomy
      dsimp only
      split
      · simpa using room
      · rw [Array.size_push]
        omega
    · intro other
      simp only [mounted?]
      split
      · rw [Array.getElem?_setIfInBounds]
        grind
      · rw [Array.getElem?_push]
        grind

theorem insert_eq_error_iff {point : MountPoint} {driver : δ} {error : Error}
    : table.insert point driver = .error error
      ↔ error = .outOfSlots ∧ table.freeSlot? = none := by
  unfold insert
  cases table.freeSlot? <;> simp [eq_comm]

theorem slotCount_insert {point : MountPoint} {driver : δ} {index : Nat}
    (inserted : table.insert point driver = .ok (index, after))
    : table.slotCount ≤ after.slotCount := by
  unfold insert at inserted
  split at inserted
  · contradiction
  · obtain ⟨_, rfl⟩ := Prod.mk.inj (Except.ok.inj inserted)
    unfold slotCount
    dsimp only
    split <;> simp

theorem capacity_insert {point : MountPoint} {driver : δ} {index : Nat}
    (inserted : table.insert point driver = .ok (index, after))
    : after.capacity = table.capacity := by
  unfold insert at inserted
  split at inserted
  · contradiction
  · obtain ⟨_, rfl⟩ := Prod.mk.inj (Except.ok.inj inserted)
    rfl

theorem length_entries (table : MountTable δ)
    : table.entries.length = table.slots.countP (·.isSome) := by
  rw [entries, List.length_filterMap_eq_countP, ← Array.countP_toList]
  congr 1
  funext slot
  cases slot <;> rfl

/-- A driver finds a slot exactly when fewer slots are in use than there may be.
Witness: without a free slot among them, the slots are as many as those in use.
-/
theorem WellFormed.exists_insert_iff (formed : table.WellFormed) {point : MountPoint}
    {driver : δ}
    : (∃ placed, table.insert point driver = .ok placed)
      ↔ table.entries.length < table.capacity := by
  have room := formed.roomy
  have atMost : table.slots.countP (·.isSome) ≤ table.slots.size := Array.countP_le_size
  rw [length_entries]
  unfold insert freeSlot?
  cases found : table.slots.findIdx? (·.isNone) with
  | some index =>
      obtain ⟨within, free, _⟩ := Array.findIdx?_eq_some_iff_getElem.mp found
      have fewer : table.slots.countP (·.isSome) ≠ table.slots.size := by
        rw [Ne, Array.countP_eq_size]
        intro used
        have inUse := used _ (Array.getElem_mem within)
        rw [Option.isNone_iff_eq_none.mp free] at inUse
        contradiction
      simp only [Except.ok.injEq, exists_eq', true_iff]
      omega
  | none =>
      have full : table.slots.countP (·.isSome) = table.slots.size := by
        rw [Array.countP_eq_size]
        intro slot member
        have used := Array.findIdx?_eq_none_iff.mp found slot member
        cases slot with
        | none => contradiction
        | some _ => rfl
      rw [full]
      by_cases growing : table.slots.size < table.capacity <;> simp [growing]

section Filled

variable {index : Nat} {point : MountPoint} {driver : δ}

/-- The new entry is in its slot, and every other slot has the entry it had. -/
theorem Filled.get?_eq (filled : table.Filled after index point driver) (other : Nat)
    : after.get? other
      = if other = index then some ⟨table.nextSerial, index, point, driver⟩
        else table.get? other := by
  rw [get?, filled.slots]
  split <;> rfl

theorem Filled.get?_self (filled : table.Filled after index point driver)
    : after.get? index = some ⟨table.nextSerial, index, point, driver⟩ := by
  rw [filled.get?_eq, if_pos rfl]

theorem Filled.get?_cases (filled : table.Filled after index point driver) {other : Nat}
    {entry : MountEntry δ} (found : after.get? other = some entry)
    : table.get? other = some entry
      ∨ (other = index ∧ entry = ⟨table.nextSerial, index, point, driver⟩) := by
  rw [filled.get?_eq] at found
  split at found
  · rename_i same
    exact .inr ⟨same, (Option.some.inj found).symm⟩
  · exact .inl found

/-- Known entries stay known, since the new one has a new serial number. -/
theorem Filled.knows (filled : table.Filled after index point driver)
    {entry : MountEntry δ} (known : table.Knows entry)
    : after.Knows entry := by
  obtain ⟨given, same⟩ := known
  refine ⟨by rw [filled.nextSerial]; omega, ?_⟩
  intro other current found sameSerial
  rcases filled.get?_cases found with old | ⟨_, rfl⟩
  · exact same other current old sameSerial
  · dsimp only at sameSerial
    omega

/-- The new entry is known, since the other ones have older serial numbers. -/
theorem Filled.knows_self (filled : table.Filled after index point driver)
    (formed : table.WellFormed)
    : after.Knows ⟨table.nextSerial, index, point, driver⟩ := by
  refine ⟨by rw [filled.nextSerial]; exact Nat.lt_succ_self _, ?_⟩
  intro other current found sameSerial
  rcases filled.get?_cases found with old | ⟨_, rfl⟩
  · have given := (formed.knows old).1
    dsimp only at sameSerial
    omega
  · rfl

theorem Filled.wellFormed (filled : table.Filled after index point driver)
    (formed : table.WellFormed)
    : after.WellFormed := by
  refine ⟨filled.roomy, ?_⟩
  intro other entry found
  rcases filled.get?_cases found with old | ⟨rfl, rfl⟩
  · exact ⟨formed.index_eq old, filled.knows (formed.knows old)⟩
  · exact ⟨rfl, filled.knows_self formed⟩

end Filled

theorem mounted?_remove (table : MountTable δ) (index other : Nat)
    : (table.remove index).mounted? other
      = if other = index then none else table.mounted? other := by
  simp only [mounted?, remove, Array.getElem?_setIfInBounds]
  grind

theorem get?_remove (table : MountTable δ) (index other : Nat)
    : (table.remove index).get? other
      = if other = index then none else table.get? other := by
  simp only [get?, mounted?_remove]
  split <;> rfl

/-- A registration that is undone leaves every slot as it was.
Witness: the slot that is freed again had been free before.
-/
theorem Filled.mounted?_remove {index : Nat} {point : MountPoint} {driver : δ}
    (filled : table.Filled after index point driver) (other : Nat)
    : (after.remove index).mounted? other = table.mounted? other := by
  rw [MountTable.mounted?_remove, filled.slots]
  split
  · rename_i same
    rw [same, filled.unused]
  · rfl

theorem Knows.remove {entry : MountEntry δ} (known : table.Knows entry) (index : Nat)
    : (table.remove index).Knows entry := by
  obtain ⟨given, same⟩ := known
  refine ⟨given, ?_⟩
  intro other current found sameSerial
  rw [get?_remove] at found
  split at found
  · contradiction
  · exact same other current found sameSerial

theorem WellFormed.remove (formed : table.WellFormed) (index : Nat)
    : (table.remove index).WellFormed := by
  refine ⟨by simpa [MountTable.remove] using formed.roomy, ?_⟩
  intro other entry found
  rw [get?_remove] at found
  split at found
  · contradiction
  · exact ⟨formed.index_eq found, (formed.knows found).remove index⟩

/-- Counting streams changes the count of an entry that is still in its slot, and nothing
else.
-/
theorem mounted?_countStreams (table : MountTable δ) (entry : MountEntry δ)
    (change : Nat → Nat) (other : Nat)
    : (table.countStreams entry change).mounted? other
      = (table.mounted? other).map fun slot =>
          if other = entry.index ∧ slot.entry.serial = entry.serial then
            { slot with openStreams := change slot.openStreams }
          else slot := by
  unfold countStreams
  split
  · rename_i unused
    by_cases same : other = entry.index
    · subst same
      simp [unused]
    · simp [same]
  · rename_i slot found
    split
    · rename_i sameSerial
      by_cases same : other = entry.index
      · subst same
        rw [found]
        simp only [mounted?, Array.getElem?_setIfInBounds] at found ⊢
        grind
      · simp [mounted?, same, Ne.symm same]
    · by_cases same : other = entry.index
      · subst same
        simp_all
      · simp [same]

@[simp] theorem get?_countStreams (table : MountTable δ) (entry : MountEntry δ)
    (change : Nat → Nat) (other : Nat)
    : (table.countStreams entry change).get? other = table.get? other := by
  simp only [get?, mounted?_countStreams, Option.map_map]
  congr 1
  funext slot
  dsimp only [Function.comp]
  split <;> rfl

@[simp] theorem nextSerial_countStreams (table : MountTable δ) (entry : MountEntry δ)
    (change : Nat → Nat)
    : (table.countStreams entry change).nextSerial = table.nextSerial := by
  unfold countStreams
  repeat' split
  all_goals rfl

@[simp] theorem capacity_countStreams (table : MountTable δ) (entry : MountEntry δ)
    (change : Nat → Nat)
    : (table.countStreams entry change).capacity = table.capacity := by
  unfold countStreams
  repeat' split
  all_goals rfl

/-- A stream that ends is taken off a positive count. -/
theorem openStreams_streamClosed {entry : MountEntry δ}
    (counted : 0 < table.openStreams entry)
    : (table.streamClosed entry).openStreams entry + 1 = table.openStreams entry := by
  cases found : table.mounted? entry.index with
  | none => simp [openStreams, found] at counted
  | some slot =>
      by_cases same : slot.entry.serial = entry.serial
      · simp only [openStreams, streamClosed, mounted?_countStreams, found, Option.map_some,
          same, and_self, if_true] at counted ⊢
        omega
      · simp [openStreams, found, same] at counted

theorem Knows.countStreams {entry : MountEntry δ} (known : table.Knows entry)
    (counted : MountEntry δ) (change : Nat → Nat)
    : (table.countStreams counted change).Knows entry := by
  simpa [Knows] using known

theorem WellFormed.countStreams (formed : table.WellFormed) (entry : MountEntry δ)
    (change : Nat → Nat)
    : (table.countStreams entry change).WellFormed := by
  constructor
  · have room := formed.roomy
    unfold MountTable.countStreams
    repeat' split
    all_goals simpa using room
  · intro index other found
    rw [get?_countStreams] at found
    exact ⟨formed.index_eq found, (formed.knows found).countStreams entry change⟩

end StorageSwitch.MountTable
