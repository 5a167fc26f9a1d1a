import StorageSwitch.Proofs.Mount.Slots

/-! How long an entry stays in a mount table that drivers are put into and taken out of in
any order. An entry is current from the call that puts it into its slot up to the first call
that frees the slot, and never again, whoever takes the slot afterwards.
-/

namespace StorageSwitch.MountTable

-----------------------------------------------------------------------------------------
-- Calls of a table
-----------------------------------------------------------------------------------------

/-- A call of the owner of a table that can change what is in the slots. -/
inductive Call (δ : Type) where
  | insert (point : MountPoint) (driver : δ)
  | remove (index : Nat)
  deriving DecidableEq, Repr

variable {δ : Type} {table after : MountTable δ} {entry : MountEntry δ}

/-- The table that a call leads to. An insertion that fails leaves the table as it was. -/
def perform (table : MountTable δ) : Call δ → MountTable δ
  | .insert point driver =>
      match table.insert point driver with
      | .error _ => table
      | .ok (_, after) => after
  | .remove index => table.remove index

/-- The table that calls lead to, made one after the other. -/
def performAll (table : MountTable δ) (calls : List (Call δ)) : MountTable δ :=
  calls.foldl perform table

/-- One of the calls finds the entry in its slot and frees the slot. -/
def TakesOut (table : MountTable δ) (entry : MountEntry δ) (calls : List (Call δ)) : Prop :=
  ∃ earlier later,
    calls = earlier ++ .remove entry.index :: later
    ∧ (table.performAll earlier).get? entry.index = some entry

/-- What a call makes of a table: it puts an entry into the lowest free slot, or finds none
and changes nothing, or frees a slot.
-/
inductive Performs (table : MountTable δ) : Call δ → MountTable δ → Prop
  | filled {point driver index after}
    (inserted : table.insert point driver = .ok (index, after))
    (filled : table.Filled after index point driver)
    (grown : table.slotCount ≤ after.slotCount)
    : Performs table (.insert point driver) after
  | refused {point driver}
    (refused : table.insert point driver = .error .outOfSlots)
    : Performs table (.insert point driver) table
  | freed {index} : Performs table (.remove index) (table.remove index)

/-- Every call does one of three things. -/
theorem WellFormed.performs (formed : table.WellFormed) (call : Call δ)
    : table.Performs call (table.perform call) := by
  cases call with
  | insert point driver =>
      cases placed : table.insert point driver with
      | error error =>
          obtain ⟨rfl, _⟩ := insert_eq_error_iff.mp placed
          simp only [perform, placed]
          exact .refused placed
      | ok placement =>
          simp only [perform, placed]
          exact .filled placed (formed.insert_eq_ok placed) (slotCount_insert placed)
  | remove index => exact .freed

-----------------------------------------------------------------------------------------
-- What one call keeps
-----------------------------------------------------------------------------------------

theorem Performs.wellFormed {call : Call δ} (performs : table.Performs call after)
    (formed : table.WellFormed)
    : after.WellFormed := by
  cases performs with
  | filled _ filled _ => exact filled.wellFormed formed
  | refused _ => exact formed
  | freed => exact formed.remove _

theorem Performs.capacity {call : Call δ} (performs : table.Performs call after)
    : after.capacity = table.capacity := by
  cases performs with
  | filled _ filled _ => exact filled.capacity
  | refused _ => rfl
  | freed => rfl

theorem Performs.slotCount_le {call : Call δ} (performs : table.Performs call after)
    : table.slotCount ≤ after.slotCount := by
  cases performs with
  | filled _ _ grown => exact grown
  | refused _ => exact Nat.le_refl _
  | freed => simp [slotCount, remove]

theorem Performs.knows {call : Call δ} (performs : table.Performs call after)
    (known : table.Knows entry)
    : after.Knows entry := by
  cases performs with
  | filled _ filled _ => exact filled.knows known
  | refused _ => exact known
  | freed => exact known.remove _

/-- Of the entries that were ever in the table, a call moves none into a slot, and out of its
slot only the one in the slot that it frees.
Witness: the entry that an insertion makes has a serial number that none of them has.
-/
theorem Performs.get?_eq_some_iff {call : Call δ} (performs : table.Performs call after)
    (known : table.Knows entry)
    : after.get? entry.index = some entry
      ↔ table.get? entry.index = some entry ∧ call ≠ .remove entry.index := by
  cases performs with
  | refused _ => simp
  | freed =>
      rw [get?_remove]
      split
      · rename_i same
        simp [same]
      · rename_i other
        simp [Ne.symm other]
  | @filled point driver index after _ filled _ =>
      rw [filled.get?_eq]
      split
      · rename_i same
        have older : (⟨table.nextSerial, index, point, driver⟩ : MountEntry δ) ≠ entry := by
          intro new
          have given := known.1
          rw [← new] at given
          exact Nat.lt_irrefl _ given
        have unused := get?_eq_none_iff.mpr filled.unused
        simp [same, older, unused]
      · simp

-----------------------------------------------------------------------------------------
-- What any number of calls keep
-----------------------------------------------------------------------------------------

theorem WellFormed.performAll (formed : table.WellFormed) (calls : List (Call δ))
    : (table.performAll calls).WellFormed
      ∧ (table.performAll calls).capacity = table.capacity
      ∧ table.slotCount ≤ (table.performAll calls).slotCount := by
  induction calls generalizing table with
  | nil => exact ⟨formed, rfl, Nat.le_refl _⟩
  | cons call calls ih =>
      have performs := formed.performs call
      obtain ⟨allFormed, capacity, grown⟩ := ih (performs.wellFormed formed)
      exact ⟨allFormed, capacity.trans performs.capacity,
        Nat.le_trans performs.slotCount_le grown⟩

/-- Of the entries that were ever in the table, those are in their slots after any calls that
were there before, unless a call has freed the slot.
Witness: induction on the calls; an entry that has left its slot stays known, so no call
brings it back.
-/
theorem WellFormed.performAll_tenure (formed : table.WellFormed) (known : table.Knows entry)
    (calls : List (Call δ))
    : (table.performAll calls).Knows entry
      ∧ ((table.performAll calls).get? entry.index = some entry
        ↔ table.get? entry.index = some entry ∧ .remove entry.index ∉ calls) := by
  induction calls generalizing table with
  | nil => exact ⟨known, by simp [MountTable.performAll]⟩
  | cons call calls ih =>
      have performs := formed.performs call
      obtain ⟨stillKnown, stays⟩ := ih (performs.wellFormed formed) (performs.knows known)
      refine ⟨stillKnown, stays.trans ?_⟩
      rw [performs.get?_eq_some_iff known, List.mem_cons, not_or, and_assoc, ne_comm]

/-- An entry is current after any calls unless one of them has freed its slot. -/
theorem WellFormed.isCurrent_performAll (formed : table.WellFormed)
    (present : table.get? entry.index = some entry) (calls : List (Call δ))
    : (table.performAll calls).isCurrent entry = true ↔ .remove entry.index ∉ calls := by
  obtain ⟨known, stays⟩ := formed.performAll_tenure (formed.knows present) calls
  rw [known.isCurrent_iff, stays, and_iff_right present]

/-- The first call that frees the slot of an entry takes the entry out. -/
theorem WellFormed.takesOut_iff (formed : table.WellFormed)
    (present : table.get? entry.index = some entry) (calls : List (Call δ))
    : table.TakesOut entry calls ↔ .remove entry.index ∈ calls := by
  constructor
  · rintro ⟨earlier, later, rfl, _⟩
    simp
  · intro freed
    obtain ⟨earlier, later, split, first⟩ := List.eq_append_cons_of_mem freed
    have stays := (formed.performAll_tenure (formed.knows present) earlier).2
    exact ⟨earlier, later, split, stays.mpr ⟨present, first⟩⟩

/-- What holds of a table of `capacity` slots, whatever calls have been made. -/
structure Orderly (capacity : Nat) (table : MountTable δ) : Prop where
  /-- The entry in a slot carries the number of the slot. -/
  placed : ∀ index entry, table.get? index = some entry → entry.index = index
  /-- An insertion fails exactly when all slots are in use, for want of one. -/
  refuses
    : ∀ point driver error,
        table.insert point driver = .error error
        ↔ error = .outOfSlots ∧ ∀ index < capacity, table.get? index ≠ none
  /-- An insertion that fails changes nothing. -/
  unchanged
    : ∀ point driver error,
        table.insert point driver = .error error
        → table.perform (.insert point driver) = table
  /-- An insertion that succeeds fills the lowest free slot and no other. -/
  fills
    : ∀ point driver index after,
        table.insert point driver = .ok (index, after)
        → table.Filled after index point driver
  /-- There are no more slots than there may be. -/
  slotCount_le : table.slotCount ≤ capacity
  /-- Slots do not go away. -/
  slotCount_grows : ∀ calls, table.slotCount ≤ (table.performAll calls).slotCount
  /-- An inserted entry is current as long as no call has taken it out, and is taken out by
  the first call that frees its slot.
  -/
  tenure
    : ∀ point driver index after entry,
        table.insert point driver = .ok (index, after)
        → after.get? index = some entry
        → ∀ calls,
            ((after.performAll calls).isCurrent entry = true ↔ ¬after.TakesOut entry calls)
            ∧ (after.TakesOut entry calls ↔ .remove index ∈ calls)

/-- Whatever calls are made of a new table, its slots are filled from the lowest one and hold
the entries that were inserted and not taken out since.
-/
theorem inserted_entries_stay_until_taken_out (capacity serial : Nat) (calls : List (Call δ))
    : Orderly capacity ((empty capacity serial).performAll calls) := by
  obtain ⟨formed, sized, _⟩ := (wellFormed_empty capacity serial).performAll calls
  generalize (empty capacity serial).performAll calls = table at formed sized
  obtain rfl : table.capacity = capacity := sized
  refine {
    placed := fun _ _ => formed.index_eq
    refuses := fun _ _ _ => by rw [insert_eq_error_iff, formed.freeSlot?_eq_none_iff]
    unchanged := fun _ _ _ failed => by simp only [perform, failed]
    fills := fun _ _ _ _ => formed.insert_eq_ok
    slotCount_le := formed.roomy
    slotCount_grows := fun calls => (formed.performAll calls).2.2
    tenure := fun point driver index after entry inserted present calls => ?tenure
  }
  case tenure =>
    have afterFormed := (formed.insert_eq_ok inserted).wellFormed formed
    obtain rfl := afterFormed.index_eq present
    have takesOut := afterFormed.takesOut_iff present calls
    refine ⟨?_, takesOut⟩
    rw [afterFormed.isCurrent_performAll present, takesOut]

/-- An entry is taken out of the lowest slot, and its driver is put there again at the same
mount path, after a driver that found no slot.
-/
theorem inserted_entries_stay_until_taken_out_of_reused_slot
    : let disk : Call String := .insert (.path "/a") "disk"
      let table := (empty 2 0 : MountTable String).performAll
        [disk, .insert (.path "/b") "disk", .remove 0]
      let calls := [.insert .descriptorsOnly "ram", .remove 0, disk]
      let after := table.perform disk
      let last := after.performAll calls
      table.insert (.path "/a") "disk" = .ok (0, after)
      ∧ after.get? 0 = some ⟨2, 0, .path "/a", "disk"⟩
      ∧ after.isCurrent ⟨2, 0, .path "/a", "disk"⟩ = true
      ∧ last.get? 0 = some ⟨3, 0, .path "/a", "disk"⟩
      ∧ last.isCurrent ⟨3, 0, .path "/a", "disk"⟩ = true
      ∧ last.isCurrent ⟨2, 0, .path "/a", "disk"⟩ = false := by
  intro disk table calls after last
  have inserted : table.insert (.path "/a") "disk" = .ok (0, after) := by
    with_unfolding_all rfl
  have present : after.get? 0 = some ⟨2, 0, .path "/a", "disk"⟩ := by decide +kernel
  have orderly := inserted_entries_stay_until_taken_out 2 0
    [disk, .insert (.path "/b") "disk", .remove 0]
  have tenure := orderly.tenure _ _ _ _ _ inserted present
  have gone : after.TakesOut _ calls := (tenure calls).2.mpr (by decide)
  refine ⟨inserted, present, (tenure []).1.mpr ?_, by decide +kernel, by decide +kernel, ?_⟩
  · rw [(tenure []).2]
    exact List.not_mem_nil
  · rw [Bool.eq_false_iff, Ne, (tenure calls).1, Classical.not_not]
    exact gone

end StorageSwitch.MountTable
