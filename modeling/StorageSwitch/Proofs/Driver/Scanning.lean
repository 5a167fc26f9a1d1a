import StorageSwitch.Driver.RootListing
import StorageSwitch.Proofs.Mount.Slots

/-! What one read of the root listing comes to: the first slot from the position on that
shows, or that no slot from there on shows. Of what is left of the listing, each read takes
the first entry.
-/

namespace StorageSwitch.RootListing

variable {δ : Type} {mounts : MountTable δ}

/-- Reading on from a slot: either the first slot that shows is found, and the position is
behind it, or no slot shows any more.
-/
inductive ReadsOn (mounts : MountTable δ) (start : Nat) : Option DirEntry × Nat → Prop
  | finds {slot entry} (reached : start ≤ slot)
    (hidden : ∀ other, start ≤ other → other < slot → entryAt? mounts other = none)
    (shown : entryAt? mounts slot = some entry)
    : ReadsOn mounts start (some entry, slot + 1)
  | ends {after} (reached : start ≤ after)
    (hidden : ∀ other, start ≤ other → entryAt? mounts other = none)
    : ReadsOn mounts start (none, after)

/-- A slot that is passed over does not show. -/
theorem ReadsOn.skip {start : Nat} {found : Option DirEntry × Nat}
    (blank : entryAt? mounts start = none) (reads : ReadsOn mounts (start + 1) found)
    : ReadsOn mounts start found := by
  have hide {other : Nat} (above : start ≤ other)
      (later : start + 1 ≤ other → entryAt? mounts other = none)
      : entryAt? mounts other = none := by
    rcases Nat.eq_or_lt_of_le above with rfl | beyond
    · exact blank
    · exact later beyond
  cases reads with
  | finds reached hidden shown =>
      exact .finds (Nat.le_of_succ_le reached)
        (fun other above below => hide above fun beyond => hidden other beyond below) shown
  | ends reached hidden =>
      exact .ends (Nat.le_of_succ_le reached)
        (fun other above => hide above (hidden other))

/-- No slot shows beyond those that have ever been in use. -/
theorem entryAt?_eq_none {slot : Nat} (beyond : mounts.slotCount ≤ slot)
    : entryAt? mounts slot = none := by
  have unused : mounts.slots[slot]? = none := Array.getElem?_eq_none beyond
  simp [entryAt?, MountTable.get?, MountTable.mounted?, unused]

/-- A scan that gets to the last slot reads on. Witness: induction on the number of slots
that are left.
-/
theorem scan_readsOn (count start : Nat) (enough : mounts.slotCount ≤ start + count)
    : ReadsOn mounts start (scan mounts count start) := by
  induction count generalizing start with
  | zero =>
      exact .ends (Nat.le_refl start) fun other above =>
        entryAt?_eq_none (Nat.le_trans enough above)
  | succ count ih =>
      cases shown : entryAt? mounts start with
      | some entry =>
          simp only [scan, shown]
          exact .finds (Nat.le_refl start) (fun other above below => by omega) shown
      | none =>
          simp only [scan, shown]
          exact .skip shown (ih (start + 1) (by omega))

theorem next_readsOn (mounts : MountTable δ) (start : Nat)
    : ReadsOn mounts start (next mounts start) :=
  scan_readsOn _ start (by omega)

-----------------------------------------------------------------------------------------
-- What is left of the listing
-----------------------------------------------------------------------------------------

/-- The entries of the slots from `start` on that show, in the order of the slots. -/
def shownFrom (mounts : MountTable δ) (start : Nat) : List DirEntry :=
  (List.range' start (mounts.slotCount - start)).filterMap (entryAt? mounts)

/-- It does not matter how far beyond the last slot one looks. -/
theorem shownFrom_eq (count start : Nat) (enough : mounts.slotCount ≤ start + count)
    : shownFrom mounts start = (List.range' start count).filterMap (entryAt? mounts) := by
  have split
      : List.range' start count
        = List.range' start (mounts.slotCount - start)
          ++ List.range' (start + (mounts.slotCount - start))
              (count - (mounts.slotCount - start)) := by
    rw [List.range'_append_1]
    congr 1
    omega
  have blank
      : (List.range' (start + (mounts.slotCount - start))
          (count - (mounts.slotCount - start))).filterMap (entryAt? mounts) = [] := by
    refine List.filterMap_eq_nil_iff.mpr fun slot member => entryAt?_eq_none ?_
    have := (List.mem_range'_1.mp member).1
    omega
  rw [split, List.filterMap_append, blank, List.append_nil, shownFrom]

theorem mem_shownFrom_iff {start : Nat} {shown : DirEntry}
    : shown ∈ shownFrom mounts start
      ↔ ∃ slot, start ≤ slot ∧ entryAt? mounts slot = some shown := by
  simp only [shownFrom, List.mem_filterMap, List.mem_range'_1]
  constructor
  · rintro ⟨slot, ⟨above, _⟩, shows⟩
    exact ⟨slot, above, shows⟩
  · rintro ⟨slot, above, shows⟩
    have within : slot < mounts.slotCount := by
      refine Nat.lt_of_not_le fun beyond => ?_
      rw [entryAt?_eq_none beyond] at shows
      contradiction
    exact ⟨slot, ⟨above, by omega⟩, shows⟩

/-- Only the entries in the slots matter. -/
theorem shownFrom_congr {after : MountTable δ}
    (same : ∀ slot, after.get? slot = mounts.get? slot) (start : Nat)
    : shownFrom after start = shownFrom mounts start := by
  have slots : entryAt? after = entryAt? mounts := funext fun slot => by
    rw [entryAt?, same, entryAt?]
  rw [shownFrom_eq (after.slotCount + mounts.slotCount) start (by omega), slots,
    ← shownFrom_eq (after.slotCount + mounts.slotCount) start (by omega)]

/-- A scan takes the first entry that is left, if there is one, and stays within the slots
that it looks at. Witness: induction on the number of slots that are left.
-/
theorem scan_spec (count start : Nat) (enough : mounts.slotCount ≤ start + count)
    : (scan mounts count start).1 = (shownFrom mounts start).head?
      ∧ shownFrom mounts (scan mounts count start).2 = (shownFrom mounts start).tail
      ∧ (scan mounts count start).2 ≤ start + count := by
  induction count generalizing start with
  | zero => simp [scan, shownFrom_eq 0 start enough]
  | succ count ih =>
      have later := ih (start + 1) (by omega)
      have first := shownFrom_eq (count + 1) start enough
      rw [List.range'_succ, List.filterMap_cons] at first
      cases shown : entryAt? mounts start with
      | some entry =>
          rw [shown, ← shownFrom_eq count (start + 1) (by omega)] at first
          simp only [scan, shown, first]
          exact ⟨rfl, rfl, by omega⟩
      | none =>
          rw [shown, ← shownFrom_eq count (start + 1) (by omega)] at first
          simp only [scan, shown, first]
          exact ⟨later.1, later.2.1, by omega⟩

theorem next_spec (mounts : MountTable δ) (start : Nat)
    : (next mounts start).1 = (shownFrom mounts start).head?
      ∧ shownFrom mounts (next mounts start).2 = (shownFrom mounts start).tail
      ∧ (next mounts start).2 ≤ max start mounts.slotCount := by
  have enough : mounts.slotCount ≤ start + (mounts.slotCount - start) := by omega
  obtain ⟨first, rest, bound⟩ := scan_spec _ start enough
  exact ⟨first, rest, Nat.le_trans bound (by omega)⟩

end StorageSwitch.RootListing
