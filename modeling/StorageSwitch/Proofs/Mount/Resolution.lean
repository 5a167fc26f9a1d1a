import StorageSwitch.Proofs.Mount.Slots
import StorageSwitch.Proofs.Path.Coverage

/-! Which entry a path belongs to: of those that cover it, the one with the longest mount
path, and among equal ones the one in the lowest slot.
-/

namespace StorageSwitch

theorem MountEntry.covers_iff {δ : Type} {entry : MountEntry δ} {path : String}
    : entry.covers path = true
      ↔ ∃ mount, entry.point = .path mount ∧ Path.covers mount path = true := by
  unfold covers path? MountPoint.path?
  cases entry.point <;> simp

theorem MountEntry.reach_eq {δ : Type} {entry : MountEntry δ} {mount : String}
    (mounted : entry.point = .path mount)
    : entry.reach = mount.utf8ByteSize := by
  simp [reach, path?, mounted, MountPoint.path?]

namespace MountTable

variable {δ : Type} {table : MountTable δ} {path : String} {entry : MountEntry δ}

/-- The entries are those of the slots 0, 1, 2, …, as far as the table reaches or farther. -/
theorem entries_eq_filterMap_range {count : Nat} (reaches : table.slots.size ≤ count)
    : table.entries = (List.range count).filterMap table.get? := by
  obtain ⟨extra, rfl⟩ := Nat.exists_eq_add_of_le reaches
  have inTable
      : table.slots.toList = (List.range table.slots.size).map table.mounted? := by
    apply List.ext_getElem
    · simp
    · intro index within _
      simp only [Array.length_toList] at within
      simp [mounted?, within]
  have beyond
      : ((List.range extra).map (table.slots.size + ·)).filterMap table.get? = [] := by
    rw [List.filterMap_eq_nil_iff]
    intro index member
    obtain ⟨offset, _, rfl⟩ := List.mem_map.mp member
    simp [get?, mounted?]
  rw [List.range_add, List.filterMap_append, beyond, List.append_nil, entries, inTable,
    List.filterMap_map]
  rfl

/-- Only what is in the slots matters to a path, not how far the table has grown. -/
theorem resolve_congr {after : MountTable δ}
    (same : ∀ index, after.get? index = table.get? index) (path : String)
    : after.resolve path = table.resolve path := by
  let count := max after.slots.size table.slots.size
  have left : after.slots.size ≤ count := Nat.le_max_left _ _
  have right : table.slots.size ≤ count := Nat.le_max_right _ _
  rw [resolve, resolve, entries_eq_filterMap_range left, entries_eq_filterMap_range right,
    funext same]

/-- An entry comes before a rival for the same path: its mount path is longer, or as long
while its slot is no higher.
-/
def Precedes (index : Nat) (entry : MountEntry δ) (other : Nat) (rival : MountEntry δ)
    : Prop :=
  rival.reach < entry.reach ∨ (rival.reach = entry.reach ∧ index ≤ other)

/-- What the search for a path has found after the first `count` slots: an entry there that
covers the path and comes before all others that do, or nothing if none does.
-/
def Found (table : MountTable δ) (path : String) (count : Nat)
    : Option (MountEntry δ) → Prop
  | none =>
      ∀ index entry,
        index < count → table.get? index = some entry → entry.covers path = false
  | some entry =>
      ∃ index,
        index < count
        ∧ table.get? index = some entry
        ∧ entry.covers path = true
        ∧ ∀ other rival,
            other < count → table.get? other = some rival → rival.covers path = true
            → Precedes index entry other rival

/-- A slot that is free, or whose entry does not cover the path, changes nothing. -/
theorem Found.skip {count : Nat} {best : Option (MountEntry δ)}
    (found : table.Found path count best)
    (uncovered : ∀ entry, table.get? count = some entry → entry.covers path = false)
    : table.Found path (count + 1) best := by
  cases best with
  | none =>
      intro index entry within present
      rcases Nat.lt_succ_iff_lt_or_eq.mp within with before | rfl
      · exact found index entry before present
      · exact uncovered entry present
  | some best =>
      obtain ⟨index, within, present, covers, first⟩ := found
      refine ⟨index, by omega, present, covers, ?_⟩
      intro other rival within rivalPresent rivalCovers
      rcases Nat.lt_succ_iff_lt_or_eq.mp within with before | rfl
      · exact first other rival before rivalPresent rivalCovers
      · simp [uncovered rival rivalPresent] at rivalCovers

/-- An entry that covers the path is preferred if its mount path is longer than the best
one so far.
-/
theorem Found.prefer {count : Nat} {best : Option (MountEntry δ)}
    (found : table.Found path count best) (present : table.get? count = some entry)
    (covers : entry.covers path = true)
    : table.Found path (count + 1) (prefer path best entry) := by
  -- the entry of the new slot comes before all others if the earlier ones reach less far
  have takes
      (shorter
        : ∀ other rival,
            other < count → table.get? other = some rival → rival.covers path = true
            → rival.reach < entry.reach)
      : table.Found path (count + 1) (some entry) := by
    refine ⟨count, Nat.lt_succ_self _, present, covers, ?_⟩
    intro other rival within rivalPresent rivalCovers
    rcases Nat.lt_succ_iff_lt_or_eq.mp within with before | rfl
    · exact .inl (shorter other rival before rivalPresent rivalCovers)
    · obtain rfl := Option.some.inj (present.symm.trans rivalPresent)
      exact .inr ⟨rfl, Nat.le_refl _⟩
  unfold MountTable.prefer
  rw [if_pos covers]
  cases best with
  | none =>
      refine takes fun other rival before rivalPresent rivalCovers => ?_
      simp [found other rival before rivalPresent] at rivalCovers
  | some best =>
      obtain ⟨index, within, bestPresent, bestCovers, first⟩ := found
      dsimp only
      split
      · refine takes fun other rival before rivalPresent rivalCovers => ?_
        rcases first other rival before rivalPresent rivalCovers with less | ⟨same, _⟩ <;> omega
      · refine ⟨index, by omega, bestPresent, bestCovers, ?_⟩
        intro other rival within rivalPresent rivalCovers
        rcases Nat.lt_succ_iff_lt_or_eq.mp within with before | rfl
        · exact first other rival before rivalPresent rivalCovers
        · obtain rfl := Option.some.inj (present.symm.trans rivalPresent)
          unfold Precedes
          omega

/-- The search through the first slots finds what it should.
Witness: induction on the number of slots.
-/
theorem found_foldl_prefer (table : MountTable δ) (path : String) (count : Nat)
    : table.Found path count
        (((List.range count).filterMap table.get?).foldl (MountTable.prefer path) none) := by
  induction count with
  | zero => simp [Found]
  | succ count ih =>
      rw [List.range_succ, List.filterMap_append, List.foldl_append]
      cases present : table.get? count with
      | none => simpa [present] using ih.skip (by simp [present])
      | some entry =>
          simp only [List.filterMap_cons, present, List.filterMap_nil, List.foldl_cons,
            List.foldl_nil]
          cases covers : entry.covers path with
          | true => exact ih.prefer present covers
          | false =>
              have same {best} : MountTable.prefer path best entry = best :=
                if_neg (by simp [covers])
              rw [same]
              exact ih.skip (by simpa [present] using covers)

theorem lt_size_of_get? {index : Nat} (present : table.get? index = some entry)
    : index < table.slots.size := by
  obtain ⟨slot, inSlot, _⟩ := get?_eq_some_iff.mp present
  obtain ⟨within, _⟩ := Array.getElem?_eq_some_iff.mp (Option.join_eq_some_iff.mp inSlot)
  exact within

theorem found_resolve (table : MountTable δ) (path : String)
    : table.Found path table.slots.size (table.resolve path) := by
  rw [resolve, entries_eq_filterMap_range (Nat.le_refl _)]
  exact table.found_foldl_prefer path _

/-- A path belongs to the entry that comes before all others that cover it.
Witness: two such entries come before each other, so they are in the same slot.
-/
theorem resolve_eq_some_iff
    : table.resolve path = some entry
      ↔ ∃ index,
          table.get? index = some entry
          ∧ entry.covers path = true
          ∧ ∀ other rival,
              table.get? other = some rival → rival.covers path = true
              → Precedes index entry other rival := by
  have found := table.found_resolve path
  constructor
  · intro resolved
    rw [resolved] at found
    obtain ⟨index, _, present, covers, first⟩ := found
    exact ⟨index, present, covers,
      fun other rival rivalPresent => first other rival (lt_size_of_get? rivalPresent) rivalPresent⟩
  · rintro ⟨index, present, covers, first⟩
    cases resolved : table.resolve path with
    | none =>
        rw [resolved] at found
        simp [found index entry (lt_size_of_get? present) present] at covers
    | some best =>
        rw [resolved] at found
        obtain ⟨other, _, bestPresent, bestCovers, bestFirst⟩ := found
        have order := first other best bestPresent bestCovers
        have reverse := bestFirst index entry (lt_size_of_get? present) present covers
        obtain rfl : index = other := by
          unfold Precedes at order reverse
          omega
        rw [← present, ← bestPresent]

/-- A path belongs to no entry exactly when none covers it. -/
theorem resolve_eq_none_iff
    : table.resolve path = none
      ↔ ∀ index entry, table.get? index = some entry → entry.covers path = false := by
  have found := table.found_resolve path
  cases resolved : table.resolve path with
  | none =>
      rw [resolved] at found
      exact iff_of_true rfl fun index entry present =>
        found index entry (lt_size_of_get? present) present
  | some best =>
      rw [resolved] at found
      obtain ⟨index, _, present, covers, _⟩ := found
      refine iff_of_false (by simp) fun none => ?_
      simp [none index best present] at covers

/-- The mount path of the entry that comes before a rival for a path it covers too is longer,
or the same.
-/
theorem precedes_iff {index other : Nat} {rival : MountEntry δ} {mount rivalMount : String}
    (mounted : entry.point = .path mount) (rivalMounted : rival.point = .path rivalMount)
    (covered : Path.covers mount path = true)
    (rivalCovered : Path.covers rivalMount path = true)
    : Precedes index entry other rival
      ↔ rivalMount.utf8ByteSize < mount.utf8ByteSize
        ∨ (rivalMount = mount ∧ index ≤ other) := by
  have same
      : rivalMount.utf8ByteSize = mount.utf8ByteSize ↔ rivalMount = mount :=
    ⟨Path.eq_of_covers rivalCovered covered, congrArg _⟩
  rw [Precedes, MountEntry.reach_eq mounted, MountEntry.reach_eq rivalMounted, same]

/-- A new entry takes over the paths that it covers and comes first for, and no others.
Witness: for every path, of the new entry and the one before it one comes before all others.
-/
theorem Filled.resolve {after : MountTable δ} {index : Nat} {mount : String} {driver : δ}
    {owner : MountEntry δ} (filled : table.Filled after index (.path mount) driver)
    (formed : table.WellFormed) (resolved : table.resolve path = some owner)
    : after.resolve path
      = if Path.covers mount path = false
          ∨ mount.utf8ByteSize < owner.reach
          ∨ (owner.point = .path mount ∧ owner.index < index) then
          some owner
        else some ⟨table.nextSerial, index, .path mount, driver⟩ := by
  obtain ⟨place, present, covers, first⟩ := resolve_eq_some_iff.mp resolved
  obtain ⟨held, mounted, covered⟩ := MountEntry.covers_iff.mp covers
  obtain rfl := formed.index_eq present
  let new : MountEntry δ := ⟨table.nextSerial, index, .path mount, driver⟩
  have newReach : new.reach = mount.utf8ByteSize := MountEntry.reach_eq rfl
  split
  · rename_i stays
    have still : after.get? owner.index = some owner := by
      rw [filled.get?_eq, if_neg, present]
      intro taken
      simp [taken, get?, filled.unused] at present
    refine resolve_eq_some_iff.mpr ⟨owner.index, still, covers, ?_⟩
    intro other rival rivalPresent rivalCovers
    rcases filled.get?_cases rivalPresent with old | ⟨rfl, rfl⟩
    · exact first other rival old rivalCovers
    · obtain ⟨_, itself, newCovered⟩ := MountEntry.covers_iff.mp rivalCovers
      obtain rfl := MountPoint.path.inj itself
      rcases stays with uncovered | longer | ⟨same, lower⟩
      · rw [newCovered] at uncovered
        contradiction
      · exact .inl (newReach ▸ longer)
      · exact .inr ⟨newReach.trans (MountEntry.reach_eq same).symm, Nat.le_of_lt lower⟩
  · rename_i moves
    simp only [not_or, Bool.not_eq_false, not_and] at moves
    obtain ⟨newCovered, notLonger, notLower⟩ := moves
    have newCovers : new.covers path = true := MountEntry.covers_iff.mpr ⟨_, rfl, newCovered⟩
    refine resolve_eq_some_iff.mpr ⟨index, filled.get?_self, newCovers, ?_⟩
    intro other rival rivalPresent rivalCovers
    rcases filled.get?_cases rivalPresent with old | ⟨rfl, rfl⟩
    · have order := first other rival old rivalCovers
      have tied (equal : owner.reach = mount.utf8ByteSize) : index ≤ owner.index := by
        rw [MountEntry.reach_eq mounted] at equal
        obtain rfl := Path.eq_of_covers covered newCovered equal
        exact Nat.not_lt.mp (notLower mounted)
      unfold Precedes at order ⊢
      rw [newReach]
      omega
    · exact .inr ⟨rfl, Nat.le_refl _⟩

end MountTable

end StorageSwitch
