import StorageSwitch.Descriptor.Table
import StorageSwitch.Proofs.Descriptor.Packing

/-! What each operation does to the descriptors of a table, seen through `slot?`. A word
of a well-formed table is zero exactly when its descriptor is unused, so the searches over
packed words find what they are meant to find.
-/

namespace StorageSwitch

namespace Fd

/-- Descriptors that are not negative are ordered like their positions. -/
theorem le_iff {left right : Fd} (leftNonneg : 0 ≤ left) (rightNonneg : 0 ≤ right)
    : left ≤ right ↔ left.toNatClampNeg ≤ right.toNatClampNeg := by
  rw [Int32.le_iff_toInt_le, ← Int32.cast_toNatClampNeg left leftNonneg,
    ← Int32.cast_toNatClampNeg right rightNonneg]
  omega

theorem eq_iff {left right : Fd} (leftNonneg : 0 ≤ left) (rightNonneg : 0 ≤ right)
    : left = right ↔ left.toNatClampNeg = right.toNatClampNeg := by
  constructor
  · rintro rfl
    rfl
  · intro same
    rw [← Int32.ofNat_toNatClampNeg left leftNonneg, same,
      Int32.ofNat_toNatClampNeg right rightNonneg]

end Fd

namespace FdTable

/-- Every word is zero or the packed form of a binding that fits, and every position is a
descriptor.
-/
structure WellFormed (table : FdTable) : Prop where
  packed
    : ∀ word ∈ table.words,
        word = 0 ∨ ∃ binding : Binding, binding.Fits ∧ word = binding.pack
  addressable : table.capacity ≤ 2147483647

/-- The descriptor that is handed out next: unused, and no unused one is lower. -/
def LowestUnused (table : FdTable) (fd : Fd) : Prop :=
  table.slot? fd = some none ∧ ∀ other, table.slot? other = some none → fd ≤ other

variable {table : FdTable}

/-- Only one descriptor is handed out next. -/
theorem LowestUnused.unique {left right : Fd} (leftLowest : table.LowestUnused left)
    (rightLowest : table.LowestUnused right)
    : left = right :=
  Int32.le_antisymm (leftLowest.2 right rightLowest.1) (rightLowest.2 left leftLowest.1)

/-- A position of the table is that of a descriptor. -/
theorem WellFormed.position (formed : table.WellFormed) {index : Nat}
    (within : index < table.capacity)
    : 0 ≤ Int32.ofNat index ∧ (Int32.ofNat index).toNatClampNeg = index := by
  have bound := formed.addressable
  exact ⟨Int32.zero_le_ofNat_of_lt (by omega), Int32.toNatClampNeg_ofNat_of_lt (by omega)⟩

/-- What a descriptor leads to is read from the word at its position. -/
theorem slot?_eq_some_iff {fd : Fd} {content : Option Binding}
    : table.slot? fd = some content
      ↔ 0 ≤ fd
        ∧ ∃ within : fd.toNatClampNeg < table.words.size,
            Binding.unpack? table.words[fd.toNatClampNeg] = content := by
  by_cases nonneg : 0 ≤ fd
  · simp only [slot?, word?, nonneg, if_true, true_and, Option.map_eq_some_iff,
      Array.getElem?_eq_some_iff]
    grind
  · simp [slot?, word?, nonneg]

/-- The descriptors that the table does not have are negative or too large. -/
theorem slot?_eq_none_iff {fd : Fd}
    : table.slot? fd = none ↔ fd < 0 ∨ table.capacity ≤ fd.toNatClampNeg := by
  rw [← Int32.not_le, slot?, word?, capacity, Option.map_eq_none_iff]
  split <;> simp [*]

theorem WellFormed.slot?_ofNat (formed : table.WellFormed) {index : Nat}
    (within : index < table.words.size)
    : table.slot? (Int32.ofNat index) = some (Binding.unpack? table.words[index]) := by
  obtain ⟨nonneg, position⟩ := formed.position within
  rw [slot?_eq_some_iff]
  exact ⟨nonneg, by simpa only [position] using within, by simp only [position]⟩

theorem get?_eq_some_iff {fd : Fd} {binding : Binding}
    : table.get? fd = some binding ↔ table.slot? fd = some (some binding) := by
  simp [get?, Option.join_eq_some_iff]

theorem fits_of_get? {fd : Fd} {binding : Binding} (bound : table.get? fd = some binding)
    : binding.Fits := by
  obtain ⟨_, _, read⟩ := slot?_eq_some_iff.mp (get?_eq_some_iff.mp bound)
  exact Binding.fits_of_unpack? read

/-- Only the zero word stands for an unused descriptor.
Witness: any other word is a packed binding, which unpacks to that binding.
-/
theorem WellFormed.unpack?_eq_none_iff (formed : table.WellFormed) {word : UInt64}
    (member : word ∈ table.words)
    : Binding.unpack? word = none ↔ word = 0 := by
  rcases formed.packed word member with rfl | ⟨binding, fits, rfl⟩
  · simp
  · simp [Binding.unpack?_pack fits, Binding.pack_ne_zero]

theorem WellFormed.unpack?_eq_some_iff (formed : table.WellFormed) {word : UInt64}
    (member : word ∈ table.words) {binding : Binding} (fits : binding.Fits)
    : Binding.unpack? word = some binding ↔ word = binding.pack := by
  rcases formed.packed word member with rfl | ⟨other, otherFits, rfl⟩
  · simp [Ne.symm (Binding.pack_ne_zero binding)]
  · simp [Binding.unpack?_pack otherFits, Binding.pack_inj otherFits fits]

/-- Replacing the word at a descriptor's position changes that descriptor alone. -/
theorem slot?_setIfInBounds {fd : Fd} {content : Option Binding}
    (present : table.slot? fd = some content) (word : UInt64) (other : Fd)
    : slot? ⟨table.words.setIfInBounds fd.toNatClampNeg word⟩ other
      = if other = fd then some (Binding.unpack? word) else table.slot? other := by
  obtain ⟨nonneg, within, _⟩ := slot?_eq_some_iff.mp present
  by_cases otherNonneg : 0 ≤ other
  · simp only [slot?, word?, otherNonneg, if_true, Array.getElem?_setIfInBounds,
      Fd.eq_iff otherNonneg nonneg, eq_comm (a := other.toNatClampNeg)]
    split <;> simp_all
  · have differs : other ≠ fd := by
      rintro rfl
      exact otherNonneg nonneg
    simp [slot?, word?, otherNonneg, differs]

theorem WellFormed.setIfInBounds (formed : table.WellFormed) (index : Nat) {word : UInt64}
    (packed : word = 0 ∨ ∃ binding : Binding, binding.Fits ∧ word = binding.pack)
    : WellFormed ⟨table.words.setIfInBounds index word⟩ := by
  refine ⟨?_, by simpa only [capacity, Array.size_setIfInBounds] using formed.addressable⟩
  intro other member
  rcases Array.mem_or_eq_of_mem_setIfInBounds member with old | rfl
  · exact formed.packed other old
  · exact packed

theorem create_eq_ok {capacity : Nat} (made : create capacity = .ok table)
    (addressable : capacity ≤ 2147483647)
    : table.WellFormed ∧ ∀ fd, table.get? fd = none := by
  unfold create at made
  split at made
  · contradiction
  · obtain rfl := Except.ok.inj made
    refine ⟨⟨?_, by simpa [FdTable.capacity] using addressable⟩, ?_⟩
    · intro word member
      exact .inl (Array.eq_of_mem_replicate member)
    · intro fd
      apply Option.eq_none_iff_forall_ne_some.mpr
      intro binding bound
      obtain ⟨_, _, read⟩ := slot?_eq_some_iff.mp (get?_eq_some_iff.mp bound)
      simp at read

theorem capacity_create {capacity : Nat} (made : create capacity = .ok table)
    : table.capacity = capacity := by
  unfold create at made
  split at made
  · contradiction
  · obtain rfl := Except.ok.inj made
    simp [FdTable.capacity]

theorem capacity_allocate {after : FdTable} {mount : Nat} {file : LocalFd} {fd : Fd}
    (allocated : table.allocate mount file = .ok (fd, after))
    : after.capacity = table.capacity := by
  unfold allocate at allocated
  split at allocated
  · contradiction
  · obtain ⟨_, rfl⟩ := Prod.mk.inj (Except.ok.inj allocated)
    simp [capacity]

theorem capacity_release (table : FdTable) (fd : Fd) (binding : Binding)
    : (table.release fd binding).2.capacity = table.capacity := by
  unfold release
  split <;> simp [capacity]

theorem capacity_reserveRange {after : FdTable} {mount : Nat} {min max : Fd}
    (reserved : table.reserveRange mount min max = .ok after)
    : after.capacity = table.capacity := by
  unfold reserveRange at reserved
  split at reserved
  · contradiction
  · dsimp only at reserved
    split at reserved
    · obtain rfl := Except.ok.inj reserved
      simp [capacity]
    · contradiction

theorem capacity_releaseMount (table : FdTable) (mount : Nat)
    : (table.releaseMount mount).2.capacity = table.capacity := by
  simp [releaseMount, capacity]

/-- Allocation binds the lowest unused descriptor and nothing else.
Witness: the first zero word is at the position of that descriptor.
-/
theorem WellFormed.allocate_eq_ok (formed : table.WellFormed) {mount : Nat}
    {file : LocalFd} {fd : Fd} {after : FdTable} (fits : mount < 65536)
    (allocated : table.allocate mount file = .ok (fd, after))
    : table.LowestUnused fd
      ∧ after.WellFormed
      ∧ ∀ other,
          after.slot? other
          = if other = fd then some (some ⟨mount, file, false⟩) else table.slot? other := by
  unfold allocate at allocated
  split at allocated
  · contradiction
  · rename_i index found
    obtain ⟨rfl, rfl⟩ := Prod.mk.inj (Except.ok.inj allocated)
    obtain ⟨within, zero, earlier⟩ := Array.findIdx?_eq_some_iff_getElem.mp found
    obtain ⟨nonneg, position⟩ := formed.position within
    have unused : table.slot? (Int32.ofNat index) = some none := by
      rw [formed.slot?_ofNat within, beq_iff_eq.mp zero]
      rfl
    have bindingFits : Binding.Fits ⟨mount, file, false⟩ := fits
    refine ⟨⟨unused, ?_⟩, formed.setIfInBounds index (.inr ⟨_, bindingFits, rfl⟩), ?_⟩
    · intro other otherUnused
      obtain ⟨otherNonneg, otherWithin, read⟩ := slot?_eq_some_iff.mp otherUnused
      have otherZero := (formed.unpack?_eq_none_iff (Array.getElem_mem otherWithin)).mp read
      rw [Fd.le_iff nonneg otherNonneg, position]
      by_cases before : other.toNatClampNeg < index
      · exact absurd (beq_iff_eq.mpr otherZero) (earlier _ before)
      · omega
    · intro other
      have changed := slot?_setIfInBounds unused (Binding.pack ⟨mount, file, false⟩) other
      rwa [position, Binding.unpack?_pack bindingFits] at changed

/-- Allocation fails exactly when no descriptor is unused, and then in one way. -/
theorem WellFormed.allocate_eq_error_iff (formed : table.WellFormed) {mount : Nat}
    {file : LocalFd} {error : Error}
    : table.allocate mount file = .error error
      ↔ error = .tooManyOpenFiles ∧ ∀ fd, table.slot? fd ≠ some none := by
  unfold allocate
  split
  · rename_i full
    have noneUnused : ∀ fd, table.slot? fd ≠ some none := by
      intro fd unused
      obtain ⟨_, within, read⟩ := slot?_eq_some_iff.mp unused
      have member := Array.getElem_mem within
      have zero := (formed.unpack?_eq_none_iff member).mp read
      have used := Array.findIdx?_eq_none_iff.mp full _ member
      simp [zero] at used
    simp [noneUnused, eq_comm]
  · rename_i index found
    obtain ⟨within, zero, _⟩ := Array.findIdx?_eq_some_iff_getElem.mp found
    have unused := formed.slot?_ofNat within
    rw [beq_iff_eq.mp zero] at unused
    simp only [reduceCtorEq, false_iff]
    exact fun failed => failed.2 _ unused

/-- The word of a binding is at a descriptor exactly when the binding is.
Witness: two bindings that fit have the same word only if they are the same.
-/
theorem WellFormed.word?_eq_pack_iff (formed : table.WellFormed) {fd : Fd}
    {binding : Binding} (fits : binding.Fits)
    : table.word? fd = some binding.pack ↔ table.get? fd = some binding := by
  rw [get?_eq_some_iff, slot?_eq_some_iff]
  by_cases nonneg : 0 ≤ fd
  · simp only [word?, nonneg, if_true, true_and, Array.getElem?_eq_some_iff]
    constructor
    · rintro ⟨within, same⟩
      exact ⟨within, (formed.unpack?_eq_some_iff (Array.getElem_mem within) fits).mpr same⟩
    · rintro ⟨within, same⟩
      exact ⟨within, (formed.unpack?_eq_some_iff (Array.getElem_mem within) fits).mp same⟩
  · simp [word?, nonneg]

/-- Releasing a binding frees its descriptor if the binding is ephemeral and still there,
and changes nothing else.
-/
theorem WellFormed.release_spec (formed : table.WellFormed) (fd : Fd) {binding : Binding}
    (fits : binding.Fits)
    : ((table.release fd binding).1 = true
        ↔ binding.permanent = false ∧ table.get? fd = some binding)
      ∧ (table.release fd binding).2.WellFormed
      ∧ ∀ other,
          (table.release fd binding).2.slot? other
          = if (table.release fd binding).1 = true ∧ other = fd then some none
            else table.slot? other := by
  unfold release
  split
  · rename_i released
    simp only [Bool.and_eq_true, Bool.not_eq_true', beq_iff_eq,
      formed.word?_eq_pack_iff fits] at released
    refine ⟨by simp [released], formed.setIfInBounds _ (.inl rfl), ?_⟩
    intro other
    simpa using slot?_setIfInBounds (get?_eq_some_iff.mp released.2) 0 other
  · rename_i kept
    simp only [Bool.and_eq_true, Bool.not_eq_true', beq_iff_eq,
      formed.word?_eq_pack_iff fits] at kept
    refine ⟨by simpa using kept, formed, ?_⟩
    simp

/-- Releasing what was just allocated gives the old table back.
Witness: the word that allocation replaced was zero.
-/
theorem WellFormed.release_allocate (formed : table.WellFormed) {mount : Nat}
    {file : LocalFd} {fd : Fd} {after : FdTable}
    (allocated : table.allocate mount file = .ok (fd, after))
    : after.release fd ⟨mount, file, false⟩ = (true, table) := by
  unfold allocate at allocated
  split at allocated
  · contradiction
  · rename_i index found
    obtain ⟨rfl, rfl⟩ := Prod.mk.inj (Except.ok.inj allocated)
    obtain ⟨within, zero, _⟩ := Array.findIdx?_eq_some_iff_getElem.mp found
    obtain ⟨nonneg, position⟩ := formed.position within
    have restored
        : table.words.setIfInBounds index 0 = table.words := by
      rw [Array.setIfInBounds_def, dif_pos within, ← beq_iff_eq.mp zero, Array.set_getElem_self]
    simp [release, word?, nonneg, position, within, restored]

/-- The ranges that are not refused at once lie in the table. -/
theorem not_refused_iff {min max : Fd}
    : ¬(min < 0 ∨ max < min ∨ table.capacity ≤ max.toNatClampNeg)
      ↔ 0 ≤ min ∧ min ≤ max ∧ max.toNatClampNeg < table.capacity := by
  rw [not_or, not_or, Int32.not_lt, Int32.not_lt, Nat.not_le]

/-- The words of a range are all zero exactly when each of them is. -/
theorem all_zero_iff {first last : Nat} (within : last < table.capacity)
    : (table.words.extract first (last + 1)).all (· == 0) = true
      ↔ ∀ index ≤ last, first ≤ index → table.words[index]? = some 0 := by
  rw [Array.all_eq_true_iff_forall_mem]
  constructor
  · intro zero index below above
    have inside : index < table.words.size := Nat.lt_of_le_of_lt below within
    rw [Array.getElem?_eq_getElem inside, Option.some.injEq, ← beq_iff_eq]
    apply zero
    rw [Array.mem_extract_iff_getElem]
    exact ⟨index - first, by omega, by simp only [Nat.add_sub_cancel' above]⟩
  · intro zero word member
    obtain ⟨offset, inRange, rfl⟩ := Array.mem_extract_iff_getElem.mp member
    obtain ⟨_, same⟩ := Array.getElem?_eq_some_iff.mp
      (zero (first + offset) (by omega) (Nat.le_add_right _ _))
    exact beq_iff_eq.mpr same

/-- Reserving a range binds its descriptors, all unused before, each to itself and for
good, and changes nothing else.
Witness: the words of the range were all zero, and only those are replaced.
-/
theorem WellFormed.reserveRange_eq_ok (formed : table.WellFormed) {mount : Nat}
    {min max : Fd} {after : FdTable} (fits : mount < 65536)
    (reserved : table.reserveRange mount min max = .ok after)
    : (0 ≤ min ∧ min ≤ max)
      ∧ (∀ fd, min ≤ fd → fd ≤ max → table.slot? fd = some none)
      ∧ after.WellFormed
      ∧ ∀ other,
          after.slot? other
          = if min ≤ other ∧ other ≤ max then some (some ⟨mount, other, true⟩)
            else table.slot? other := by
  unfold reserveRange at reserved
  split at reserved
  · contradiction
  · rename_i inTable
    obtain ⟨minNonneg, ordered, lastWithin⟩ := not_refused_iff.mp inTable
    dsimp only at reserved
    split at reserved
    · rename_i free
      obtain rfl := Except.ok.inj reserved
      have maxNonneg := Int32.le_trans minNonneg ordered
      -- a descriptor is in the range exactly when its position is
      have inRange {fd : Fd} (nonneg : 0 ≤ fd)
          : (min ≤ fd ∧ fd ≤ max)
            ↔ min.toNatClampNeg ≤ fd.toNatClampNeg
              ∧ fd.toNatClampNeg ≤ max.toNatClampNeg := by
        rw [Fd.le_iff minNonneg nonneg, Fd.le_iff nonneg maxNonneg]
      have unused : ∀ fd, min ≤ fd → fd ≤ max → table.slot? fd = some none := by
        intro fd above below
        have nonneg := Int32.le_trans minNonneg above
        obtain ⟨lower, upper⟩ := (inRange nonneg).mp ⟨above, below⟩
        have zero := (all_zero_iff lastWithin).mp free fd.toNatClampNeg upper lower
        simp [slot?, word?, nonneg, zero]
      refine ⟨⟨minNonneg, ordered⟩, unused, ⟨?_, ?_⟩, ?_⟩
      · intro word member
        obtain ⟨index, within, rfl⟩ := Array.mem_mapIdx.mp member
        split
        · exact .inr ⟨⟨mount, Int32.ofNat index, true⟩, fits, rfl⟩
        · exact formed.packed _ (Array.getElem_mem within)
      · simpa only [capacity, Array.size_mapIdx] using formed.addressable
      · intro other
        by_cases nonneg : 0 ≤ other
        · simp only [inRange nonneg]
          split
          · rename_i within
            have bound : other.toNatClampNeg < table.words.size :=
              Nat.lt_of_le_of_lt within.2 lastWithin
            rw [slot?_eq_some_iff]
            refine ⟨nonneg, by simpa using bound, ?_⟩
            rw [Array.getElem_mapIdx, if_pos within, Int32.ofNat_toNatClampNeg _ nonneg]
            exact Binding.unpack?_pack fits
          · rename_i outside
            simp [slot?, word?, nonneg, outside]
        · have outside : ¬(min ≤ other ∧ other ≤ max) :=
            fun within => nonneg (Int32.le_trans minNonneg within.1)
          simp [slot?, word?, nonneg, outside]
    · contradiction

/-- A range is reserved exactly when it is one and all its descriptors are unused, which
those beyond the table are not.
-/
theorem WellFormed.exists_reserveRange_iff (formed : table.WellFormed) {mount : Nat}
    {min max : Fd} (fits : mount < 65536)
    : (∃ after, table.reserveRange mount min max = .ok after)
      ↔ (0 ≤ min ∧ min ≤ max)
        ∧ ∀ fd, min ≤ fd → fd ≤ max → table.slot? fd = some none := by
  constructor
  · rintro ⟨after, reserved⟩
    obtain ⟨ordered, unused, _⟩ := formed.reserveRange_eq_ok fits reserved
    exact ⟨ordered, unused⟩
  · rintro ⟨⟨minNonneg, ordered⟩, unused⟩
    have maxNonneg := Int32.le_trans minNonneg ordered
    obtain ⟨_, lastWithin, _⟩ :=
      slot?_eq_some_iff.mp (unused max ordered (Int32.le_refl max))
    have free
        : (table.words.extract min.toNatClampNeg (max.toNatClampNeg + 1)).all (· == 0)
          = true := by
      refine (all_zero_iff lastWithin).mpr fun index below above => ?_
      have within : index < table.words.size := Nat.lt_of_le_of_lt below lastWithin
      obtain ⟨nonneg, position⟩ := formed.position within
      have read := unused (Int32.ofNat index)
        (by rw [Fd.le_iff minNonneg nonneg, position]; exact above)
        (by rw [Fd.le_iff nonneg maxNonneg, position]; exact below)
      rw [formed.slot?_ofNat within, Option.some.injEq,
        formed.unpack?_eq_none_iff (Array.getElem_mem within)] at read
      rw [Array.getElem?_eq_getElem within, read]
    have inTable := not_refused_iff.mpr ⟨minNonneg, ordered, lastWithin⟩
    rw [reserveRange, if_neg inTable]
    exact ⟨_, if_pos free⟩

/-- Releasing a mount slot leaves every descriptor as it was, apart from those that are
reserved for the slot.
-/
theorem slot?_releaseMount (table : FdTable) (mount : Nat) (fd : Fd)
    : (table.releaseMount mount).2.slot? fd
      = (table.slot? fd).map fun content =>
          content.filter fun binding => !(binding.mount == mount && binding.permanent) := by
  have freed (word : UInt64)
      : Binding.unpack? (if isReservedFor mount word then 0 else word)
        = (Binding.unpack? word).filter fun binding =>
            !(binding.mount == mount && binding.permanent) := by
    unfold isReservedFor
    cases read : Binding.unpack? word with
    | none => simp [read]
    | some binding =>
        dsimp only
        rw [Option.filter_some]
        split
        · rename_i reserved
          rw [reserved]
          rfl
        · rename_i unreserved
          rw [Bool.not_eq_true] at unreserved
          rw [unreserved, read]
          rfl
  simp only [slot?, word?, releaseMount]
  split
  · simp [Option.map_map, Function.comp_def, freed]
  · rfl

/-- Releasing a mount slot frees the descriptors reserved for it and no others. -/
theorem WellFormed.releaseMount_spec (formed : table.WellFormed) (mount : Nat)
    : (table.releaseMount mount).2.WellFormed
      ∧ ∀ fd binding,
          (table.releaseMount mount).2.get? fd = some binding
          ↔ table.get? fd = some binding
            ∧ ¬(binding.mount = mount ∧ binding.permanent = true) := by
  refine ⟨⟨?_, ?_⟩, ?_⟩
  · intro word member
    obtain ⟨old, oldMember, rfl⟩ := Array.mem_map.mp member
    split
    · exact .inl rfl
    · exact formed.packed old oldMember
  · simpa only [releaseMount, capacity, Array.size_map] using formed.addressable
  · intro fd binding
    simp only [get?_eq_some_iff, slot?_releaseMount, Option.map_eq_some_iff,
      Option.filter_eq_some_iff]
    grind

/-- No descriptor is counted as open on a mount slot exactly when all its descriptors are
reserved.
-/
theorem WellFormed.countOpen_eq_zero_iff (formed : table.WellFormed) {mount : Nat}
    : table.countOpen mount = 0
      ↔ ∀ fd binding,
          table.get? fd = some binding → binding.mount = mount
          → binding.permanent = true := by
  simp only [countOpen, Array.countP_eq_zero]
  constructor
  · intro closed fd binding bound sameMount
    obtain ⟨_, within, read⟩ := slot?_eq_some_iff.mp (get?_eq_some_iff.mp bound)
    have notOpen := closed _ (Array.getElem_mem within)
    simpa [isOpenOn, read, sameMount] using notOpen
  · intro reserved word member opened
    obtain ⟨index, within, rfl⟩ := Array.mem_iff_getElem.mp member
    have bound := formed.slot?_ofNat within
    cases read : Binding.unpack? table.words[index] with
    | none => simp [isOpenOn, read] at opened
    | some binding =>
        simp only [isOpenOn, read, Bool.and_eq_true, beq_iff_eq, Bool.not_eq_true'] at opened
        rw [read, ← get?_eq_some_iff] at bound
        simp [reserved _ _ bound opened.1] at opened

end FdTable

end StorageSwitch
