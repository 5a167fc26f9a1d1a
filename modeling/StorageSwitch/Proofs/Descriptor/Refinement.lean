import StorageSwitch.Proofs.Descriptor.Slots

/-! A table of packed words answers like a plain array of optional bindings. The searches
and comparisons of the table are over words, those of the array over bindings, and a word of
a well-formed table is zero exactly when its cell is empty.
-/

namespace StorageSwitch

-----------------------------------------------------------------------------------------
-- Tables and their calls
-----------------------------------------------------------------------------------------

/-- The operations of a table of descriptors, however it keeps its bindings. -/
structure TableOperations (Table : Type) where
  allocate : Table → Nat → LocalFd → Except Error (Fd × Table)
  release : Table → Fd → Binding → Bool × Table
  reserveRange : Table → Nat → Fd → Fd → Except Error Table
  releaseMount : Table → Nat → Nat × Table
  countOpen : Table → Nat → Nat
  slot? : Table → Fd → Option (Option Binding)
  get? : Table → Fd → Option Binding

/-- A call of a table, with its arguments. -/
inductive TableCall where
  | allocate (mount : Nat) (file : LocalFd)
  | release (fd : Fd) (binding : Binding)
  | reserveRange (mount : Nat) (min max : Fd)
  | releaseMount (mount : Nat)
  | countOpen (mount : Nat)
  | slot (fd : Fd)
  | get (fd : Fd)
  deriving DecidableEq, Repr

/-- The mount slot that a call stores or compares in packed form has room in a word. -/
def TableCall.Fits : TableCall → Prop
  | .allocate mount _ | .reserveRange mount _ _ => mount < 65536
  | .release _ binding => binding.Fits
  | .releaseMount _ | .countOpen _ | .slot _ | .get _ => True

/-- What a table answers to a call. -/
inductive TableAnswer where
  | failed (error : Error)
  | allocated (fd : Fd)
  | released (freed : Bool)
  | reserved
  | freed (count : Nat)
  | counted (count : Nat)
  | content (slot : Option (Option Binding))
  | bound (binding : Binding)
  deriving DecidableEq, Repr

namespace TableOperations

variable {Table : Type}

/-- The answer to a call, and the table after it. A call that fails leaves the table as it
was.
-/
def perform (operations : TableOperations Table) (table : Table)
    : TableCall → TableAnswer × Table
  | .allocate mount file =>
      match operations.allocate table mount file with
      | .error error => (.failed error, table)
      | .ok (fd, after) => (.allocated fd, after)
  | .release fd binding =>
      let (freed, after) := operations.release table fd binding
      (.released freed, after)
  | .reserveRange mount min max =>
      match operations.reserveRange table mount min max with
      | .error error => (.failed error, table)
      | .ok after => (.reserved, after)
  | .releaseMount mount =>
      let (count, after) := operations.releaseMount table mount
      (.freed count, after)
  | .countOpen mount => (.counted (operations.countOpen table mount), table)
  | .slot fd => (.content (operations.slot? table fd), table)
  | .get fd =>
      match operations.get? table fd with
      | none => (.failed .badDescriptor, table)
      | some binding => (.bound binding, table)

/-- The answers to calls made one after the other, and the table after all of them. -/
def performAll (operations : TableOperations Table) (table : Table)
    : List TableCall → List TableAnswer × Table
  | [] => ([], table)
  | call :: calls =>
      let (answer, next) := operations.perform table call
      let (answers, after) := operations.performAll next calls
      (answer :: answers, after)

end TableOperations

/-- The operations on packed words. -/
def FdTable.operations : TableOperations FdTable where
  allocate := FdTable.allocate
  release := FdTable.release
  reserveRange := FdTable.reserveRange
  releaseMount := FdTable.releaseMount
  countOpen := FdTable.countOpen
  slot? := FdTable.slot?
  get? := FdTable.get?

-----------------------------------------------------------------------------------------
-- Plain cells
-----------------------------------------------------------------------------------------

/-- A plain array of optional bindings. -/
structure PlainTable where
  cells : Array (Option Binding)
  deriving DecidableEq, Repr

namespace PlainTable

/-- A table of empty cells. -/
def create (capacity : Nat) : PlainTable := ⟨Array.replicate capacity none⟩

def slot? (table : PlainTable) (fd : Fd) : Option (Option Binding) :=
  if 0 ≤ fd then table.cells[fd.toNatClampNeg]? else none

def get? (table : PlainTable) (fd : Fd) : Option Binding := (table.slot? fd).join

/-- Fills the first empty cell. -/
def allocate (table : PlainTable) (mount : Nat) (file : LocalFd)
    : Except Error (Fd × PlainTable) :=
  match table.cells.findIdx? Option.isNone with
  | none => .error .tooManyOpenFiles
  | some index =>
      .ok (Int32.ofNat index,
        ⟨table.cells.setIfInBounds index (some ⟨mount, file, false⟩)⟩)

/-- Empties a cell that holds exactly the given ephemeral binding. -/
def release (table : PlainTable) (fd : Fd) (binding : Binding) : Bool × PlainTable :=
  if binding.permanent = false ∧ table.get? fd = some binding then
    (true, ⟨table.cells.setIfInBounds fd.toNatClampNeg none⟩)
  else (false, table)

/-- All cells from `first` to `last` exist and are empty. -/
def Free (table : PlainTable) (first last : Nat) : Prop :=
  ∀ index ≤ last, first ≤ index → table.cells[index]? = some none

instance (table : PlainTable) (first last : Nat) : Decidable (table.Free first last) :=
  inferInstanceAs
    (Decidable (∀ index ≤ last, first ≤ index → table.cells[index]? = some none))

/-- Fills a range of empty cells with permanent bindings, each to its own number. -/
def reserveRange (table : PlainTable) (mount : Nat) (min max : Fd)
    : Except Error PlainTable :=
  if 0 ≤ min ∧ min ≤ max ∧ table.Free min.toNatClampNeg max.toNatClampNeg then
    .ok ⟨table.cells.mapIdx fun index cell =>
      if min.toNatClampNeg ≤ index ∧ index ≤ max.toNatClampNeg then
        some ⟨mount, Int32.ofNat index, true⟩
      else cell⟩
  else .error .invalidArgument

/-- Whether a cell holds a binding to a mount slot, permanent or not as asked. -/
def holds (mount : Nat) (permanent : Bool) (cell : Option Binding) : Bool :=
  cell.any fun binding => binding.mount == mount && binding.permanent == permanent

/-- Empties the cells that hold permanent bindings to a mount slot. -/
def releaseMount (table : PlainTable) (mount : Nat) : Nat × PlainTable :=
  (table.cells.countP (holds mount true),
    ⟨table.cells.map fun cell => if holds mount true cell then none else cell⟩)

def countOpen (table : PlainTable) (mount : Nat) : Nat :=
  table.cells.countP (holds mount false)

/-- The operations on plain cells. -/
def operations : TableOperations PlainTable where
  allocate := PlainTable.allocate
  release := PlainTable.release
  reserveRange := PlainTable.reserveRange
  releaseMount := PlainTable.releaseMount
  countOpen := PlainTable.countOpen
  slot? := PlainTable.slot?
  get? := PlainTable.get?

end PlainTable

-----------------------------------------------------------------------------------------
-- One operation
-----------------------------------------------------------------------------------------

namespace FdTable

/-- The cells that the words of a table stand for. -/
def plain (table : FdTable) : PlainTable := ⟨table.words.map Binding.unpack?⟩

theorem plain_slot? (table : FdTable) (fd : Fd) : table.plain.slot? fd = table.slot? fd := by
  simp only [PlainTable.slot?, plain, Array.getElem?_map, slot?, word?]
  split <;> rfl

theorem plain_get? (table : FdTable) (fd : Fd) : table.plain.get? fd = table.get? fd := by
  rw [PlainTable.get?, plain_slot?, get?]

theorem plain_setIfInBounds (table : FdTable) (index : Nat) (word : UInt64)
    : plain ⟨table.words.setIfInBounds index word⟩
      = ⟨table.plain.cells.setIfInBounds index (Binding.unpack? word)⟩ := by
  simp only [plain, Array.map_setIfInBounds]

variable {table : FdTable}

/-- The cell of a word is empty exactly when the word is zero. -/
theorem WellFormed.plain_cell_eq_none_iff (formed : table.WellFormed) {index : Nat}
    {word : UInt64} (stored : table.words[index]? = some word)
    : table.plain.cells[index]? = some none ↔ word = 0 := by
  rw [plain, Array.getElem?_map, stored, Option.map_some, Option.some.injEq]
  exact formed.unpack?_eq_none_iff (Array.mem_of_getElem? stored)

/-- A word of the table is zero exactly when it stands for an empty cell. -/
theorem WellFormed.isNone_unpack? (formed : table.WellFormed) {word : UInt64}
    (member : word ∈ table.words)
    : (Binding.unpack? word).isNone = true ↔ (word == 0) = true := by
  rw [Option.isNone_iff_eq_none, beq_iff_eq, formed.unpack?_eq_none_iff member]

/-- The first empty cell is at the position of the first zero word. -/
theorem WellFormed.plain_findIdx? (formed : table.WellFormed)
    : table.plain.cells.findIdx? Option.isNone = table.words.findIdx? (· == 0) := by
  rw [plain, Array.findIdx?_map]
  cases found : table.words.findIdx? (· == 0) with
  | none =>
      rw [Array.findIdx?_eq_none_iff] at found ⊢
      intro word member
      rw [Bool.eq_false_iff, Function.comp_apply, Ne, formed.isNone_unpack? member,
        ← Ne, ← Bool.eq_false_iff]
      exact found word member
  | some index =>
      rw [Array.findIdx?_eq_some_iff_getElem] at found ⊢
      obtain ⟨within, zero, earlier⟩ := found
      refine ⟨within, (formed.isNone_unpack? (Array.getElem_mem within)).mpr zero, ?_⟩
      intro other before
      rw [Function.comp_apply, formed.isNone_unpack? (Array.getElem_mem _)]
      exact earlier other before

/-- Both tables hand out the same descriptor, or neither has one left. -/
theorem WellFormed.plain_allocate (formed : table.WellFormed) {mount : Nat}
    (fits : mount < 65536) (file : LocalFd)
    : table.plain.allocate mount file
      = (table.allocate mount file).map (Prod.map id plain) := by
  have unpacked : Binding.unpack? (Binding.pack ⟨mount, file, false⟩)
      = some ⟨mount, file, false⟩ :=
    Binding.unpack?_pack fits
  rw [PlainTable.allocate, formed.plain_findIdx?, allocate]
  cases table.words.findIdx? (· == 0) with
  | none => rfl
  | some index =>
      simp only [Except.map, Prod.map, id_eq, plain_setIfInBounds, unpacked]

/-- Both tables free the same descriptors.
Witness: words are compared whole, and two bindings that fit have the same word only if they
are the same.
-/
theorem WellFormed.plain_release (formed : table.WellFormed) (fd : Fd) {binding : Binding}
    (fits : binding.Fits)
    : table.plain.release fd binding = Prod.map id plain (table.release fd binding) := by
  rw [PlainTable.release, plain_get?, release]
  simp only [Bool.and_eq_true, Bool.not_eq_true', beq_iff_eq, formed.word?_eq_pack_iff fits]
  split
  · simp only [Prod.map, id_eq, plain_setIfInBounds, Binding.unpack?_zero]
  · rfl

/-- The words of a range are all zero exactly when its cells are free. -/
theorem WellFormed.plain_free_iff (formed : table.WellFormed) {first last : Nat}
    (within : last < table.capacity)
    : table.plain.Free first last
      ↔ (table.words.extract first (last + 1)).all (· == 0) = true := by
  rw [all_zero_iff within, PlainTable.Free]
  refine forall₂_congr fun index below => forall_congr' fun _ => ?_
  have stored := Array.getElem?_eq_getElem (Nat.lt_of_le_of_lt below within)
  rw [formed.plain_cell_eq_none_iff stored, stored, Option.some.injEq]

/-- Reserved words stand for reserved cells.
Witness: each word of the range is the packed form of a binding that fits.
-/
theorem plain_mapIdx_pack (table : FdTable) {mount : Nat} (fits : mount < 65536)
    (within : Nat → Prop) [DecidablePred within]
    : plain ⟨table.words.mapIdx fun index word =>
        if within index then Binding.pack ⟨mount, Int32.ofNat index, true⟩ else word⟩
      = ⟨table.plain.cells.mapIdx fun index cell =>
          if within index then some ⟨mount, Int32.ofNat index, true⟩ else cell⟩ := by
  have unpacked (index : Nat)
      : Binding.unpack? (Binding.pack ⟨mount, Int32.ofNat index, true⟩)
        = some ⟨mount, Int32.ofNat index, true⟩ :=
    Binding.unpack?_pack fits
  rw [plain, plain, PlainTable.mk.injEq]
  apply Array.ext_getElem?
  intro index
  simp only [Array.getElem?_map, Array.getElem?_mapIdx, Option.map_map, Function.comp_def]
  congr 1
  funext word
  split
  · exact unpacked index
  · rfl

/-- Both tables reserve the same ranges, or refuse them.
Witness: a range that does not lie in the table is not free.
-/
theorem WellFormed.plain_reserveRange (formed : table.WellFormed) {mount : Nat}
    (fits : mount < 65536) (min max : Fd)
    : table.plain.reserveRange mount min max
      = (table.reserveRange mount min max).map plain := by
  rw [PlainTable.reserveRange, reserveRange]
  by_cases refused : min < 0 ∨ max < min ∨ table.capacity ≤ max.toNatClampNeg
  · have notFree : ¬(0 ≤ min ∧ min ≤ max
        ∧ table.plain.Free min.toNatClampNeg max.toNatClampNeg) := by
      rintro ⟨minNonneg, ordered, free⟩
      have last := free max.toNatClampNeg (Nat.le_refl _)
        ((Fd.le_iff minNonneg (Int32.le_trans minNonneg ordered)).mp ordered)
      obtain ⟨within, _⟩ := Array.getElem?_eq_some_iff.mp last
      rw [plain, Array.size_map] at within
      rw [← Int32.not_lt] at minNonneg ordered
      exact refused.elim minNonneg
        fun later => later.elim ordered (Nat.not_le.mpr within)
    rw [if_neg notFree, if_pos refused]
    rfl
  · obtain ⟨minNonneg, ordered, within⟩ := not_refused_iff.mp refused
    simp only [minNonneg, ordered, true_and, formed.plain_free_iff within, refused, if_false]
    split
    · rw [Except.map, plain_mapIdx_pack table fits]
    · rfl

/-- A word is a permanent binding to a mount slot exactly when its cell holds one. -/
theorem holds_unpack? (mount : Nat) (word : UInt64)
    : PlainTable.holds mount true (Binding.unpack? word) = isReservedFor mount word
      ∧ PlainTable.holds mount false (Binding.unpack? word) = isOpenOn mount word := by
  unfold PlainTable.holds isReservedFor isOpenOn
  cases Binding.unpack? word <;> simp

/-- Both tables free the same descriptors of a mount slot. -/
theorem plain_releaseMount (table : FdTable) (mount : Nat)
    : table.plain.releaseMount mount = Prod.map id plain (table.releaseMount mount) := by
  have freed (word : UInt64)
      : Binding.unpack? (if isReservedFor mount word then 0 else word)
        = if isReservedFor mount word then none else Binding.unpack? word := by
    split <;> rfl
  simp only [PlainTable.releaseMount, releaseMount, plain, Prod.map, id_eq, Array.countP_map,
    Array.map_map, Function.comp_def, holds_unpack?, freed]

/-- Both tables count the same open descriptors of a mount slot. -/
theorem plain_countOpen (table : FdTable) (mount : Nat)
    : table.plain.countOpen mount = table.countOpen mount := by
  simp only [PlainTable.countOpen, countOpen, plain, Array.countP_map, Function.comp_def,
    holds_unpack?]

-----------------------------------------------------------------------------------------
-- Runs of calls
-----------------------------------------------------------------------------------------

/-- A call that fits keeps the table well-formed. -/
theorem WellFormed.perform (formed : table.WellFormed) {call : TableCall} (fits : call.Fits)
    : (operations.perform table call).2.WellFormed := by
  cases call with
  | allocate mount file =>
      simp only [TableOperations.perform, operations]
      split
      · exact formed
      · rename_i fd after allocated
        exact (formed.allocate_eq_ok fits allocated).2.1
  | release fd binding => exact (formed.release_spec fd fits).2.1
  | reserveRange mount min max =>
      simp only [TableOperations.perform, operations]
      split
      · exact formed
      · rename_i after reserved
        exact (formed.reserveRange_eq_ok fits reserved).2.2.1
  | releaseMount mount => exact (formed.releaseMount_spec mount).1
  | countOpen mount => exact formed
  | slot fd => exact formed
  | get fd =>
      simp only [TableOperations.perform, operations]
      split <;> exact formed

/-- A call has the same answer on the words as on the cells, and the same effect. -/
theorem WellFormed.plain_perform (formed : table.WellFormed) {call : TableCall}
    (fits : call.Fits)
    : PlainTable.operations.perform table.plain call
      = Prod.map id plain (operations.perform table call) := by
  cases call with
  | allocate mount file =>
      simp only [TableOperations.perform, operations, PlainTable.operations,
        formed.plain_allocate fits]
      cases table.allocate mount file <;> rfl
  | release fd binding =>
      simp only [TableOperations.perform, operations, PlainTable.operations,
        formed.plain_release fd fits]
      rfl
  | reserveRange mount min max =>
      simp only [TableOperations.perform, operations, PlainTable.operations,
        formed.plain_reserveRange fits]
      cases table.reserveRange mount min max <;> rfl
  | releaseMount mount =>
      simp only [TableOperations.perform, operations, PlainTable.operations,
        plain_releaseMount]
      rfl
  | countOpen mount =>
      simp only [TableOperations.perform, operations, PlainTable.operations, plain_countOpen]
      rfl
  | slot fd =>
      simp only [TableOperations.perform, operations, PlainTable.operations, plain_slot?]
      rfl
  | get fd =>
      simp only [TableOperations.perform, operations, PlainTable.operations, plain_get?]
      cases table.get? fd <;> rfl

/-- Any number of calls have the same answers on the words as on the cells.
Witness: induction on the calls, each of which keeps the table well-formed.
-/
theorem WellFormed.plain_performAll (formed : table.WellFormed) {calls : List TableCall}
    (fits : ∀ call ∈ calls, call.Fits)
    : (operations.performAll table calls).2.WellFormed
      ∧ PlainTable.operations.performAll table.plain calls
        = Prod.map id plain (operations.performAll table calls) := by
  induction calls generalizing table with
  | nil => exact ⟨formed, rfl⟩
  | cons call calls ih =>
      obtain ⟨callFits, restFit⟩ := List.forall_mem_cons.mp fits
      obtain ⟨afterFormed, same⟩ := ih (formed.perform callFits) restFit
      refine ⟨afterFormed, ?_⟩
      simp only [TableOperations.performAll, formed.plain_perform callFits, Prod.map, same]
      rfl

/-- A new table with a descriptor for each position stands for empty cells. -/
theorem create_addressable {capacity : Nat} (addressable : capacity ≤ 2147483647)
    : ∃ table,
        create capacity = .ok table ∧ table.WellFormed
        ∧ table.plain = PlainTable.create capacity := by
  have small : ¬maxBytes < 8 * capacity := by
    have limit : maxBytes = 9223372036854775807 := rfl
    omega
  have made : create capacity = .ok ⟨Array.replicate capacity 0⟩ := if_neg small
  refine ⟨_, made, (create_eq_ok made addressable).1, ?_⟩
  simp only [plain, Array.map_replicate, Binding.unpack?_zero, PlainTable.create]

/-- Packing cannot be noticed: whatever calls are made of a new table, its words give the
answers that plain cells give, and at the end a word is zero exactly when its cell is empty.
Witness: the cells are read from the words by unpacking, which each operation respects.
-/
theorem packed_words_answer_as_cells {capacity : Nat} (addressable : capacity ≤ 2147483647)
    {calls : List TableCall} (fits : ∀ call ∈ calls, call.Fits)
    : ∃ table answers after plainAfter,
        create capacity = .ok table
        ∧ operations.performAll table calls = (answers, after)
        ∧ PlainTable.operations.performAll (.create capacity) calls = (answers, plainAfter)
        ∧ after.words.size = plainAfter.cells.size
        ∧ ∀ (index : Nat) (word : UInt64),
            after.words[index]? = some word
            → plainAfter.cells[index]? = some (Binding.unpack? word)
              ∧ (word = 0 ↔ plainAfter.cells[index]? = some none) := by
  obtain ⟨table, made, formed, empty⟩ := create_addressable addressable
  obtain ⟨afterFormed, same⟩ := formed.plain_performAll fits
  rw [empty] at same
  refine ⟨table, _, _, _, made, rfl, same, ?_, ?_⟩
  · exact Array.size_map.symm
  · intro index word stored
    refine ⟨?_, (afterFormed.plain_cell_eq_none_iff stored).symm⟩
    exact Array.getElem?_map.trans (congrArg (Option.map Binding.unpack?) stored)

/-- Mount slot 0 and negative driver descriptors make words that are not zero. A reserved
descriptor outlives its release, and a bound one the release of another binding; the range
over used descriptors and the allocation without an unused one are refused.
-/
theorem packed_words_answer_as_cells_of_negative_files
    : let calls : List TableCall := [
        .allocate 0 (-1), .allocate 0 (-2147483648), .reserveRange 0 2 2,
        .reserveRange 7 1 2, .allocate 65535 0, .release 2 ⟨0, 2, true⟩,
        .release 0 ⟨0, 1, false⟩, .release 0 ⟨0, -1, false⟩, .releaseMount 0, .get 0,
        .slot 1, .slot (-1), .countOpen 0
      ]
      ∃ table answers after plainAfter,
        create 3 = .ok table
        ∧ operations.performAll table calls = (answers, after)
        ∧ PlainTable.operations.performAll (.create 3) calls = (answers, plainAfter)
        ∧ answers = [
            .allocated 0, .allocated 1, .reserved, .failed .invalidArgument,
            .failed .tooManyOpenFiles, .released false, .released false, .released true,
            .freed 1, .failed .badDescriptor,
            .content (some (some ⟨0, -2147483648, false⟩)), .content none, .counted 1
          ]
        ∧ plainAfter.cells = #[none, some ⟨0, -2147483648, false⟩, none] := by
  intro calls
  have fits : ∀ call ∈ calls, call.Fits := by
    simp [calls, TableCall.Fits, Binding.Fits]
  have addressable : 3 ≤ 2147483647 := by decide
  obtain ⟨table, answers, after, plainAfter, made, onWords, onCells, _⟩ :=
    packed_words_answer_as_cells addressable fits
  obtain ⟨sameAnswers, sameCells⟩ := Prod.mk.inj onCells
  refine ⟨table, answers, after, plainAfter, made, onWords, onCells, ?_, ?_⟩
  · rw [← sameAnswers]
    decide +kernel
  · rw [← sameCells]
    decide +kernel

end FdTable

end StorageSwitch
