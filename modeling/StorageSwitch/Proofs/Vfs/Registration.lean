import StorageSwitch.Proofs.Vfs.Consistency

/-! A registration takes all that it asks for or nothing: the lowest free mount slot, a
range of unused descriptors, or both. And it is refused for want of them only.
-/

namespace StorageSwitch

variable {δ σ : Type}

/-- The descriptors of a range, all unused before, are bound for good to a mount slot, each
to itself, and no other descriptor has changed.
-/
structure FdTable.Reserved (table after : FdTable) (mount : Nat) (min max : Fd) : Prop where
  unused : ∀ fd, min ≤ fd → fd ≤ max → table.slot? fd = some none
  slots
    : ∀ fd,
        after.slot? fd
        = if min ≤ fd ∧ fd ≤ max then some (some ⟨mount, fd, true⟩) else table.slot? fd

namespace Vfs

variable {vfs after : Vfs δ}

-----------------------------------------------------------------------------------------
-- The tables keep their sizes
-----------------------------------------------------------------------------------------

/-- There are as many descriptors and mount slots as the switch was made with. -/
structure Sized (vfs : Vfs δ) : Prop where
  fds : vfs.fds.capacity = vfs.config.maxFds
  mounts : vfs.mounts.capacity = vfs.config.maxMounts

theorem create_sized {config : Config} {notices : List Notice}
    (made : create config = .ok (vfs, notices))
    : vfs.Sized := by
  obtain ⟨_, rootIndex, mounts, fds, rooted, tabled, rfl⟩ := eq_of_create made
  exact ⟨FdTable.capacity_create tabled, MountTable.capacity_insert rooted⟩

theorem Sized.edits {edit : Edit} (sized : vfs.Sized) (edits : vfs.Edits edit after)
    : after.Sized := by
  obtain ⟨fds, mounts⟩ := sized
  cases edits with
  | unchanged => exact ⟨fds, mounts⟩
  | mounted inserted | undone inserted =>
      exact ⟨fds, (MountTable.capacity_insert inserted).trans mounts⟩
  | ranged inserted reserved =>
      exact ⟨(FdTable.capacity_reserveRange reserved).trans fds,
        (MountTable.capacity_insert inserted).trans mounts⟩
  | reserved _ reserved => exact ⟨(FdTable.capacity_reserveRange reserved).trans fds, mounts⟩
  | unmounted _ _ _ => exact ⟨(FdTable.capacity_releaseMount _ _).trans fds, mounts⟩

theorem Sized.bind (sized : vfs.Sized) {entry : Entry δ} {file : LocalFd} {fd : Fd}
    (bound : vfs.bind entry file = .ok (fd, after))
    : after.Sized := by
  unfold Vfs.bind at bound
  split at bound
  · split at bound
    · contradiction
    · rename_i allocated
      obtain ⟨_, rfl⟩ := Prod.mk.inj (Except.ok.inj bound)
      exact ⟨(FdTable.capacity_allocate allocated).trans sized.fds, sized.mounts⟩
  · contradiction

theorem Sized.release (sized : vfs.Sized) (fd : Fd) (binding : Binding)
    : (vfs.release fd binding).2.Sized :=
  ⟨(FdTable.capacity_release _ _ _).trans sized.fds, sized.mounts⟩

theorem Sized.countStreams (sized : vfs.Sized) (entry : Entry δ) (change : Nat → Nat)
    : Sized { vfs with mounts := vfs.mounts.countStreams entry change } :=
  ⟨sized.fds, (MountTable.capacity_countStreams _ _ _).trans sized.mounts⟩

-----------------------------------------------------------------------------------------
-- What a registration does to the tables
-----------------------------------------------------------------------------------------

/-- What the caller learns from a change. -/
def Change.answer {α : Type} (change : Change δ α) (success : α → Answer σ) : Answer σ :=
  match change.result with
  | .error error => .failed error
  | .ok result => success result

/-- What the answer to a registration says about the tables.
- `failed`: every descriptor and every mount slot is as before, and every path belongs to
  the entry that it belonged to.
- `mounted`: the driver is in what was the lowest free slot, and nothing else has changed.
- `ranged`: so it is, and the range is reserved for that slot.
- `reserved`: the range is reserved for a slot in use, and no slot has changed.
-/
inductive Registers (vfs after : Vfs δ) : Call δ → Answer σ → Prop
  | failed {call error} (fds : after.fds = vfs.fds)
    (mounts : ∀ index, after.mounts.mounted? index = vfs.mounts.mounted? index)
    (paths : ∀ path, after.resolve path = vfs.resolve path)
    : Registers vfs after call (.failed error)
  | mounted {path driver index} (fds : after.fds = vfs.fds)
    (filled : vfs.mounts.Filled after.mounts index (.path path) (.given driver))
    : Registers vfs after (.register path driver) (.mounted index)
  | ranged {driver min max index}
    (filled : vfs.mounts.Filled after.mounts index .descriptorsOnly (.given driver))
    (reserved : vfs.fds.Reserved after.fds index min max)
    : Registers vfs after (.registerRange driver min max) (.mounted index)
  | reserved {index entry min max} (found : vfs.mounts.get? index = some entry)
    (mounts : after.mounts = vfs.mounts)
    (reserved : vfs.fds.Reserved after.fds index min max)
    : Registers vfs after (.reserveRange index min max) .done

theorem Registers.unchanged (vfs : Vfs δ) (call : Call δ) (error : Error)
    : vfs.Registers vfs call (.failed (σ := σ) error) :=
  .failed rfl (fun _ => rfl) (fun _ => rfl)

theorem Consistent.reserved (consistent : vfs.Consistent) {index : Nat} {min max : Fd}
    {fds : FdTable} (fits : index < 65536)
    (reserved : vfs.fds.reserveRange index min max = .ok fds)
    : vfs.fds.Reserved fds index min max := by
  obtain ⟨_, unused, _, slots⟩ := consistent.fds.reserveRange_eq_ok fits reserved
  exact ⟨unused, slots⟩

/-- A slot that a driver may be put into has a number that fits into packed words. -/
theorem Consistent.filled_fits (consistent : vfs.Consistent)
    {mounts : MountTable (Driver δ)} {index : Nat} {point : MountPoint} {driver : Driver δ}
    (filled : vfs.mounts.Filled mounts index point driver)
    : index < 65536 := by
  have within := filled.within
  have narrow := consistent.narrow
  omega

theorem Consistent.register_registers (consistent : vfs.Consistent) (path : String)
    (driver : δ)
    : vfs.Registers (vfs.register path driver).vfs (.register path driver)
        ((vfs.register path driver).answer (σ := σ) .mounted) := by
  unfold register
  cases Path.validateMount path with
  | error error => exact .unchanged vfs _ error
  | ok valid =>
      cases inserted : vfs.mounts.insert (.path path) (.given driver) with
      | error error => exact .unchanged vfs _ error
      | ok placed => exact .mounted rfl (consistent.mounts.insert_eq_ok inserted)

/-- A range that cannot be reserved takes no slot either.
Witness: the slot that was filled for it is freed again, and paths only depend on what is
in the slots.
-/
theorem Consistent.registerRange_registers (consistent : vfs.Consistent) (driver : δ)
    (min max : Fd)
    : vfs.Registers (vfs.registerRange driver min max).vfs (.registerRange driver min max)
        ((vfs.registerRange driver min max).answer (σ := σ) .mounted) := by
  unfold registerRange
  split
  · exact .unchanged vfs _ _
  · cases inserted : vfs.mounts.insert .descriptorsOnly (.given driver) with
    | error error => exact .unchanged vfs _ error
    | ok placed =>
        have filled := consistent.mounts.insert_eq_ok inserted
        cases reserved : vfs.fds.reserveRange placed.1 min max with
        | error error =>
            simp only [reserved]
            have same := filled.mounted?_remove
            refine .failed rfl same (MountTable.resolve_congr fun index => ?_)
            rw [MountTable.get?, same, MountTable.get?]
        | ok fds =>
            simp only [reserved]
            exact .ranged filled (consistent.reserved (consistent.filled_fits filled) reserved)

theorem Consistent.reserveRange_registers (consistent : vfs.Consistent) (index : Nat)
    (min max : Fd)
    : vfs.Registers (vfs.reserveRange index min max).vfs (.reserveRange index min max)
        ((vfs.reserveRange index min max).answer (σ := σ) fun _ => .done) := by
  unfold reserveRange
  cases found : vfs.mounts.get? index with
  | none => exact .unchanged vfs _ _
  | some entry =>
      cases reserved : vfs.fds.reserveRange index min max with
      | error error => exact .unchanged vfs _ error
      | ok fds =>
          exact .reserved found rfl (consistent.reserved (consistent.fits found) reserved)

/-- A driver gets a slot and a range exactly when a slot is free and all descriptors of the
range are unused. The bound on the range says nothing new: no descriptor beyond the table
is unused.
-/
theorem Consistent.exists_registerRange_iff (consistent : vfs.Consistent) {driver : δ}
    {min max : Fd}
    : (∃ index, (vfs.registerRange driver min max).result = .ok index)
      ↔ (0 ≤ min ∧ min ≤ max ∧ max.toNatClampNeg < vfs.fds.capacity)
        ∧ (∀ fd, min ≤ fd → fd ≤ max → vfs.fds.slot? fd = some none)
        ∧ vfs.mounts.entries.length < vfs.mounts.capacity := by
  have room
      : (∃ placed, vfs.mounts.insert .descriptorsOnly (.given driver) = .ok placed)
        ↔ vfs.mounts.entries.length < vfs.mounts.capacity :=
    consistent.mounts.exists_insert_iff
  unfold registerRange
  split
  · rename_i outside
    simp only [reduceCtorEq, exists_false, false_iff]
    rintro ⟨⟨nonneg, ordered, inTable⟩, _⟩
    rcases outside with negative | reversed | beyond
    · exact Int32.not_le.mpr negative nonneg
    · exact Int32.not_le.mpr reversed ordered
    · omega
  · rename_i inTable
    simp only [not_or, Int32.not_lt, Nat.not_le] at inTable
    cases inserted : vfs.mounts.insert .descriptorsOnly (.given driver) with
    | error error =>
        have full := mt room.mpr (by simp [inserted])
        simp [full]
    | ok placed =>
        have fits := consistent.filled_fits (consistent.mounts.insert_eq_ok inserted)
        have free
            : (∃ fds, vfs.fds.reserveRange placed.1 min max = .ok fds)
              ↔ (0 ≤ min ∧ min ≤ max)
                ∧ ∀ fd, min ≤ fd → fd ≤ max → vfs.fds.slot? fd = some none :=
          consistent.fds.exists_reserveRange_iff fits
        have roomy := room.mp ⟨_, inserted⟩
        cases reserved : vfs.fds.reserveRange placed.1 min max with
        | error error =>
            simp only [reserved, reduceCtorEq, exists_false, false_iff] at free ⊢
            rintro ⟨⟨nonneg, ordered, _⟩, unused, _⟩
            exact free ⟨⟨nonneg, ordered⟩, unused⟩
        | ok fds =>
            have unused := (free.mp ⟨_, reserved⟩).2
            simp only [reserved, Except.ok.injEq, exists_eq', true_iff]
            exact ⟨inTable, unused, roomy⟩

end Vfs

namespace Session

variable {session : Session δ σ}

theorem apply_sized {α : Type} {change : Vfs.Change δ α} {edit : α → Vfs.Edit}
    {success : α → Answer σ} (sized : session.vfs.Sized)
    (makes : change.Makes session.vfs edit)
    : (session.apply change success).session.vfs.Sized := by
  unfold Vfs.Change.Makes at makes
  split at makes <;> exact sized.edits makes

theorem start_sized (sized : session.vfs.Sized) (call : Call δ)
    : (session.start call).session.vfs.Sized := by
  cases call with
  | register path driver => exact apply_sized sized (session.vfs.register_makes path driver)
  | registerRange driver min max =>
      exact apply_sized sized (session.vfs.registerRange_makes driver min max)
  | reserveRange index min max =>
      exact apply_sized sized (session.vfs.reserveRange_makes index min max)
  | unregister index => exact apply_sized sized (session.vfs.unregister_makes index)
  | _ =>
      simp only [start, askAt, askPair, askFd, askStream, endStream]
      repeat' split
      all_goals exact sized

theorem finish_sized (sized : session.vfs.Sized) (respond : Responder σ)
    (frame : Frame δ σ)
    : (session.finish respond frame).session.vfs.Sized := by
  cases frame with
  | opening entry path flags mode =>
      simp only [finish]
      split
      · exact sized
      · rename_i file _
        unfold bindOpened
        cases bound : session.vfs.bind entry file with
        | error error => exact sized
        | ok placed => exact sized.bind bound
  | closing entry fd binding =>
      simp only [finish, freeClosed]
      split
      · exact sized
      · exact sized.release fd binding
  | listing entry path =>
      simp only [finish]
      split
      · exact sized
      · simp only [listOpened]
        split
        · exact sized.countStreams entry _
        · exact sized
  | ending stream ended dropped => exact sized.countStreams ended.entry _
  | relaying | undoing | discarding | moving => exact sized

/-- Every stage of a call leaves the tables their sizes. -/
theorem stable_sized : Stable fun session : Session δ σ => session.vfs.Sized where
  start {session} call sized := by
    have started := start_sized sized call
    unfold Step.suspend
    split <;> exact started
  finish {session} respond frame sized := by
    have before : session.vfs.Sized := sized
    have finished := finish_sized before respond frame
    unfold Step.suspend
    split <;> exact finished
  drop sized := sized

theorem Reachable.sized (reachable : session.Reachable) : session.vfs.Sized := by
  obtain ⟨config, start, notices, history, made, run⟩ := reachable
  obtain ⟨vfs, created, rfl⟩ := create_eq_ok made
  exact stable_sized.run (Vfs.create_sized created) run

/-- A call that only concerns the tables is over at once. -/
theorem apply_settle {α : Type} (session : Session δ σ) (change : Vfs.Change δ α)
    (success : α → Answer σ)
    : (session.apply change success).settle
      = ⟨{ session with vfs := change.vfs }, change.notices,
          .returns (change.answer success)⟩ :=
  Step.settle_of_returns rfl

/-- A registration is answered at once, and the answer tells what it did to the tables. -/
theorem Consistent.begin_registers (consistent : session.Consistent) (path : String)
    (driver : δ) (index : Nat) (min max : Fd)
    : ∀ call ∈ [.register path driver, .registerRange driver min max,
          .reserveRange index min max],
        ∃ answer,
          (session.begin call).next = .returns answer
          ∧ session.vfs.Registers (session.begin call).session.vfs call answer := by
  have tables := consistent.tables
  simp only [List.forall_mem_cons, List.not_mem_nil, false_implies, implies_true, and_true]
  exact ⟨⟨_, rfl, tables.register_registers path driver⟩,
    ⟨_, rfl, tables.registerRange_registers driver min max⟩,
    ⟨_, rfl, tables.reserveRange_registers index min max⟩⟩

/-- A registration is answered at once. If it fails, every descriptor and every mount slot
is as before. If it succeeds, a driver that was registered is in what was the lowest free
slot, the range that was asked for, unused before, is reserved, and nothing else has
changed. A driver can be registered with a range exactly if the range lies in the table
and is unused and a slot is free.
-/
theorem registration_takes_all_or_nothing (reachable : session.Reachable) (path : String)
    (driver : δ) (index : Nat) (min max : Fd)
    : (∀ call ∈ [.register path driver, .registerRange driver min max,
          .reserveRange index min max],
        ∃ answer,
          (session.begin call).next = .returns answer
          ∧ session.vfs.Registers (session.begin call).session.vfs call answer)
      ∧ ((∃ slot,
            (session.begin (.registerRange driver min max)).next
            = .returns (.mounted slot))
          ↔ (0 ≤ min ∧ min ≤ max ∧ max.toInt < session.vfs.config.maxFds)
            ∧ (∀ fd, min ≤ fd → fd ≤ max → session.vfs.fds.slot? fd = some none)
            ∧ session.vfs.mounts.entries.length < session.vfs.config.maxMounts) := by
  have consistent := reachable.consistent
  obtain ⟨fds, mounts⟩ := reachable.sized
  refine ⟨consistent.begin_registers path driver index min max, ?_⟩
  have succeeds
      : (∃ slot,
          (session.begin (.registerRange driver min max)).next
          = .returns (.mounted slot))
        ↔ ∃ slot, (session.vfs.registerRange driver min max).result = .ok slot := by
    simp only [begin, start, apply_settle, Vfs.Change.answer]
    cases (session.vfs.registerRange driver min max).result <;> simp
  have bound (nonneg : 0 ≤ max)
      : max.toNatClampNeg < session.vfs.fds.capacity
        ↔ max.toInt < session.vfs.config.maxFds := by
    rw [fds, ← Int32.cast_toNatClampNeg max nonneg]
    omega
  rw [succeeds, consistent.tables.exists_registerRange_iff, mounts]
  constructor
  · rintro ⟨⟨nonneg, ordered, inTable⟩, free⟩
    exact ⟨⟨nonneg, ordered, (bound (Int32.le_trans nonneg ordered)).mp inTable⟩, free⟩
  · rintro ⟨⟨nonneg, ordered, inTable⟩, free⟩
    exact ⟨⟨nonneg, ordered, (bound (Int32.le_trans nonneg ordered)).mpr inTable⟩, free⟩

/-- A file has descriptor 0, and the driver of another one is at work. A range with
descriptor 0 in it is refused, and the range of the next two is reserved.
-/
theorem registration_takes_all_or_nothing_of_open
    : ∃ session : Session String Unit,
        session.Reachable
        ∧ session.pending.length = 1
        ∧ (∃ error,
            session.vfs.Registers (session.begin (.registerRange "tape" 0 1)).session.vfs
              (.registerRange "tape" 0 1) (.failed (σ := Unit) error))
        ∧ ∃ slot,
            (session.begin (.registerRange "tape" 1 2)).next = .returns (.mounted slot) := by
  have played
      : (playNew? ⟨4, 3⟩
            [.call (.register "/a" "disk"), .call (.openFile "/a/f" ⟨0⟩ 0),
              .reply (.obliging 5 ()), .call (.openFile "/a/g" ⟨0⟩ 0)]).any
          (fun (_, session) =>
            session.pending.length = 1
            ∧ session.vfs.fds.slot? 0 = some (some ⟨1, 5, false⟩)
            ∧ session.vfs.fds.slot? 1 = some none
            ∧ session.vfs.fds.slot? 2 = some none
            ∧ session.vfs.config = ⟨4, 3⟩
            ∧ session.vfs.mounts.entries.length = 2)
        = true := by decide +kernel
  obtain ⟨_, session, reachable, checked⟩ := exists_reachable_of_playNew? played
  obtain ⟨waits, taken, first, second, sizes, mounted⟩ := of_decide_eq_true checked
  refine ⟨session, reachable, waits, ?_, ?_⟩
  · obtain ⟨outcomes, succeeds⟩ :=
      registration_takes_all_or_nothing reachable "/b" "tape" 1 0 1
    obtain ⟨answer, returned, registers⟩ := outcomes (.registerRange "tape" 0 1) (by simp)
    cases registers with
    | @failed _ error fds mounts paths => exact ⟨error, .failed fds mounts paths⟩
    | ranged _ _ =>
        obtain ⟨_, unused, _⟩ := succeeds.mp ⟨_, returned⟩
        have free := unused 0 (by decide) (by decide)
        rw [taken] at free
        contradiction
  · obtain ⟨_, succeeds⟩ := registration_takes_all_or_nothing reachable "/b" "tape" 1 1 2
    refine succeeds.mpr ⟨by rw [sizes]; decide, ?_, by rw [sizes, mounted]; decide⟩
    intro fd above below
    have between : fd = 1 ∨ fd = 2 := by
      have lower : (1 : Int32).toInt ≤ fd.toInt := Int32.le_iff_toInt_le.mp above
      have upper : fd.toInt ≤ (2 : Int32).toInt := Int32.le_iff_toInt_le.mp below
      simp only [← Int32.toInt_inj, Int32.reduceToInt] at lower upper ⊢
      omega
    rcases between with rfl | rfl
    · exact first
    · exact second

end Session

end StorageSwitch
