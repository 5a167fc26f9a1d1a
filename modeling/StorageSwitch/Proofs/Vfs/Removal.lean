import StorageSwitch.Proofs.Vfs.Registration
import StorageSwitch.Proofs.Vfs.Handles

/-! A mount is removed exactly when nobody uses it, and nothing of it is left: whoever is
put into its slot later starts without descriptors.
-/

namespace StorageSwitch

variable {δ σ : Type}

namespace Session

variable {session after : Session δ σ}

/-- Somebody uses the mount in a slot: a descriptor that a close can free is bound to the
slot, or a stream that was opened through the entry in it has not ended.
-/
def InUse (session : Session δ σ) (index : Nat) : Prop :=
  (∃ fd binding,
    session.vfs.fds.get? fd = some binding
    ∧ binding.mount = index
    ∧ binding.permanent = false)
  ∨ ∃ handle ∈ session.handles, session.vfs.mounts.get? index = some handle.2

/-- The mount in a slot has been removed: its slot is free, the descriptors that were bound
to the slot, all of them reserved, are unused, and all else is as before.
-/
structure Removes (session : Session δ σ) (index : Nat) (after : Session δ σ) : Prop where
  slots
    : ∀ other,
        after.vfs.mounts.mounted? other
        = if other = index then none else session.vfs.mounts.mounted? other
  freed
    : ∀ fd binding,
        session.vfs.fds.get? fd = some binding → binding.mount = index
        → binding.permanent = true ∧ after.vfs.fds.slot? fd = some none
  kept
    : ∀ fd,
        (∀ binding, session.vfs.fds.get? fd = some binding → binding.mount ≠ index)
        → after.vfs.fds.slot? fd = session.vfs.fds.slot? fd
  others : after = { session with vfs := after.vfs }

/-- Whatever is bound after a mount has been removed was bound before, to another slot. -/
theorem Removes.bound_before {index : Nat} (removes : session.Removes index after) {fd : Fd}
    {binding : Binding} (bound : after.vfs.fds.get? fd = some binding)
    : session.vfs.fds.get? fd = some binding ∧ binding.mount ≠ index := by
  rw [FdTable.get?_eq_some_iff] at bound
  cases before : session.vfs.fds.get? fd with
  | none =>
      rw [removes.kept fd (by simp [before]), ← FdTable.get?_eq_some_iff, before] at bound
      contradiction
  | some old =>
      by_cases same : old.mount = index
      · rw [(removes.freed fd old before same).2] at bound
        exact absurd (Option.some.inj bound) (by simp)
      · rw [removes.kept fd (by simp [before, same]), ← FdTable.get?_eq_some_iff, before]
          at bound
        exact ⟨bound, Option.some.inj bound ▸ same⟩

/-- A mount is idle exactly when nobody uses it.
Witness: a mount counts its handles, so its count is zero exactly when it has none.
-/
theorem Consistent.isBusy_eq_false_iff (consistent : session.Consistent) {index : Nat}
    {entry : Entry δ} (found : session.vfs.mounts.get? index = some entry)
    : session.vfs.isBusy entry = false ↔ ¬session.InUse index := by
  obtain ⟨slot, inSlot, rfl⟩ := MountTable.get?_eq_some_iff.mp found
  rw [consistent.tables.idle_iff inSlot]
  constructor
  · rintro ⟨noStreams, reserved⟩
      (⟨fd, binding, bound, same, ephemeral⟩ | ⟨handle, member, present⟩)
    · rw [reserved fd binding bound same] at ephemeral
      contradiction
    · obtain ⟨counting, inOwnSlot, _, counted⟩ := consistent.balanced.slot member
      rw [consistent.tables.mounts.index_eq present, inSlot] at inOwnSlot
      rw [← Option.some.inj inOwnSlot, noStreams] at counted
      exact absurd counted (Nat.lt_irrefl 0)
  · intro unused
    refine ⟨?_, ?_⟩
    · rw [consistent.balanced.counted index slot inSlot, List.countP_eq_zero]
      intro handle member through
      have known := consistent.tables.mounts.knows (consistent.balanced.current handle member)
      have same := known.2 index slot.entry found (beq_iff_eq.mp through).symm
      exact unused (.inr ⟨handle, member, same ▸ found⟩)
    · intro fd binding bound same
      rw [← Bool.not_eq_false]
      intro ephemeral
      exact unused (.inl ⟨fd, binding, bound, same, ephemeral⟩)

theorem Consistent.unregister_removes (consistent : session.Consistent) {index : Nat}
    {entry : Entry δ} (found : session.vfs.mounts.get? index = some entry)
    (idle : session.vfs.isBusy entry = false)
    : session.Removes index
        { session with
          vfs := { session.vfs with
            mounts := session.vfs.mounts.remove index
            fds := (session.vfs.fds.releaseMount index).2 } } where
  slots := session.vfs.mounts.mounted?_remove index
  freed fd binding bound same := by
    obtain ⟨slot, inSlot, rfl⟩ := MountTable.get?_eq_some_iff.mp found
    have reserved := ((consistent.tables.idle_iff inSlot).mp idle).2 fd binding bound same
    rw [FdTable.get?_eq_some_iff] at bound
    simp [FdTable.slot?_releaseMount, bound, same, reserved]
  kept fd unbound := by
    rw [FdTable.slot?_releaseMount]
    cases before : session.vfs.fds.slot? fd with
    | none => rfl
    | some content =>
        cases content with
        | none => rfl
        | some binding =>
            have other := unbound binding (FdTable.get?_eq_some_iff.mpr before)
            simp [other]
  others := rfl

/-- An unoccupied slot has nothing to remove. -/
theorem begin_unregister_missing {index : Nat}
    (missing : session.vfs.mounts.get? index = none)
    : session.begin (.unregister index) = session.answer (.failed .invalidArgument) := by
  simp [begin, start, apply, Vfs.unregister, missing, answer, Step.settle, Step.answerRoot,
    Step.suspend]

/-- Whoever may be removed is removed. -/
theorem begin_unregister_idle {index : Nat} {entry : Entry δ}
    (notRoot : index ≠ session.vfs.rootIndex)
    (found : session.vfs.mounts.get? index = some entry)
    (idle : session.vfs.isBusy entry = false)
    : session.begin (.unregister index)
      = ⟨{ session with
            vfs := { session.vfs with
              mounts := session.vfs.mounts.remove index
              fds := (session.vfs.fds.releaseMount index).2 } },
          [.unregistered index], .returns .done⟩ := by
  simp [begin, start, apply, Vfs.unregister, notRoot, found, idle, Step.settle,
    Step.answerRoot, Step.suspend]

/-- A driver that is registered at a path starts without descriptors, and one that is
registered with a range has no others, whoever was in their slot before.
Witness: their slot was free, and no descriptor is bound to a free slot.
-/
theorem Consistent.placed_unbound (consistent : session.Consistent) {path : String}
    {driver : δ} {min max : Fd} {call : Call δ}
    (registration : call ∈ [.register path driver, .registerRange driver min max])
    {index : Nat} (placed : (session.begin call).next = .returns (.mounted index)) {fd : Fd}
    {binding : Binding} (bound : (session.begin call).session.vfs.fds.get? fd = some binding)
    (same : binding.mount = index)
    : call = .registerRange driver min max ∧ min ≤ fd ∧ fd ≤ max := by
  have vacant {mounts point driver}
      (filled : session.vfs.mounts.Filled mounts index point driver)
      : session.vfs.fds.get? fd ≠ some binding := by
    intro old
    obtain ⟨entry, found⟩ := consistent.tables.led fd binding old
    rw [same, MountTable.get?, filled.unused] at found
    contradiction
  obtain ⟨answer, returned, registers⟩ :=
    consistent.begin_registers path driver index min max call
      (List.mem_append_left [_] registration)
  obtain rfl := Next.returns.inj (returned.symm.trans placed)
  have either : call = .register path driver ∨ call = .registerRange driver min max := by
    simpa using registration
  rcases either with rfl | rfl
  · cases registers with
    | mounted fds filled =>
        rw [fds] at bound
        exact absurd bound (vacant filled)
  · cases registers with
    | ranged filled reserved =>
        by_cases within : min ≤ fd ∧ fd ≤ max
        · exact ⟨rfl, within⟩
        · rw [FdTable.get?_eq_some_iff, reserved.slots, if_neg within,
            ← FdTable.get?_eq_some_iff] at bound
          exact absurd bound (vacant filled)

/-- Whoever wants a mount removed learns exactly whether there is none that may be removed,
somebody uses it, or it has been removed. Unless it has been removed nothing changes. If it
has, its slot is free and its descriptors are unused, and nothing else has changed. Whoever
is put into the slot at any later time has only the descriptors that it is registered with.
-/
theorem unregister_removes_unused_mounts (reachable : session.Reachable) {index : Nat}
    {step : Step δ σ} (moved : session.move? (.call (.unregister index)) = some step)
    : (step.next = .returns (.failed .invalidArgument)
        ↔ index = session.vfs.rootIndex ∨ session.vfs.mounts.get? index = none)
      ∧ (step.next = .returns (.failed .busy)
        ↔ ¬(index = session.vfs.rootIndex ∨ session.vfs.mounts.get? index = none)
          ∧ session.InUse index)
      ∧ (step.next = .returns .done
        ↔ ¬(index = session.vfs.rootIndex ∨ session.vfs.mounts.get? index = none)
          ∧ ¬session.InUse index)
      ∧ (step.next ≠ .returns .done → step.session = session)
      ∧ (step.next = .returns .done
        → session.Removes index step.session
          ∧ (∀ fd binding,
              step.session.vfs.fds.get? fd = some binding → binding.mount ≠ index)
          ∧ ∀ history later path driver min max,
              step.session.Run history later
              → ∀ call ∈ [.register path driver, .registerRange driver min max],
                  (later.begin call).next = .returns (.mounted index)
                  → ∀ fd binding,
                      (later.begin call).session.vfs.fds.get? fd = some binding
                      → binding.mount = index
                      → call = .registerRange driver min max ∧ min ≤ fd ∧ fd ≤ max) := by
  have consistent := reachable.consistent
  have onward := reachable.move moved
  obtain rfl := Option.some.inj moved
  by_cases isRoot : index = session.vfs.rootIndex
  · subst isRoot
    simp [begin_unregister_root, answer]
  · cases found : session.vfs.mounts.get? index with
    | none => simp [begin_unregister_missing found, answer]
    | some entry =>
        have used := consistent.isBusy_eq_false_iff found
        cases busy : session.vfs.isBusy entry with
        | true =>
            have inUse : session.InUse index := by simpa [busy] using used
            simp [begin_unregister_busy isRoot found busy, isRoot, inUse]
        | false =>
            have unused := used.mp busy
            have removes := consistent.unregister_removes found busy
            rw [begin_unregister_idle isRoot found busy] at onward ⊢
            refine ⟨by simp [isRoot], by simp [unused], by simp [isRoot, unused], by simp, ?_⟩
            intro _
            refine ⟨removes, fun _ _ bound => (removes.bound_before bound).2, ?_⟩
            intro history later path driver min max run call registration placed fd binding
              bound same
            have reached := (onward.run run).consistent
            exact reached.placed_unbound registration placed bound same

/-- One mount only has a reserved descriptor and is removed; another has an open file and
is not.
-/
theorem unregister_removes_unused_mounts_of_two
    : ∃ (session : Session String Unit) (freed kept : Step String Unit),
        session.Reachable
        ∧ session.vfs.fds.bindings = [some ⟨2, 5, false⟩, some ⟨1, 1, true⟩]
        ∧ session.move? (.call (.unregister 1)) = some freed
        ∧ session.Removes 1 freed.session
        ∧ session.move? (.call (.unregister 2)) = some kept
        ∧ kept.next = .returns (.failed .busy) := by
  have played
      : (playNew? ⟨2, 3⟩
            [.call (.registerRange "tape" 1 1), .call (.register "/a" "disk"),
              .call (.openFile "/a/f" ⟨0⟩ 0), .reply (.obliging 5 ())]).any
          (fun (_, session) =>
            session.vfs.fds.bindings = [some ⟨2, 5, false⟩, some ⟨1, 1, true⟩]
            ∧ (session.begin (.unregister 1)).next = .returns .done
            ∧ session.vfs.fds.get? 0 = some ⟨2, 5, false⟩
            ∧ session.vfs.rootIndex = 0
            ∧ (session.vfs.mounts.get? 2).isSome)
        = true := by decide +kernel
  obtain ⟨_, session, reachable, checked⟩ := exists_reachable_of_playNew? played
  obtain ⟨bindings, done, bound, rootFirst, mounted⟩ := of_decide_eq_true checked
  have moved (index : Nat)
      : session.move? (.call (.unregister index))
        = some (session.begin (.unregister index)) := rfl
  obtain ⟨_, _, _, _, removes⟩ := unregister_removes_unused_mounts reachable (moved 1)
  obtain ⟨_, busy, _⟩ := unregister_removes_unused_mounts reachable (moved 2)
  refine ⟨session, _, _, reachable, bindings, moved 1, (removes done).1, moved 2, ?_⟩
  refine busy.mpr ⟨?_, .inl ⟨0, _, bound, rfl, rfl⟩⟩
  rw [rootFirst, ← Option.not_isSome_iff_eq_none]
  simp [mounted]

end Session

end StorageSwitch
