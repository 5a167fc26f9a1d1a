import StorageSwitch.Proofs.Vfs.Consistency

/-! What a directory handle means to its mount: it is counted there, and the mount stays.
-/

namespace StorageSwitch.Session

variable {δ σ : Type} {session : Session δ σ}

/-- Nobody removes the root listing, in use or not. -/
theorem begin_unregister_root (session : Session δ σ)
    : session.begin (.unregister session.vfs.rootIndex)
      = session.answer (.failed .invalidArgument) := by
  simp [begin, start, apply, Vfs.unregister, answer, Step.settle, Step.answerRoot,
    Step.suspend]

/-- Nobody removes a mount in use. -/
theorem begin_unregister_busy {index : Nat} {entry : Entry δ}
    (notRoot : index ≠ session.vfs.rootIndex)
    (found : session.vfs.mounts.get? index = some entry)
    (busy : session.vfs.isBusy entry = true)
    : session.begin (.unregister index)
      = ⟨session, [.inUse index], .returns (.failed .busy)⟩ := by
  simp [begin, start, apply, Vfs.unregister, notRoot, found, busy, Step.settle,
    Step.answerRoot, Step.suspend]

/-- The count of every mount in a slot is the number of the handles that were opened
through it and have not finished being closed or dropped. The entry of every such handle
is still in its slot and counts at least that handle, so no count goes below zero. Its
slot is not freed: unless it is the slot of the root listing, which nobody can remove, the
answer is that it is busy.
-/
theorem handles_counted_and_mounted (reachable : session.Reachable)
    : (∀ index slot,
        session.vfs.mounts.mounted? index = some slot
        → slot.openStreams
            = (session.handles.filter (·.2.serial = slot.entry.serial)).length
          ∧ ∀ handle ∈ session.handles,
              handle.2.serial = slot.entry.serial → handle.2 = slot.entry)
      ∧ ∀ handle ∈ session.handles,
          session.vfs.mounts.get? handle.2.index = some handle.2
          ∧ 0 < session.vfs.mounts.openStreams handle.2
          ∧ (session.begin (.unregister handle.2.index)).session = session
          ∧ (session.begin (.unregister handle.2.index)).next
            = .returns (.failed
                (if handle.2.index = session.vfs.rootIndex then .invalidArgument
                  else .busy)) := by
  obtain ⟨tables, _, balanced⟩ := reachable.consistent
  refine ⟨?_, ?_⟩
  · intro index slot found
    refine ⟨?_, ?_⟩
    · rw [balanced.counted index slot found, List.countP_eq_length_filter]
      rfl
    · intro handle member same
      have present := balanced.current handle member
      have owned := MountTable.get?_of_mounted? found
      exact ((tables.mounts.knows present).2 index slot.entry owned same.symm).symm
  · intro handle member
    obtain ⟨slot, found, sameEntry, counted⟩ := balanced.slot member
    have present := balanced.current handle member
    have count := MountTable.openStreams_eq found sameEntry
    have positive : 0 < session.vfs.mounts.openStreams handle.2 := by rwa [count]
    refine ⟨present, positive, ?_⟩
    by_cases isRoot : handle.2.index = session.vfs.rootIndex
    · rw [isRoot, begin_unregister_root, if_pos rfl]
      exact ⟨rfl, rfl⟩
    · have busy : session.vfs.isBusy handle.2 = true := by
        simp [Vfs.isBusy, positive]
      rw [begin_unregister_busy isRoot present busy, if_neg isRoot]
      exact ⟨rfl, rfl⟩

/-- A stream is open through a mount while the driver of another one closes it. -/
theorem handles_counted_and_mounted_of_two
    : ∃ session : Session String Unit,
        session.Reachable
        ∧ session.handles.map (·.1) = [1, 0]
        ∧ ∀ handle ∈ session.handles,
            session.vfs.mounts.get? handle.2.index = some handle.2
            ∧ 0 < session.vfs.mounts.openStreams handle.2 := by
  have played
      : (playNew? ⟨4, 3⟩
            [.call (.register "/a" "disk"), .call (.openDir "/a"), .reply (.obliging 5 ()),
              .call (.openDir "/a"), .reply (.obliging 5 ()), .call (.closeDir 0)]).any
          (fun (_, session) => session.handles.map (·.1) = [1, 0])
        = true := by decide +kernel
  obtain ⟨_, session, reachable, numbers⟩ := exists_reachable_of_playNew? played
  refine ⟨session, reachable, of_decide_eq_true numbers, ?_⟩
  intro handle member
  obtain ⟨present, positive, _⟩ := (handles_counted_and_mounted reachable).2 handle member
  exact ⟨present, positive⟩

/-- A stream of the root directory is open, and yet the answer to whoever wants to remove
the root listing is not that it is busy.
-/
theorem open_root_not_busy
    : ∃ session : Session String Unit,
        session.Reachable
        ∧ ∃ handle ∈ session.handles,
            (session.begin (.unregister handle.2.index)).next
            = .returns (.failed .invalidArgument) := by
  have played
      : (playNew? ⟨4, 3⟩ [.call (.openDir "/" : Call String)]).any
          (fun (_, (session : Session String Unit)) =>
            session.handles.map (·.2.index) = [session.vfs.rootIndex])
        = true := by decide +kernel
  obtain ⟨_, session, reachable, opened⟩ := exists_reachable_of_playNew? played
  obtain ⟨handle, handles, ofRoot⟩ :=
    List.map_eq_singleton_iff.mp (of_decide_eq_true opened)
  refine ⟨session, reachable, handle, ?_, ?_⟩
  · rw [handles]
    exact .head _
  · rw [ofRoot, begin_unregister_root]
    rfl

end StorageSwitch.Session
