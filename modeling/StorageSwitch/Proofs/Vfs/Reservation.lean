import StorageSwitch.Proofs.Vfs.Lifetime
import StorageSwitch.Proofs.Vfs.Removal

/-! A descriptor that was reserved for a mount stays with it until the mount is removed. No
open hands it out, no close frees it, and no other registration or removal touches it.
-/

namespace StorageSwitch

variable {δ σ : Type}

/-- The move reserves a range with the descriptor for a mount slot, with success. -/
def Move.Reserves (move : Move δ σ) (step : Step δ σ) (index : Nat) (fd : Fd) : Prop :=
  ∃ min max,
    (min ≤ fd ∧ fd ≤ max)
    ∧ ((∃ driver,
          move = .call (.registerRange driver min max)
          ∧ step.next = .returns (.mounted index))
      ∨ (move = .call (.reserveRange index min max) ∧ step.next = .returns .done))

/-- The move removes the mount in a slot, with success. -/
def Move.Unregisters (move : Move δ σ) (step : Step δ σ) (index : Nat) : Prop :=
  move = .call (.unregister index) ∧ step.next = .returns .done

namespace Session

variable {session start : Session δ σ} {move : Move δ σ} {step : Step δ σ} {index : Nat}
  {fd : Fd} {history : List (Moment δ σ)}

-----------------------------------------------------------------------------------------
-- How a reservation begins and goes on
-----------------------------------------------------------------------------------------

/-- A registration with a range is answered at once. -/
theorem Consistent.begin_ranged (consistent : session.Consistent) (driver : δ) (min max : Fd)
    : ∃ answer,
        (session.begin (.registerRange driver min max)).next = .returns answer
        ∧ session.vfs.Registers (session.begin (.registerRange driver min max)).session.vfs
            (.registerRange driver min max) answer :=
  ⟨_, rfl, consistent.tables.registerRange_registers driver min max⟩

/-- And so is a reservation for a mount. -/
theorem Consistent.begin_reserved (consistent : session.Consistent) (index : Nat)
    (min max : Fd)
    : ∃ answer,
        (session.begin (.reserveRange index min max)).next = .returns answer
        ∧ session.vfs.Registers (session.begin (.reserveRange index min max)).session.vfs
            (.reserveRange index min max) answer :=
  ⟨_, rfl, consistent.tables.reserveRange_registers index min max⟩

/-- The descriptors of a range are bound once they have been reserved. -/
theorem Consistent.reserves_spec (consistent : session.Consistent)
    (moved : session.move? move = some step) (reserves : move.Reserves step index fd)
    : step.session.vfs.fds.get? fd = some ⟨index, fd, true⟩ := by
  obtain ⟨min, max, within, how⟩ := reserves
  have bound {after : FdTable} (reserved : session.vfs.fds.Reserved after index min max)
      : after.get? fd = some ⟨index, fd, true⟩ := by
    rw [FdTable.get?_eq_some_iff, reserved.slots, if_pos within]
  rcases how with ⟨driver, rfl, returned⟩ | ⟨rfl, returned⟩
  · obtain rfl := Option.some.inj moved
    obtain ⟨answer, answered, registers⟩ := consistent.begin_ranged driver min max
    obtain rfl := Next.returns.inj (answered.symm.trans returned)
    cases registers with
    | ranged _ reserved => exact bound reserved
  · obtain rfl := Option.some.inj moved
    obtain ⟨answer, answered, registers⟩ := consistent.begin_reserved index min max
    obtain rfl := Next.returns.inj (answered.symm.trans returned)
    cases registers with
    | reserved _ _ reserved => exact bound reserved

/-- A permanent binding stays unless the move removes its mount. -/
theorem Consistent.reservation_stays (consistent : session.Consistent)
    (moved : session.move? move = some step)
    (bound : session.vfs.fds.get? fd = some ⟨index, fd, true⟩)
    (kept : ¬move.Unregisters step index)
    : step.session.vfs.fds.get? fd = some ⟨index, fd, true⟩ := by
  rcases consistent.binding_kept moved bound with stays | ⟨_, removes⟩ | ⟨ephemeral, _⟩
  · exact stays
  · exact absurd removes kept
  · contradiction

/-- A permanent binding stays in a run during which nobody removes its mount. Witness:
induction on the run.
-/
theorem Run.reservation_stays (run : start.Run history session)
    (consistent : start.Consistent)
    (bound : start.vfs.fds.get? fd = some ⟨index, fd, true⟩)
    (kept : ∀ since ∈ history, ¬since.move.Unregisters since.step index)
    : session.vfs.fds.get? fd = some ⟨index, fd, true⟩ := by
  induction run with
  | rest => exact bound
  | next run moved ih =>
      obtain ⟨last, earlier⟩ := List.forall_mem_cons.mp kept
      have reached := stable_consistent.run consistent run
      exact reached.reservation_stays moved (ih earlier) last

/-- Whoever is told that a mount has been removed can rely on it. -/
theorem Consistent.removes_of_done (consistent : session.Consistent)
    (done : (session.begin (.unregister index)).next = .returns .done)
    : session.Removes index (session.begin (.unregister index)).session := by
  by_cases isRoot : index = session.vfs.rootIndex
  · subst isRoot
    simp [begin_unregister_root, answer] at done
  · cases found : session.vfs.mounts.get? index with
    | none => simp [begin_unregister_missing found, answer] at done
    | some entry =>
        cases busy : session.vfs.isBusy entry with
        | true => simp [begin_unregister_busy isRoot found busy] at done
        | false =>
            rw [begin_unregister_idle isRoot found busy]
            exact consistent.unregister_removes found busy

-----------------------------------------------------------------------------------------
-- What holds of a reserved descriptor
-----------------------------------------------------------------------------------------

/-- The descriptor is reserved for a mount slot, and nothing that can happen next changes
that, except that the mount is removed.
-/
structure HoldsReserved (session : Session δ σ) (index : Nat) (fd : Fd) : Prop where
  bound : session.vfs.descriptor? fd = some (some ⟨index, fd, true⟩)
  /-- No move but a removal of the mount changes the descriptor. -/
  stays
    : ∀ move step,
        session.move? move = some step
        → ¬move.Unregisters step index
        → step.session.vfs.descriptor? fd = some (some ⟨index, fd, true⟩)
  /-- A removal of the mount frees it. -/
  ends
    : ∀ move step,
        session.move? move = some step
        → move.Unregisters step index
        → step.session.vfs.descriptor? fd = some none
  /-- No open returns it. -/
  unopened
    : ∀ move step, session.move? move = some step → step.next ≠ .returns (.opened fd)
  /-- No close that waits for its driver would free it, whenever it began and whatever the
  driver answers.
  -/
  unfreed
    : ∀ entry other binding,
        .closing entry other binding ∈ session.pending
        → (session.vfs.release other binding).2.descriptor? fd
          = some (some ⟨index, fd, true⟩)
  /-- No range that includes it can be reserved. -/
  untaken
    : ∀ min max,
        min ≤ fd ∧ fd ≤ max
        → (∀ driver,
            ∃ error,
              (session.begin (.registerRange driver min max)).next
              = .returns (.failed error))
          ∧ ∀ other,
              ∃ error,
                (session.begin (.reserveRange other min max)).next
                = .returns (.failed error)

theorem Consistent.holdsReserved (consistent : session.Consistent)
    (bound : session.vfs.fds.get? fd = some ⟨index, fd, true⟩)
    : session.HoldsReserved index fd := by
  have inTable := FdTable.get?_eq_some_iff.mp bound
  have used {table : FdTable} {other : Nat} {min max : Fd} (within : min ≤ fd ∧ fd ≤ max)
      (reserved : session.vfs.fds.Reserved table other min max)
      : False := by
    have unused := reserved.unused fd within.1 within.2
    simp [inTable] at unused
  refine {
    bound := inTable
    stays := fun move step moved kept =>
      FdTable.get?_eq_some_iff.mp (consistent.reservation_stays moved bound kept)
    ends := ?ends
    unopened := ?unopened
    unfreed := ?unfreed
    untaken := ?untaken
  }
  case ends =>
    rintro move step moved ⟨rfl, done⟩
    obtain rfl := Option.some.inj moved
    exact ((consistent.removes_of_done done).freed fd _ bound rfl).2
  case unopened =>
    intro move step moved opened
    obtain ⟨respond, entry, _, _, _, _, file, rfl, _, _, given⟩ :=
      consistent.opened_binding moved opened
    have stays := consistent.reservation_stays moved bound (fun removes => nomatch removes.1)
    rw [given] at stays
    simp at stays
  case unfreed =>
    intro entry other binding waiting
    have sound := consistent.sound _ waiting
    obtain ⟨_, _, slots⟩ := consistent.tables.release_spec other (sound.2 entry other binding rfl)
    rw [Vfs.descriptor?, slots, if_neg, inTable]
    rintro ⟨rfl, ephemeral, found⟩
    obtain rfl := Option.some.inj (bound.symm.trans found)
    contradiction
  case untaken =>
    intro min max within
    constructor
    · intro driver
      obtain ⟨answer, answered, registers⟩ := consistent.begin_ranged driver min max
      cases registers with
      | failed _ _ _ => exact ⟨_, answered⟩
      | ranged _ reserved => exact (used within reserved).elim
    · intro other
      obtain ⟨answer, answered, registers⟩ := consistent.begin_reserved other min max
      cases registers with
      | failed _ _ _ => exact ⟨_, answered⟩
      | reserved _ _ reserved => exact (used within reserved).elim

/-- Once a descriptor has been reserved for a mount, it stays reserved in every run until
the mount is removed, whatever programs and drivers do and in whichever order they do it.
-/
theorem reserved_descriptor_stays {reserving : Moment δ σ}
    (reachable : reserving.before.Reachable)
    (moved : reserving.before.move? reserving.move = some reserving.step)
    (reserves : reserving.move.Reserves reserving.step index fd)
    (run : reserving.step.session.Run history session)
    (kept : ∀ since ∈ history, ¬since.move.Unregisters since.step index)
    : session.HoldsReserved index fd := by
  have bound := reachable.consistent.reserves_spec moved reserves
  have consistent := (reachable.move moved).consistent
  exact (stable_consistent.run consistent run).holdsReserved
    (run.reservation_stays consistent bound kept)

/-- While a close of descriptor 0 waits for its driver, the descriptor is freed by another
close and reserved, for the same mount and under the same number with the driver. The answer
to the first close leaves it reserved.
-/
theorem reserved_descriptor_stays_of_stale_close
    : ∃ (reserving : Moment String Unit) (closed : Step String Unit),
        reserving.before.Reachable
        ∧ reserving.before.Closing 0 ⟨1, 0, false⟩
        ∧ reserving.before.move? reserving.move = some reserving.step
        ∧ reserving.move.Reserves reserving.step 1 0
        ∧ reserving.step.session.move? (.reply (.obliging 0 ())) = some closed
        ∧ closed.session.HoldsReserved 1 0 := by
  have played
      : (playNew? ⟨1, 2⟩
            [.call (.register "/a" "disk"), .call (.openFile "/a/f" ⟨0⟩ 0),
              .reply (.obliging 0 ()), .call (.closeFile 0), .call (.closeFile 0),
              .reply (.obliging 0 ())]).any
          (fun (_, session) =>
            session.Closing 0 ⟨1, 0, false⟩
            ∧ (session.begin (.reserveRange 1 0 0)).next = .returns .done
            ∧ ((session.begin (.reserveRange 1 0 0)).session.move?
                (.reply (.obliging 0 ()))).isSome)
        = true := by decide +kernel
  obtain ⟨_, session, reachable, checked⟩ := exists_reachable_of_playNew? played
  obtain ⟨closing, done, answers⟩ := of_decide_eq_true checked
  obtain ⟨closed, answered⟩ := Option.isSome_iff_exists.mp answers
  let reserving : Moment String Unit :=
    ⟨session, .call (.reserveRange 1 0 0), session.begin (.reserveRange 1 0 0)⟩
  have reserves : reserving.move.Reserves reserving.step 1 0 :=
    ⟨0, 0, by decide, .inr ⟨rfl, done⟩⟩
  have stays : closed.session.HoldsReserved 1 0 := by
    refine reserved_descriptor_stays reachable rfl reserves (.next .rest answered) ?_
    intro since member
    rw [List.mem_singleton.mp member]
    exact fun removes => nomatch removes.1
  exact ⟨reserving, closed, reachable, closing, rfl, reserves, answered, stays⟩

end Session

end StorageSwitch
