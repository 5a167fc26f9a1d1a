import StorageSwitch.Proofs.Vfs.Effects

/-! How long a descriptor that was opened stays bound. A close frees the descriptor if it
has the binding that was found when the close began. Bindings come back, so a close that
began before the descriptor was opened may free it as well.
-/

namespace StorageSwitch

variable {δ σ : Type}

namespace Session

variable {start session after : Session δ σ} {history : List (Moment δ σ)} {fd : Fd}
  {binding : Binding}

/-- A close of the descriptor that found this binding waits for its driver. -/
def Closing (session : Session δ σ) (fd : Fd) (binding : Binding) : Prop :=
  ∃ entry, .closing entry fd binding ∈ session.pending

instance (session : Session δ σ) (fd : Fd) (binding : Binding)
    : Decidable (session.Closing fd binding) :=
  decidable_of_iff
    (session.pending.any fun
      | .closing _ other found => other = fd ∧ found = binding
      | _ => false)
    (by
      simp only [Closing, List.any_eq_true]
      constructor
      · rintro ⟨frame, member, found⟩
        cases frame with
        | closing entry other read =>
            obtain ⟨rfl, rfl⟩ := of_decide_eq_true found
            exact ⟨entry, member⟩
        | _ => contradiction
      · rintro ⟨entry, member⟩
        exact ⟨_, member, by simp⟩)

/-- Only a call to close a descriptor asks a driver to close its file. -/
theorem start_next_closing {call : Call δ} {entry : Entry δ}
    (next : (session.start call).next = .calls (.closing entry fd binding))
    : call = .closeFile fd := by
  cases call <;>
    simp only [Session.start, apply, askAt, askPair, askFd, askStream, endStream, ask, answer,
      unmounted] at next
  all_goals repeat' split at next
  all_goals simp_all

theorem finish_next_closing {respond : Responder σ} {frame : Frame δ σ} {entry : Entry δ}
    : (session.finish respond frame).next ≠ .calls (.closing entry fd binding) := by
  cases frame <;> simp only [finish, bindOpened, freeClosed, listOpened, ask, answer]
  all_goals repeat' split
  all_goals simp

end Session

namespace Step

theorem answerRoot_next_closing {step : Step δ σ} {entry : Entry δ} {fd : Fd}
    {binding : Binding} (next : step.answerRoot.next = .calls (.closing entry fd binding))
    : step.next = .calls (.closing entry fd binding) := by
  unfold answerRoot at next
  split at next
  · exact next
  · split at next
    · exact next
    · exact absurd next Session.finish_next_closing

theorem settle_next_closing {step : Step δ σ} {entry : Entry δ} {fd : Fd}
    {binding : Binding} (next : step.settle.next = .calls (.closing entry fd binding))
    : step.next = .calls (.closing entry fd binding) := by
  apply answerRoot_next_closing
  apply answerRoot_next_closing
  unfold settle suspend at next
  split at next <;> exact next

end Step

namespace Session

variable {start session after : Session δ σ} {history : List (Moment δ σ)} {fd : Fd}
  {binding : Binding}

/-- After a move, the only closes that wait are those that waited before, and the one that
has just begun.
-/
theorem closing_of_move {move : Move δ σ} {step : Step δ σ}
    (moved : session.move? move = some step) (closing : step.session.Closing fd binding)
    : session.Closing fd binding ∨ move = .call (.closeFile fd) := by
  obtain ⟨entry, member⟩ := closing
  cases move with
  | call call =>
      obtain rfl := Option.some.inj moved
      rw [begin, Step.settle_pending, start_pending] at member
      split at member
      · rename_i frame next
        rcases List.mem_cons.mp member with rfl | old
        · rw [start_next_closing (Step.settle_next_closing next)]
          exact .inr rfl
        · exact .inl ⟨entry, old⟩
      · exact .inl ⟨entry, member⟩
  | reply respond =>
      obtain ⟨resumed, frame, rfl, rfl⟩ := resume?_eq_some_iff.mp moved
      rw [Step.settle_pending, finish_pending] at member
      split at member
      · rename_i other next
        rcases List.mem_cons.mp member with rfl | old
        · exact absurd (Step.settle_next_closing next) finish_next_closing
        · exact .inl ⟨entry, .tail _ old⟩
      · exact .inl ⟨entry, .tail _ member⟩
  | drop =>
      obtain rfl := Option.some.inj moved
      exact .inl ⟨entry, member⟩

/-- A move keeps an ephemeral binding unless it answers a close that found this binding. -/
theorem Consistent.binding_stays (consistent : session.Consistent) {move : Move δ σ}
    {step : Step δ σ} (moved : session.move? move = some step)
    (bound : session.vfs.fds.get? fd = some binding) (ephemeral : binding.permanent = false)
    (idle : ¬session.Closing fd binding)
    : step.session.vfs.fds.get? fd = some binding := by
  rcases consistent.binding_kept moved bound
    with kept | ⟨permanent, _⟩ | ⟨_, entry, rest, waiting⟩
  · exact kept
  · rw [ephemeral] at permanent
    contradiction
  · exact absurd ⟨entry, waiting ▸ .head _⟩ idle

/-- As long as nobody begins to close the descriptor, and no close that found its binding
was waiting, the descriptor keeps its binding. Witness: induction on the run.
-/
theorem Run.binding_stays (run : start.Run history session) (consistent : start.Consistent)
    (bound : start.vfs.fds.get? fd = some binding) (ephemeral : binding.permanent = false)
    (idle : ¬start.Closing fd binding)
    (unclosed : ∀ moment ∈ history, moment.move ≠ .call (.closeFile fd))
    : session.vfs.fds.get? fd = some binding ∧ ¬session.Closing fd binding := by
  induction run with
  | rest => exact ⟨bound, idle⟩
  | @next history session move step run moved ih =>
      obtain ⟨notClose, earlier⟩ := List.forall_mem_cons.mp unclosed
      obtain ⟨stillBound, stillIdle⟩ := ih earlier
      have reached := stable_consistent.run consistent run
      refine ⟨reached.binding_stays moved stillBound ephemeral stillIdle, ?_⟩
      intro closing
      rcases closing_of_move moved closing with waited | began
      · exact stillIdle waited
      · exact notClose began

/-- A call whose driver fails is over, whatever it waits for. -/
theorem finish_fail_returns (session : Session δ σ) (error : Error) (frame : Frame δ σ)
    : ∃ answer, (session.finish (Request.fail error) frame).next = .returns answer := by
  cases frame <;> simp only [finish, freeClosed]
  all_goals repeat' split
  all_goals first | contradiction | exact ⟨_, rfl⟩

/-- The driver asked last can fail, and then nothing more is asked for its call. -/
theorem move?_fail (error : Error) {frame : Frame δ σ} {rest : List (Frame δ σ)}
    (waiting : session.pending = frame :: rest)
    : session.move? (.reply (Request.fail error))
      = some (finish { session with pending := rest } (Request.fail error) frame) := by
  obtain ⟨answer, returned⟩ :=
    finish_fail_returns { session with pending := rest } error frame
  refine resume?_eq_some_iff.mpr ⟨_, frame, eq_wait_of_pending waiting, ?_⟩
  rw [Step.settle_of_returns returned]

/-- If a close that found this binding waits, the descriptor can lose the binding although
nobody begins to close it: it is enough that the drivers asked so far fail.
Witness: induction on the calls that wait, up to the close.
-/
theorem Consistent.exists_run_unbound (consistent : session.Consistent)
    (ephemeral : binding.permanent = false) (closing : session.Closing fd binding)
    : ∃ history after,
        session.Run history after
        ∧ (∀ moment ∈ history, ∃ respond, moment.move = .reply respond)
        ∧ after.vfs.fds.get? fd ≠ some binding := by
  obtain ⟨entry, member⟩ := closing
  generalize waiting : session.pending = frames at member
  induction frames generalizing session with
  | nil => contradiction
  | cons frame rest ih =>
      have moved := session.move?_fail .io waiting
      rcases List.mem_cons.mp member with rfl | later
      · refine ⟨_, _, .next .rest moved, by simp, ?_⟩
        obtain ⟨_, bindings⟩ := consistent.freed_spec waiting
        have released
            : (Session.finish { session with pending := rest } (Request.fail .io)
                (.closing entry fd binding)).session.vfs
              = (session.vfs.release fd binding).2 := rfl
        rw [released, bindings]
        split
        · simp
        · rename_i spared
          exact fun bound => spared ⟨rfl, ephemeral, bound⟩
      · obtain ⟨history, after, run, replies, unbound⟩ :=
          ih (stable_consistent.move consistent moved) (finish_pending _ _ frame) later
        refine ⟨history ++ [_], after, (Run.next .rest moved).trans run, ?_, unbound⟩
        intro moment found
        rcases List.mem_append.mp found with found | found
        · exact replies moment found
        · exact ⟨_, by rw [List.mem_singleton.mp found]⟩

/-- Only an answered open hands out a descriptor, and binds it to what the driver has
opened.
-/
theorem Consistent.opened_binding (consistent : session.Consistent) {move : Move δ σ}
    {step : Step δ σ} (moved : session.move? move = some step)
    (returned : step.next = .returns (.opened fd))
    : ∃ respond entry path flags mode rest file,
        move = .reply respond
        ∧ session.pending = .opening entry path flags mode :: rest
        ∧ respond (.openFile (entry.relative path) flags mode) = .ok file
        ∧ step.session.vfs.fds.get? fd = some ⟨entry.index, file, false⟩ := by
  cases move_effect moved with
  | passed passes => exact absurd returned (passes.unopened fd)
  | @edited call edit answer _ edits reports answered =>
      obtain rfl := Next.returns.inj (answered.symm.trans returned)
      cases edit <;> simp [Vfs.Edit.Reports] at reports
  | freed _ _ _ answered =>
      have same := Next.returns.inj (answered.symm.trans returned)
      contradiction
  | @opened respond entry path flags mode rest file other _ waiting answered given handed =>
      obtain rfl : other = fd :=
        Answer.opened.inj (Next.returns.inj (handed.symm.trans returned))
      obtain ⟨_, _, _, bindings⟩ := consistent.opened_spec waiting given
      refine ⟨respond, entry, path, flags, mode, rest, file, rfl, waiting, answered, ?_⟩
      rw [bindings, if_pos rfl]

/-- A descriptor that an open has returned is bound to the entry's slot and the file that
the entry's driver has opened. It is sure to stay so until somebody begins to close it
exactly if no close that found this very binding was waiting when the open returned.
-/
theorem opened_descriptor_stays_bound_iff (reachable : session.Reachable) {move : Move δ σ}
    {step : Step δ σ} (moved : session.move? move = some step)
    (returned : step.next = .returns (.opened fd))
    : ∃ respond entry path flags mode rest file,
        move = .reply respond
        ∧ session.pending = .opening entry path flags mode :: rest
        ∧ respond (.openFile (entry.relative path) flags mode) = .ok file
        ∧ step.session.vfs.fds.get? fd = some ⟨entry.index, file, false⟩
        ∧ ((∀ history after,
              step.session.Run history after
              → (∀ moment ∈ history, moment.move ≠ .call (.closeFile fd))
              → after.vfs.fds.get? fd = some ⟨entry.index, file, false⟩)
            ↔ ¬step.session.Closing fd ⟨entry.index, file, false⟩) := by
  have consistent := reachable.consistent
  obtain ⟨respond, entry, path, flags, mode, rest, file, answers, waiting, answered, bound⟩ :=
    consistent.opened_binding moved returned
  refine ⟨respond, entry, path, flags, mode, rest, file, answers, waiting, answered, bound, ?_⟩
  have next := stable_consistent.move consistent moved
  constructor
  · intro lasts closing
    obtain ⟨history, after, run, replies, unbound⟩ := next.exists_run_unbound rfl closing
    refine unbound (lasts history after run fun moment member => ?_)
    obtain ⟨respond, same⟩ := replies moment member
    simp [same]
  · intro idle history after run unclosed
    exact (run.binding_stays next bound rfl idle unclosed).1

/-- While a driver closes descriptor 0, it closes the descriptor again and opens another
file, which gets descriptor 0 and the same number from the driver. The first close then
frees the descriptor of the new file.
-/
theorem opened_descriptor_lost_to_stale_close
    : ∃ (session after : Session String Unit) (step : Step String Unit)
        (history : List (Moment String Unit)),
        session.Reachable
        ∧ session.move? (.reply (.obliging 5 ())) = some step
        ∧ step.next = .returns (.opened 0)
        ∧ step.session.vfs.fds.get? 0 = some ⟨1, 5, false⟩
        ∧ step.session.Run history after
        ∧ (∀ moment ∈ history, moment.move ≠ .call (.closeFile 0))
        ∧ after.vfs.fds.get? 0 ≠ some ⟨1, 5, false⟩ := by
  have played
      : (playNew? ⟨4, 3⟩
            [.call (.register "/a" "disk"), .call (.openFile "/a/f" ⟨0⟩ 0),
              .reply (.obliging 5 ()), .call (.closeFile 0), .call (.closeFile 0),
              .reply (.obliging 5 ()), .call (.openFile "/a/g" ⟨0⟩ 0)]).any
          (fun (_, session) =>
            (session.move? (.reply (Responder.obliging 5 ()))).any fun step =>
              step.next = .returns (.opened 0)
              ∧ step.session.vfs.fds.get? 0 = some ⟨1, 5, false⟩
              ∧ step.session.Closing 0 ⟨1, 5, false⟩)
        = true := by decide +kernel
  obtain ⟨_, session, reachable, replied⟩ := exists_reachable_of_playNew? played
  obtain ⟨step, moved, checked⟩ := (Option.any_eq_true _ _).mp replied
  obtain ⟨returned, bound, closing⟩ := of_decide_eq_true checked
  obtain ⟨_, entry, _, _, _, _, file, _, _, _, found, lasts⟩ :=
    opened_descriptor_stays_bound_iff reachable moved returned
  obtain same := Option.some.inj (found.symm.trans bound)
  rw [same] at lasts
  have lost := mt lasts.mp (not_not_intro closing)
  simp only [Classical.not_forall] at lost
  obtain ⟨history, after, later, unclosed, unbound⟩ := lost
  exact ⟨session, after, step, history, reachable, moved, returned, bound, later, unclosed,
    unbound⟩

end Session

end StorageSwitch
