import StorageSwitch.Proofs.Vfs.Consistency

/-! What one move does to descriptors and mount slots, inverted once: nothing, one edit of
the tables, one descriptor bound, or one descriptor freed. And which calls wait
afterwards.
-/

namespace StorageSwitch

variable {δ σ : Type}

namespace Vfs

variable {vfs middle after : Vfs δ}

/-- The same descriptors and the same entries in the slots. Stream counts may differ. -/
structure Agrees (vfs after : Vfs δ) : Prop where
  fds : after.fds = vfs.fds
  get? : ∀ index, after.mounts.get? index = vfs.mounts.get? index

theorem Agrees.refl (vfs : Vfs δ) : vfs.Agrees vfs := ⟨rfl, fun _ => rfl⟩

theorem Agrees.trans (first : vfs.Agrees middle) (second : middle.Agrees after)
    : vfs.Agrees after :=
  ⟨second.fds.trans first.fds, fun index => (second.get? index).trans (first.get? index)⟩

theorem streamOpened_agrees (vfs : Vfs δ) (entry : Entry δ)
    : vfs.Agrees (vfs.streamOpened entry) :=
  ⟨rfl, fun index => by simp [streamOpened, MountTable.streamOpened]⟩

theorem streamClosed_agrees (vfs : Vfs δ) (entry : Entry δ)
    : vfs.Agrees (vfs.streamClosed entry) :=
  ⟨rfl, fun index => by simp [streamClosed, MountTable.streamClosed]⟩

/-- The call that an edit comes from, and the answer that it goes with. -/
def Edit.Reports (call : Call δ) (answer : Answer σ) : Edit → Prop
  | .nothing => ∃ error, answer = .failed error
  | .mounted index =>
      (∃ path driver, call = .register path driver) ∧ answer = .mounted index
  | .ranged index min max =>
      (∃ driver, call = .registerRange driver min max) ∧ answer = .mounted index
  | .reserved index min max => call = .reserveRange index min max ∧ answer = .done
  | .unmounted index => call = .unregister index ∧ answer = .done

end Vfs

namespace Session

variable {session : Session δ σ} {step : Step δ σ}

/-- The step leaves descriptors and slots as they are and hands out no descriptor. -/
structure Passes (session : Session δ σ) (step : Step δ σ) : Prop where
  agrees : session.vfs.Agrees step.session.vfs
  unopened : ∀ fd, step.next ≠ .returns (.opened fd)

/-- What going on after an answer does to descriptors and slots: nothing, or it binds the
descriptor of an opened file, or it frees the descriptor of a closed one.
-/
theorem finish_cases (session : Session δ σ) (respond : Responder σ) (frame : Frame δ σ)
    : session.Passes (session.finish respond frame)
      ∨ (∃ entry path flags mode file fd,
          frame = .opening entry path flags mode
          ∧ respond (.openFile (entry.relative path) flags mode) = .ok file
          ∧ session.vfs.bind entry file
            = .ok (fd, (session.finish respond frame).session.vfs)
          ∧ (session.finish respond frame).next = .returns (.opened fd))
      ∨ ∃ entry fd binding,
          frame = .closing entry fd binding
          ∧ respond (.closeFile binding.file) ≠ .error .notSupported
          ∧ (session.finish respond frame).session.vfs = (session.vfs.release fd binding).2
          ∧ (session.finish respond frame).next
            = .returns (.replied (.closeFile binding.file) (respond (.closeFile binding.file)))
    := by
  cases frame with
  | relaying | undoing | discarding | moving =>
      exact .inl ⟨.refl session.vfs, by simp [finish, answer]⟩
  | ending stream ended dropped =>
      refine .inl ⟨session.vfs.streamClosed_agrees ended.entry, ?_⟩
      cases dropped <;> simp [finish, answer]
  | opening entry path flags mode =>
      simp only [finish]
      split
      · exact .inl ⟨.refl session.vfs, by simp [answer]⟩
      · rename_i file answered
        unfold bindOpened
        cases bound : session.vfs.bind entry file with
        | error error => exact .inl ⟨.refl session.vfs, by simp⟩
        | ok placed =>
            exact .inr (.inl
              ⟨entry, path, flags, mode, file, placed.1, rfl, answered, bound, rfl⟩)
  | closing entry fd binding =>
      simp only [finish, freeClosed]
      split
      · exact .inl ⟨.refl session.vfs, by simp [answer]⟩
      · rename_i supported
        exact .inr (.inr ⟨entry, fd, binding, rfl, supported, rfl, rfl⟩)
  | listing entry path =>
      simp only [finish]
      split
      · exact .inl ⟨.refl session.vfs, by simp [answer]⟩
      · simp only [listOpened]
        split
        · exact .inl ⟨session.vfs.streamOpened_agrees entry, by simp⟩
        · exact .inl ⟨.refl session.vfs, by simp [ask]⟩

/-- The root listing opens no file and closes none. -/
theorem finish_root_passes (session : Session δ σ) (frame : Frame δ σ)
    : session.Passes (session.finish session.respondAsRoot frame) := by
  rcases session.finish_cases session.respondAsRoot frame
    with passes | ⟨_, _, _, _, _, _, _, opened, _⟩ | ⟨_, _, _, _, supported, _⟩
  · exact passes
  · contradiction
  · exact absurd rfl supported

theorem Passes.answerRoot (passes : session.Passes step) : session.Passes step.answerRoot := by
  unfold Step.answerRoot
  split
  · exact passes
  · rename_i frame _
    split
    · exact passes
    · have answered := step.session.finish_root_passes frame
      exact ⟨passes.agrees.trans answered.agrees, answered.unopened⟩

/-- Whatever the root listing answers, descriptors and slots stay as they are. -/
theorem Passes.settle (passes : session.Passes step) : session.Passes step.settle := by
  obtain ⟨agrees, unopened⟩ := passes.answerRoot.answerRoot
  unfold Step.settle Step.suspend
  split
  · exact ⟨agrees, unopened⟩
  · exact ⟨agrees, unopened⟩

/-- What a move does to descriptors and slots.
- `passed`: nothing.
- `edited`: a registration or removal carries out its edit and answers accordingly.
- `opened`: the driver has opened the file of the call that waited for it, and the caller
  gets the descriptor bound to it.
- `freed`: the driver has closed the file of the call that waited for it, or has tried to.
-/
inductive Effect (session : Session δ σ) : Move δ σ → Step δ σ → Prop
  | passed {move step} (passes : session.Passes step) : Effect session move step
  | edited {call edit answer step} (edits : session.vfs.Edits edit step.session.vfs)
    (reports : edit.Reports call answer) (returned : step.next = .returns answer)
    : Effect session (.call call) step
  | opened {respond entry path flags mode rest file fd step}
    (waiting : session.pending = .opening entry path flags mode :: rest)
    (answered : respond (.openFile (entry.relative path) flags mode) = .ok file)
    (bound : session.vfs.bind entry file = .ok (fd, step.session.vfs))
    (returned : step.next = .returns (.opened fd))
    : Effect session (.reply respond) step
  | freed {respond entry fd binding rest step}
    (waiting : session.pending = .closing entry fd binding :: rest)
    (supported : respond (.closeFile binding.file) ≠ .error .notSupported)
    (released : step.session.vfs = (session.vfs.release fd binding).2)
    (returned
      : step.next
        = .returns (.replied (.closeFile binding.file) (respond (.closeFile binding.file))))
    : Effect session (.reply respond) step

theorem apply_effect {α : Type} (call : Call δ) {change : Vfs.Change δ α} {edit : α → Vfs.Edit}
    {success : α → Answer σ} (makes : change.Makes session.vfs edit)
    (reports : ∀ result, (edit result).Reports call (success result))
    : session.Effect (.call call) (session.apply change success).settle := by
  rw [Step.settle_of_returns rfl]
  unfold Vfs.Change.Makes at makes
  unfold apply
  split at makes <;> rename_i value result <;> rw [result]
  · exact .edited makes (reports value) rfl
  · have fails : Vfs.Edit.nothing.Reports call (.failed (σ := σ) value) := ⟨value, rfl⟩
    exact .edited makes fails rfl

theorem begin_effect (session : Session δ σ) (call : Call δ)
    : session.Effect (.call call) (session.begin call) := by
  have asks (passes : session.Passes (session.start call))
      : session.Effect (.call call) (session.begin call) :=
    .passed passes.settle
  cases call with
  | register path driver =>
      exact apply_effect _ (session.vfs.register_makes path driver)
        fun _ => ⟨⟨path, driver, rfl⟩, rfl⟩
  | registerRange driver min max =>
      exact apply_effect _ (session.vfs.registerRange_makes driver min max)
        fun _ => ⟨⟨driver, rfl⟩, rfl⟩
  | reserveRange index min max =>
      exact apply_effect _ (session.vfs.reserveRange_makes index min max) fun _ => ⟨rfl, rfl⟩
  | unregister index =>
      exact apply_effect _ (session.vfs.unregister_makes index) fun _ => ⟨rfl, rfl⟩
  | openFile | onPath | openDir =>
      apply asks
      simp only [start, askAt]
      split <;> exact ⟨.refl session.vfs, by simp [ask, unmounted]⟩
  | onPair =>
      apply asks
      simp only [start, askPair]
      repeat' split
      all_goals exact ⟨.refl session.vfs, by simp [ask, answer, unmounted]⟩
  | closeFile | onFile =>
      apply asks
      simp only [start, askFd]
      split <;> exact ⟨.refl session.vfs, by simp [ask, answer]⟩
  | onStream =>
      apply asks
      simp only [start, askStream]
      repeat' split
      all_goals exact ⟨.refl session.vfs, by simp [ask, answer]⟩
  | closeDir | dropDir =>
      apply asks
      simp only [start, endStream]
      split <;> exact ⟨.refl session.vfs, by simp [answer]⟩

/-- Every move has one of these effects. -/
theorem move_effect {move : Move δ σ} {step : Step δ σ}
    (moved : session.move? move = some step)
    : session.Effect move step := by
  cases move with
  | call call =>
      obtain rfl := Option.some.inj moved
      exact session.begin_effect call
  | drop =>
      obtain rfl := Option.some.inj moved
      exact .passed ⟨.refl session.vfs, by simp [answer]⟩
  | reply respond =>
      obtain ⟨resumed, frame, rfl, rfl⟩ := resume?_eq_some_iff.mp moved
      rcases resumed.finish_cases respond frame
        with passes | ⟨entry, path, flags, mode, file, fd, rfl, answered, bound, returned⟩
          | ⟨entry, fd, binding, rfl, supported, released, returned⟩
      · have settled := passes.settle
        exact .passed ⟨settled.agrees, settled.unopened⟩
      · rw [Step.settle_of_returns returned]
        exact .opened rfl answered bound returned
      · rw [Step.settle_of_returns returned]
        exact .freed rfl supported released returned

/-- What is bound after an opened file got its descriptor. -/
theorem Consistent.opened_spec (consistent : session.Consistent) {entry : Entry δ}
    {path : String} {flags : OpenFlags} {mode : UInt32} {rest : List (Frame δ σ)}
    {file : LocalFd} {fd : Fd} {vfs : Vfs δ}
    (waiting : session.pending = .opening entry path flags mode :: rest)
    (bound : session.vfs.bind entry file = .ok (fd, vfs))
    : vfs.mounts = session.vfs.mounts
      ∧ session.vfs.mounts.get? entry.index = some entry
      ∧ session.vfs.fds.get? fd = none
      ∧ ∀ other,
          vfs.fds.get? other
          = if other = fd then some ⟨entry.index, file, false⟩
            else session.vfs.fds.get? other := by
  have sound := consistent.sound (.opening entry path flags mode) (waiting ▸ .head _)
  have known : session.vfs.mounts.Knows entry := sound.1
  obtain ⟨current, ⟨unused, _⟩, ⟨fds, same⟩, _, slots⟩ :=
    consistent.tables.bind_eq_ok known bound
  refine ⟨by rw [same], current, by rw [FdTable.get?, unused]; rfl, fun other => ?_⟩
  rw [FdTable.get?, slots]
  split <;> rfl

/-- What is bound after the file of a descriptor was closed. -/
theorem Consistent.freed_spec (consistent : session.Consistent) {entry : Entry δ} {fd : Fd}
    {binding : Binding} {rest : List (Frame δ σ)}
    (waiting : session.pending = .closing entry fd binding :: rest)
    : (session.vfs.release fd binding).2.mounts = session.vfs.mounts
      ∧ ∀ other,
          (session.vfs.release fd binding).2.fds.get? other
          = if other = fd ∧ binding.permanent = false
              ∧ session.vfs.fds.get? fd = some binding then none
            else session.vfs.fds.get? other := by
  have sound := consistent.sound (.closing entry fd binding) (waiting ▸ .head _)
  obtain ⟨_, ⟨fds, same⟩, slots⟩ :=
    consistent.tables.release_spec fd (sound.2 entry fd binding rfl)
  refine ⟨by rw [same], fun other => ?_⟩
  rw [FdTable.get?, slots]
  split <;> rfl

/-- A move keeps a binding unless it removes the mount of a permanent one or answers a close
that found an ephemeral one.
-/
theorem Consistent.binding_kept (consistent : session.Consistent) {move : Move δ σ}
    {fd : Fd} {binding : Binding} (moved : session.move? move = some step)
    (bound : session.vfs.fds.get? fd = some binding)
    : step.session.vfs.fds.get? fd = some binding
      ∨ (binding.permanent = true
        ∧ move = .call (.unregister binding.mount)
        ∧ step.next = .returns .done)
      ∨ (binding.permanent = false
        ∧ ∃ entry rest, session.pending = .closing entry fd binding :: rest) := by
  cases move_effect moved with
  | passed passes => exact .inl (by rw [passes.agrees.fds, bound])
  | edited edits reports returned =>
      rcases edits.binding_kept consistent.tables bound with kept | ⟨rfl, permanent⟩
      · exact .inl kept
      · obtain ⟨rfl, rfl⟩ := reports
        exact .inr (.inl ⟨permanent, rfl, returned⟩)
  | @opened respond entry path flags mode rest file other _ waiting answered given returned =>
      obtain ⟨_, _, unused, bindings⟩ := consistent.opened_spec waiting given
      have apart : fd ≠ other := by
        rintro rfl
        rw [bound] at unused
        contradiction
      exact .inl (by rw [bindings, if_neg apart, bound])
  | @freed respond entry other closed rest _ waiting supported released _ =>
      obtain ⟨_, bindings⟩ := consistent.freed_spec waiting
      rw [released, bindings]
      split
      · rename_i found
        obtain ⟨rfl, ephemeral, found⟩ := found
        obtain rfl := Option.some.inj (bound.symm.trans found)
        exact .inr (.inr ⟨ephemeral, entry, rest, waiting⟩)
      · exact .inl bound

/-- Opening a file asks the driver of the entry that the path belongs to. -/
theorem start_openFile {path : String} {entry : Entry δ} {flags : OpenFlags} {mode : UInt32}
    (resolved : session.vfs.resolve path = some entry)
    : session.start (.openFile path flags mode)
      = session.ask (.opening entry path flags mode) := by
  simp only [start, askAt, resolved]

/-- Closing a descriptor asks the driver that it leads to. -/
theorem start_closeFile {fd : Fd} {entry : Entry δ} {binding : Binding}
    (resolved : session.vfs.resolveFd fd = some (entry, binding))
    : session.start (.closeFile fd) = session.ask (.closing entry fd binding) := by
  simp only [start, askFd, resolved]

theorem start_pending (session : Session δ σ) (call : Call δ)
    : (session.start call).session.pending = session.pending := by
  cases call <;> simp only [start, apply, askAt, askPair, askFd, askStream, endStream]
  all_goals repeat' split
  all_goals rfl

theorem finish_pending (session : Session δ σ) (respond : Responder σ) (frame : Frame δ σ)
    : (session.finish respond frame).session.pending = session.pending := by
  cases frame <;> simp only [finish, bindOpened, freeClosed, listOpened]
  all_goals repeat' split
  all_goals rfl

end Session

namespace Step

theorem answerRoot_pending (step : Step δ σ)
    : step.answerRoot.session.pending = step.session.pending := by
  unfold answerRoot
  repeat' split
  · rfl
  · rfl
  · exact step.session.finish_pending _ _

/-- A settled step leaves the calls waiting that waited, and the one that asks a driver
next.
-/
theorem settle_pending (step : Step δ σ)
    : step.settle.session.pending
      = match step.settle.next with
        | .calls frame => frame :: step.session.pending
        | .returns _ => step.session.pending := by
  have same : step.answerRoot.answerRoot.session.pending = step.session.pending := by
    rw [answerRoot_pending, answerRoot_pending]
  unfold settle suspend
  split <;> simp only [*]

end Step

end StorageSwitch
