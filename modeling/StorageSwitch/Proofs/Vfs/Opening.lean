import StorageSwitch.Proofs.Vfs.Effects

/-! What comes of opening a file, whatever the driver does before it answers. -/

namespace StorageSwitch.Session

variable {δ σ : Type} {session : Session δ σ}

/-- The driver of the entry has opened the file, and the switch is in this state when it
returns: the file gets the lowest unused descriptor if the entry is still mounted and a
descriptor is unused. Otherwise the caller learns which of the two failed after the driver
was asked once to close the file.
-/
def Opens (entry : Entry δ) (file : LocalFd) (returned : Session δ σ) (step : Step δ σ)
    : Prop :=
  (∃ fd,
    returned.vfs.mounts.get? entry.index = some entry
    ∧ returned.vfs.fds.LowestUnused fd
    ∧ step.next = .returns (.opened fd)
    ∧ step.session.vfs.mounts = returned.vfs.mounts
    ∧ ∀ other,
        step.session.vfs.fds.slot? other
        = if other = fd then some (some ⟨entry.index, file, false⟩)
          else returned.vfs.fds.slot? other)
  ∨ ∃ error,
      ((error = .notFound ∧ returned.vfs.mounts.get? entry.index ≠ some entry)
        ∨ (error = .tooManyOpenFiles
          ∧ returned.vfs.mounts.get? entry.index = some entry
          ∧ ∀ fd, returned.vfs.fds.slot? fd ≠ some none))
      ∧ step.session.vfs = returned.vfs
      ∧ step.Asks entry (.closeFile file) fun closed _ last =>
          last.next = .returns (.failed error) ∧ last.session.vfs = closed.vfs

/-- Going on with an opened file. -/
theorem Consistent.bindOpened_opens (consistent : session.Consistent) {entry : Entry δ}
    {driver : δ} (given : entry.driver = .given driver)
    (known : session.vfs.mounts.Knows entry) (path : String) (file : LocalFd)
    : Opens entry file session (session.bindOpened entry path file).settle := by
  cases bound : session.vfs.bind entry file with
  | ok placed =>
      obtain ⟨fd, after⟩ := placed
      obtain ⟨current, lowest, ⟨fds, same⟩, _, slots⟩ :=
        consistent.tables.bind_eq_ok known bound
      have mounts : after.mounts = session.vfs.mounts := by rw [same]
      simp only [Session.bindOpened, bound]
      rw [Step.settle_of_returns rfl]
      exact .inl ⟨fd, current, lowest, rfl, mounts, slots⟩
  | error error =>
      have next
          : (session.bindOpened entry path file).next
            = .calls (.undoing entry file error) := by simp only [Session.bindOpened, bound]
      have same : (session.bindOpened entry path file).session.vfs = session.vfs := by
        simp only [Session.bindOpened, bound]
      refine .inr ⟨error, (consistent.tables.bind_eq_error_iff known).mp bound, ?_, ?_⟩
      · rw [Step.settle_of_given next given]
        exact same
      · refine Step.settle_asks next given fun closed respond _ => ?_
        rw [Step.settle_of_returns rfl]
        exact ⟨rfl, rfl⟩

/-- Opening a file asks the driver of the entry that the path belongs to, once, to open
the file as the driver knows it. If the driver fails, the caller learns its error, and
nothing else happens: the root listing has no files and always fails. If it opens the
file, what follows depends on the state of the switch at the moment when the driver
returns.
-/
theorem openFile_asks_once (reachable : session.Reachable) (path : String)
    (flags : OpenFlags) (mode : UInt32)
    : ∃ entry,
        session.vfs.resolve path = some entry
        ∧ match entry.driver with
          | .root =>
              session.begin (.openFile path flags mode) = session.answer (.failed .notFound)
          | .given _ =>
              (session.begin (.openFile path flags mode)).Asks entry
                (.openFile (entry.relative path) flags mode) fun returned reply step =>
                  match reply with
                  | .error error =>
                      step.next = .returns (.failed error)
                      ∧ step.session.vfs = returned.vfs
                  | .ok file => Opens entry file returned step := by
  obtain ⟨entry, resolved, found⟩ := reachable.consistent.tables.exists_resolve path
  have asks
      : session.start (.openFile path flags mode)
        = session.ask (.opening entry path flags mode) := by
    simp only [start, askAt, resolved]
  have next
      : (session.start (.openFile path flags mode)).next
        = .calls (.opening entry path flags mode) := by rw [asks]; rfl
  refine ⟨entry, resolved, ?_⟩
  split
  · rename_i root
    rw [begin, asks]
    rw [asks] at next
    exact Step.settle_of_root next root rfl
  · rename_i driver given
    refine Step.settle_asks next given fun resumed respond interlude => ?_
    have began := reachable.begin (.openFile path flags mode)
    have waiting := (began.interlude interlude).consistent
    obtain ⟨⟨known, _⟩, consistent⟩ := (wait_consistent_iff rfl).mp waiting
    simp only [finish, Frame.request]
    cases respond (.openFile (entry.relative path) flags mode) with
    | error error => exact ⟨rfl, rfl⟩
    | ok file => exact consistent.bindOpened_opens given known path file

/-- A file below a mount, opened while another file of that mount has the only descriptor.
-/
theorem openFile_asks_once_of_mount
    : ∃ (session : Session String Unit) (entry : Entry String),
        session.Reachable
        ∧ session.vfs.fds.bindings = [some ⟨1, 5, false⟩]
        ∧ entry.driver = .given "disk"
        ∧ entry.relative "/a/f" = "/f"
        ∧ (session.begin (.openFile "/a/f" ⟨0⟩ 0)).Asks entry
            (.openFile (entry.relative "/a/f") ⟨0⟩ 0) fun returned reply step =>
              ∀ file, reply = .ok file → Opens entry file returned step := by
  have played
      : (playNew? ⟨1, 3⟩
            [.call (.register "/a" "disk"), .call (.openFile "/a/f" ⟨0⟩ 0),
              .reply (.obliging 5 ())]).any
          (fun (_, session) =>
            session.vfs.fds.bindings = [some ⟨1, 5, false⟩]
            ∧ session.vfs.resolve "/a/f" = some ⟨1, 1, .path "/a", .given "disk"⟩)
        = true := by decide +kernel
  obtain ⟨_, session, reachable, checked⟩ := exists_reachable_of_playNew? played
  obtain ⟨full, resolves⟩ := of_decide_eq_true checked
  have relative
      : MountEntry.relative (⟨1, 1, .path "/a", .given "disk"⟩ : Entry String) "/a/f"
        = "/f" := by decide +kernel
  obtain ⟨entry, resolved, asks⟩ := openFile_asks_once reachable "/a/f" ⟨0⟩ 0
  obtain rfl := Option.some.inj (resolves.symm.trans resolved)
  refine ⟨session, _, reachable, full, rfl, relative, asks.1, ?_⟩
  intro after respond interlude
  obtain ⟨step, resumed, outcome⟩ := asks.2 after respond interlude
  refine ⟨step, resumed, fun file opened => ?_⟩
  rwa [opened] at outcome

end StorageSwitch.Session
