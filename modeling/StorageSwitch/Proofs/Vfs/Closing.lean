import StorageSwitch.Proofs.Vfs.Delegation
import StorageSwitch.Proofs.Vfs.Lifetime

/-! What comes of closing a descriptor. The binding is looked up before the driver is asked,
and the descriptor is freed after the driver has returned, so what a close changes depends on
two states of the switch.
-/

namespace StorageSwitch

variable {δ σ : Type}

namespace Session

variable {session : Session δ σ}

/-- The driver has answered a close of the descriptor, which led to the binding when the
close began, and the switch is in this state when it returns. The caller gets the driver's
answer. Nothing else may change than the descriptor, which is freed if the driver can close
files and the descriptor still has that binding and not for good.
-/
structure Closes (fd : Fd) (binding : Binding) (returned : Session δ σ)
    (reply : Except Error Unit) (step : Step δ σ) : Prop where
  answers : step.next = .returns (.replied (.closeFile binding.file) reply)
  keeps
    : ∃ fds,
        step.session
        = { returned with
            vfs := { returned.vfs with fds }
            pending := returned.pending.tail }
  others
    : ∀ other,
        other ≠ fd → step.session.vfs.descriptor? other = returned.vfs.descriptor? other
  frees
    : reply ≠ .error .notSupported
      → binding.permanent = false
      → returned.vfs.descriptor? fd = some (some binding)
      → step.session.vfs.descriptor? fd = some none
  leaves
    : reply = .error .notSupported
        ∨ binding.permanent = true
        ∨ returned.vfs.descriptor? fd ≠ some (some binding)
      → step.session.vfs.descriptor? fd = returned.vfs.descriptor? fd

theorem freeClosed_next (session : Session δ σ) (fd : Fd) (binding : Binding)
    (reply : Except Error Unit)
    : (session.freeClosed fd binding reply).next
      = .returns (.replied (.closeFile binding.file) reply) := by
  unfold freeClosed
  split <;> rfl

theorem freeClosed_session (session : Session δ σ) (fd : Fd) (binding : Binding)
    {reply : Except Error Unit} (supported : reply ≠ .error .notSupported)
    : (session.freeClosed fd binding reply).session
      = { session with vfs := (session.vfs.release fd binding).2 } := by
  unfold freeClosed
  split
  · exact absurd rfl supported
  · rfl

/-- Going on with the driver's answer to a close. -/
theorem Consistent.freeClosed_closes (consistent : session.Consistent) {entry : Entry δ}
    {fd : Fd} {binding : Binding} (fits : binding.Fits) (reply : Except Error Unit)
    : Closes fd binding (session.wait (.closing entry fd binding)) reply
        (session.freeClosed fd binding reply).settle := by
  have answers := session.freeClosed_next fd binding reply
  rw [Step.settle_of_returns answers]
  by_cases refused : reply = .error .notSupported
  · subst refused
    exact ⟨rfl, ⟨_, rfl⟩, fun _ _ => rfl, fun supported => absurd rfl supported, fun _ => rfl⟩
  · obtain ⟨_, ⟨fds, same⟩, slots⟩ := consistent.tables.release_spec fd fits
    have released := session.freeClosed_session fd binding refused
    refine ⟨answers, ⟨fds, by rw [released, same]; rfl⟩, ?_, ?_, ?_⟩
    · intro other differs
      rw [released]
      exact (slots other).trans (if_neg fun found => differs found.1)
    · intro _ ephemeral unchanged
      rw [released]
      exact (slots fd).trans
        (if_pos ⟨rfl, ephemeral, FdTable.get?_eq_some_iff.mpr unchanged⟩)
    · intro stays
      rw [released]
      refine (slots fd).trans (if_neg ?_)
      rintro ⟨_, ephemeral, unchanged⟩
      rcases stays with notSupported | permanent | changed
      · exact refused notSupported
      · rw [ephemeral] at permanent
        contradiction
      · exact changed (FdTable.get?_eq_some_iff.mp unchanged)

/-- A close of a descriptor without a binding fails and asks nobody. -/
theorem Consistent.closeFile_unbound (consistent : session.Consistent) {fd : Fd}
    (unbound : session.vfs.fds.get? fd = none)
    : session.begin (.closeFile fd) = session.answer (.failed .badDescriptor)
      ∧ Moment.requests ⟨session, .call (.closeFile fd), session.begin (.closeFile fd)⟩
        = [] := by
  have refused
      : session.start (.closeFile fd) = session.answer (.failed .badDescriptor) := by
    have nobody := consistent.tables.resolveFd_eq_none_iff.mpr unbound
    simp only [Session.start, Session.askFd, nobody]
  refine ⟨?_, ?_⟩
  · rw [begin, refused, Step.settle_of_returns rfl]
  · rw [requests_call, refused, Step.asked_of_returns rfl]
    rfl

/-- A close of a bound descriptor asks the driver it leads to, and goes on with its answer
from the state that the driver returns to.
-/
theorem Reachable.closeFile_asks (reachable : session.Reachable) {fd : Fd}
    {entry : Entry δ} {binding : Binding} {driver : δ}
    (resolved : session.vfs.resolveFd fd = some (entry, binding))
    (given : entry.driver = .given driver)
    : (session.begin (.closeFile fd)).Asks entry (.closeFile binding.file)
        (Closes fd binding) := by
  let frame : Frame δ σ := .closing entry fd binding
  have asks : session.start (.closeFile fd) = session.ask frame := start_closeFile resolved
  have asked : frame.entry.driver = .given driver := given
  have began := reachable.begin (.closeFile fd)
  rw [Session.begin, asks] at began ⊢
  refine Step.settle_asks rfl asked fun resumed respond interlude => ?_
  have waiting := (began.interlude interlude).consistent
  have consistent := ((wait_consistent_iff rfl).mp waiting).2
  have sound := waiting.sound frame (.head _)
  exact consistent.freeClosed_closes (sound.2 entry fd binding rfl) _

end Session

-----------------------------------------------------------------------------------------
-- Drivers that make no calls of their own
-----------------------------------------------------------------------------------------

/-- Goes on with the answers of drivers that make no calls of their own, one after another,
as long as the caller has none.
-/
def Step.answeredBy (step : Step δ σ) : List (Responder σ) → Step δ σ
  | [] => step
  | respond :: later =>
      match step.next with
      | .returns _ => step
      | .calls _ =>
          match step.session.resume? respond with
          | none => step
          | some next => next.answeredBy later

theorem Step.answeredBy_of_returns {step : Step δ σ} {answer : Answer σ}
    (returned : step.next = .returns answer) (responders : List (Responder σ))
    : step.answeredBy responders = step := by
  cases responders with
  | nil => rfl
  | cons respond later => rw [answeredBy, returned]

namespace Session

variable {session : Session δ σ} {call : Call δ} {frame : Frame δ σ}
  {responders : List (Responder σ)}

/-- Makes a call to drivers that make no calls of their own before they answer. -/
def perform (session : Session δ σ) (call : Call δ) (responders : List (Responder σ))
    : Step δ σ :=
  (session.begin call).answeredBy responders

/-- The root listing has the last word where it is asked. -/
theorem perform_of_root {answer : Answer σ} (asks : session.start call = session.ask frame)
    (root : frame.entry.driver = .root)
    (returned : (session.finish session.respondAsRoot frame).next = .returns answer)
    : session.perform call responders = session.finish session.respondAsRoot frame := by
  rw [perform, begin, asks, Step.settle_ask_of_root root returned,
    Step.answeredBy_of_returns returned]

/-- Where a driver is asked, the call goes on with its answer. -/
theorem perform_of_given {driver : δ} (asks : session.start call = session.ask frame)
    (given : frame.entry.driver = .given driver)
    : session.perform call responders
      = match responders with
        | [] => ⟨session.wait frame, [], .calls frame⟩
        | respond :: later => (session.finish respond frame).settle.answeredBy later := by
  rw [perform, begin, asks, Step.settle_of_given rfl given]
  cases responders <;> rfl

/-- What an open comes to if drivers make no calls of their own: a descriptor is bound, or
the open fails and nothing has changed, or a driver has not answered yet.
-/
inductive OpensOrFails (session : Session δ σ) (last : Step δ σ) : Prop
  | opens {entry file fd vfs} (known : session.vfs.mounts.Knows entry)
    (bound : session.vfs.bind entry file = .ok (fd, vfs))
    (returned : last.next = .returns (.opened fd))
    (same : last.session = { session with vfs })
  | fails {error} (returned : last.next = .returns (.failed error))
    (same : last.session = session)
  | waits {asked} (next : last.next = .calls asked)

/-- Going on with an opened file. -/
theorem opensOrFails_bindOpened {entry : Entry δ} {driver : δ}
    (given : entry.driver = .given driver) (known : session.vfs.mounts.Knows entry)
    (path : String) (file : LocalFd) (responders : List (Responder σ))
    : session.OpensOrFails
        ((session.bindOpened entry path file).settle.answeredBy responders) := by
  unfold bindOpened
  cases bound : session.vfs.bind entry file with
  | ok placed =>
      rw [Step.settle_of_returns rfl, Step.answeredBy_of_returns rfl]
      exact .opens known bound rfl rfl
  | error error =>
      let frame : Frame δ σ := .undoing entry file error
      have asked : frame.entry.driver = .given driver := given
      rw [Step.settle_of_given rfl asked]
      cases responders with
      | nil => exact .waits rfl
      | cons respond later =>
          -- whatever the driver answers when it is asked to take the file back
          change session.OpensOrFails
            ((session.finish respond frame).settle.answeredBy later)
          rw [Step.settle_of_returns rfl, Step.answeredBy_of_returns rfl]
          exact .fails rfl rfl

/-- An open either binds a descriptor and changes nothing else, or fails and changes nothing.
Witness: the root listing opens no file.
-/
theorem Consistent.perform_openFile (consistent : session.Consistent) (path : String)
    (flags : OpenFlags) (mode : UInt32) (responders : List (Responder σ))
    : session.OpensOrFails (session.perform (.openFile path flags mode) responders) := by
  obtain ⟨entry, resolved, found⟩ := consistent.tables.exists_resolve path
  have asks
      : session.start (.openFile path flags mode)
        = session.ask (.opening entry path flags mode) := start_openFile resolved
  cases asked : entry.driver with
  | root =>
      rw [perform_of_root asks asked rfl]
      exact .fails rfl rfl
  | given driver =>
      rw [perform_of_given asks asked]
      cases responders with
      | nil => exact .waits rfl
      | cons respond later =>
          simp only [Session.finish]
          split
          · rw [Step.settle_of_returns rfl, Step.answeredBy_of_returns rfl]
            exact .fails rfl rfl
          · have known := consistent.tables.mounts.knows found
            exact opensOrFails_bindOpened asked known path _ later

theorem OpensOrFails.of_opened {last : Step δ σ} {fd : Fd} (comes : session.OpensOrFails last)
    (opened : last.next = .returns (.opened fd))
    : ∃ entry file vfs,
        session.vfs.mounts.Knows entry
        ∧ session.vfs.bind entry file = .ok (fd, vfs)
        ∧ last.session = { session with vfs } := by
  cases comes with
  | fails returned _ => cases opened.symm.trans returned
  | waits next => cases opened.symm.trans next
  | opens known bound returned same =>
      cases opened.symm.trans returned
      exact ⟨_, _, _, known, bound, same⟩

/-- A close goes on with the answer of its driver at once. -/
theorem perform_closeFile_of_given {fd : Fd} {entry : Entry δ} {binding : Binding}
    {driver : δ} (resolved : session.vfs.resolveFd fd = some (entry, binding))
    (given : entry.driver = .given driver) (respond : Responder σ)
    (later : List (Responder σ))
    : session.perform (.closeFile fd) (respond :: later)
      = session.freeClosed fd binding (respond (.closeFile binding.file)) := by
  have answers := session.freeClosed_next fd binding (respond (.closeFile binding.file))
  rw [perform_of_given (start_closeFile resolved) given]
  simp only [finish]
  rw [Step.settle_of_returns answers, Step.answeredBy_of_returns answers]

/-- A close that is not refused releases the binding it has found.
Witness: the root listing closes no file.
-/
theorem perform_closeFile {fd : Fd} {entry : Entry δ} {binding : Binding} {file : LocalFd}
    {reply : Except Error Unit} (responders : List (Responder σ))
    (resolved : session.vfs.resolveFd fd = some (entry, binding))
    (answered
      : (session.perform (.closeFile fd) responders).next
        = .returns (.replied (.closeFile file) reply))
    (supported : reply ≠ .error .notSupported)
    : (session.perform (.closeFile fd) responders).session
      = { session with vfs := (session.vfs.release fd binding).2 } := by
  cases asked : entry.driver with
  | root =>
      rw [perform_of_root (start_closeFile resolved) asked rfl] at answered
      cases answered
      exact absurd rfl supported
  | given driver =>
      cases responders with
      | nil =>
          rw [perform_of_given (start_closeFile resolved) asked] at answered
          contradiction
      | cons respond later =>
          rw [perform_closeFile_of_given resolved asked] at answered ⊢
          cases (session.freeClosed_next fd binding _).symm.trans answered
          exact session.freeClosed_session fd binding supported

/-- Opening and closing again leaves no trace.
Witness: the word of the descriptor was zero before and is zero again.
-/
theorem Consistent.perform_close_of_open (consistent : session.Consistent) {entry : Entry δ}
    {opened closed : LocalFd} {fd : Fd} {vfs : Vfs δ} {after : Session δ σ}
    {closes : List (Responder σ)} {reply : Except Error Unit}
    (known : session.vfs.mounts.Knows entry)
    (bound : session.vfs.bind entry opened = .ok (fd, vfs))
    (same : after = { session with vfs })
    (answered
      : (after.perform (.closeFile fd) closes).next
        = .returns (.replied (.closeFile closed) reply))
    (supported : reply ≠ .error .notSupported)
    : (after.perform (.closeFile fd) closes).session = session := by
  subst same
  obtain ⟨present, _, ⟨fds, changed⟩, _, slots⟩ := consistent.tables.bind_eq_ok known bound
  have resolved : vfs.resolveFd fd = some (entry, ⟨entry.index, opened, false⟩) := by
    rw [Vfs.resolveFd_eq_some_iff, FdTable.get?_eq_some_iff, slots, if_pos rfl, changed]
    exact ⟨rfl, present⟩
  rw [perform_closeFile closes resolved answered supported,
    consistent.tables.release_bind bound]

-----------------------------------------------------------------------------------------
-- Every close
-----------------------------------------------------------------------------------------

/-- A close of an unused descriptor, or of one that the table does not have, fails without
asking anybody. Any other close is one request to the driver that the descriptor leads to,
whose answer the caller gets, and when the driver has returned, only the descriptor may
change. So if drivers make no calls of their own, a close that follows an open and that the
driver does not refuse restores the switch, and the next open that succeeds binds the same
descriptor.
-/
theorem closeFile_frees_unchanged_binding (reachable : session.Reachable)
    : (∀ fd,
        (session.vfs.descriptor? fd = none
          ↔ fd < 0 ∨ session.vfs.fds.capacity ≤ fd.toNatClampNeg)
        ∧ match session.vfs.descriptor? fd with
          | none | some none =>
              session.begin (.closeFile fd) = session.answer (.failed .badDescriptor)
              ∧ Moment.requests ⟨session, .call (.closeFile fd), session.begin (.closeFile fd)⟩
                = []
          | some (some binding) =>
              ∃ entry,
                session.vfs.mounts.get? binding.mount = some entry
                ∧ session.Delegates (.closeFile fd) entry (.closeFile binding.file)
                ∧ match entry.driver with
                  | .root =>
                      session.begin (.closeFile fd)
                      = session.answer
                          (.replied (.closeFile binding.file) (.error .notSupported))
                  | .given _ =>
                      (session.begin (.closeFile fd)).Asks entry (.closeFile binding.file)
                        (Closes fd binding))
      ∧ ∀ path flags mode opens fd,
          let opened := session.perform (.openFile path flags mode) opens
          opened.next = .returns (.opened fd)
          → ∀ closes file reply,
              let closed := opened.session.perform (.closeFile fd) closes
              closed.next = .returns (.replied (.closeFile file) reply)
              → reply ≠ .error .notSupported
              → closed.session = session
                ∧ ∀ path flags mode opens,
                    let again := closed.session.perform (.openFile path flags mode) opens
                    ∀ answer,
                      again.next = .returns answer
                      → answer = .opened fd
                        ∨ (∃ error, answer = .failed error) ∧ again.session = session := by
  have consistent := reachable.consistent
  refine ⟨fun fd => ⟨FdTable.slot?_eq_none_iff, ?_⟩, ?_⟩
  · split
    · rename_i missing
      exact consistent.closeFile_unbound (congrArg Option.join missing)
    · rename_i unused
      exact consistent.closeFile_unbound (congrArg Option.join unused)
    · rename_i binding slot
      have bound := FdTable.get?_eq_some_iff.mpr slot
      obtain ⟨entry, found⟩ := consistent.tables.led fd binding bound
      have resolved : session.vfs.resolveFd fd = some (entry, binding) :=
        Vfs.resolveFd_eq_some_iff.mpr ⟨bound, found⟩
      have asks := start_closeFile resolved
      refine ⟨entry, found, delegates_of_ask asks fun _ => ⟨_, rfl⟩, ?_⟩
      split
      · rename_i root
        rw [begin, asks]
        exact Step.settle_ask_of_root root rfl
      · rename_i driver given
        exact reachable.closeFile_asks resolved given
  · intro path flags mode opens fd opened returned closes file reply closed answers supported
    obtain ⟨entry, ownFile, vfs, known, bound, same⟩ :=
      (consistent.perform_openFile path flags mode opens).of_opened returned
    have restored : closed.session = session :=
      consistent.perform_close_of_open known bound same answers supported
    refine ⟨restored, ?_⟩
    intro path flags mode opens again answer concluded
    have fromStart : again = session.perform (.openFile path flags mode) opens :=
      congrArg (fun start => start.perform (.openFile path flags mode) opens) restored
    rw [fromStart] at concluded ⊢
    cases consistent.perform_openFile path flags mode opens with
    | waits next => cases concluded.symm.trans next
    | fails returned unchanged =>
        cases concluded.symm.trans returned
        exact .inr ⟨⟨_, rfl⟩, unchanged⟩
    | opens otherKnown otherBound returned _ =>
        cases concluded.symm.trans returned
        obtain ⟨_, lowest, _⟩ := consistent.tables.bind_eq_ok known bound
        obtain ⟨_, otherLowest, _⟩ := consistent.tables.bind_eq_ok otherKnown otherBound
        rw [lowest.unique otherLowest]
        exact .inl rfl

/-- A descriptor is open and another one reserved. A third is opened, and its driver fails to
close it: it is free again all the same.
-/
theorem closeFile_frees_unchanged_binding_of_failed_close
    : ∃ (session : Session String Unit) (first : Entry String),
        session.Reachable
        ∧ session.vfs.fds.bindings
          = [some ⟨1, 5, false⟩, none, some ⟨2, 2, true⟩, none]
        ∧ (session.begin (.closeFile 0)).Asks first (.closeFile 5) (Closes 0 ⟨1, 5, false⟩)
        ∧ session.begin (.closeFile 3) = session.answer (.failed .badDescriptor)
        ∧ let opened := session.perform (.openFile "/a/f" ⟨0⟩ 0) [.obliging 7 ()]
          opened.next = .returns (.opened 1)
          ∧ (opened.session.perform (.closeFile 1) [Request.fail .io]).session
            = session := by
  have played
      : (playNew? ⟨4, 4⟩
            [.call (.register "/a" "disk"), .call (.registerRange "tty" 2 2),
              .call (.openFile "/a/g" ⟨0⟩ 0), .reply (.obliging 5 ())]).any
          (fun (_, (session : Session String Unit)) =>
            session.vfs.fds.bindings = [some ⟨1, 5, false⟩, none, some ⟨2, 2, true⟩, none]
            ∧ session.vfs.descriptor? 0 = some (some ⟨1, 5, false⟩)
            ∧ session.vfs.mounts.get? 1 = some ⟨1, 1, .path "/a", .given "disk"⟩
            ∧ session.vfs.descriptor? 3 = some none
            ∧ (session.perform (.openFile "/a/f" ⟨0⟩ 0) [.obliging 7 ()]).next
              = .returns (.opened 1)
            ∧ (session.perform (.openFile "/a/f" ⟨0⟩ 0)
                [.obliging 7 ()]).session.vfs.resolveFd 1
              = some (⟨1, 1, .path "/a", .given "disk"⟩, ⟨1, 7, false⟩))
        = true := by decide +kernel
  obtain ⟨_, session, reachable, checked⟩ := exists_reachable_of_playNew? played
  obtain ⟨bindings, bound, mounted, unused, returned, resolved⟩ := of_decide_eq_true checked
  obtain ⟨closes, restores⟩ := closeFile_frees_unchanged_binding reachable
  have first := (closes 0).2
  have refused := (closes 3).2
  rw [bound] at first
  rw [unused] at refused
  obtain ⟨entry, found, _, asks⟩ := first
  obtain rfl := Option.some.inj (mounted.symm.trans found)
  have answered := perform_closeFile_of_given resolved rfl (Request.fail .io) []
  refine ⟨session, _, reachable, bindings, asks, refused.1, returned, ?_⟩
  refine (restores _ _ _ _ 1 returned [Request.fail .io] 7 (.error .io) ?_ nofun).1
  rw [answered]
  rfl

end Session

end StorageSwitch
