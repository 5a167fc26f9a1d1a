import StorageSwitch.Proofs.Vfs.Exchanges
import StorageSwitch.Proofs.Vfs.Routing

/-! What drivers are asked when somebody makes a call on paths. Such a call is one request to
the driver of the entry that the paths belong to, and the driver sees the paths below its own
mount. Only what a driver has opened in vain is closed again by a second request.
-/

namespace StorageSwitch

variable {δ σ : Type}

/-- The requests that drivers get in the course of the moment, with the entries whose drivers
get them.
-/
def Moment.requests (moment : Moment δ σ) : List (Entry δ × Request σ) :=
  moment.asked.map fun frame => (frame.entry, frame.request)

/-- The request that takes back what a driver has opened. -/
def Request.undoing? : (request : Request σ) → request.Reply → Option (Request σ)
  | .openFile _ _ _, .ok file => some (.closeFile file)
  | .openDir _, .ok state => some (.closeDir state)
  | _, _ => none

/-- The path belongs to the entry. Its driver sees the path below the mount path, and unless
the entry is the root listing, what it sees is an absolute path.
-/
structure Vfs.Shows (vfs : Vfs δ) (path : String) (entry : Entry δ) (seen : String)
    : Prop where
  resolved : vfs.resolve path = some entry
  below : ∃ mount, entry.point = .path mount ∧ Path.Seen mount path seen
  absolute : entry.index ≠ vfs.rootIndex → seen.toList.head? = some Path.separator

namespace Session

variable {session : Session δ σ}

/-- The driver has answered the request, and the call goes on with this step: no driver is
asked any more, unless the entry's driver is asked once to take back what it has opened.
-/
def Concludes (entry : Entry δ) (request : Request σ) (returned : Session δ σ)
    (respond : Responder σ) (step : Step δ σ) : Prop :=
  Moment.requests ⟨returned, .reply respond, step⟩ = []
  ∨ ∃ undoing,
      request.undoing? (respond request) = some undoing
      ∧ Moment.requests ⟨returned, .reply respond, step⟩ = [(entry, undoing)]
      ∧ ∀ closed respondAgain,
          step.session.Interlude closed
          → ∃ last,
              closed.resume? respondAgain = some last
              ∧ Moment.requests ⟨closed, .reply respondAgain, last⟩ = []

/-- The call amounts to one request: the entry's driver gets it, no other one gets any, and
what follows after the answer concludes the call. The root listing answers at once, and its
answer is the last word.
-/
def Delegates (session : Session δ σ) (call : Call δ) (entry : Entry δ)
    (request : Request σ) : Prop :=
  Moment.requests ⟨session, .call call, session.begin call⟩ = [(entry, request)]
  ∧ match entry.driver with
    | .root => ∃ answer, (session.begin call).next = .returns answer
    | .given _ =>
        ∀ returned respond,
          (session.begin call).session.Interlude returned
          → ∃ step,
              returned.resume? respond = some step
              ∧ Concludes entry request returned respond step

end Session

-----------------------------------------------------------------------------------------
-- Who is asked in the course of a move
-----------------------------------------------------------------------------------------

namespace Step

variable {step : Step δ σ} {frame : Frame δ σ}

/-- Nobody is asked before the caller gets an answer. -/
theorem asked_of_returns {answer : Answer σ} (returned : step.next = .returns answer)
    : step.nexts.filterMap Next.asked? = [] := by
  have none : step.rootExchange? = none := by rw [rootExchange?, returned]
  rw [nexts, rootExchanges, answerRoot_of_returns returned, none, returned]
  rfl

/-- One driver is asked if it has to answer by itself, or if it is the root listing and
has the last word.
-/
theorem asked_of_calls (next : step.next = .calls frame)
    (ends
      : frame.entry.driver = .root
        → ∃ answer,
            (step.session.finish step.session.respondAsRoot frame).next = .returns answer)
    : step.nexts.filterMap Next.asked? = [frame] := by
  rw [nexts, rootExchanges]
  cases asked : frame.entry.driver with
  | given driver =>
      have none : step.rootExchange? = none := by simp [rootExchange?, next, asked]
      have same : step.answerRoot = step := by simp [answerRoot, next, asked]
      rw [same, none, next]
      rfl
  | root =>
      obtain ⟨answer, returned⟩ := ends asked
      have first
          : step.rootExchange?
            = some ⟨step.session, frame, step.session.respondAsRoot⟩ := by
        simp [rootExchange?, next, asked]
      have last : step.answerRoot.rootExchange? = none := by
        simp [rootExchange?, answerRoot, next, asked, returned]
      rw [first, last, next]
      simp [Exchange.step, returned, Next.asked?]

end Step

/-- Whatever the driver answers, and whenever, its answer ends the call. -/
def Frame.Ends (frame : Frame δ σ) : Prop :=
  ∀ (session : Session δ σ) respond,
    ∃ answer, (session.finish respond frame).next = .returns answer

/-- What may follow when the driver has answered: the caller gets an answer, or the same
driver is asked to take back what it has opened, which ends the call.
-/
def Frame.Follows (frame : Frame δ σ) (respond : Responder σ) (next : Next δ σ) : Prop :=
  (∃ answer, next = .returns answer)
  ∨ ∃ closing,
      next = .calls closing
      ∧ closing.entry = frame.entry
      ∧ frame.request.undoing? (respond frame.request) = some closing.request
      ∧ closing.Ends

namespace Session

variable {session : Session δ σ} {call : Call δ} {frame : Frame δ σ}

theorem finish_follows (session : Session δ σ) (respond : Responder σ) (frame : Frame δ σ)
    : frame.Follows respond (session.finish respond frame).next := by
  cases frame with
  | relaying | undoing | discarding | moving => exact .inl ⟨_, rfl⟩
  | ending stream ended dropped => exact .inl ⟨_, rfl⟩
  | closing entry fd binding =>
      simp only [finish, freeClosed]
      split <;> exact .inl ⟨_, rfl⟩
  | opening entry path flags mode =>
      simp only [finish]
      cases opened : respond (.openFile (entry.relative path) flags mode) with
      | error error => exact .inl ⟨_, rfl⟩
      | ok file =>
          simp only [bindOpened]
          split
          · exact .inl ⟨_, rfl⟩
          · refine .inr ⟨.undoing entry file _, rfl, rfl, ?_, fun _ _ => ⟨_, rfl⟩⟩
            simp only [Frame.request, opened, Request.undoing?]
  | listing entry path =>
      simp only [finish]
      cases opened : respond (.openDir (entry.relative path)) with
      | error error => exact .inl ⟨_, rfl⟩
      | ok state =>
          simp only [listOpened]
          split
          · exact .inl ⟨_, rfl⟩
          · refine .inr ⟨.discarding _ ⟨entry, state⟩, rfl, rfl, ?_, fun _ _ => ⟨_, rfl⟩⟩
            simp only [Frame.request, opened, Request.undoing?]

/-- The requests of a call are those of its beginning. -/
theorem requests_call (session : Session δ σ) (call : Call δ)
    : Moment.requests ⟨session, .call call, session.begin call⟩
      = ((session.start call).nexts.filterMap Next.asked?).map
          fun frame => (frame.entry, frame.request) :=
  rfl

/-- The requests that follow an answer are those of the call that goes on. -/
theorem requests_reply (resumed : Session δ σ) (frame : Frame δ σ) (respond : Responder σ)
    (step : Step δ σ)
    : Moment.requests ⟨resumed.wait frame, .reply respond, step⟩
      = ((resumed.finish respond frame).nexts.filterMap Next.asked?).map
          fun frame => (frame.entry, frame.request) :=
  rfl

/-- Every call that waited for a registered driver concludes when the driver answers. -/
theorem finish_concludes {driver : δ} (given : frame.entry.driver = .given driver)
    (resumed : Session δ σ) (respond : Responder σ)
    : Concludes frame.entry frame.request (resumed.wait frame) respond
        (resumed.finish respond frame).settle := by
  unfold Concludes
  rw [requests_reply]
  rcases resumed.finish_follows respond frame
    with ⟨answer, returned⟩ | ⟨closing, next, sameEntry, undoes, ends⟩
  · left
    rw [Step.asked_of_returns returned]
    rfl
  · right
    rw [← sameEntry] at given ⊢
    refine ⟨closing.request, undoes, ?_, fun closed respondAgain interlude => ?_⟩
    · rw [Step.asked_of_calls next fun root => by simp [given] at root]
      rfl
    · obtain ⟨resumed, rfl⟩ := Step.exists_wait_of_interlude next given interlude
      obtain ⟨answer, returned⟩ := ends resumed respondAgain
      refine ⟨_, resume?_eq_some_iff.mpr ⟨resumed, closing, rfl, rfl⟩, ?_⟩
      rw [requests_reply, Step.asked_of_returns returned]
      rfl

/-- A call that asks a driver delegates to it what its frame says, provided the root listing
has the last word where it is asked.
-/
theorem delegates_of_ask (asks : session.start call = session.ask frame)
    (ends
      : frame.entry.driver = .root
        → ∃ answer, (session.finish session.respondAsRoot frame).next = .returns answer)
    : session.Delegates call frame.entry frame.request := by
  have next : (session.ask frame).next = .calls frame := rfl
  refine ⟨?_, ?_⟩
  · rw [requests_call, asks, Step.asked_of_calls next ends]
    rfl
  · rw [begin, asks]
    cases asked : frame.entry.driver with
    | root =>
        obtain ⟨answer, returned⟩ := ends asked
        exact ⟨answer, by rw [Step.settle_of_root next asked returned]⟩
    | given driver =>
        intro returned respond interlude
        obtain ⟨resumed, rfl⟩ := Step.exists_wait_of_interlude next asked interlude
        exact ⟨_, resume?_eq_some_iff.mpr ⟨resumed, frame, rfl, rfl⟩,
          finish_concludes asked resumed respond⟩

-----------------------------------------------------------------------------------------
-- Calls on paths
-----------------------------------------------------------------------------------------

/-- Every path belongs to an entry in its slot, whose driver sees it below its mount.
Witness: only the root listing is asked for paths of the empty mount path, since it is in
the first slot; any other mount path is followed by a separator.
-/
theorem Reachable.shows (reachable : session.Reachable) (path : String)
    : ∃ entry,
        session.vfs.mounts.get? entry.index = some entry
        ∧ session.vfs.Shows path entry (entry.relative path) := by
  obtain ⟨entry, resolved, present⟩ := reachable.consistent.tables.exists_resolve path
  obtain ⟨index, found, covers, first⟩ := MountTable.resolve_eq_some_iff.mp resolved
  obtain ⟨mount, mounted, covered⟩ := MountEntry.covers_iff.mp covers
  obtain ⟨seen, absolute⟩ := Path.translate_seen covered
  have relative : entry.relative path = Path.translate path mount := by
    simp [MountEntry.relative, MountEntry.path?, mounted, MountPoint.path?]
  refine ⟨entry, present, resolved, ⟨mount, mounted, relative ▸ seen⟩, fun notRoot => ?_⟩
  rw [relative]
  apply absolute
  rintro rfl
  obtain ⟨atFirst, root, rootFound, _, rootMounted⟩ := reachable.root_spec
  have rootCovered : Path.covers "" path = true := Path.covers_iff.mpr (.inl rfl)
  have order := first 0 root rootFound (MountEntry.covers_iff.mpr ⟨"", rootMounted, rootCovered⟩)
  rw [MountTable.precedes_iff mounted rootMounted covered rootCovered] at order
  have inSlot := reachable.consistent.tables.mounts.index_eq found
  omega

end Session

end StorageSwitch
