import StorageSwitch.Proofs.Vfs.Ownership
import StorageSwitch.Proofs.Vfs.Positions
import StorageSwitch.Proofs.Vfs.Removal

/-! Once every call has returned and whatever was opened has been closed, nothing is in use,
and all mounts but the root listing can be removed without a trace.
-/

namespace StorageSwitch

variable {δ σ : Type}

/-- A driver is asked to close a file and answers that it provides no such operation. -/
def Exchange.refuses (exchange : Exchange δ σ) : Bool :=
  match exchange.frame.request with
  | .closeFile file =>
      match exchange.respond (.closeFile file) with
      | .error .notSupported => true
      | _ => false
  | _ => false

theorem Exchange.refuses_of_notSupported {exchange : Exchange δ σ} {file : LocalFd}
    (asked : exchange.frame.request = .closeFile file)
    (answered : exchange.respond (.closeFile file) = .error .notSupported)
    : exchange.refuses = true := by
  simp only [refuses, asked, answered]

/-- No registered driver that is asked to close a file refuses to. -/
def SupportsClosing (history : List (Moment δ σ)) : Prop :=
  ∀ moment ∈ history, ∀ exchange ∈ moment.exchanges,
    exchange.refuses = true → exchange.frame.entry.driver = .root

/-- Whenever a caller gets a descriptor, it is closed by a later call. -/
def ClosesFiles (history : List (Moment δ σ)) : Prop :=
  ∀ later moment earlier,
    history = later ++ moment :: earlier
    → ∀ fd,
        moment.step.next = .returns (.opened fd)
        → ∃ since ∈ later, since.move = .call (.closeFile fd)

/-- Every stream that a caller gets is closed or dropped later. -/
def EndsStreams (history : List (Moment δ σ)) : Prop :=
  ∀ later moment earlier,
    history = later ++ moment :: earlier
    → ∀ stream,
        moment.step.next = .returns (.streaming stream) → ∃ since ∈ later, since.Ends stream

section Decidable

/-- A property of every item of a list and those before it can be checked item by item. -/
theorem forall_cut_iff {α : Type} {holds : List α → α → Prop} {items : List α}
    : (∀ later item earlier, items = later ++ item :: earlier → holds later item)
      ↔ ∀ n (within : n < items.length), holds (items.take n) items[n] := by
  constructor
  · intro all n within
    exact all _ _ (items.drop (n + 1)) (by simp)
  · rintro all later item earlier rfl
    simpa using all later.length (by simp)

instance [DecidableEq δ] (move : Move δ σ) (call : Call δ) : Decidable (move = .call call) :=
  match move with
  | .call other => decidable_of_iff (other = call) ⟨congrArg _, Move.call.inj⟩
  | .reply _ | .drop => .isFalse nofun

instance [DecidableEq δ] (history : List (Moment δ σ))
    : Decidable (SupportsClosing history) :=
  inferInstanceAs (Decidable (∀ moment ∈ history, ∀ exchange ∈ moment.exchanges, _))

instance [DecidableEq δ] (moment : Moment δ σ) (stream : Nat)
    : Decidable (moment.Ends stream) :=
  inferInstanceAs (Decidable (_ ∧ _))

instance [DecidableEq δ] (history : List (Moment δ σ)) : Decidable (ClosesFiles history) :=
  decidable_of_iff' _ forall_cut_iff

instance [DecidableEq δ] (history : List (Moment δ σ)) : Decidable (EndsStreams history) :=
  decidable_of_iff' _ forall_cut_iff

end Decidable

namespace Session

variable {start session : Session δ σ} {history : List (Moment δ σ)} {config : Config}
  {notices : List Vfs.Notice}

/-- Nobody uses any mount: all bound descriptors are reserved, and there are no handles. -/
structure Idle (session : Session δ σ) : Prop where
  reserved
    : ∀ fd binding, session.vfs.fds.get? fd = some binding → binding.permanent = true
  handles : session.handles = []

-----------------------------------------------------------------------------------------
-- Closed files leave no descriptor
-----------------------------------------------------------------------------------------

/-- Whoever closes a descriptor that leads to a registered driver waits for that driver. -/
theorem begin_closeFile {fd : Fd} {grant : Grant δ} {driver : δ}
    (leads : session.vfs.Leads fd grant) (given : grant.entry.driver = .given driver)
    : (session.begin (.closeFile fd)).session
      = session.wait (.closing grant.entry fd grant.binding) := by
  have resolved : session.vfs.resolveFd fd = some (grant.entry, grant.binding) :=
    Vfs.resolveFd_eq_some_iff.mpr leads
  let frame : Frame δ σ := .closing grant.entry fd grant.binding
  have asks : session.start (.closeFile fd) = session.ask frame := start_closeFile resolved
  have known : frame.entry.driver = .given driver := given
  rw [begin, asks, Step.settle_of_given rfl known]
  rfl

/-- Once the driver has been asked to close the file of an opened descriptor, the descriptor
is not bound to that file, unless the driver cannot close files.
-/
theorem Consistent.unbound_of_closed (consistent : session.Consistent) {entry : Entry δ}
    {fd : Fd} {binding : Binding} {rest : List (Frame δ σ)} {respond : Responder σ}
    {step : Step δ σ} (waiting : session.pending = .closing entry fd binding :: rest)
    (ephemeral : binding.permanent = false)
    (supported : respond (.closeFile binding.file) ≠ .error .notSupported)
    (moved : session.move? (.reply respond) = some step)
    : step.session.vfs.fds.get? fd ≠ some binding := by
  have frees : step.session.vfs = (session.vfs.release fd binding).2 := by
    obtain ⟨resumed, frame, rfl, rfl⟩ := resume?_eq_some_iff.mp moved
    obtain ⟨rfl, rfl⟩ := List.cons.inj waiting
    simp only [Session.finish, Session.freeClosed]
    rw [Step.settle_of_returns rfl]
    rfl
  rw [frees, (consistent.freed_spec waiting).2 fd]
  split
  · simp
  · rename_i other
    exact fun bound => other ⟨rfl, ephemeral, bound⟩

/-- When a descriptor with an opened file is closed, it is unbound at some moment before all
calls have returned.
Witness: the call waits for the driver, so the driver has answered.
-/
theorem Run.exists_unbound {closing : Session δ σ} {fd : Fd} {grant : Grant δ} {driver : δ}
    (reachable : closing.Reachable) (leads : closing.vfs.Leads fd grant)
    (ephemeral : grant.permanent = false) (given : grant.entry.driver = .given driver)
    (run : (closing.begin (.closeFile fd)).session.Run history session)
    (returned : session.pending = []) (supported : SupportsClosing history)
    : ∃ moment ∈ history, moment.step.session.vfs.fds.get? fd ≠ some grant.binding := by
  have started := reachable.begin (.closeFile fd)
  have waits := begin_closeFile leads given
  have waiting
      : .closing grant.entry fd grant.binding
        ∈ (closing.begin (.closeFile fd)).session.pending := by
    rw [waits]
    exact .head _
  obtain ⟨moment, member, respond, rest, replies, pending⟩ :=
    run.answered waiting (by rw [returned]; exact List.not_mem_nil)
  obtain ⟨later, earlier, rfl⟩ := List.append_of_mem member
  obtain ⟨before, answered, _⟩ := run.cut
  rw [replies] at answered
  have supports : respond (.closeFile grant.file) ≠ .error .notSupported := by
    intro refused
    let exchange : Exchange δ σ :=
      ⟨{ moment.before with pending := rest }, .closing grant.entry fd grant.binding, respond⟩
    have exchanged : exchange ∈ moment.exchanges := by
      refine List.mem_append_left _ ?_
      simp [replies, exchange?, pending, exchange]
    have refuses : exchange.refuses = true := Exchange.refuses_of_notSupported rfl refused
    cases given.symm.trans (supported moment member exchange exchanged refuses)
  have consistent := (started.run before).consistent
  exact ⟨moment, member, consistent.unbound_of_closed pending ephemeral supports answered⟩

/-- If all opened descriptors have been closed and the calls have returned, only reserved
descriptors are bound.
Witness: a descriptor that an open has bound leads to its file ever since, also when it is
closed; but then it is unbound at some later moment.
-/
theorem Run.reserved_of_closesFiles (made : create config = .ok (start, notices))
    (run : start.Run history session) (returned : session.pending = [])
    (supported : SupportsClosing history) (closes : ClosesFiles history) {fd : Fd}
    {binding : Binding} (bound : session.vfs.fds.get? fd = some binding)
    : binding.permanent = true := by
  rw [← Bool.not_eq_false]
  intro ephemeral
  obtain ⟨later, moment, earlier, grant, rfl, grants, since, _, rfl⟩ :=
    run.exists_grant made bound
  have reached {before : Session δ σ} {history : List (Moment δ σ)}
      (run : start.Run history before)
      : before.Reachable :=
    ⟨config, start, notices, history, made, run⟩
  cases grants with
  | registered | reserved => contradiction
  | @opened before respond step entry path flags mode rest file fd waiting _ opened =>
      have asked : .opening entry path flags mode ∈ before.pending := waiting ▸ .head _
      obtain ⟨driver, given⟩ := (reached run.cut.1).pending_given asked
      obtain ⟨closing, member, closed⟩ := closes _ _ _ rfl fd opened
      obtain ⟨after, between, rfl⟩ := List.append_of_mem member
      rw [List.append_assoc, List.cons_append] at run
      obtain ⟨untilClosed, moved, onward⟩ := run.cut
      have leads : closing.before.vfs.Leads fd ⟨entry, file, false⟩ := by
        obtain ⟨last, among, same⟩ := untilClosed.exists_last
        rw [same]
        refine since last ?_
        rcases List.mem_cons.mp among with rfl | between
        · exact .head _
        · exact .tail _ (List.mem_append_right _ (.tail _ between))
      rw [closed] at moved
      rw [← Option.some.inj moved] at onward
      have supportedLater : SupportsClosing after := by
        intro moment member
        exact supported moment (by simp [member])
      obtain ⟨moment, member, unbound⟩ :=
        onward.exists_unbound (reached untilClosed) leads ephemeral given returned
          supportedLater
      exact unbound (since moment (.tail _ (List.mem_append_left _ member))).1

-----------------------------------------------------------------------------------------
-- Ended streams leave no handle
-----------------------------------------------------------------------------------------

/-- If all streams have ended, no position is held. -/
theorem Run.held_eq_nil (made : create config = .ok (start, notices))
    (run : start.Run history session) (ends : EndsStreams history)
    : session.held = [] := by
  refine List.eq_nil_iff_forall_not_mem.mpr ?_
  rintro ⟨number, entry⟩ held
  have owned := (run.positions made).1.mem_iff.mpr (List.mem_append_right _ held)
  obtain ⟨⟨stream, dir⟩, out, same⟩ := List.mem_map.mp owned
  obtain ⟨rfl, _⟩ : stream = number ∧ _ := Prod.mk.inj same
  obtain ⟨moment, member, outThen⟩ := List.mem_flatMap.mp out
  obtain ⟨later, earlier, rfl⟩ := List.append_of_mem member
  refine run.not_held_of_handBacks made out ?_ entry held
  by_cases streaming : moment.step.next = .returns (.streaming stream)
  · obtain ⟨since, after, ended⟩ := ends _ _ _ rfl stream streaming
    exact run.handBacks_of_ends made outThen after ended
  · exact run.handBacks_of_lost made outThen streaming

/-- If everything that was opened has been closed and the calls have returned, nobody uses
any mount.
-/
theorem Run.idle (made : create config = .ok (start, notices))
    (run : start.Run history session) (returned : session.pending = [])
    (supported : SupportsClosing history) (closes : ClosesFiles history)
    (ends : EndsStreams history)
    : session.Idle where
  reserved _ _ bound := run.reserved_of_closesFiles made returned supported closes bound
  handles := by
    have held := run.held_eq_nil made ends
    have streams : session.streams = [] := by
      simpa [owners] using (List.append_eq_nil_iff.mp held).1
    rw [handles, streams, returned]
    rfl

-----------------------------------------------------------------------------------------
-- Removing all mounts
-----------------------------------------------------------------------------------------

/-- Nobody uses any mount, the mounts in some slots are gone, and the others are where they
were.
-/
structure Leaves (session : Session δ σ) (removed : List Nat) (after : Session δ σ)
    : Prop where
  consistent : after.Consistent
  idle : after.Idle
  rootIndex : after.vfs.rootIndex = session.vfs.rootIndex
  slots
    : ∀ index,
        after.vfs.mounts.get? index
        = if index ∈ removed then none else session.vfs.mounts.get? index

namespace Idle

variable {index : Nat} {entry : Entry δ} {after : Session δ σ}

theorem not_inUse (idle : session.Idle) (index : Nat) : ¬session.InUse index := by
  rintro (⟨fd, binding, bound, _, ephemeral⟩ | ⟨handle, member, _⟩)
  · rw [idle.reserved fd binding bound] at ephemeral
    contradiction
  · rw [idle.handles] at member
    contradiction

/-- No mount counts an open stream. -/
theorem openStreams (idle : session.Idle) (consistent : session.Consistent)
    {slot : Mounted (Driver δ)} (found : session.vfs.mounts.mounted? index = some slot)
    : slot.openStreams = 0 := by
  rw [consistent.balanced.counted index slot found, idle.handles]
  rfl

/-- Every mount but the root listing can be removed, and then nobody uses any other. -/
theorem unregister (idle : session.Idle) (consistent : session.Consistent)
    (notRoot : index ≠ session.vfs.rootIndex)
    (found : session.vfs.mounts.get? index = some entry)
    : (session.begin (.unregister index)).next = .returns .done
      ∧ session.Leaves [index] (session.begin (.unregister index)).session := by
  have unused := (consistent.isBusy_eq_false_iff found).mpr (idle.not_inUse index)
  have after : (session.begin (.unregister index)).session.Consistent :=
    stable_consistent.settle (consistent.start (.unregister index))
  have removes := consistent.unregister_removes found unused
  rw [begin_unregister_idle notRoot found unused] at after ⊢
  refine ⟨rfl, after, ⟨?_, ?_⟩, rfl, ?_⟩
  · exact fun fd binding bound => idle.reserved fd binding (removes.bound_before bound).1
  · exact idle.handles
  · intro other
    rw [MountTable.get?, removes.slots]
    simp only [List.mem_singleton]
    split <;> rfl

/-- All mounts but the root listing can be removed in any order.
Witness: induction on the order. A removal leaves the other mounts in their slots.
-/
theorem unregister_all (idle : session.Idle) (consistent : session.Consistent)
    {order : List Nat} (distinct : order.Nodup)
    (listed
      : ∀ index ∈ order,
          index ≠ session.vfs.rootIndex ∧ ∃ entry, session.vfs.mounts.get? index = some entry)
    : ∃ removals after,
        session.play? (order.map fun index => .call (.unregister index))
          = some (removals, after)
        ∧ (∀ moment ∈ removals, moment.step.next = .returns .done)
        ∧ session.Leaves order after := by
  induction order generalizing session with
  | nil =>
      exact ⟨[], session, rfl, by simp, consistent, idle, rfl, by simp⟩
  | cons index rest ih =>
      obtain ⟨fresh, restDistinct⟩ := List.nodup_cons.mp distinct
      obtain ⟨notRoot, entry, found⟩ := listed index (.head _)
      obtain ⟨done, leaves⟩ := idle.unregister consistent notRoot found
      have restListed
          : ∀ other ∈ rest,
              other ≠ (session.begin (.unregister index)).session.vfs.rootIndex
              ∧ ∃ entry,
                  (session.begin (.unregister index)).session.vfs.mounts.get? other
                  = some entry := by
        intro other member
        obtain ⟨otherNotRoot, entry, placed⟩ := listed other (.tail _ member)
        have different : other ∉ [index] := by
          rw [List.mem_singleton]
          rintro rfl
          exact fresh member
        exact ⟨leaves.rootIndex ▸ otherNotRoot, entry, by
          rw [leaves.slots, if_neg different, placed]⟩
      obtain ⟨removals, after, played, allDone, last⟩ :=
        ih leaves.idle leaves.consistent restDistinct restListed
      refine ⟨_, after, play?_cons rfl played, ?_, last.consistent, last.idle,
        last.rootIndex.trans leaves.rootIndex, ?_⟩
      · intro moment member
        rcases List.mem_append.mp member with later | first
        · exact allDone moment later
        · rw [List.mem_singleton.mp first]
          exact done
      · intro other
        rw [last.slots, leaves.slots]
        grind

end Idle

/-- If every descriptor that an open has returned was closed by a later call, every stream
was closed or dropped, all calls have returned, and no registered driver has answered that
it cannot close files, then nothing is in use: only reserved descriptors are bound, and no
mount counts an open stream. So all mounts but the root listing can be removed in any order,
after which only the root listing is left, and no descriptor is bound but those reserved for
it.
-/
theorem closed_runs_leave_nothing (made : create config = .ok (start, notices))
    (run : start.Run history session) (returned : session.pending = [])
    (supported : SupportsClosing history) (closes : ClosesFiles history)
    (ends : EndsStreams history)
    : (∀ fd binding, session.vfs.fds.get? fd = some binding → binding.permanent = true)
      ∧ (∀ index slot,
          session.vfs.mounts.mounted? index = some slot → slot.openStreams = 0)
      ∧ ∀ order : List Nat,
          order.Nodup
          → (∀ index,
              index ∈ order
              ↔ index ≠ session.vfs.rootIndex ∧ session.vfs.mounts.get? index ≠ none)
          → ∃ removals after,
              session.play? (order.map fun index => .call (.unregister index))
                = some (removals, after)
              ∧ (∀ moment ∈ removals, moment.step.next = .returns .done)
              ∧ (∃ root,
                  root.driver = .root
                  ∧ ∀ index,
                      after.vfs.mounts.get? index
                      = if index = session.vfs.rootIndex then some root else none)
              ∧ ∀ fd content,
                  after.vfs.fds.slot? fd = some content
                  → content = none
                    ∨ ∃ file, content = some ⟨session.vfs.rootIndex, file, true⟩ := by
  have consistent := stable_consistent.run (create_consistent made) run
  have idle := run.idle made returned supported closes ends
  refine ⟨idle.reserved, fun _ _ => idle.openStreams consistent, ?_⟩
  intro order distinct listed
  obtain ⟨removals, after, played, done, leaves⟩ :=
    idle.unregister_all consistent distinct (fun index member =>
      ((listed index).mp member).imp_right Option.ne_none_iff_exists'.mp)
  obtain ⟨root, found, isRoot, _⟩ := consistent.tables.rooted
  have slots (index : Nat)
      : after.vfs.mounts.get? index
        = if index = session.vfs.rootIndex then some root else none := by
    have present := listed index
    rw [leaves.slots]
    grind
  refine ⟨removals, after, played, done, ⟨root, isRoot, slots⟩, ?_⟩
  intro fd content inSlot
  cases content with
  | none => exact .inl rfl
  | some binding =>
      have bound := FdTable.get?_eq_some_iff.mpr inSlot
      obtain ⟨entry, led⟩ := leaves.consistent.tables.led fd binding bound
      have permanent := leaves.idle.reserved fd binding bound
      have atRoot : binding.mount = session.vfs.rootIndex := by
        rw [slots] at led
        split at led
        · assumption
        · contradiction
      obtain ⟨mount, file, reserved⟩ := binding
      obtain rfl : mount = session.vfs.rootIndex := atRoot
      obtain rfl : reserved = true := permanent
      exact .inr ⟨file, rfl⟩

/-- While the driver of a mount opens a directory, it closes a file that it has opened
before. At last the stream is dropped, and the mounts are removed, the later one first.
-/
theorem closed_runs_leave_nothing_of_nested
    : ∃ (session after : Session String Unit) (removals : List (Moment String Unit)),
        session.Reachable
        ∧ session.vfs.fds.bindings = [none, some ⟨2, 1, true⟩]
        ∧ session.play? [.call (.unregister 2), .call (.unregister 1)] = some (removals, after)
        ∧ after.vfs.mounts.get? 1 = none
        ∧ after.vfs.mounts.get? 2 = none := by
  have played
      : (playNew? ⟨2, 3⟩
            [.call (.register "/a" "disk"), .call (.registerRange "tape" 1 1),
              .call (.openFile "/a/f" ⟨0⟩ 0), .reply (.obliging 5 ()), .call (.openDir "/a"),
              .call (.closeFile 0), .reply (.obliging 5 ()), .reply (.obliging 5 ()),
              .call (.dropDir 0), .reply (.obliging 5 ())]).any
          (fun (history, session) =>
            session.vfs.fds.bindings = [none, some ⟨2, 1, true⟩]
            ∧ session.vfs.rootIndex = 0
            ∧ session.vfs.mounts.capacity = 3
            ∧ (∀ index ∈ List.range 3,
                index ∈ [2, 1] ↔ index ≠ 0 ∧ (session.vfs.mounts.get? index).isSome)
            ∧ session.pending.isEmpty
            ∧ SupportsClosing history
            ∧ ClosesFiles history
            ∧ EndsStreams history)
        = true := by decide +kernel
  obtain ⟨⟨history, session⟩, played, checked⟩ := (Option.any_eq_true _ _).mp played
  obtain ⟨start, notices, made, run⟩ := exists_run_of_playNew? played
  obtain ⟨bindings, rootFirst, capacity, occupied, returned, supported, closes, ends⟩ :=
    of_decide_eq_true checked
  have reachable : session.Reachable := ⟨_, start, notices, history, made, run⟩
  have listed (index : Nat)
      : index ∈ [2, 1]
        ↔ index ≠ session.vfs.rootIndex ∧ session.vfs.mounts.get? index ≠ none := by
    rw [rootFirst, Option.ne_none_iff_isSome]
    by_cases within : index < 3
    · exact occupied index (List.mem_range.mpr within)
    · refine iff_of_false (by grind) ?_
      rintro ⟨_, some⟩
      obtain ⟨entry, found⟩ := Option.isSome_iff_exists.mp some
      exact within (capacity ▸ reachable.consistent.tables.mounts.index_lt found)
  obtain ⟨_, _, empties⟩ :=
    closed_runs_leave_nothing made run (List.isEmpty_iff.mp returned) supported closes ends
  obtain ⟨removals, after, removed, _, ⟨_, _, slots⟩, _⟩ := empties [2, 1] (by decide) listed
  refine ⟨session, after, removals, reachable, bindings, removed, ?_, ?_⟩
  · rw [slots, rootFirst, if_neg (by decide)]
  · rw [slots, rootFirst, if_neg (by decide)]

end Session

end StorageSwitch
