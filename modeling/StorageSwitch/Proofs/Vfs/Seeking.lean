import StorageSwitch.Proofs.Vfs.Exchanges
import StorageSwitch.Proofs.Vfs.Listing

/-! Moving a stream of the root directory by hand. Its position is the number of a slot, so
it can be told and gone back to; from there on, as long as no mount comes or goes, the reads
list the mounts in the slots that follow.
-/

namespace StorageSwitch

variable {δ σ : Type}

-----------------------------------------------------------------------------------------
-- Positions that can be told
-----------------------------------------------------------------------------------------

/-- A position in the listing of the root directory whose number a caller can be told. -/
def StreamState.Tellable (state : StreamState σ) : Prop :=
  ∃ slot, state = .rootSlot slot ∧ slot ≤ Int64.maxValue.toNatClampNeg

/-- If it is a stream of the root directory, its position can be told. -/
def DirStream.Tellable (dir : DirStream δ σ) : Prop :=
  dir.entry.driver = .root → dir.state.Tellable

namespace RootListing

/-- Reading on leads from one such position to another, as does sending the stream to one.
-/
theorem stateAfter_tellable {mounts : Option (MountTable δ)} {state : StreamState σ}
    (narrow
      : ∀ table, mounts = some table → table.slotCount ≤ Int64.maxValue.toNatClampNeg)
    (tellable : state.Tellable) (call : StreamCall)
    : (((call.request state).stateAfter (respond mounts (call.request state))).getD
        state).Tellable := by
  obtain ⟨slot, rfl, within⟩ := tellable
  have reading {call : StreamCall} (reads : call.reads = true)
      : (((call.request (.rootSlot slot)).stateAfter
            (respond mounts (call.request (.rootSlot slot)))).getD
          (.rootSlot slot : StreamState σ)).Tellable := by
    rw [(respond_reads reads mounts _).2, Option.getD_some]
    cases mounts with
    | none => exact ⟨slot, rfl, within⟩
    | some table =>
        have bound := (next_spec table slot).2.2
        have := narrow table rfl
        exact ⟨(next table slot).2, rfl, by omega⟩
  cases call with
  | read | readInto => exact reading rfl
  | tell => exact ⟨slot, rfl, within⟩
  | seek position =>
      by_cases negative : position < 0
      · simpa [StreamCall.request, respond, negative, Request.stateAfter]
          using ⟨slot, rfl, within⟩
      · refine ⟨position.toNatClampNeg, ?_, Nat.le_of_lt_succ position.toNatClampNeg_lt⟩
        simp [StreamCall.request, respond, negative, Request.stateAfter]

end RootListing

namespace Session

variable {session : Session δ σ} {stream : Nat}

/-- The tables and streams are consistent, and of all streams of the root directory, the open
ones and those that are lent, the positions can be told.
-/
structure Tellable (session : Session δ σ) : Prop where
  consistent : session.Consistent
  streams : ∀ held ∈ session.streams, held.2.Tellable
  lent : ∀ frame ∈ session.pending, ∀ held, frame.lent? = some held → held.2.Tellable

namespace Tellable

variable {frame : Frame δ σ}

theorem of_stream? (tellable : session.Tellable) {dir : DirStream δ σ}
    (found : session.stream? stream = some dir)
    : dir.Tellable :=
  tellable.streams _ (mem_streams_of_stream? found)

theorem start (tellable : session.Tellable) (call : Call δ)
    : (session.start call).suspend.session.Tellable := by
  have consistent := tellable.consistent.start call
  have starts := session.start_starts call
  generalize session.start call = step at starts consistent ⊢
  have taken (number : Nat) : ∀ held ∈ (session.takeStream number).streams, held.2.Tellable :=
    fun held member => tellable.streams held (List.mem_of_mem_filter member)
  cases starts with
  | returns returned _ same =>
      obtain ⟨after, notices, next⟩ := step
      dsimp only at returned same
      subst returned
      refine ⟨consistent, ?_, ?_⟩
      · change ∀ held ∈ after.streams, _
        rw [same]
        exact tellable.streams
      · change ∀ frame ∈ after.pending, _
        rw [same]
        exact tellable.lent
  | @asks frame plain _ =>
      refine ⟨consistent, tellable.streams, List.forall_mem_cons.mpr ⟨?_, tellable.lent⟩⟩
      cases frame with
      | moving => contradiction
      | _ => simp [Frame.lent?]
  | @lends number dir call found =>
      refine ⟨consistent, taken _, List.forall_mem_cons.mpr ⟨?_, tellable.lent⟩⟩
      intro held lent
      obtain rfl := Option.some.inj lent
      exact tellable.of_stream? found
  | ends dropped notices found =>
      exact ⟨consistent, taken _, List.forall_mem_cons.mpr ⟨by simp [Frame.lent?], tellable.lent⟩⟩

/-- A call that goes on keeps positions such that they can be told, if the root listing
answers for itself.
-/
theorem finish {respond : Responder σ} (waiting : (session.wait frame).Tellable)
    (answers : frame.entry.driver = .root → respond = session.respondAsRoot)
    : (session.finish respond frame).suspend.session.Tellable := by
  have consistent := waiting.consistent.finish respond frame
  obtain ⟨lent, later⟩ := List.forall_mem_cons.mp waiting.lent
  have streams : ∀ held ∈ session.streams, held.2.Tellable := waiting.streams
  have asks {next : Frame δ σ} (unlent : next.lent? = none)
      : ∀ frame ∈ next :: session.pending, ∀ held, frame.lent? = some held → held.2.Tellable :=
    List.forall_mem_cons.mpr ⟨by simp [unlent], later⟩
  cases frame with
  | relaying | undoing | discarding | ending => exact ⟨consistent, streams, later⟩
  | opening entry path flags mode =>
      revert consistent
      simp only [Session.finish, bindOpened]
      split
      · exact fun consistent => ⟨consistent, streams, later⟩
      · split
        · exact fun consistent => ⟨consistent, streams, later⟩
        · exact fun consistent => ⟨consistent, streams, asks rfl⟩
  | closing entry fd binding =>
      revert consistent
      simp only [Session.finish, freeClosed]
      split <;> exact fun consistent => ⟨consistent, streams, later⟩
  | listing entry path =>
      revert consistent
      simp only [Session.finish, listOpened]
      repeat' split
      · exact fun consistent => ⟨consistent, streams, later⟩
      · rename_i state opened _
        refine fun consistent => ⟨consistent, List.forall_mem_cons.mpr ⟨?_, streams⟩, later⟩
        intro root
        rw [answers root] at opened
        simp only [respondAsRoot, RootListing.respond] at opened
        split at opened
        · exact ⟨0, (Except.ok.inj opened).symm, Nat.zero_le _⟩
        · contradiction
      · exact fun consistent => ⟨consistent, streams, asks rfl⟩
  | moving number dir call =>
      refine ⟨consistent, List.forall_mem_cons.mpr ⟨?_, streams⟩, later⟩
      intro root
      obtain rfl := answers root
      refine RootListing.stateAfter_tellable (fun table present => ?_) (lent _ rfl root) call
      obtain rfl : table = session.vfs.mounts := by
        unfold mounts? at present
        split at present
        · contradiction
        · exact (Option.some.inj present).symm
      have roomy := waiting.consistent.tables.mounts.roomy
      have narrow := waiting.consistent.tables.narrow
      exact Nat.le_trans (Nat.le_trans roomy narrow) (by decide)

theorem settle {step : Step δ σ} (tellable : step.suspend.session.Tellable)
    : step.settle.session.Tellable :=
  settle_keeps (fun _ _ waiting => waiting.finish fun _ => rfl) tellable

end Tellable

/-- In every reachable session the position of every open stream of the root directory can be
told. Witness: induction on the run; nobody waits for the root listing, so no other driver
answers for it.
-/
theorem Reachable.tellable (reachable : session.Reachable) : session.Tellable := by
  obtain ⟨config, start, notices, history, made, run⟩ := reachable
  induction run with
  | rest =>
      obtain ⟨vfs, _, rfl⟩ := create_eq_ok made
      exact ⟨create_consistent made, nofun, nofun⟩
  | @next history session move step run moved ih =>
      have reachable : session.Reachable := ⟨config, start, notices, history, made, run⟩
      cases move with
      | call call =>
          obtain rfl := Option.some.inj moved
          exact (ih.start call).settle
      | drop =>
          obtain rfl := Option.some.inj moved
          exact ⟨{ ih.consistent with }, ih.streams, ih.lent⟩
      | reply respond =>
          obtain ⟨resumed, frame, rfl, rfl⟩ := resume?_eq_some_iff.mp moved
          obtain ⟨driver, given⟩ := reachable.pending_given (.head _)
          exact (ih.finish fun root => absurd (given.symm.trans root) (by simp)).settle

end Session

-----------------------------------------------------------------------------------------
-- What reads tell
-----------------------------------------------------------------------------------------

/-- The answer to a read tells what was found, an entry or the end. At the end the caller
keeps the entry that was to be overwritten.
-/
def Answer.Finds (answer : Answer σ) (found : Option DirEntry) : StreamCall → Prop
  | .read => ∃ before after, answer = .replied (.readDir before) (.ok found, after)
  | .readInto entry =>
      ∃ before after,
        answer
        = .replied (.readDirInto before entry) (.ok found.isSome, after, found.getD entry)
  | .tell | .seek _ => False

theorem RootListing.respond_finds {call : StreamCall} (reads : call.reads = true)
    (mounts : MountTable δ) (slot : Nat)
    : Answer.Finds (σ := σ)
        (.replied (call.request (.rootSlot slot))
          (respond (some mounts) (call.request (.rootSlot slot))))
        (next mounts slot).1 call := by
  cases call with
  | tell | seek => contradiction
  | read => exact ⟨_, _, rfl⟩
  | readInto entry =>
      simp only [StreamCall.request, respond, RootListing.read]
      obtain ⟨_ | _, _⟩ := next mounts slot <;> exact ⟨_, _, rfl⟩

namespace Moment

/-- Somebody reads from the stream and is told at once what was found. -/
def Finds (moment : Moment δ σ) (stream : Nat) (found : Option DirEntry) : Prop :=
  ∃ call answer,
    moment.move = .call (.onStream call stream)
    ∧ moment.step.next = .returns answer
    ∧ answer.Finds found call

/-- Whether somebody reads from the stream. -/
def readsFrom (moment : Moment δ σ) (stream : Nat) : Bool :=
  match moment.move with
  | .call (.onStream call held) => call.reads && held == stream
  | _ => false

theorem readsFrom_iff {moment : Moment δ σ} {stream : Nat}
    : moment.readsFrom stream = true ↔ moment.Reads stream := by
  unfold readsFrom
  split
  · rename_i call held calls
    simp only [Bool.and_eq_true, beq_iff_eq, Reads, calls]
    constructor
    · rintro ⟨reads, rfl⟩
      exact ⟨call, reads, rfl⟩
    · rintro ⟨other, reads, same⟩
      obtain ⟨rfl, rfl⟩ := Call.onStream.inj (Move.call.inj same)
      exact ⟨reads, rfl⟩
  · rename_i other
    simp only [Bool.false_eq_true, false_iff]
    rintro ⟨call, _, calls⟩
    exact other call stream calls

end Moment

/-- The position that the caller is told. -/
def Step.told? (step : Step δ σ) : Option Int64 :=
  match step.next with
  | .returns (.replied (.tellDir _) (.ok position)) => some position
  | _ => none

/-- How often somebody reads from the stream. -/
def readCount (history : List (Moment δ σ)) (stream : Nat) : Nat :=
  history.countP (·.readsFrom stream)

namespace Session

variable {session last : Session δ σ} {stream cursor : Nat} {root : Entry δ}
  {move : Move δ σ} {step : Step δ σ} {history : List (Moment δ σ)}

/-- Where a stream of the root directory is after somebody has tried to send it to a position.
-/
def soughtSlot (cursor : Nat) (position : Int64) : Nat :=
  if position < 0 then cursor else position.toNatClampNeg

/-- A stream of the root directory can be sent to every slot number and nowhere else. -/
theorem Settled.seek_root
    (settled : session.Settled stream (some ⟨root, .rootSlot cursor⟩))
    (isRoot : root.driver = .root) (position : Int64)
    : (session.begin (.onStream (.seek position) stream)).next
          = .returns
              (.replied (.seekDir (.rootSlot cursor) position)
                (if position < 0 then .error .invalidArgument else .ok (),
                  .rootSlot (soughtSlot cursor position)))
      ∧ (session.begin (.onStream (.seek position) stream)).session.Settled stream
          (some ⟨root, .rootSlot (soughtSlot cursor position)⟩) := by
  have answered
      : session.respondAsRoot (.seekDir (.rootSlot cursor) position)
        = (if position < 0 then .error .invalidArgument else .ok (),
            .rootSlot (soughtSlot cursor position)) := by
    simp only [respondAsRoot, RootListing.respond, soughtSlot]
    split <;> rfl
  have moves
      : (StreamCall.request (.seek position) (.rootSlot cursor)).stateAfter
          (session.respondAsRoot (StreamCall.request (.seek position) (.rootSlot cursor)))
        = some (.rootSlot (soughtSlot cursor position)) := by
    simp only [StreamCall.request, answered, Request.stateAfter]
  obtain ⟨returned, after⟩ := settled.lend_root isRoot rfl moves
  exact ⟨answered ▸ returned, after⟩

theorem Settled.tell_root
    (settled : session.Settled stream (some ⟨root, .rootSlot cursor⟩))
    (isRoot : root.driver = .root)
    : (session.begin (.onStream .tell stream)).told? = some (.ofNat cursor) := by
  rw [begin_tell_of_root settled.content isRoot]
  rfl

/-- What a move makes of an open stream of the root directory that it does not end.
- `left`: nobody reads from the stream, and it is where it was.
- `read`: the first entry that is left is found, or the end, and the stream is behind it.
- `sought`: somebody sends the stream to another slot or tries to.
-/
inductive Carries (moment : Moment δ σ) (stream : Nat) (root : Entry δ) (cursor : Nat) : Prop
  | left (unread : moment.readsFrom stream = false)
    (settled : moment.step.session.Settled stream (some ⟨root, .rootSlot cursor⟩))
  | read (reads : moment.readsFrom stream = true)
    (finds : moment.Finds stream (RootListing.next moment.before.vfs.mounts cursor).1)
    (settled
      : moment.step.session.Settled stream
          (some ⟨root, .rootSlot (RootListing.next moment.before.vfs.mounts cursor).2⟩))
  | sought {position after} (seeks : moment.move = .call (.onStream (.seek position) stream))
    (settled : moment.step.session.Settled stream (some ⟨root, .rootSlot after⟩))

theorem Settled.carries
    (settled : session.Settled stream (some ⟨root, .rootSlot cursor⟩))
    (isRoot : root.driver = .root) (present : session.dropped = false)
    (moved : session.move? move = some step)
    (unended : ¬ Moment.Ends ⟨session, move, step⟩ stream)
    : Carries ⟨session, move, step⟩ stream root cursor := by
  have mounts : session.mounts? = some session.vfs.mounts := mounts?_eq_some present
  by_cases taken : ∃ call, move = .call call ∧ call.Takes stream
  · obtain ⟨call, rfl, takes⟩ := taken
    have reading {call : StreamCall} (reads : call.reads = true)
        (moved : session.move? (.call (.onStream call stream)) = some step)
        : Carries ⟨session, .call (.onStream call stream), step⟩ stream root cursor := by
      obtain rfl := Option.some.inj moved
      obtain ⟨returned, after⟩ := settled.lend_root isRoot (StreamCall.lends_of_reads reads)
        (RootListing.respond_reads reads session.mounts? (.rootSlot cursor)).2
      rw [respondAsRoot, mounts] at returned
      rw [mounts] at after
      exact .read (Moment.readsFrom_iff.mpr ⟨call, reads, rfl⟩)
        ⟨call, _, rfl, returned, RootListing.respond_finds reads _ cursor⟩ after
    cases call with
    | onStream call held =>
        obtain ⟨lends, rfl⟩ := takes
        cases call with
        | read => exact reading rfl moved
        | readInto => exact reading rfl moved
        | tell => contradiction
        | seek position =>
            obtain rfl := Option.some.inj moved
            exact .sought rfl (settled.seek_root isRoot position).2
    | closeDir =>
        obtain rfl : _ = stream := takes
        exact absurd ⟨.inl rfl, settled.unlent⟩ unended
    | dropDir =>
        obtain rfl : _ = stream := takes
        exact absurd ⟨.inr rfl, settled.unlent⟩ unended
    | _ => contradiction
  · have free : ∀ call, move = .call call → ¬ call.Takes stream :=
      fun call calls takes => taken ⟨call, calls, takes⟩
    refine .left (Bool.eq_false_iff.mpr fun reads => ?_) (settled.move moved (.inr free))
    obtain ⟨call, reads, calls⟩ := Moment.readsFrom_iff.mp reads
    exact free _ calls ⟨StreamCall.lends_of_reads reads, rfl⟩

-----------------------------------------------------------------------------------------
-- Reading on
-----------------------------------------------------------------------------------------

/-- Nothing is mounted or unmounted in the course of a run, the switch is not dropped, and
the stream is not ended.
-/
structure Undisturbed (table : MountTable (Driver δ)) (history : List (Moment δ σ))
    (stream : Nat) : Prop where
  mounts
    : ∀ moment ∈ history, ∀ index,
        moment.step.session.vfs.mounts.get? index = table.get? index
  present : ∀ moment ∈ history, moment.step.session.dropped = false
  unended : ∀ moment ∈ history, ¬ moment.Ends stream

theorem Undisturbed.of_suffix {table : MountTable (Driver δ)} {earlier : List (Moment δ σ)}
    (undisturbed : Undisturbed table history stream) (suffix : earlier <:+ history)
    : Undisturbed table earlier stream where
  mounts moment member := undisturbed.mounts moment (suffix.subset member)
  present moment member := undisturbed.present moment (suffix.subset member)
  unended moment member := undisturbed.unended moment (suffix.subset member)

theorem Undisturbed.agrees (undisturbed : Undisturbed session.vfs.mounts history stream)
    (run : session.Run history last) (present : session.dropped = false)
    : last.dropped = false
      ∧ ∀ index, last.vfs.mounts.get? index = session.vfs.mounts.get? index := by
  cases run with
  | rest => exact ⟨present, fun _ => rfl⟩
  | next run moved =>
      exact ⟨undisturbed.present _ (.head _), undisturbed.mounts _ (.head _)⟩

/-- An undisturbed stream stays open, and if nobody moves it by hand, each read takes one
entry of what was left of the listing. Witness: induction on the run.
-/
theorem Settled.undisturbed
    (settled : session.Settled stream (some ⟨root, .rootSlot cursor⟩))
    (isRoot : root.driver = .root) (present : session.dropped = false)
    (run : session.Run history last)
    (undisturbed : Undisturbed session.vfs.mounts history stream)
    : ∃ after,
        last.Settled stream (some ⟨root, .rootSlot after⟩)
        ∧ (Unsought history stream
          → RootListing.shownFrom last.vfs.mounts after
            = (RootListing.shownFrom session.vfs.mounts cursor).drop
                (readCount history stream)) := by
  induction run with
  | rest => exact ⟨cursor, settled, fun _ => rfl⟩
  | @next history before move step run moved ih =>
      have earlier := undisturbed.of_suffix (List.suffix_cons _ _)
      obtain ⟨slot, settled, left⟩ := ih earlier
      obtain ⟨stillPresent, same⟩ := earlier.agrees run present
      have kept (slot : Nat)
          : RootListing.shownFrom step.session.vfs.mounts slot
            = RootListing.shownFrom before.vfs.mounts slot := by
        refine RootListing.shownFrom_congr (fun index => ?_) slot
        rw [undisturbed.mounts _ (.head _), same]
      cases settled.carries isRoot stillPresent moved (undisturbed.unended _ (.head _)) with
      | left unread settled =>
          refine ⟨slot, settled, fun unsought => ?_⟩
          rw [kept, left fun moment member => unsought moment (.tail _ member)]
          simp [readCount, unread]
      | read reads _ settled =>
          refine ⟨_, settled, fun unsought => ?_⟩
          rw [kept, (RootListing.next_spec _ slot).2.1,
            left fun moment member => unsought moment (.tail _ member), List.tail_drop]
          simp [readCount, reads]
      | sought seeks settled =>
          exact ⟨_, settled, fun unsought => absurd seeks (unsought _ (.head _) _)⟩

/-- As long as the stream is undisturbed and nobody moves it by hand, its reads find the
entries in turn, and after them the end.
-/
def Yields (session : Session δ σ) (stream : Nat) (entries : List DirEntry) : Prop :=
  ∀ history last,
    session.Run history last
    → Undisturbed session.vfs.mounts history stream
    → Unsought history stream
    → ∀ later moment earlier,
        history = later ++ moment :: earlier
        → moment.Reads stream
        → moment.Finds stream entries[readCount earlier stream]?

theorem Settled.yields
    (settled : session.Settled stream (some ⟨root, .rootSlot cursor⟩))
    (isRoot : root.driver = .root) (present : session.dropped = false)
    : session.Yields stream (RootListing.shownFrom session.vfs.mounts cursor) := by
  rintro history last run undisturbed unsought later ⟨before, move, step⟩ earlier rfl reads
  obtain ⟨first, moved, _⟩ := run.cut
  have since :=
    undisturbed.of_suffix ((List.suffix_cons _ earlier).trans (List.suffix_append later _))
  obtain ⟨slot, settled, left⟩ := settled.undisturbed isRoot present first since
  have unended := undisturbed.unended _ (List.mem_append_right _ (.head _))
  cases settled.carries isRoot (since.agrees first present).1 moved unended with
  | left unread _ =>
      rw [Moment.readsFrom_iff.mpr reads] at unread
      contradiction
  | read _ finds _ =>
      rwa [(RootListing.next_spec _ slot).1, left unsought.before, List.head?_drop] at finds
  | sought seeks _ => exact absurd seeks (unsought _ (List.mem_append_right _ (.head _)) _)

end Session

-----------------------------------------------------------------------------------------
-- Where listed names lead
-----------------------------------------------------------------------------------------

/-- A mount path leads to a mount at this very path, whose driver sees its root directory.
Witness: what covers a path is no longer than the path.
-/
theorem Vfs.Consistent.resolve_mount {vfs : Vfs δ} (consistent : vfs.Consistent) {index : Nat}
    {entry : Entry δ} {mount : String} (found : vfs.mounts.get? index = some entry)
    (atMount : entry.point = .path mount)
    : ∃ owner,
        vfs.resolve mount = some owner
        ∧ owner.point = .path mount
        ∧ owner.relative mount = "/" := by
  have itself : Path.covers mount mount = true := Path.covers_iff.mpr (.inr (.inl rfl))
  obtain ⟨owner, resolved, _⟩ := consistent.exists_resolve mount
  obtain ⟨_, _, covers, first⟩ := MountTable.resolve_eq_some_iff.mp resolved
  obtain ⟨held, heldAt, covered⟩ := MountEntry.covers_iff.mp covers
  have order :=
    first index entry found (MountEntry.covers_iff.mpr ⟨mount, atMount, itself⟩)
  have same : mount = held := by
    rcases (MountTable.precedes_iff heldAt atMount covered itself).mp order with
      longer | ⟨same, _⟩
    · obtain ⟨rest, whole, _⟩ := Path.exists_rest covered
      rw [whole, String.utf8ByteSize_append] at longer
      omega
    · exact same
  subst same
  refine ⟨owner, resolved, heldAt, ?_⟩
  simp only [MountEntry.relative, MountEntry.path?, heldAt, MountPoint.path?, Option.getD_some]
  exact (Path.translate_seen itself).1.unique (.inr ⟨rfl, rfl⟩)

/-- The entries are what the root directory lists from a slot on.
- `increasing`: they are in the order of the slots, and no slot has two.
- `listed`: each is a mount with a path of its own, which it shows without the separator.
- `complete`: every mount with a path of its own is among them.
- `resolves`: the name of each leads to a mount at this very path, and to the root directory
  of its driver.
-/
structure Vfs.ListsFrom (vfs : Vfs δ) (start : Nat) (entries : List DirEntry) : Prop where
  increasing : entries.Pairwise (·.ino < ·.ino)
  listed
    : ∀ shown ∈ entries,
        start ≤ shown.ino.toNat
        ∧ shown.fileType = .directory
        ∧ ∃ entry,
            vfs.mounts.get? shown.ino.toNat = some entry
            ∧ entry.point = .path ("/" ++ shown.name)
  complete
    : ∀ slot entry mount,
        start ≤ slot → vfs.mounts.get? slot = some entry → entry.point = .path mount
        → mount ≠ "" → ∃ shown ∈ entries, shown.ino.toNat = slot
  resolves
    : ∀ shown ∈ entries, ∃ owner,
        vfs.resolve ("/" ++ shown.name) = some owner
        ∧ owner.point = .path ("/" ++ shown.name)
        ∧ owner.relative ("/" ++ shown.name) = "/"

namespace Session

variable {session last : Session δ σ} {stream cursor : Nat} {root : Entry δ}
  {history : List (Moment δ σ)}

theorem Reachable.listsFrom (reachable : session.Reachable) (start : Nat)
    : session.vfs.ListsFrom start (RootListing.shownFrom session.vfs.mounts start) := by
  have numbered {slot : Nat} {shown : DirEntry}
      (shows : RootListing.entryAt? session.vfs.mounts slot = some shown)
      : shown.ino.toNat = slot := by
    obtain ⟨entry, name, present, _, rfl⟩ := reachable.entryAt?_eq_some_iff.mp shows
    exact reachable.toNat_ofNat_of_present present
  have listed
      : ∀ shown ∈ RootListing.shownFrom session.vfs.mounts start,
          start ≤ shown.ino.toNat
          ∧ shown.fileType = .directory
          ∧ ∃ entry,
              session.vfs.mounts.get? shown.ino.toNat = some entry
              ∧ entry.point = .path ("/" ++ shown.name) := by
    intro shown member
    obtain ⟨slot, above, shows⟩ := RootListing.mem_shownFrom_iff.mp member
    rw [numbered shows]
    obtain ⟨entry, name, present, atMount, rfl⟩ := reachable.entryAt?_eq_some_iff.mp shows
    exact ⟨above, rfl, entry, present, atMount⟩
  refine { increasing := ?increasing, listed, complete := ?complete, resolves := ?resolves }
  case increasing =>
    refine List.Pairwise.filterMap _ (fun earlier later before one shows two showsToo => ?_)
      List.pairwise_lt_range'
    rw [UInt64.lt_iff_toNat_lt, numbered shows, numbered showsToo]
    exact before
  case complete =>
    intro slot entry mount above present atMount notEmpty
    obtain ⟨name, rfl, _⟩ := reachable.mount_spec present atMount notEmpty
    have shows := reachable.entryAt?_eq_some_iff.mpr ⟨entry, name, present, atMount, rfl⟩
    exact ⟨_, RootListing.mem_shownFrom_iff.mpr ⟨slot, above, shows⟩, numbered shows⟩
  case resolves =>
    intro shown member
    obtain ⟨_, _, entry, present, atMount⟩ := listed shown member
    exact reachable.consistent.tables.resolve_mount present atMount

-----------------------------------------------------------------------------------------
-- Seeking and telling
-----------------------------------------------------------------------------------------

/-- Seeking fails, and the stream and all else stay as they are. -/
structure RefusesSeek (session : Session δ σ) (stream : Nat) (position : Int64) : Prop where
  refuses
    : ∃ state,
        (session.begin (.onStream (.seek position) stream)).next
        = .returns (.replied (.seekDir state position) (.error .invalidArgument, state))
  vfs : (session.begin (.onStream (.seek position) stream)).session.vfs = session.vfs
  pending
    : (session.begin (.onStream (.seek position) stream)).session.pending = session.pending
  streams
    : ∀ other,
        (session.begin (.onStream (.seek position) stream)).session.stream? other
        = session.stream? other

/-- Seeking succeeds, the position is told then, and reads find the entries. -/
structure SeeksTo (session : Session δ σ) (stream : Nat) (position : Int64)
    (entries : List DirEntry) : Prop where
  succeeds
    : ∃ before after,
        (session.begin (.onStream (.seek position) stream)).next
        = .returns (.replied (.seekDir before position) (.ok (), after))
  tells
    : ((session.begin (.onStream (.seek position) stream)).session.begin
        (.onStream .tell stream)).told? = some position
  yields : (session.begin (.onStream (.seek position) stream)).session.Yields stream entries

section Root

variable (settled : session.Settled stream (some ⟨root, .rootSlot cursor⟩))
  (isRoot : root.driver = .root)

include settled isRoot

/-- A call that lends a stream of the root directory changes nothing but the stream. -/
theorem Settled.lend_root_keeps {call : StreamCall} (lends : call.lends = true)
    : (session.begin (.onStream call stream)).session.vfs = session.vfs
      ∧ (session.begin (.onStream call stream)).session.pending = session.pending
      ∧ (session.begin (.onStream call stream)).session.dropped = session.dropped
      ∧ ∀ other,
          other ≠ stream
          → (session.begin (.onStream call stream)).session.stream? other
            = session.stream? other := by
  rw [begin_onStream_of_root settled.content isRoot lends]
  exact ⟨rfl, rfl, rfl, fun other apart =>
    (stream?_putStream_of_ne apart _).trans (stream?_takeStream_of_ne apart)⟩

theorem Settled.refusesSeek {position : Int64} (negative : position < 0)
    : session.RefusesSeek stream position := by
  obtain ⟨returned, after⟩ := settled.seek_root isRoot position
  obtain ⟨vfs, pending, _, others⟩ :=
    settled.lend_root_keeps isRoot (rfl : (StreamCall.seek position).lends = true)
  rw [soughtSlot, if_pos negative] at returned after
  rw [if_pos negative] at returned
  refine ⟨⟨_, returned⟩, vfs, pending, fun other => ?_⟩
  by_cases same : other = stream
  · rw [same, after.content, settled.content]
  · exact others other same

theorem Settled.seeksTo {position : Int64} (present : session.dropped = false)
    (forward : 0 ≤ position)
    : session.SeeksTo stream position
        (RootListing.shownFrom session.vfs.mounts position.toNatClampNeg) := by
  have notNegative : ¬ position < 0 := Int64.not_lt.mpr forward
  obtain ⟨returned, after⟩ := settled.seek_root isRoot position
  obtain ⟨vfs, _, dropped, _⟩ :=
    settled.lend_root_keeps isRoot (rfl : (StreamCall.seek position).lends = true)
  rw [soughtSlot, if_neg notNegative] at returned after
  rw [if_neg notNegative] at returned
  have told := after.tell_root isRoot
  rw [Int64.ofNat_toNatClampNeg position forward] at told
  exact ⟨⟨_, _, returned⟩, told, vfs ▸ after.yields isRoot (dropped.trans present)⟩

end Root

/-- A stream of the root directory can be sent to every number that is not negative, and to
no other. It then tells this number, and reads on with the slots from there on, however many
there are. So going back to a position that it has told before, it lists the same once more,
unless mounts have come or gone in the meantime. Whatever it lists leads to a mount.
Witness: the position of every such stream is a slot number that can be told.
-/
theorem root_stream_returns_to_told_position (reachable : session.Reachable)
    (present : session.dropped = false) {dir : DirStream δ σ}
    (found : session.stream? stream = some dir) (isRoot : dir.entry.driver = .root)
    : (∀ position < 0, session.RefusesSeek stream position)
      ∧ (∀ position,
          0 ≤ position
          → session.SeeksTo stream position
              (RootListing.shownFrom session.vfs.mounts position.toNatClampNeg))
      ∧ (∃ position,
          0 ≤ position
          ∧ (session.begin (.onStream .tell stream)).told? = some position
          ∧ session.Yields stream
              (RootListing.shownFrom session.vfs.mounts position.toNatClampNeg)
          ∧ ∀ history last,
              session.Run history last
              → Undisturbed session.vfs.mounts history stream
              → last.SeeksTo stream position
                  (RootListing.shownFrom session.vfs.mounts position.toNatClampNeg))
      ∧ ∀ start,
          session.vfs.ListsFrom start (RootListing.shownFrom session.vfs.mounts start) := by
  have settled := reachable.consistent.settled found
  obtain ⟨cursor, atSlot, within⟩ := reachable.tellable.of_stream? found isRoot
  obtain ⟨root, state⟩ := dir
  obtain rfl : state = .rootSlot cursor := atSlot
  have below := Nat.lt_of_le_of_lt within (Int64.toNatClampNeg_lt _)
  have number : (Int64.ofNat cursor).toNatClampNeg = cursor :=
    Int64.toNatClampNeg_ofNat_of_lt below
  have forward : 0 ≤ Int64.ofNat cursor := by
    rw [Int64.le_iff_toInt_le, Int64.toInt_ofNat_of_lt below]
    exact Int.natCast_nonneg cursor
  refine ⟨fun position => settled.refusesSeek isRoot,
    fun position => settled.seeksTo isRoot present, ?_, reachable.listsFrom⟩
  refine ⟨.ofNat cursor, forward, settled.tell_root isRoot, ?_, ?_⟩
  · rw [number]
    exact settled.yields isRoot present
  · intro history last run undisturbed
    obtain ⟨slot, stays, _⟩ := settled.undisturbed isRoot present run undisturbed
    obtain ⟨stillPresent, same⟩ := undisturbed.agrees run present
    rw [← RootListing.shownFrom_congr same]
    exact stays.seeksTo isRoot stillPresent forward

/-- The first slot has become free again, the next one has descriptors only, and a mount at
the empty path follows. The stream has read one entry. It lists the rest, and when it has
been sent beyond all slots, it can still go back.
-/
theorem root_stream_returns_to_told_position_of_holes
    : ∃ session : Session String Unit,
        session.Reachable
        ∧ session.RefusesSeek 0 (-1)
        ∧ session.SeeksTo 0 0 [⟨4, "b", .directory⟩, ⟨5, "c", .directory⟩]
        ∧ session.SeeksTo 0 9223372036854775807 []
        ∧ session.Yields 0 [⟨5, "c", .directory⟩]
        ∧ ∃ history last,
            session.Run history last
            ∧ Undisturbed session.vfs.mounts history 0
            ∧ listed history 0 = [⟨5, "c", .directory⟩]
            ∧ last.SeeksTo 0 5 [⟨5, "c", .directory⟩] := by
  let moves : List (Move String Unit) :=
    [.call (.onStream .read 0), .call (.onStream (.readInto .empty) 0),
      .call (.onStream (.seek 9223372036854775807) 0)]
  have played
      : (playNew? ⟨4, 8⟩
            [.call (.register "/a" "disk"), .call (.registerRange "tty" 1 2),
              .call (.register "" "rest"), .call (.register "/b" "disk"),
              .call (.register "/c" "disk"), .call (.unregister 1), .call (.openDir "/"),
              .call (.onStream .read 0)]).any
          (fun (_, (session : Session String Unit)) =>
            session.dropped = false
            ∧ (session.stream? 0).any (·.entry.driver = .root)
            ∧ (session.begin (.onStream .tell 0)).told? = some 5
            ∧ RootListing.shownFrom session.vfs.mounts 0
              = [⟨4, "b", .directory⟩, ⟨5, "c", .directory⟩]
            ∧ RootListing.shownFrom session.vfs.mounts 5 = [⟨5, "c", .directory⟩]
            ∧ RootListing.shownFrom session.vfs.mounts 9223372036854775807 = []
            ∧ (session.play? moves).any fun (history, _) =>
                listed history 0 = [⟨5, "c", .directory⟩]
                ∧ ∀ moment ∈ history,
                    moment.step.session.vfs.mounts.slots = session.vfs.mounts.slots
                    ∧ moment.step.session.dropped = false)
        = true := by decide +kernel
  obtain ⟨_, session, reachable, checked⟩ := exists_reachable_of_playNew? played
  obtain ⟨present, isOpen, told, all, rest, beyond, reread⟩ := of_decide_eq_true checked
  obtain ⟨dir, found, isRoot⟩ := (Option.any_eq_true _ _).mp isOpen
  obtain ⟨⟨history, last⟩, played, shown⟩ := (Option.any_eq_true _ _).mp reread
  obtain ⟨shown, kept⟩ := of_decide_eq_true shown
  obtain ⟨refuses, seeks, ⟨position, _, tells, yields, returns⟩, _⟩ :=
    root_stream_returns_to_told_position reachable present found (of_decide_eq_true isRoot)
  obtain rfl := Option.some.inj (told.symm.trans tells)
  have undisturbed : Undisturbed session.vfs.mounts history 0 := by
    refine ⟨fun moment member index => ?_, fun moment member => (kept moment member).2, ?_⟩
    · simp only [MountTable.get?, MountTable.mounted?, (kept moment member).1]
    · rintro moment member ⟨ends, _⟩
      have made := List.mem_map_of_mem (f := (·.move)) member
      rw [moves_of_play? played] at made
      rcases ends with closes | drops
      · simp [moves, closes] at made
      · simp [moves, drops] at made
  have back := returns history last (run_of_play? played) undisturbed
  exact ⟨session, reachable, refuses (-1) (by decide), all ▸ seeks 0 (by decide),
    beyond ▸ seeks 9223372036854775807 (by decide), rest ▸ yields, history, last,
    run_of_play? played, undisturbed, shown, rest ▸ back⟩

end Session

end StorageSwitch
