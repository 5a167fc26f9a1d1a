import StorageSwitch.Proofs.Mount.Resolution
import StorageSwitch.Proofs.Vfs.Streams

/-! The invariant of a session, kept at every stage of every call: the tables are
consistent, the calls that wait only know entries of this switch, and the handles balance
the counts.
-/

namespace StorageSwitch

variable {δ σ : Type}

namespace Vfs

variable {vfs : Vfs δ}

/-- Every path belongs to a known entry, for the root listing covers every path. -/
theorem Consistent.exists_resolve (consistent : vfs.Consistent) (path : String)
    : ∃ entry, vfs.resolve path = some entry ∧ vfs.mounts.get? entry.index = some entry := by
  obtain ⟨root, found, _, atEmptyPath⟩ := consistent.rooted
  have covers : root.covers path = true :=
    MountEntry.covers_iff.mpr ⟨"", atEmptyPath, Path.covers_iff.mpr (.inl rfl)⟩
  cases resolved : vfs.resolve path with
  | none => simp [MountTable.resolve_eq_none_iff.mp resolved _ root found] at covers
  | some entry =>
      obtain ⟨index, placed, _⟩ := MountTable.resolve_eq_some_iff.mp resolved
      exact ⟨entry, rfl, consistent.mounts.index_eq placed ▸ placed⟩

end Vfs

/-- A call that may wait: it asks an entry that the table knows, and a binding that it is
about to free fits.
-/
def Frame.Sound (mounts : MountTable (Driver δ)) (frame : Frame δ σ) : Prop :=
  mounts.Knows frame.entry
  ∧ ∀ entry fd binding, frame = .closing entry fd binding → binding.Fits

namespace Session

variable {session : Session δ σ} {frame : Frame δ σ} {vfs : Vfs δ}

/-- The tables are consistent, the calls that wait are sound, and the handles balance the
counts.
-/
structure Consistent (session : Session δ σ) : Prop where
  tables : session.vfs.Consistent
  sound : ∀ frame ∈ session.pending, frame.Sound session.vfs.mounts
  balanced : Balanced session.vfs.mounts session.nextStream session.handles

/-- A sound call that has taken no handle can come to wait or go on at any time. -/
theorem wait_consistent_iff (none : frame.handle? = none)
    : (session.wait frame).Consistent
      ↔ frame.Sound session.vfs.mounts ∧ session.Consistent := by
  constructor
  · intro consistent
    obtain ⟨sound, others⟩ := List.forall_mem_cons.mp consistent.sound
    exact ⟨sound, consistent.tables, others, wait_handles none ▸ consistent.balanced⟩
  · rintro ⟨sound, consistent⟩
    exact ⟨consistent.tables, List.forall_mem_cons.mpr ⟨sound, consistent.sound⟩,
      (wait_handles none).symm ▸ consistent.balanced⟩

/-- A change of the tables keeps the invariant if they stay consistent and balanced and
know the entries that were known.
-/
theorem Consistent.replace (consistent : session.Consistent) (tables : vfs.Consistent)
    (known : ∀ entry, session.vfs.mounts.Knows entry → vfs.mounts.Knows entry)
    (balanced : Balanced vfs.mounts session.nextStream session.handles)
    : Consistent { session with vfs } where
  tables := tables
  sound frame member := (consistent.sound frame member).imp (known _) id
  balanced := balanced

theorem Consistent.edits (consistent : session.Consistent) {edit : Vfs.Edit}
    (edits : session.vfs.Edits edit vfs)
    : Consistent { session with vfs } :=
  consistent.replace (edits.consistent consistent.tables)
    (fun _ => edits.knows consistent.tables)
    (consistent.balanced.edits edits consistent.tables)

theorem Consistent.descriptors (consistent : session.Consistent)
    (same : ∃ fds, vfs = { session.vfs with fds }) (tables : vfs.Consistent)
    : Consistent { session with vfs } := by
  obtain ⟨fds, rfl⟩ := same
  exact consistent.replace tables (fun _ => id) consistent.balanced

theorem Consistent.apply (consistent : session.Consistent) {α : Type}
    {change : Vfs.Change δ α} {edit : α → Vfs.Edit} {success : α → Answer σ}
    (makes : change.Makes session.vfs edit)
    : (session.apply change success).suspend.session.Consistent := by
  unfold Vfs.Change.Makes at makes
  split at makes <;> exact consistent.edits makes

theorem Consistent.askAt (consistent : session.Consistent) (path : String)
    {frame : Entry δ → Frame δ σ}
    (sound
      : ∀ entry,
          session.vfs.mounts.Knows entry
          → (frame entry).handle? = none ∧ (frame entry).Sound session.vfs.mounts)
    : (session.askAt path frame).suspend.session.Consistent := by
  obtain ⟨entry, resolved, found⟩ := consistent.tables.exists_resolve path
  obtain ⟨none, known⟩ := sound entry (consistent.tables.mounts.knows found)
  simp only [Session.askAt, resolved]
  exact (wait_consistent_iff none).mpr ⟨known, consistent⟩

theorem Consistent.askFd (consistent : session.Consistent) (fd : Fd)
    {frame : Entry δ → Binding → Frame δ σ}
    (sound
      : ∀ entry binding,
          session.vfs.mounts.Knows entry → binding.Fits
          → (frame entry binding).handle? = none
            ∧ (frame entry binding).Sound session.vfs.mounts)
    : (session.askFd fd frame).suspend.session.Consistent := by
  unfold Session.askFd
  cases resolved : session.vfs.resolveFd fd with
  | none => exact consistent
  | some target =>
      obtain ⟨entry, binding⟩ := target
      obtain ⟨bound, found⟩ := Vfs.resolveFd_eq_some_iff.mp resolved
      obtain ⟨none, known⟩ := sound entry binding (consistent.tables.mounts.knows found)
        (FdTable.fits_of_get? bound)
      exact (wait_consistent_iff none).mpr ⟨known, consistent⟩

theorem Consistent.askPair (consistent : session.Consistent) (call : PairCall)
    (source target : String)
    : (session.askPair call source target).suspend.session.Consistent := by
  obtain ⟨first, firstResolved, found⟩ := consistent.tables.exists_resolve source
  obtain ⟨second, secondResolved, _⟩ := consistent.tables.exists_resolve target
  simp only [Session.askPair, firstResolved, secondResolved]
  split
  · exact (wait_consistent_iff rfl).mpr
      ⟨⟨consistent.tables.mounts.knows found, nofun⟩, consistent⟩
  · exact consistent

/-- An open stream belongs to a known entry. -/
theorem Consistent.stream_knows (consistent : session.Consistent) {stream : Nat}
    {dir : DirStream δ σ} (found : session.stream? stream = some dir)
    : session.vfs.mounts.Knows dir.entry := by
  have held : (stream, dir.entry) ∈ session.handles :=
    List.mem_append_left _ (List.mem_map.mpr ⟨_, mem_streams_of_stream? found, rfl⟩)
  exact consistent.tables.mounts.knows (consistent.balanced.current _ held)

theorem Consistent.take (consistent : session.Consistent) {stream : Nat}
    {dir : DirStream δ σ} (found : session.stream? stream = some dir)
    (taken : frame.handle? = some (stream, dir.entry))
    (sound : frame.Sound session.vfs.mounts)
    : ((session.takeStream stream).wait frame).Consistent where
  tables := consistent.tables
  sound := List.forall_mem_cons.mpr ⟨sound, consistent.sound⟩
  balanced :=
    consistent.balanced.perm (takeStream_handles consistent.balanced.distinct found taken)

/-- The beginning of a call keeps the invariant. -/
theorem Consistent.start (consistent : session.Consistent) (call : Call δ)
    : (session.start call).suspend.session.Consistent := by
  cases call with
  | register path driver => exact consistent.apply (session.vfs.register_makes path driver)
  | registerRange driver min max =>
      exact consistent.apply (session.vfs.registerRange_makes driver min max)
  | reserveRange index min max =>
      exact consistent.apply (session.vfs.reserveRange_makes index min max)
  | unregister index => exact consistent.apply (session.vfs.unregister_makes index)
  | openFile path flags mode | onPath call path | openDir path =>
      exact consistent.askAt path fun _ known => ⟨rfl, known, nofun⟩
  | onPair call source target => exact consistent.askPair call source target
  | closeFile fd =>
      refine consistent.askFd fd fun _ _ known fits => ⟨rfl, known, ?_⟩
      rintro entry other binding same
      rwa [← (Frame.closing.inj same).2.2]
  | onFile call fd => exact consistent.askFd fd fun _ _ known _ => ⟨rfl, known, nofun⟩
  | onStream call stream =>
      simp only [Session.start, askStream]
      cases found : session.stream? stream with
      | none => exact consistent
      | some dir =>
          have known := consistent.stream_knows found
          dsimp only
          split
          · exact consistent.take found rfl ⟨known, nofun⟩
          · exact (wait_consistent_iff rfl).mpr ⟨⟨known, nofun⟩, consistent⟩
  | closeDir stream | dropDir stream =>
      simp only [Session.start, endStream]
      cases found : session.stream? stream with
      | none => exact consistent
      | some dir => exact consistent.take found rfl ⟨consistent.stream_knows found, nofun⟩

theorem Consistent.bindOpened (consistent : session.Consistent) {entry : Entry δ}
    (known : session.vfs.mounts.Knows entry) (path : String) (file : LocalFd)
    : (session.bindOpened entry path file).suspend.session.Consistent := by
  unfold Session.bindOpened
  cases bound : session.vfs.bind entry file with
  | error error => exact (wait_consistent_iff rfl).mpr ⟨⟨known, nofun⟩, consistent⟩
  | ok placed =>
      obtain ⟨_, _, same, tables, _⟩ := consistent.tables.bind_eq_ok known bound
      exact consistent.descriptors same tables

theorem Consistent.freeClosed (consistent : session.Consistent) (fd : Fd)
    {binding : Binding} (fits : binding.Fits) (reply : Except Error Unit)
    : (session.freeClosed fd binding reply).suspend.session.Consistent := by
  unfold Session.freeClosed
  split
  · exact consistent
  · obtain ⟨tables, same, _⟩ := consistent.tables.release_spec fd fits
    exact consistent.descriptors same tables

theorem Consistent.listOpened (consistent : session.Consistent) {entry : Entry δ}
    (known : session.vfs.mounts.Knows entry) (state : StreamState σ)
    : (session.listOpened entry state).suspend.session.Consistent := by
  have skipped : Consistent { session with nextStream := session.nextStream + 1 } :=
    { consistent with balanced := consistent.balanced.skip }
  unfold Session.listOpened
  dsimp only
  split
  · rename_i current
    refine ⟨consistent.tables.countStreams entry _, ?_, ?_⟩
    · intro frame member
      exact (consistent.sound frame member).imp (·.countStreams entry _) id
    · exact consistent.balanced.opened consistent.tables.mounts
        (known.isCurrent_iff.mp current)
  · exact (wait_consistent_iff rfl).mpr ⟨⟨known, nofun⟩, skipped⟩

/-- A call that goes on keeps the invariant. -/
theorem Consistent.finish (respond : Responder σ) (frame : Frame δ σ)
    (waiting : (session.wait frame).Consistent)
    : (session.finish respond frame).suspend.session.Consistent := by
  have sound := (List.forall_mem_cons.mp waiting.sound).1
  cases frame with
  | relaying | undoing | discarding => exact ((wait_consistent_iff rfl).mp waiting).2
  | opening entry path flags mode =>
      have consistent := ((wait_consistent_iff rfl).mp waiting).2
      simp only [Session.finish]
      split
      · exact consistent
      · exact consistent.bindOpened sound.1 path _
  | closing entry fd binding =>
      have consistent := ((wait_consistent_iff rfl).mp waiting).2
      exact consistent.freeClosed fd (sound.2 entry fd binding rfl) _
  | listing entry path =>
      have consistent := ((wait_consistent_iff rfl).mp waiting).2
      simp only [Session.finish]
      split
      · exact consistent
      · exact consistent.listOpened sound.1 _
  | moving stream lent call =>
      refine ⟨waiting.tables, (List.forall_mem_cons.mp waiting.sound).2, ?_⟩
      exact waiting.balanced.perm (putStream_handles stream lent call _)
  | ending stream ended dropped =>
      have balanced := waiting.balanced.perm (ending_handles stream ended dropped)
      have closed := balanced.closed waiting.tables.mounts
      refine ⟨waiting.tables.countStreams ended.entry _, ?_, closed⟩
      intro other member
      have known := (List.forall_mem_cons.mp waiting.sound).2 other member
      exact known.imp (·.countStreams ended.entry _) id

/-- Whenever a stream ends, it has been counted until then, so the count is positive and
loses exactly this stream.
-/
theorem Consistent.ending_counted (consistent : session.Consistent) {stream : Nat}
    {ended : DirStream δ σ} {dropped : Bool}
    (waiting : .ending stream ended dropped ∈ session.pending)
    : 0 < session.vfs.mounts.openStreams ended.entry
      ∧ (session.vfs.mounts.streamClosed ended.entry).openStreams ended.entry + 1
        = session.vfs.mounts.openStreams ended.entry := by
  have held : (stream, ended.entry) ∈ session.handles :=
    List.mem_append_right _ (List.mem_filterMap.mpr ⟨_, waiting, rfl⟩)
  obtain ⟨slot, found, same, busy⟩ := consistent.balanced.slot held
  have counted : 0 < session.vfs.mounts.openStreams ended.entry := by
    rwa [MountTable.openStreams_eq found same]
  exact ⟨counted, MountTable.openStreams_streamClosed counted⟩

/-- Every stage of a call keeps the invariant. -/
theorem stable_consistent : Stable (Consistent (δ := δ) (σ := σ)) where
  start call consistent := consistent.start call
  finish respond frame waiting := waiting.finish respond frame
  drop consistent := { consistent with }

theorem create_eq_ok {config : Config} {notices : List Vfs.Notice}
    (made : create config = .ok (session, notices))
    : ∃ vfs, Vfs.create config = .ok (vfs, notices) ∧ session = ⟨vfs, [], 0, [], false⟩ := by
  unfold create at made
  cases created : Vfs.create (δ := δ) config with
  | error error => simp [created, bind, Except.bind] at made
  | ok switch =>
      simp only [created, bind, Except.bind, pure, Except.pure, Except.ok.injEq,
        Prod.mk.injEq] at made
      obtain ⟨rfl, rfl⟩ := made
      exact ⟨switch.1, rfl, rfl⟩

theorem create_consistent {config : Config} {notices : List Vfs.Notice}
    (made : create config = .ok (session, notices))
    : session.Consistent := by
  obtain ⟨vfs, created, rfl⟩ := create_eq_ok made
  obtain ⟨tables, _, noStreams⟩ := Vfs.create_eq_ok created
  exact ⟨tables, nofun, nofun, .nil, nofun, noStreams⟩

theorem create_unbound {config : Config} {notices : List Vfs.Notice}
    (made : create config = .ok (session, notices)) (fd : Fd)
    : session.vfs.fds.get? fd = none := by
  obtain ⟨vfs, created, rfl⟩ := create_eq_ok made
  exact (Vfs.create_eq_ok created).2.1 fd

/-- Every reachable session has the invariant. -/
theorem Reachable.consistent (reachable : session.Reachable) : session.Consistent := by
  obtain ⟨config, start, notices, history, made, run⟩ := reachable
  exact stable_consistent.run (create_consistent made) run

end Session

end StorageSwitch
