import StorageSwitch.Proofs.Vfs.Runs
import StorageSwitch.Proofs.Vfs.Tables

/-! The directory streams that a user holds, those lent to a driver and those that a
driver is about to close included, balance the counts in the mount table.
-/

namespace StorageSwitch

variable {δ σ : Type}

/-- The handle that a waiting call has taken, as a stream number and its entry. A directory
that is closed again before it became a stream is not a handle.
-/
def Frame.handle? : Frame δ σ → Option (Nat × Entry δ)
  | .moving stream lent _ => some (stream, lent.entry)
  | .ending stream ended _ => some (stream, ended.entry)
  | _ => none

/-- Every handle that has not finished being closed or dropped: the open streams, and those
that waiting calls have taken.
-/
def Session.handles (session : Session δ σ) : List (Nat × Entry δ) :=
  session.streams.map (fun held => (held.1, held.2.entry))
    ++ session.pending.filterMap Frame.handle?

/-- The handles balance the table: their numbers are below `next` and all different, their
entries are still in their slots, and the count of a slot is the number of its handles.
-/
structure Balanced (mounts : MountTable (Driver δ)) (next : Nat)
    (handles : List (Nat × Entry δ)) : Prop where
  numbered : ∀ handle ∈ handles, handle.1 < next
  distinct : (handles.map (·.1)).Nodup
  current : ∀ handle ∈ handles, mounts.get? handle.2.index = some handle.2
  counted
    : ∀ index slot,
        mounts.mounted? index = some slot
        → slot.openStreams = handles.countP (·.2.serial == slot.entry.serial)

namespace Balanced

variable {mounts : MountTable (Driver δ)} {next : Nat} {handles : List (Nat × Entry δ)}
  {vfs after : Vfs δ}

/-- Only which handles there are matters, not their order. -/
theorem perm (balanced : Balanced mounts next handles) {others : List (Nat × Entry δ)}
    (same : handles.Perm others)
    : Balanced mounts next others where
  numbered handle member := balanced.numbered handle (same.mem_iff.mpr member)
  distinct := (same.map (·.1)).nodup_iff.mp balanced.distinct
  current handle member := balanced.current handle (same.mem_iff.mpr member)
  counted index slot found := (balanced.counted index slot found).trans (same.countP_eq _)

theorem skip (balanced : Balanced mounts next handles)
    : Balanced mounts (next + 1) handles :=
  { balanced with
    numbered := fun handle member => Nat.lt_succ_of_lt (balanced.numbered handle member) }

/-- The slot of a handle counts at least that handle. -/
theorem slot (balanced : Balanced mounts next handles) {handle : Nat × Entry δ}
    (member : handle ∈ handles)
    : ∃ slot,
        mounts.mounted? handle.2.index = some slot
        ∧ slot.entry = handle.2
        ∧ 0 < slot.openStreams := by
  obtain ⟨slot, found, sameEntry⟩ :=
    MountTable.get?_eq_some_iff.mp (balanced.current handle member)
  refine ⟨slot, found, sameEntry, ?_⟩
  rw [balanced.counted _ slot found, List.countP_pos_iff]
  exact ⟨handle, member, by rw [sameEntry, beq_self_eq_true]⟩

/-- Registrations and removals keep the balance.
Witness: a mount with handles is not idle, so it is not removed, and a new entry has a
serial number that no handle's entry has.
-/
theorem edits (balanced : Balanced vfs.mounts next handles) {edit : Vfs.Edit}
    (edits : vfs.Edits edit after) (consistent : vfs.Consistent)
    : Balanced after.mounts next handles where
  numbered := balanced.numbered
  distinct := balanced.distinct
  current := by
    intro handle member
    obtain ⟨slot, found, sameEntry, busy⟩ := balanced.slot member
    rcases edits.mounted?_before consistent found with kept | ⟨_, idle⟩
    · exact MountTable.get?_eq_some_iff.mpr ⟨slot, kept, sameEntry⟩
    · have unused := ((consistent.idle_iff found).mp idle).1
      omega
  counted := by
    intro index slot found
    rcases edits.mounted?_after consistent found with old | ⟨_, new, noStreams⟩
    · exact balanced.counted index slot old
    · rw [noStreams, eq_comm, List.countP_eq_zero]
      intro handle member
      have given := (consistent.mounts.knows (balanced.current handle member)).1
      rw [new, beq_iff_eq]
      omega

/-- A stream that is opened through a current entry is counted there. -/
theorem opened (balanced : Balanced mounts next handles) (formed : mounts.WellFormed)
    {entry : Entry δ} (found : mounts.get? entry.index = some entry)
    : Balanced (mounts.streamOpened entry) (next + 1) ((next, entry) :: handles) where
  numbered := by
    rintro handle (_ | ⟨_, member⟩)
    · exact Nat.lt_succ_self next
    · exact Nat.lt_succ_of_lt (balanced.numbered handle member)
  distinct := by
    refine List.nodup_cons.mpr ⟨?_, balanced.distinct⟩
    intro taken
    obtain ⟨handle, member, same⟩ := List.mem_map.mp taken
    exact absurd (balanced.numbered handle member) (by rw [same]; exact Nat.lt_irrefl next)
  current := by
    rintro handle (_ | ⟨_, member⟩)
    · simpa [MountTable.streamOpened] using found
    · simpa [MountTable.streamOpened] using balanced.current handle member
  counted := by
    intro index slot changed
    rw [MountTable.streamOpened, MountTable.mounted?_countStreams] at changed
    obtain ⟨old, inSlot, rfl⟩ := Option.map_eq_some_iff.mp changed
    have count := balanced.counted index old inSlot
    have owned := MountTable.get?_of_mounted? inSlot
    rw [List.countP_cons]
    by_cases through : old.entry.serial = entry.serial
    · have same := (formed.knows found).2 index old.entry owned through
      have sameIndex := formed.index_eq (same ▸ owned)
      simp [sameIndex, through, count]
    · simp [through, Ne.symm through, count]

/-- A stream that has ended is no longer counted. -/
theorem closed {handle : Nat × Entry δ} (balanced : Balanced mounts next (handle :: handles))
    (formed : mounts.WellFormed)
    : Balanced (mounts.streamClosed handle.2) next handles where
  numbered other member := balanced.numbered other (.tail _ member)
  distinct := (List.nodup_cons.mp balanced.distinct).2
  current other member := by
    simpa [MountTable.streamClosed] using balanced.current other (.tail _ member)
  counted := by
    intro index slot changed
    rw [MountTable.streamClosed, MountTable.mounted?_countStreams] at changed
    obtain ⟨old, inSlot, rfl⟩ := Option.map_eq_some_iff.mp changed
    have count := balanced.counted index old inSlot
    have owned := MountTable.get?_of_mounted? inSlot
    have found := balanced.current handle (.head _)
    rw [List.countP_cons] at count
    by_cases through : old.entry.serial = handle.2.serial
    · have same := (formed.knows found).2 index old.entry owned through
      have sameIndex := formed.index_eq (same ▸ owned)
      simp [sameIndex, through, count]
    · simp [through, Ne.symm through, count]

end Balanced

namespace Session

variable {session : Session δ σ}

theorem mem_streams_of_stream? {stream : Nat} {dir : DirStream δ σ}
    (found : session.stream? stream = some dir)
    : (stream, dir) ∈ session.streams := by
  obtain ⟨before, later, split, _⟩ := List.lookup_eq_some_iff.mp found
  rw [split]
  exact List.mem_append_right _ (.head _)

/-- Taking one stream out of those with different numbers removes nothing else. -/
theorem streams_perm {streams : List (Nat × DirStream δ σ)}
    (distinct : (streams.map (·.1)).Nodup) {stream : Nat} {dir : DirStream δ σ}
    (found : streams.lookup stream = some dir)
    : streams.Perm ((stream, dir) :: streams.filter (·.1 ≠ stream)) := by
  induction streams with
  | nil => contradiction
  | cons held rest ih =>
      obtain ⟨number, other⟩ := held
      obtain ⟨fresh, restDistinct⟩ := List.nodup_cons.mp distinct
      by_cases same : stream = number
      · subst same
        obtain rfl : other = dir := by simpa [List.lookup_cons] using found
        have others : rest.filter (·.1 ≠ stream) = rest := by
          refine List.filter_eq_self.mpr fun held member => decide_eq_true ?_
          rintro taken
          exact fresh (List.mem_map.mpr ⟨held, member, taken⟩)
        rw [List.filter_cons_of_neg (by simp), others]
      · have later : rest.lookup stream = some dir := by
          simpa [List.lookup_cons, beq_false_of_ne same] using found
        rw [List.filter_cons_of_pos (by simpa using Ne.symm same)]
        exact ((ih restDistinct later).cons _).trans (.swap _ _ _)

/-- The open streams have different numbers as well. -/
theorem nodup_streams (distinct : (session.handles.map (·.1)).Nodup)
    : (session.streams.map (·.1)).Nodup := by
  simp only [handles, List.map_append, List.map_map] at distinct
  exact (List.nodup_append.mp distinct).1

/-- A handle that a call takes stays a handle. -/
theorem takeStream_handles {stream : Nat} {dir : DirStream δ σ} {frame : Frame δ σ}
    (distinct : (session.handles.map (·.1)).Nodup) (found : session.stream? stream = some dir)
    (taken : frame.handle? = some (stream, dir.entry))
    : session.handles.Perm ((session.takeStream stream).wait frame).handles := by
  have split :=
    (streams_perm (nodup_streams distinct) found).map fun held => (held.1, held.2.entry)
  simp only [handles, wait, List.filterMap_cons, taken]
  exact (split.append_right _).trans List.perm_middle.symm

theorem putStream_handles (stream : Nat) (lent : DirStream δ σ) (call : StreamCall)
    (state : StreamState σ)
    : (session.wait (.moving stream lent call)).handles.Perm
        (session.putStream stream { lent with state }).handles :=
  List.perm_middle

/-- A handle that is closed or dropped stays one until its driver has answered. -/
theorem ending_handles (stream : Nat) (ended : DirStream δ σ) (dropped : Bool)
    : (session.wait (.ending stream ended dropped)).handles.Perm
        ((stream, ended.entry) :: session.handles) :=
  List.perm_middle

theorem wait_handles {frame : Frame δ σ} (none : frame.handle? = none)
    : (session.wait frame).handles = session.handles := by
  simp only [handles, wait, List.filterMap_cons, none]

end Session

end StorageSwitch
