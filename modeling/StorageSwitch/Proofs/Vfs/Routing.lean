import StorageSwitch.Proofs.Vfs.Effects
import StorageSwitch.Proofs.Vfs.Registration

/-! Where paths lead. Every path belongs to the entry whose mount path covers most of it, and
a registration moves just the paths that the new entry comes first for. The root listing is
in the first slot, so no path is without an entry, and no other entry at the empty path is
ever asked.
-/

namespace StorageSwitch

variable {δ σ : Type}

-----------------------------------------------------------------------------------------
-- The root listing is in the first slot
-----------------------------------------------------------------------------------------

namespace Vfs

variable {vfs after : Vfs δ}

/-- Every slot but the first has a driver that was registered, or nothing. -/
def RootFirst (vfs : Vfs δ) : Prop :=
  ∀ index entry,
    vfs.mounts.get? index = some entry → index ≠ 0 → ∃ driver, entry.driver = .given driver

theorem create_rootFirst {config : Config} {notices : List Notice}
    (made : create config = .ok (vfs, notices))
    : vfs.RootFirst := by
  obtain ⟨_, rootIndex, mounts, fds, rooted, _, rfl⟩ := eq_of_create made
  have filled := (MountTable.wellFormed_empty _ _).insert_eq_ok rooted
  intro index entry found notFirst
  rcases filled.get?_cases found with old | ⟨rfl, _⟩
  · simp [MountTable.get?] at old
  · exact absurd (by simp) (filled.lowest 0 (Nat.pos_of_ne_zero notFirst))

/-- An entry that is in a slot after an edit was there before, or the edit has filled the slot
with a registered driver.
-/
theorem Edits.get?_after {edit : Edit} (edits : vfs.Edits edit after)
    (consistent : vfs.Consistent) {index : Nat} {entry : Entry δ}
    (found : after.mounts.get? index = some entry)
    : vfs.mounts.get? index = some entry
      ∨ ((edit = .mounted index ∨ ∃ min max, edit = .ranged index min max)
        ∧ ∃ driver, entry.driver = .given driver) := by
  have filled {point driver place mounts}
      (inserted : vfs.mounts.insert point (.given driver) = .ok (place, mounts))
      (present : mounts.get? index = some entry)
      : vfs.mounts.get? index = some entry
        ∨ (index = place ∧ ∃ driver, entry.driver = .given driver) := by
    rcases (consistent.mounts.insert_eq_ok inserted).get?_cases present
      with old | ⟨same, rfl⟩
    · exact .inl old
    · exact .inr ⟨same, driver, rfl⟩
  cases edits with
  | unchanged | reserved _ _ => exact .inl found
  | mounted inserted =>
      rcases filled inserted found with old | ⟨rfl, given⟩
      · exact .inl old
      · exact .inr ⟨.inl rfl, given⟩
  | ranged inserted _ =>
      rcases filled inserted found with old | ⟨rfl, given⟩
      · exact .inl old
      · exact .inr ⟨.inr ⟨_, _, rfl⟩, given⟩
  | undone inserted =>
      rw [MountTable.get?, (consistent.mounts.insert_eq_ok inserted).mounted?_remove] at found
      exact .inl found
  | unmounted _ _ _ =>
      rw [MountTable.get?_remove] at found
      split at found
      · contradiction
      · exact .inl found

end Vfs

namespace Session

variable {session : Session δ σ}

/-- A move puts nobody but registered drivers into slots. -/
theorem Consistent.rootFirst_of_move (consistent : session.Consistent)
    (rootFirst : session.vfs.RootFirst) {move : Move δ σ} {step : Step δ σ}
    (moved : session.move? move = some step)
    : step.session.vfs.RootFirst := by
  intro index entry found notFirst
  cases move_effect moved with
  | passed passes =>
      rw [passes.agrees.get?] at found
      exact rootFirst index entry found notFirst
  | edited edits _ _ =>
      rcases edits.get?_after consistent.tables found with old | ⟨_, given⟩
      · exact rootFirst index entry old notFirst
      · exact given
  | opened waiting _ bound _ =>
      obtain ⟨mounts, _⟩ := consistent.opened_spec waiting bound
      exact rootFirst index entry (mounts ▸ found) notFirst
  | freed waiting _ released _ =>
      obtain ⟨mounts, _⟩ := consistent.freed_spec waiting
      rw [released, mounts] at found
      exact rootFirst index entry found notFirst

/-- In every reachable session the other slots have registered drivers only.
Witness: induction on the run.
-/
theorem Reachable.rootFirst (reachable : session.Reachable) : session.vfs.RootFirst := by
  obtain ⟨config, start, notices, history, made, run⟩ := reachable
  induction run with
  | rest =>
      obtain ⟨vfs, created, rfl⟩ := create_eq_ok made
      exact Vfs.create_rootFirst created
  | next run moved ih =>
      have consistent := stable_consistent.run (create_consistent made) run
      exact consistent.rootFirst_of_move ih moved

/-- The root listing is in the first slot, at the empty path. -/
theorem Reachable.root_spec (reachable : session.Reachable)
    : session.vfs.rootIndex = 0
      ∧ ∃ root,
          session.vfs.mounts.get? 0 = some root
          ∧ root.driver = .root
          ∧ root.point = .path "" := by
  obtain ⟨root, found, isRoot, atEmptyPath⟩ := reachable.consistent.tables.rooted
  have first : session.vfs.rootIndex = 0 := by
    by_contra notFirst
    obtain ⟨driver, given⟩ := reachable.rootFirst _ root found notFirst
    rw [isRoot] at given
    contradiction
  exact ⟨first, root, first ▸ found, isRoot, atEmptyPath⟩

-----------------------------------------------------------------------------------------
-- Which entry a path belongs to
-----------------------------------------------------------------------------------------

/-- No call is turned away for want of an entry, for every path belongs to one. -/
theorem Consistent.start_ne_unmounted (consistent : session.Consistent) (call : Call δ)
    (path : String)
    : session.start call ≠ session.unmounted path := by
  have asks (other : String) (frame : Entry δ → Frame δ σ)
      : session.askAt other frame ≠ session.unmounted path := by
    obtain ⟨entry, resolved, _⟩ := consistent.tables.exists_resolve other
    simp [Session.askAt, resolved, ask, unmounted]
  cases call with
  | openFile other | onPath call other | openDir other => exact asks other _
  | onPair call source target =>
      obtain ⟨first, firstResolved, _⟩ := consistent.tables.exists_resolve source
      obtain ⟨second, secondResolved, _⟩ := consistent.tables.exists_resolve target
      simp only [Session.start, Session.askPair, firstResolved, secondResolved]
      split <;> simp [ask, answer, unmounted]
  | register | registerRange | reserveRange | unregister =>
      simp only [Session.start, Session.apply, Vfs.register, Vfs.registerRange,
        Vfs.reserveRange, Vfs.unregister]
      repeat' split
      all_goals simp [unmounted]
  | closeFile | onFile =>
      simp only [Session.start, Session.askFd]
      split <;> simp [ask, answer, unmounted]
  | onStream =>
      simp only [Session.start, askStream]
      repeat' split
      all_goals simp [ask, answer, unmounted]
  | closeDir | dropDir =>
      simp only [Session.start, endStream]
      split <;> simp [answer, unmounted]

/-- Whatever is in the slots of a mount table, a path belongs to the entry with the longest
mount path that covers it, the one in the lowest slot if several are mounted there, and it
belongs to none exactly when none covers it; an entry without a mount path has no paths. In
a reachable session every path belongs to an entry, and no call is ever turned away for
want of one.
-/
theorem path_belongs_to_longest_mount {α : Type} (table : MountTable α) (path : String)
    : (∀ entry,
        table.resolve path = some entry
        ↔ ∃ index mount,
            table.get? index = some entry
            ∧ entry.point = .path mount
            ∧ Path.CoversComponents mount path
            ∧ ∀ other rival rivalMount,
                table.get? other = some rival → rival.point = .path rivalMount
                → Path.CoversComponents rivalMount path
                → rivalMount.utf8ByteSize < mount.utf8ByteSize
                  ∨ (rivalMount = mount ∧ index ≤ other))
      ∧ (table.resolve path = none
        ↔ ∀ index entry mount,
            table.get? index = some entry → entry.point = .path mount
            → ¬Path.CoversComponents mount path)
      ∧ ∀ session : Session δ σ,
          session.Reachable
          → (∃ entry, session.vfs.resolve path = some entry)
            ∧ ∀ call, session.start call ≠ session.unmounted path := by
  refine ⟨fun entry => ?_, ?_, fun session reachable => ?_⟩
  · rw [MountTable.resolve_eq_some_iff]
    constructor
    · rintro ⟨index, found, covers, first⟩
      obtain ⟨mount, mounted, covered⟩ := MountEntry.covers_iff.mp covers
      refine ⟨index, mount, found, mounted, Path.covers_iff_components.mp covered, ?_⟩
      intro other rival rivalMount rivalFound rivalMounted rivalComponents
      have rivalCovered := Path.covers_iff_components.mpr rivalComponents
      have rivalCovers := MountEntry.covers_iff.mpr ⟨rivalMount, rivalMounted, rivalCovered⟩
      exact (MountTable.precedes_iff mounted rivalMounted covered rivalCovered).mp
        (first other rival rivalFound rivalCovers)
    · rintro ⟨index, mount, found, mounted, components, first⟩
      have covered := Path.covers_iff_components.mpr components
      refine ⟨index, found, MountEntry.covers_iff.mpr ⟨mount, mounted, covered⟩, ?_⟩
      intro other rival rivalFound rivalCovers
      obtain ⟨rivalMount, rivalMounted, rivalCovered⟩ := MountEntry.covers_iff.mp rivalCovers
      have rivalComponents := Path.covers_iff_components.mp rivalCovered
      exact (MountTable.precedes_iff mounted rivalMounted covered rivalCovered).mpr
        (first other rival rivalMount rivalFound rivalMounted rivalComponents)
  · rw [MountTable.resolve_eq_none_iff]
    constructor
    · intro uncovered index entry mount found mounted components
      have covered := Path.covers_iff_components.mpr components
      have covers := MountEntry.covers_iff.mpr ⟨mount, mounted, covered⟩
      rw [uncovered index entry found] at covers
      contradiction
    · intro apart index entry found
      by_contra covers
      obtain ⟨mount, mounted, covered⟩ :=
        MountEntry.covers_iff.mp (Bool.not_eq_false _ ▸ covers)
      exact apart index entry mount found mounted (Path.covers_iff_components.mp covered)
  · obtain ⟨entry, resolved, _⟩ := reachable.consistent.tables.exists_resolve path
    exact ⟨⟨entry, resolved⟩, fun call => reachable.consistent.start_ne_unmounted call path⟩

/-- A mount below another one, and a second one at the same path: a path below all three
belongs to the second of them.
-/
theorem path_belongs_to_longest_mount_of_nested
    : ∃ session : Session String Unit,
        session.Reachable
        ∧ session.vfs.mounts.entries.map (·.point)
          = [.path "", .path "/a", .path "/a/b", .path "/a/b"]
        ∧ (∃ index mount,
            session.vfs.mounts.get? index = some ⟨2, 2, .path "/a/b", .given "tape"⟩
            ∧ mount = "/a/b"
            ∧ Path.CoversComponents mount "/a/b/c"
            ∧ ∀ other rival rivalMount,
                session.vfs.mounts.get? other = some rival
                → rival.point = .path rivalMount
                → Path.CoversComponents rivalMount "/a/b/c"
                → rivalMount.utf8ByteSize < mount.utf8ByteSize
                  ∨ (rivalMount = mount ∧ index ≤ other))
        ∧ ∀ call, session.start call ≠ session.unmounted "/a/b/c" := by
  have played
      : (playNew? ⟨4, 4⟩
            [.call (.register "/a" "disk"), .call (.register "/a/b" "tape"),
              .call (.register "/a/b" "card")]).any
          (fun (_, (session : Session String Unit)) =>
            session.vfs.mounts.entries.map (·.point)
              = [.path "", .path "/a", .path "/a/b", .path "/a/b"]
            ∧ session.vfs.mounts.resolve "/a/b/c"
              = some ⟨2, 2, .path "/a/b", .given "tape"⟩)
        = true := by decide +kernel
  obtain ⟨_, session, reachable, checked⟩ := exists_reachable_of_playNew? played
  obtain ⟨mounted, resolved⟩ := of_decide_eq_true checked
  obtain ⟨longest, _, answered⟩ :=
    path_belongs_to_longest_mount (δ := String) (σ := Unit) session.vfs.mounts "/a/b/c"
  obtain ⟨index, mount, found, atMount, components, first⟩ := (longest _).mp resolved
  obtain rfl := MountPoint.path.inj atMount
  exact ⟨session, reachable, mounted, ⟨index, _, found, rfl, components, first⟩,
    (answered session reachable).2⟩

-----------------------------------------------------------------------------------------
-- Which paths a registration moves
-----------------------------------------------------------------------------------------

/-- A path stays with its entry when a driver is mounted, unless the new mount path covers
it and is longer than the entry's, or is the same while the new slot is lower. In these
cases the path belongs to the new entry.
Witness: the new entry comes before the old one for the path, or the other way round, and
before all others that the old one comes before.
-/
theorem registration_moves_paths (reachable : session.Reachable) {mount : String}
    {driver : δ} {index : Nat}
    (registered
      : (session.begin (.register mount driver)).next = .returns (.mounted index))
    (path : String)
    : ∃ owner,
        session.vfs.resolve path = some owner
        ∧ (session.begin (.register mount driver)).session.vfs.resolve path
          = if Path.covers mount path = false
              ∨ mount.utf8ByteSize < owner.reach
              ∨ (owner.point = .path mount ∧ owner.index < index) then
              some owner
            else some ⟨session.vfs.mounts.nextSerial, index, .path mount, .given driver⟩ := by
  have consistent := reachable.consistent
  obtain ⟨owner, resolved, _⟩ := consistent.tables.exists_resolve path
  obtain ⟨answer, returned, registers⟩ :=
    consistent.begin_registers mount driver index 0 0 (.register mount driver) (.head _)
  obtain rfl := Next.returns.inj (returned.symm.trans registered)
  cases registers with
  | mounted _ filled =>
      exact ⟨owner, resolved, filled.resolve consistent.tables.mounts resolved⟩

theorem begin_register_next {mount : String} {driver : δ} {index : Nat}
    (placed : (session.vfs.register mount driver).result = .ok index)
    : (session.begin (.register mount driver)).next = .returns (.mounted index) := by
  simp only [begin, start, apply_settle, Vfs.Change.answer, placed]

/-- A driver is mounted at the path of another one, after a lower slot has become free. -/
theorem registration_moves_paths_of_reused_slot
    : ∃ session : Session String Unit,
        session.Reachable
        ∧ (session.begin (.register "/x" "new")).next = .returns (.mounted 1)
        ∧ ∃ owner,
            session.vfs.resolve "/x/f" = some owner
            ∧ (session.begin (.register "/x" "new")).session.vfs.resolve "/x/f"
              = if Path.covers "/x" "/x/f" = false
                  ∨ "/x".utf8ByteSize < owner.reach
                  ∨ (owner.point = .path "/x" ∧ owner.index < 1) then
                  some owner
                else some ⟨session.vfs.mounts.nextSerial, 1, .path "/x", .given "new"⟩ := by
  have played
      : (playNew? ⟨4, 4⟩
            [.call (.register "/a" "disk"), .call (.register "/x" "old"),
              .call (.unregister 1)]).any
          (fun (_, (session : Session String Unit)) =>
            (session.vfs.register "/x" "new").result = .ok 1)
        = true := by decide +kernel
  obtain ⟨_, session, reachable, checked⟩ := exists_reachable_of_playNew? played
  have registered := begin_register_next (of_decide_eq_true checked)
  exact ⟨session, reachable, registered,
    registration_moves_paths reachable registered "/x/f"⟩

/-- The paths of a mount can go to a driver that is mounted at the same path later, for the
later one may get a lower slot.
-/
theorem later_mount_takes_over_paths
    : ∃ (session : Session String Unit) (owner taker : Entry String),
        session.Reachable
        ∧ session.vfs.resolve "/x/f" = some owner
        ∧ owner.point = .path "/x"
        ∧ (session.begin (.register "/x" "new")).next = .returns (.mounted taker.index)
        ∧ (session.begin (.register "/x" "new")).session.vfs.resolve "/x/f" = some taker
        ∧ owner.serial ≠ taker.serial := by
  have played
      : (playNew? ⟨4, 4⟩
            [.call (.register "/a" "disk"), .call (.register "/x" "old"),
              .call (.unregister 1)]).any
          (fun (_, (session : Session String Unit)) =>
            session.vfs.resolve "/x/f" = some ⟨2, 2, .path "/x", .given "old"⟩
            ∧ (session.vfs.register "/x" "new").result = .ok 1
            ∧ (session.begin (.register "/x" "new")).session.vfs.resolve "/x/f"
              = some ⟨3, 1, .path "/x", .given "new"⟩)
        = true := by decide +kernel
  obtain ⟨_, session, reachable, checked⟩ := exists_reachable_of_playNew? played
  obtain ⟨owned, placed, taken⟩ := of_decide_eq_true checked
  exact ⟨session, _, _, reachable, owned, rfl, begin_register_next placed, taken, by simp⟩

-----------------------------------------------------------------------------------------
-- Which paths a new mount gets
-----------------------------------------------------------------------------------------

/-- The mount path covers the path, and no longer one in the table does. -/
structure CoversMost (session : Session δ σ) (mount path : String) : Prop where
  covered : Path.covers mount path = true
  longest
    : ∀ index entry held,
        session.vfs.mounts.get? index = some entry → entry.point = .path held
        → Path.covers held path = true → held.utf8ByteSize ≤ mount.utf8ByteSize

/-- A mount path covers most of itself. -/
theorem coversMost_self (session : Session δ σ) (mount : String)
    : session.CoversMost mount mount where
  covered := Path.covers_iff.mpr (.inr (.inl rfl))
  longest index entry held _ _ covered := by
    obtain ⟨rest, whole, _⟩ := Path.exists_rest covered
    rw [whole, String.utf8ByteSize_append]
    omega

/-- No driver that was registered is mounted at the path. -/
def Unclaimed (session : Session δ σ) (mount : String) : Prop :=
  ∀ index entry driver,
    session.vfs.mounts.get? index = some entry → entry.driver = .given driver
    → entry.point ≠ .path mount

/-- What is mounted at a path that is unclaimed is the root listing, at the empty path. -/
theorem Reachable.eq_root_of_unclaimed (reachable : session.Reachable) {mount : String}
    (unclaimed : session.Unclaimed mount) {index : Nat} {entry : Entry δ}
    (found : session.vfs.mounts.get? index = some entry) (atMount : entry.point = .path mount)
    : index = 0 ∧ mount = "" := by
  obtain ⟨_, root, first, _, atEmpty⟩ := reachable.root_spec
  have isFirst : index = 0 := by
    by_contra notFirst
    obtain ⟨driver, given⟩ := reachable.rootFirst index entry found notFirst
    exact unclaimed index entry driver found given atMount
  subst isFirst
  obtain rfl := Option.some.inj (first.symm.trans found)
  exact ⟨rfl, MountPoint.path.inj (atMount.symm.trans atEmpty)⟩

/-- A driver that is mounted at an unclaimed path gets the paths that the mount path covers
most of, its own among them. Only at the empty path it gets none, for the root listing was
there first.
-/
theorem new_mount_gets_paths (reachable : session.Reachable) {mount : String} {driver : δ}
    {index : Nat}
    (registered
      : (session.begin (.register mount driver)).next = .returns (.mounted index))
    (unclaimed : session.Unclaimed mount)
    : ∃ root,
        session.vfs.mounts.get? 0 = some root
        ∧ root.driver = .root
        ∧ (∀ path,
            session.CoversMost mount path
            → (session.begin (.register mount driver)).session.vfs.resolve path
              = some
                  (if mount = "" then root
                    else ⟨session.vfs.mounts.nextSerial, index, .path mount, .given driver⟩))
        ∧ session.CoversMost mount mount
        ∧ index ≠ 0 := by
  have consistent := reachable.consistent
  obtain ⟨_, root, first, isRoot, atEmpty⟩ := reachable.root_spec
  obtain ⟨answer, returned, registers⟩ :=
    consistent.begin_registers mount driver index 0 0 (.register mount driver) (.head _)
  obtain rfl := Next.returns.inj (returned.symm.trans registered)
  cases registers with
  | mounted _ filled =>
      have notFirst : index ≠ 0 := by
        rintro rfl
        simp [MountTable.get?, filled.unused] at first
      refine ⟨root, first, isRoot, fun path most => ?_, session.coversMost_self mount, notFirst⟩
      obtain ⟨owner, resolved, _⟩ := consistent.tables.exists_resolve path
      obtain ⟨place, present, covers, _⟩ := MountTable.resolve_eq_some_iff.mp resolved
      obtain ⟨held, atHeld, covered⟩ := MountEntry.covers_iff.mp covers
      have shorter := most.longest place owner held present atHeld covered
      refine (filled.resolve consistent.tables.mounts resolved).trans ?_
      by_cases empty : mount = ""
      · subst empty
        obtain rfl : held = "" := String.utf8ByteSize_eq_zero_iff.mp (Nat.le_zero.mp shorter)
        obtain ⟨rfl, _⟩ := reachable.eq_root_of_unclaimed unclaimed present atHeld
        obtain rfl := Option.some.inj (first.symm.trans present)
        have lower : root.index < index := by
          rw [consistent.tables.mounts.index_eq present]
          exact Nat.pos_of_ne_zero notFirst
        rw [if_pos (.inr (.inr ⟨atHeld, lower⟩)), if_pos rfl]
      · have taken : owner.point ≠ .path mount := fun atMount =>
          empty (reachable.eq_root_of_unclaimed unclaimed present atMount).2
        rw [MountEntry.reach_eq atHeld, if_neg, if_neg empty]
        simp [most.covered, taken, shorter]

/-- On a new switch, a driver that is mounted at the empty path is accepted, and nothing leads
to it; one that is mounted elsewhere gets the paths there.
-/
theorem new_mount_gets_paths_of_empty_path
    : ∃ (session : Session String Unit) (root : Entry String),
        session.Reachable
        ∧ root.driver = .root
        ∧ (session.begin (.register "" "rest")).next = .returns (.mounted 1)
        ∧ (session.begin (.register "" "rest")).session.vfs.resolve "/f" = some root
        ∧ (session.begin (.register "/a" "disk")).next = .returns (.mounted 1)
        ∧ (session.begin (.register "/a" "disk")).session.vfs.resolve "/a"
          = some ⟨session.vfs.mounts.nextSerial, 1, .path "/a", .given "disk"⟩ := by
  have played
      : (playNew? ⟨4, 3⟩ []).any
          (fun (_, (session : Session String Unit)) =>
            session.vfs.mounts.slots.size = 1
            ∧ (session.vfs.register "" "rest").result = .ok 1
            ∧ (session.vfs.register "/a" "disk").result = .ok 1)
        = true := by decide +kernel
  obtain ⟨_, session, reachable, checked⟩ := exists_reachable_of_playNew? played
  obtain ⟨single, emptyPlaced, placed⟩ := of_decide_eq_true checked
  obtain ⟨_, root, first, isRoot, atEmpty⟩ := reachable.root_spec
  have alone {index : Nat} {entry : Entry String}
      (found : session.vfs.mounts.get? index = some entry)
      : entry = root := by
    have within := MountTable.lt_size_of_get? found
    obtain rfl : index = 0 := by omega
    exact Option.some.inj (found.symm.trans first)
  have unclaimed (mount : String) : session.Unclaimed mount := by
    intro index entry driver found given
    rw [alone found, isRoot] at given
    contradiction
  have most : session.CoversMost "" "/f" := by
    refine ⟨Path.covers_iff.mpr (.inl rfl), fun index entry held found atHeld _ => ?_⟩
    rw [alone found, atEmpty] at atHeld
    exact Nat.le_of_eq (congrArg _ (MountPoint.path.inj atHeld).symm)
  have emptyRegistered := begin_register_next emptyPlaced
  have registered := begin_register_next placed
  obtain ⟨other, otherFirst, otherRoot, unreached, _⟩ :=
    new_mount_gets_paths reachable emptyRegistered (unclaimed "")
  obtain ⟨_, _, _, reached, itself, _⟩ :=
    new_mount_gets_paths reachable registered (unclaimed "/a")
  exact ⟨session, other, reachable, otherRoot, emptyRegistered, unreached "/f" most, registered,
    reached "/a" itself⟩

end Session

end StorageSwitch
