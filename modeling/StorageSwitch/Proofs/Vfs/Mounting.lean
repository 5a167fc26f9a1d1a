import StorageSwitch.Proofs.Vfs.Routing

/-! Which mount paths are in the table: those that registration accepts. So the root
directory belongs to the root listing, and whoever cuts off the first byte of a mount path
cuts off a separator.
-/

namespace StorageSwitch

variable {δ σ : Type}

/-- A mount path that is accepted is empty or goes on after a separator. -/
theorem Path.validateMount_spec {mount : String} (valid : validateMount mount = .ok ())
    : mount = "" ∨ ∃ name, name ≠ "" ∧ mount = "/" ++ name := by
  rcases validateMount_eq_ok_iff.mp valid with empty | ⟨notOne, _, starts, _⟩
  · exact .inl empty
  · right
    obtain ⟨rest, split⟩ := List.head?_eq_some_iff.mp starts
    have whole : mount = "/" ++ String.ofList rest := by
      rw [← String.toList_inj, split]
      simp [separator]
    refine ⟨String.ofList rest, ?_, whole⟩
    intro lone
    rw [lone] at whole
    exact notOne (by rw [whole]; decide)

/-- Every mount path in the table is one that registration accepts. -/
def Vfs.Mountable (vfs : Vfs δ) : Prop :=
  ∀ index entry mount,
    vfs.mounts.get? index = some entry → entry.point = .path mount
    → Path.validateMount mount = .ok ()

namespace Session

variable {session : Session δ σ}

/-- A driver is only mounted at a path that is accepted. -/
theorem validateMount_of_begin_register {mount : String} {driver : δ} {index : Nat}
    (placed : (session.begin (.register mount driver)).next = .returns (.mounted index))
    : Path.validateMount mount = .ok () := by
  cases checked : Path.validateMount mount with
  | ok _ => rfl
  | error error =>
      simp [begin, start, apply_settle, Vfs.Change.answer, Vfs.register, checked] at placed

/-- A move puts no entry into a slot at any other path. -/
theorem Consistent.mountable_of_move (consistent : session.Consistent)
    (mountable : session.vfs.Mountable) {move : Move δ σ} {step : Step δ σ}
    (moved : session.move? move = some step)
    : step.session.vfs.Mountable := by
  intro index entry mount found atMount
  cases move_effect moved with
  | passed passes =>
      rw [passes.agrees.get?] at found
      exact mountable index entry mount found atMount
  | opened waiting _ bound _ =>
      obtain ⟨mounts, _⟩ := consistent.opened_spec waiting bound
      exact mountable index entry mount (mounts ▸ found) atMount
  | freed waiting _ released _ =>
      obtain ⟨mounts, _⟩ := consistent.freed_spec waiting
      rw [released, mounts] at found
      exact mountable index entry mount found atMount
  | edited edits reports returned =>
      obtain rfl := Option.some.inj moved
      rcases edits.get?_after consistent.tables found with old | ⟨rfl | ⟨min, max, rfl⟩, _⟩
      · exact mountable index entry mount old atMount
      · obtain ⟨⟨path, driver, rfl⟩, rfl⟩ := reports
        have valid := validateMount_of_begin_register returned
        obtain ⟨answer, answered, registers⟩ :=
          consistent.begin_registers path driver 0 0 0 (.register path driver) (.head _)
        obtain rfl := Next.returns.inj (answered.symm.trans returned)
        cases registers with
        | mounted _ filled =>
            rcases filled.get?_cases found with old | ⟨_, rfl⟩
            · exact mountable index entry mount old atMount
            · exact MountPoint.path.inj atMount ▸ valid
      · obtain ⟨⟨driver, rfl⟩, rfl⟩ := reports
        obtain ⟨answer, answered, registers⟩ :=
          consistent.begin_registers "" driver 0 min max (.registerRange driver min max)
            (.tail _ (.head _))
        obtain rfl := Next.returns.inj (answered.symm.trans returned)
        cases registers with
        | ranged filled _ =>
            rcases filled.get?_cases found with old | ⟨_, rfl⟩
            · exact mountable index entry mount old atMount
            · contradiction

/-- In every reachable session all mount paths are accepted ones. Witness: induction on the
run; the root listing is mounted at the empty path.
-/
theorem Reachable.mountable (reachable : session.Reachable) : session.vfs.Mountable := by
  obtain ⟨config, start, notices, history, made, run⟩ := reachable
  induction run with
  | rest =>
      obtain ⟨vfs, created, rfl⟩ := create_eq_ok made
      obtain ⟨_, rootIndex, mounts, fds, rooted, _, rfl⟩ := Vfs.eq_of_create created
      have blank := MountTable.wellFormed_empty (δ := Driver δ) config.maxMounts 0
      intro index entry mount found atMount
      rcases (blank.insert_eq_ok rooted).get?_cases found with old | ⟨_, rfl⟩
      · simp [MountTable.get?] at old
      · obtain rfl := MountPoint.path.inj atMount
        rfl
  | next run moved ih =>
      have consistent := stable_consistent.run (create_consistent made) run
      exact consistent.mountable_of_move ih moved

/-- Cutting the first byte off a mount path that is not empty leaves its name. -/
theorem Reachable.mount_spec (reachable : session.Reachable) {index : Nat} {entry : Entry δ}
    {mount : String} (found : session.vfs.mounts.get? index = some entry)
    (atMount : entry.point = .path mount) (notEmpty : mount ≠ "")
    : ∃ name,
        mount = "/" ++ name
        ∧ name ≠ ""
        ∧ Path.dropBytes 1 mount.toList = some name.toList := by
  have valid := reachable.mountable index entry mount found atMount
  obtain ⟨name, named, rfl⟩ := (Path.validateMount_spec valid).resolve_left notEmpty
  have cut := Path.dropBytes_rest "/" name.toList
  rw [String.ofList_toList] at cut
  exact ⟨name, rfl, named, cut⟩

/-- The root directory belongs to the root listing. Witness: only the empty mount path
covers it, and the root listing has the lowest slot.
-/
theorem Reachable.resolve_root (reachable : session.Reachable)
    : ∃ root,
        session.vfs.resolve "/" = some root
        ∧ session.vfs.mounts.get? root.index = some root
        ∧ root.driver = .root
        ∧ root.point = .path "" := by
  obtain ⟨_, root, found, isRoot, atEmpty⟩ := reachable.root_spec
  have covered : Path.covers "" "/" = true := Path.covers_iff.mpr (.inl rfl)
  refine ⟨root, ?_, ?_, isRoot, atEmpty⟩
  · refine MountTable.resolve_eq_some_iff.mpr
      ⟨0, found, MountEntry.covers_iff.mpr ⟨"", atEmpty, covered⟩, ?_⟩
    intro other rival rivalFound rivalCovers
    obtain ⟨mount, atMount, rivalCovered⟩ := MountEntry.covers_iff.mp rivalCovers
    have empty : mount = "" := by
      by_contra notEmpty
      obtain ⟨name, rfl, named, _⟩ := reachable.mount_spec rivalFound atMount notEmpty
      obtain ⟨rest, split, _⟩ := Path.exists_rest rivalCovered
      have nothing : name.toList ++ rest = [] := by
        simpa using (congrArg String.toList split).symm
      exact named (String.toList_eq_nil_iff.mp (List.append_eq_nil_iff.mp nothing).1)
    exact (MountTable.precedes_iff atEmpty atMount covered rivalCovered).mpr
      (.inr ⟨empty, Nat.zero_le _⟩)
  · rw [reachable.consistent.tables.mounts.index_eq found, found]

end Session

end StorageSwitch
