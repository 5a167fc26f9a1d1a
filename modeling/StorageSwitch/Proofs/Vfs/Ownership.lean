import StorageSwitch.Proofs.Vfs.Effects

/-! Every bound descriptor leads to the entry that it was given to: the one whose driver
opened the file, or the one that the range was reserved for. Slots are used again, so the
same slot number is not enough; the entry has to be the same.
-/

namespace StorageSwitch

variable {δ σ : Type}

/-- What a descriptor is given to: an entry and the entry's own descriptor, for good or
until it is closed.
-/
structure Grant (δ : Type) where
  entry : Entry δ
  file : LocalFd
  permanent : Bool

/-- The binding that a descriptor gets when it is given away. -/
def Grant.binding (grant : Grant δ) : Binding :=
  ⟨grant.entry.index, grant.file, grant.permanent⟩

/-- The descriptor is bound as it was given, and the entry that it was given to is in its
slot.
-/
def Vfs.Leads (vfs : Vfs δ) (fd : Fd) (grant : Grant δ) : Prop :=
  vfs.fds.get? fd = some grant.binding
  ∧ vfs.mounts.get? grant.entry.index = some grant.entry

/-- The moments at which a descriptor is given away.
- `opened`: the driver of the entry has opened the file, and the descriptor is returned.
- `registered`: it is in the range that an entry is registered with.
- `reserved`: it is in a range that is reserved for an entry registered before.
-/
inductive Moment.Grants : Moment δ σ → Fd → Grant δ → Prop
  | opened {before respond step entry path flags mode rest file fd}
    (waiting : before.pending = .opening entry path flags mode :: rest)
    (answered : respond (.openFile (entry.relative path) flags mode) = .ok file)
    (returned : step.next = .returns (.opened fd))
    : Grants ⟨before, .reply respond, step⟩ fd ⟨entry, file, false⟩
  | registered {before driver min max step index entry fd} (within : min ≤ fd ∧ fd ≤ max)
    (returned : step.next = .returns (.mounted index))
    (placed : step.session.vfs.mounts.get? index = some entry)
    : Grants ⟨before, .call (.registerRange driver min max), step⟩ fd ⟨entry, fd, true⟩
  | reserved {before index min max step entry fd} (within : min ≤ fd ∧ fd ≤ max)
    (returned : step.next = .returns .done)
    (placed : before.vfs.mounts.get? index = some entry)
    : Grants ⟨before, .call (.reserveRange index min max), step⟩ fd ⟨entry, fd, true⟩

namespace Session

variable {start session : Session δ σ} {history : List (Moment δ σ)}

/-- A descriptor that is bound after a registration or removal was bound before, and its
entry has stayed, or it was given away just now.
-/
theorem Consistent.bound_after_edits (consistent : session.Consistent) {call : Call δ}
    {edit : Vfs.Edit} {answer : Answer σ} {step : Step δ σ}
    (edits : session.vfs.Edits edit step.session.vfs) (reports : edit.Reports call answer)
    (returned : step.next = .returns answer) {fd : Fd} {binding : Binding}
    (bound : step.session.vfs.fds.get? fd = some binding)
    : (session.vfs.fds.get? fd = some binding
        ∧ ∀ entry,
            session.vfs.mounts.get? binding.mount = some entry
            → step.session.vfs.mounts.get? binding.mount = some entry)
      ∨ ∃ grant,
          Moment.Grants ⟨session, .call call, step⟩ fd grant
          ∧ step.session.vfs.Leads fd grant
          ∧ grant.binding = binding := by
  have tables := consistent.tables
  have stays (other : edit ≠ .unmounted binding.mount) (entry : Entry δ)
      (found : session.vfs.mounts.get? binding.mount = some entry)
      : step.session.vfs.mounts.get? binding.mount = some entry :=
    edits.get?_before tables found other
  have before := (edits.get?_eq_some_iff tables).mp bound
  -- whoever is in the slot of a fresh binding is the one that the range was reserved for
  obtain ⟨entry, placed⟩ := (edits.consistent tables).led fd binding bound
  have sameIndex := (edits.consistent tables).mounts.index_eq placed
  have granted {index : Nat} (fresh : binding = ⟨index, fd, true⟩)
      (grants : Moment.Grants ⟨session, .call call, step⟩ fd ⟨entry, fd, true⟩)
      : ∃ grant,
          Moment.Grants ⟨session, .call call, step⟩ fd grant
          ∧ step.session.vfs.Leads fd grant
          ∧ grant.binding = binding := by
    subst fresh
    have same : Grant.binding ⟨entry, fd, true⟩ = ⟨index, fd, true⟩ := by
      rw [Grant.binding, sameIndex]
    exact ⟨⟨entry, fd, true⟩, grants, ⟨same ▸ bound, sameIndex ▸ placed⟩, same⟩
  cases edit with
  | nothing | mounted => exact .inl ⟨before, stays (by simp)⟩
  | unmounted index => exact .inl ⟨before.1, stays (by simpa using Ne.symm before.2)⟩
  | ranged index min max =>
      dsimp only at before
      split at before
      · rename_i within
        obtain ⟨⟨driver, rfl⟩, rfl⟩ := reports
        rw [before] at placed
        exact .inr (granted before (.registered within returned placed))
      · exact .inl ⟨before, stays (by simp)⟩
  | reserved index min max =>
      dsimp only at before
      split at before
      · rename_i within
        obtain ⟨rfl, rfl⟩ := reports
        have present : session.vfs.mounts.get? index = some entry := by
          rw [before] at placed
          generalize step.session.vfs = after at edits placed
          cases edits
          exact placed
        exact .inr (granted before (.reserved within returned present))
      · exact .inl ⟨before, stays (by simp)⟩

/-- A descriptor that is bound after a move was bound before, and its entry has stayed, or
it was given away just now.
-/
theorem Consistent.bound_after (consistent : session.Consistent) {move : Move δ σ}
    {step : Step δ σ} (moved : session.move? move = some step) {fd : Fd} {binding : Binding}
    (bound : step.session.vfs.fds.get? fd = some binding)
    : (session.vfs.fds.get? fd = some binding
        ∧ ∀ entry,
            session.vfs.mounts.get? binding.mount = some entry
            → step.session.vfs.mounts.get? binding.mount = some entry)
      ∨ ∃ grant,
          Moment.Grants ⟨session, move, step⟩ fd grant
          ∧ step.session.vfs.Leads fd grant
          ∧ grant.binding = binding := by
  have tables := consistent.tables
  cases move_effect moved with
  | passed passes =>
      rw [passes.agrees.fds] at bound
      exact .inl ⟨bound, fun entry found => (passes.agrees.get? _).trans found⟩
  | edited edits reports returned =>
      exact consistent.bound_after_edits edits reports returned bound
  | @opened respond entry path flags mode rest file other _ waiting answered given returned =>
      obtain ⟨mounts, current, _, bindings⟩ := consistent.opened_spec waiting given
      have found := bound
      rw [bindings] at found
      split at found
      · rename_i sameFd
        subst sameFd
        obtain rfl := Option.some.inj found
        exact .inr ⟨⟨entry, file, false⟩, .opened waiting answered returned,
          ⟨bound, mounts ▸ current⟩, rfl⟩
      · exact .inl ⟨found, fun _ stayed => mounts ▸ stayed⟩
  | freed waiting supported released _ =>
      obtain ⟨mounts, bindings⟩ := consistent.freed_spec waiting
      rw [released, bindings] at bound
      split at bound
      · contradiction
      · exact .inl ⟨bound, fun _ stayed => released ▸ mounts ▸ stayed⟩

/-- In every run of a new switch, a bound descriptor was given away at some moment, and at
every moment since then it has led to the entry that it was given to.
Witness: induction on the run. A move either leaves the binding and its entry as they are,
or gives the descriptor away.
-/
theorem Run.exists_grant {config : Config} {notices : List Vfs.Notice}
    (made : create config = .ok (start, notices)) (run : start.Run history session) {fd : Fd}
    {binding : Binding} (bound : session.vfs.fds.get? fd = some binding)
    : ∃ later moment earlier grant,
        history = later ++ moment :: earlier
        ∧ moment.Grants fd grant
        ∧ (∀ since ∈ moment :: later, since.step.session.vfs.Leads fd grant)
        ∧ session.vfs.Leads fd grant
        ∧ grant.binding = binding := by
  induction run with
  | rest =>
      rw [create_unbound made] at bound
      contradiction
  | @next history session move step run moved ih =>
      have consistent := stable_consistent.run (create_consistent made) run
      rcases consistent.bound_after moved bound
        with ⟨before, stays⟩ | ⟨grant, grants, leads, same⟩
      · obtain ⟨later, moment, earlier, grant, cut, grants, since, leads, same⟩ := ih before
        subst same
        have still : step.session.vfs.Leads fd grant := ⟨bound, stays grant.entry leads.2⟩
        have unbroken
            : ∀ other ∈ moment :: ⟨session, move, step⟩ :: later,
                other.step.session.vfs.Leads fd grant := by
          intro other member
          rcases List.mem_cons.mp member with rfl | member
          · exact since other (.head _)
          · rcases List.mem_cons.mp member with rfl | member
            · exact still
            · exact since other (.tail _ member)
        exact ⟨⟨session, move, step⟩ :: later, moment, earlier, grant, by rw [cut]; rfl,
          grants, unbroken, still, rfl⟩
      · refine ⟨[], ⟨session, move, step⟩, history, grant, rfl, grants, ?_, leads, same⟩
        intro other member
        rw [List.mem_singleton.mp member]
        exact leads

end Session

end StorageSwitch
