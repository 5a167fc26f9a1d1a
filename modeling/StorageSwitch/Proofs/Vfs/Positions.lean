import StorageSwitch.Proofs.Vfs.Exchanges

/-! Which positions of directory streams drivers have handed out, and which are handed back.
A position goes by the number of its stream, which it takes even if its mount has gone and
no stream comes of it.
-/

namespace StorageSwitch

variable {δ σ : Type}

theorem filterMap_singleton {α β : Type} (read : α → Option β) (a : α)
    : [a].filterMap read = (read a).toList := by
  rw [List.filterMap_cons]
  cases read a <;> rfl

/-- Among items with different keys, a key finds one. -/
theorem filter_eq_singleton {α β : Type} [DecidableEq β] (key : α → β) {items : List α}
    (distinct : (items.map key).Nodup) {item : α} (member : item ∈ items)
    : items.filter (key · = key item) = [item] := by
  induction items with
  | nil => contradiction
  | cons first rest ih =>
      obtain ⟨fresh, others⟩ := List.nodup_cons.mp distinct
      rcases List.mem_cons.mp member with rfl | later
      · have unmatched : rest.filter (key · = key item) = [] := by
          refine List.filter_eq_nil_iff.mpr fun other member same => fresh ?_
          exact List.mem_map.mpr ⟨other, member, of_decide_eq_true same⟩
        rw [List.filter_cons_of_pos (by simp), unmatched]
      · have other : key first ≠ key item := fun same =>
          fresh (same ▸ List.mem_map_of_mem later)
        rw [List.filter_cons_of_neg (by simpa using other), ih others later]

/-- The numbers of the streams, and the entries that their positions came from. -/
def owners (streams : List (Nat × DirStream δ σ)) : List (Nat × Entry δ) :=
  streams.map fun held => (held.1, held.2.entry)

theorem owners_append (first second : List (Nat × DirStream δ σ))
    : owners (first ++ second) = owners first ++ owners second :=
  List.map_append

/-- The stream whose position is handed back, if the call asks a driver for that. -/
def Frame.closes? : Frame δ σ → Option (Nat × DirStream δ σ)
  | .discarding stream lost => some (stream, lost)
  | .ending stream ended _ => some (stream, ended)
  | _ => none

/-- The stream that is lent to the driver while the call waits. -/
def Frame.lent? : Frame δ σ → Option (Nat × DirStream δ σ)
  | .moving stream lent _ => some (stream, lent)
  | _ => none

/-- The position that is handed back next. -/
def Next.closes? (next : Next δ σ) : Option (Nat × DirStream δ σ) :=
  next.asked?.bind Frame.closes?

namespace Moment

/-- The positions that drivers hand out at the moment. -/
def obtained (moment : Moment δ σ) : List (Nat × DirStream δ σ) :=
  moment.exchanges.filterMap Exchange.obtained?

/-- The positions that are handed back at the moment. -/
def handedBack (moment : Moment δ σ) : List (Nat × DirStream δ σ) :=
  moment.asked.filterMap Frame.closes?

/-- A stream is closed or dropped. Nobody can do so while it is lent to a driver. -/
def Ends (moment : Moment δ σ) (stream : Nat) : Prop :=
  (moment.move = .call (.closeDir stream) ∨ moment.move = .call (.dropDir stream))
  ∧ ∀ frame ∈ moment.before.pending, frame.lent?.map (·.1) ≠ some stream

end Moment

/-- The entries whose drivers were handed back the position with a number. -/
def handBacks (history : List (Moment δ σ)) (stream : Nat) : List (Entry δ) :=
  ((owners (history.flatMap Moment.handedBack)).filter (·.1 = stream)).map (·.2)

namespace Session

variable {session before middle after : Session δ σ}
  {obtained handedBack : List (Nat × DirStream δ σ)}

/-- The positions that are yet to be handed back: those of open streams, and those lent to
drivers.
-/
def held (session : Session δ σ) : List (Nat × Entry δ) :=
  owners session.streams ++ owners (session.pending.filterMap Frame.lent?)

/-- From one session to the other, the positions handed out have taken the next numbers,
and whatever was held or has been handed out has been handed back or is held, each
occurrence once.
-/
structure Accounts (before : Session δ σ) (obtained handedBack : List (Nat × DirStream δ σ))
    (after : Session δ σ) : Prop where
  numbers
    : (List.range before.nextStream ++ obtained.map (·.1)).Perm (List.range after.nextStream)
  positions : (before.held ++ owners obtained).Perm (owners handedBack ++ after.held)

namespace Accounts

/-- Neither is a position handed out nor is one handed back. -/
theorem unchanged (number : after.nextStream = before.nextStream)
    (same : before.held.Perm after.held)
    : before.Accounts [] [] after where
  numbers := by rw [number, List.map_nil, List.append_nil]
  positions := by simpa [owners] using same

theorem perm (accounts : before.Accounts obtained handedBack after)
    {obtained' handedBack' : List (Nat × DirStream δ σ)} (out : obtained.Perm obtained')
    (back : handedBack.Perm handedBack')
    : before.Accounts obtained' handedBack' after where
  numbers := ((out.map _).symm.append_left _).trans accounts.numbers
  positions :=
    ((out.map _).symm.append_left _).trans
      (accounts.positions.trans ((back.map _).append_right _))

theorem trans {obtained' handedBack' : List (Nat × DirStream δ σ)}
    (first : before.Accounts obtained handedBack middle)
    (second : middle.Accounts obtained' handedBack' after)
    : before.Accounts (obtained ++ obtained') (handedBack ++ handedBack') after where
  numbers := by
    rw [List.map_append, ← List.append_assoc]
    exact (first.numbers.append_right _).trans second.numbers
  positions := by
    simp only [owners_append]
    rw [← List.append_assoc, List.append_assoc (owners handedBack)]
    refine (first.positions.append_right _).trans ?_
    rw [List.append_assoc]
    exact second.positions.append_left _

end Accounts

end Session

-----------------------------------------------------------------------------------------
-- One law for every stage of a call
-----------------------------------------------------------------------------------------

open Session in
/-- What an answer does to positions: an opened directory's is handed out, and it is handed
back at once if no stream comes of it; a stream that was lent is open again.
-/
theorem Exchange.accounts (exchange : Exchange δ σ)
    : (exchange.session.wait exchange.frame).Accounts exchange.obtained?.toList
        exchange.step.next.closes?.toList exchange.step.suspend.session := by
  obtain ⟨session, frame, respond⟩ := exchange
  cases frame with
  | relaying | undoing | discarding | ending => exact .unchanged rfl .rfl
  | opening entry path flags mode =>
      simp only [Exchange.step, Session.finish, Session.bindOpened]
      repeat' split
      all_goals exact .unchanged rfl .rfl
  | closing entry fd binding =>
      simp only [Exchange.step, Session.finish, Session.freeClosed]
      split <;> exact .unchanged rfl .rfl
  | moving stream lent call => exact .unchanged rfl List.perm_middle
  | listing entry path =>
      simp only [Exchange.step, Session.finish, Exchange.obtained?]
      cases respond (.openDir (entry.relative path)) with
      | error => exact .unchanged rfl .rfl
      | ok state =>
          have next
              : (List.range session.nextStream ++ [session.nextStream]).Perm
                  (List.range (session.nextStream + 1)) := by
            rw [List.range_succ]
          simp only [Session.listOpened]
          split
          · exact ⟨next, List.perm_append_singleton _ _⟩
          · exact ⟨next, List.perm_append_comm⟩

namespace Session

variable {session : Session δ σ} {move : Move δ σ} {step : Step δ σ}

/-- The beginning of a call hands nothing out, and hands a position back if it ends the
stream.
-/
theorem Consistent.start_accounts (consistent : session.Consistent) (call : Call δ)
    : session.Accounts [] (session.start call).next.closes?.toList
        (session.start call).suspend.session := by
  have taken {stream : Nat} {dir : DirStream δ σ}
      (found : session.stream? stream = some dir)
      : session.held.Perm ((stream, dir.entry) :: (session.takeStream stream).held) := by
    have distinct := nodup_streams consistent.balanced.distinct
    exact ((streams_perm distinct found).map _).append_right _
  have starts := session.start_starts call
  generalize session.start call = step at starts ⊢
  cases starts with
  | returns returned _ same =>
      obtain ⟨after, notices, next⟩ := step
      dsimp only at returned same
      subst returned
      have number : after.nextStream = session.nextStream := by rw [same]
      have held : session.held.Perm after.held := by
        rw [same]
        exact .rfl
      exact .unchanged number held
  | @asks frame plain keeps =>
      cases frame with
      | discarding | ending => exact absurd rfl (keeps _)
      | moving => contradiction
      | _ => exact .unchanged rfl .rfl
  | lends call found => exact .unchanged rfl ((taken found).trans List.perm_middle.symm)
  | ends dropped notices found =>
      exact ⟨.of_eq (List.append_nil _),
        (List.Perm.of_eq (List.append_nil _)).trans (taken found)⟩

end Session

namespace Step

theorem answerRoot_accounts (step : Step δ σ)
    : step.suspend.session.Accounts (step.rootExchange?.toList.filterMap Exchange.obtained?)
        (step.rootExchange?.toList.filterMap (·.step.next.closes?))
        step.answerRoot.suspend.session := by
  rcases step.answerRoot_cases
    with ⟨none, same, _⟩ | ⟨exchange, answered, asks, before, after, goesOn⟩
  · rw [none, same]
    exact .unchanged rfl .rfl
  · have waits : step.suspend.session = exchange.session.wait exchange.frame := by
      rw [suspend, asks, before]
      rfl
    have same : step.answerRoot.suspend.session = exchange.step.suspend.session := by
      simp only [suspend, goesOn, after]
      split <;> simp only [after]
    rw [waits, same, answered, Option.toList_some, filterMap_singleton, filterMap_singleton]
    exact exchange.accounts

theorem settle_accounts (step : Step δ σ)
    : step.suspend.session.Accounts (step.rootExchanges.filterMap Exchange.obtained?)
        (step.rootExchanges.filterMap (·.step.next.closes?)) step.settle.session := by
  rw [rootExchanges, List.filterMap_append, List.filterMap_append]
  exact step.answerRoot_accounts.trans step.answerRoot.answerRoot_accounts

theorem nexts_closes (step : Step δ σ)
    : step.nexts.filterMap Next.closes?
      = step.next.closes?.toList ++ step.rootExchanges.filterMap (·.step.next.closes?) := by
  rw [nexts, ← List.singleton_append, List.filterMap_append, filterMap_singleton,
    List.filterMap_map]
  rfl

end Step

theorem Moment.handedBack_eq (moment : Moment δ σ)
    : moment.handedBack = moment.nexts.filterMap Next.closes? :=
  List.filterMap_filterMap

namespace Session

variable {start session : Session δ σ} {move : Move δ σ} {step : Step δ σ}
  {history : List (Moment δ σ)}

/-- What a move does to positions. -/
theorem Consistent.move_accounts (consistent : session.Consistent)
    (moved : session.move? move = some step)
    : session.Accounts (Moment.obtained ⟨session, move, step⟩)
        (Moment.handedBack ⟨session, move, step⟩) step.session := by
  obtain ⟨stage, staged, rfl⟩ := stage_of_move moved
  simp only [Moment.handedBack_eq, Moment.nexts, Moment.obtained, Moment.exchanges, staged,
    Option.elim_some, Step.nexts_closes, List.filterMap_append]
  refine Accounts.trans ?_ stage.settle_accounts
  cases move with
  | call call =>
      obtain rfl := Option.some.inj staged
      exact consistent.start_accounts call
  | drop =>
      obtain rfl := Option.some.inj staged
      exact .unchanged rfl .rfl
  | reply respond =>
      obtain ⟨exchange, answered, rfl⟩ := Option.map_eq_some_iff.mp staged
      have waits := eq_wait_of_exchange? answered
      simp only [answered, Option.toList_some, filterMap_singleton]
      exact waits ▸ exchange.accounts

/-- What a run does to positions. Witness: induction on the run. -/
theorem Run.accounts {config : Config} {notices : List Vfs.Notice}
    (made : create config = .ok (start, notices)) (run : start.Run history session)
    : start.Accounts (history.flatMap Moment.obtained) (history.flatMap Moment.handedBack)
        session := by
  induction run with
  | rest => exact .unchanged rfl .rfl
  | next run moved ih =>
      have consistent := stable_consistent.run (create_consistent made) run
      exact (ih.trans (consistent.move_accounts moved)).perm List.perm_append_comm
        List.perm_append_comm

-----------------------------------------------------------------------------------------
-- What has become of a position
-----------------------------------------------------------------------------------------

/-- In a run of a new switch, what has been handed out has been handed back or is held, each
position once, and no two positions have the same number.
-/
theorem Run.positions {config : Config} {notices : List Vfs.Notice}
    (made : create config = .ok (start, notices)) (run : start.Run history session)
    : (owners (history.flatMap Moment.obtained)).Perm
          (owners (history.flatMap Moment.handedBack) ++ session.held)
      ∧ ((owners (history.flatMap Moment.obtained)).map (·.1)).Nodup := by
  obtain ⟨numbers, positions⟩ := run.accounts made
  obtain ⟨vfs, _, rfl⟩ := create_eq_ok made
  have numbered := numbers.nodup_iff.mpr List.nodup_range
  refine ⟨positions, ?_⟩
  rw [owners, List.map_map]
  exact numbered

variable {config : Config} {notices : List Vfs.Notice} {stream : Nat} {dir : DirStream δ σ}

/-- A position that has been handed out has been handed back once to the entry that it
came from, or is held.
-/
theorem Run.handBacks_append (made : create config = .ok (start, notices))
    (run : start.Run history session) (out : (stream, dir) ∈ history.flatMap Moment.obtained)
    : handBacks history stream ++ (session.held.filter (·.1 = stream)).map (·.2)
      = [dir.entry] := by
  obtain ⟨positions, distinct⟩ := run.positions made
  have member : (stream, dir.entry) ∈ owners (history.flatMap Moment.obtained) :=
    List.mem_map.mpr ⟨_, out, rfl⟩
  have alone := filter_eq_singleton (·.1) distinct member
  have same := (positions.filter (·.1 = stream)).map (·.2)
  rw [alone, List.filter_append, List.map_append] at same
  exact List.perm_singleton.mp same.symm

theorem mem_handBacks {entry : Entry δ}
    : entry ∈ handBacks history stream
      ↔ ∃ moment ∈ history, ∃ last,
          (stream, last) ∈ moment.handedBack ∧ last.entry = entry := by
  simp only [handBacks, owners, List.mem_map, List.mem_filter, List.mem_flatMap,
    decide_eq_true_eq]
  constructor
  · rintro ⟨_, ⟨⟨⟨_, last⟩, ⟨moment, member, back⟩, rfl⟩, rfl⟩, rfl⟩
    exact ⟨moment, member, last, back, rfl⟩
  · rintro ⟨moment, member, last, back, rfl⟩
    exact ⟨_, ⟨⟨_, ⟨moment, member, back⟩, rfl⟩, rfl⟩, rfl⟩

/-- A position that has been handed out has been handed back once if it has been handed
back.
-/
theorem Run.handBacks_of_handedBack (made : create config = .ok (start, notices))
    (run : start.Run history session) (out : (stream, dir) ∈ history.flatMap Moment.obtained)
    {moment : Moment δ σ} (member : moment ∈ history) {last : DirStream δ σ}
    (back : (stream, last) ∈ moment.handedBack)
    : handBacks history stream = [dir.entry] := by
  have some := mem_handBacks.mpr ⟨moment, member, last, back, rfl⟩
  rcases List.append_eq_singleton_iff.mp (run.handBacks_append made out)
    with ⟨none, _⟩ | ⟨one, _⟩
  · rw [none] at some
    contradiction
  · exact one

/-- It has been handed back as well if its stream is neither open nor lent. -/
theorem Run.handBacks_of_not_held (made : create config = .ok (start, notices))
    (run : start.Run history session) (out : (stream, dir) ∈ history.flatMap Moment.obtained)
    (free : ∀ entry, (stream, entry) ∉ session.held)
    : handBacks history stream = [dir.entry] := by
  have none : session.held.filter (·.1 = stream) = [] := by
    refine List.filter_eq_nil_iff.mpr fun held member same => ?_
    obtain rfl := of_decide_eq_true same
    exact free held.2 member
  simpa [none] using run.handBacks_append made out

/-- If there is no stream to end, it has ended or is lent. -/
theorem not_held_of_stream? (none : session.stream? stream = none)
    (returned : ∀ frame ∈ session.pending, frame.lent?.map (·.1) ≠ some stream)
    (entry : Entry δ)
    : (stream, entry) ∉ session.held := by
  intro held
  rcases List.mem_append.mp held with opened | waits
  · obtain ⟨⟨_, dir⟩, member, same⟩ := List.mem_map.mp opened
    obtain ⟨rfl, _⟩ := Prod.mk.inj same
    have absent := List.lookup_eq_none_iff.mp none _ member
    simp at absent
  · obtain ⟨⟨_, lent⟩, member, same⟩ := List.mem_map.mp waits
    obtain ⟨rfl, _⟩ := Prod.mk.inj same
    obtain ⟨frame, waiting, lends⟩ := List.mem_filterMap.mp member
    exact returned frame waiting (by rw [lends]; rfl)

/-- The driver of an open stream is asked to close it when the stream is ended. -/
theorem handedBack_of_ends {moment : Moment δ σ} (ends : moment.Ends stream)
    (found : moment.before.stream? stream = some dir)
    : (stream, dir) ∈ moment.handedBack := by
  have closes {dropped : Bool}
      (begun
        : moment.before.stage? moment.move = some (moment.before.endStream stream dropped))
      : (stream, dir) ∈ moment.handedBack := by
    rw [Moment.handedBack_eq, Moment.nexts, begun]
    refine List.mem_filterMap.mpr ⟨.calls (.ending stream dir dropped), ?_, rfl⟩
    simp [Step.nexts, endStream, found]
  rcases ends.1 with closed | dropped
  · exact closes (by rw [closed]; rfl)
  · exact closes (by rw [dropped]; rfl)

variable {later earlier : List (Moment δ σ)} {moment : Moment δ σ}

/-- A position has been handed back once its stream has been ended. -/
theorem Run.handBacks_of_ends (made : create config = .ok (start, notices))
    (run : start.Run (later ++ moment :: earlier) session)
    (out : (stream, dir) ∈ moment.obtained) {since : Moment δ σ} (after : since ∈ later)
    (ends : since.Ends stream)
    : handBacks (later ++ moment :: earlier) stream = [dir.entry] := by
  have outInAll : (stream, dir) ∈ (later ++ moment :: earlier).flatMap Moment.obtained :=
    List.mem_flatMap.mpr ⟨moment, List.mem_append_right _ (.head _), out⟩
  cases found : since.before.stream? stream with
  | some last =>
      exact run.handBacks_of_handedBack made outInAll (List.mem_append_left _ after)
        (handedBack_of_ends ends found)
  | none =>
      -- there is no stream to end, so the position was handed back before
      obtain ⟨last, between, rfl⟩ := List.append_of_mem after
      rw [List.append_assoc, List.cons_append] at run outInAll ⊢
      have outBefore
          : (stream, dir) ∈ (between ++ moment :: earlier).flatMap Moment.obtained :=
        List.mem_flatMap.mpr ⟨moment, List.mem_append_right _ (.head _), out⟩
      have before :=
        run.cut.1.handBacks_of_not_held made outBefore (not_held_of_stream? found ends.2)
      obtain ⟨once, member, final, back, _⟩ :=
        mem_handBacks.mp (before ▸ List.mem_singleton_self _)
      exact run.handBacks_of_handedBack made outInAll
        (List.mem_append_right _ (.tail _ member)) back

end Session

namespace Session

variable {start session : Session δ σ} {history later earlier : List (Moment δ σ)}
  {moment : Moment δ σ} {config : Config} {notices : List Vfs.Notice} {stream : Nat}
  {dir : DirStream δ σ}

/-- A position has been handed back if no stream came of it. -/
theorem Run.handBacks_of_lost (made : create config = .ok (start, notices))
    (run : start.Run (later ++ moment :: earlier) session)
    (out : (stream, dir) ∈ moment.obtained)
    (lost : moment.step.next ≠ .returns (.streaming stream))
    : handBacks (later ++ moment :: earlier) stream = [dir.entry] := by
  have member : moment ∈ later ++ moment :: earlier := List.mem_append_right _ (.head _)
  have outInAll := List.mem_flatMap.mpr ⟨moment, member, out⟩
  obtain ⟨exchange, answered, out⟩ := List.mem_filterMap.mp out
  have among := Moment.exchange_next_mem answered
  have goesOn := exchange.goesOn
  generalize exchange.step.next = next at among goesOn
  cases goesOn with
  | returns _ none | undoes _ _ none =>
      rw [none] at out
      contradiction
  | streams same =>
      obtain ⟨rfl, rfl⟩ := Prod.mk.inj (Option.some.inj (same.symm.trans out))
      exact absurd (Moment.next_of_returns run.cut.2.1 among) lost
  | @discards position same =>
      obtain ⟨rfl, rfl⟩ := Prod.mk.inj (Option.some.inj (same.symm.trans out))
      have back : (exchange.session.nextStream, position) ∈ moment.handedBack := by
        rw [Moment.handedBack_eq]
        exact List.mem_filterMap.mpr ⟨_, among, rfl⟩
      exact run.handBacks_of_handedBack made outInAll member back

/-- A position that has been handed back is not held any more. -/
theorem Run.not_held_of_handBacks (made : create config = .ok (start, notices))
    (run : start.Run history session) (out : (stream, dir) ∈ history.flatMap Moment.obtained)
    (back : handBacks history stream = [dir.entry]) (entry : Entry δ)
    : (stream, entry) ∉ session.held := by
  have whole := run.handBacks_append made out
  have nothing := List.append_cancel_left (whole.trans (back.symm.trans (List.append_nil _).symm))
  have none := List.map_eq_nil_iff.mp nothing
  intro held
  exact List.filter_eq_nil_iff.mp none _ held (decide_eq_true rfl)

end Session

end StorageSwitch
