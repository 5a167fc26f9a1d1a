import StorageSwitch.Proofs.Vfs.Effects

/-! Which drivers are asked in the course of a move and what they answer. The root listing
is asked and answers within one move; any other driver answers by a move of its own.
-/

namespace StorageSwitch

variable {δ σ : Type}

/-- A driver has answered: the session without the call that waited, that call, and the
answer.
-/
structure Exchange (δ σ : Type) where
  session : Session δ σ
  frame : Frame δ σ
  respond : Responder σ

/-- How the call goes on after the answer. -/
def Exchange.step (exchange : Exchange δ σ) : Step δ σ :=
  exchange.session.finish exchange.respond exchange.frame

/-- The position that a driver has handed out as its answer, with the number it takes. -/
def Exchange.obtained? (exchange : Exchange δ σ) : Option (Nat × DirStream δ σ) :=
  match exchange.frame with
  | .listing entry path =>
      match exchange.respond (.openDir (entry.relative path)) with
      | .error _ => none
      | .ok state => some (exchange.session.nextStream, ⟨entry, state⟩)
  | _ => none

/-- The call that asks a driver next. -/
def Next.asked? : Next δ σ → Option (Frame δ σ)
  | .calls frame => some frame
  | .returns _ => none

namespace Step

/-- The answer of the root listing, if it is asked next. -/
def rootExchange? (step : Step δ σ) : Option (Exchange δ σ) :=
  match step.next with
  | .returns _ => none
  | .calls frame =>
      match frame.entry.driver with
      | .given _ => none
      | .root => some ⟨step.session, frame, step.session.respondAsRoot⟩

/-- The answers of the root listing until the step is settled. -/
def rootExchanges (step : Step δ σ) : List (Exchange δ σ) :=
  step.rootExchange?.toList ++ step.answerRoot.rootExchange?.toList

/-- How the step goes on until it is settled: at first, and after each answer of the root
listing.
-/
def nexts (step : Step δ σ) : List (Next δ σ) :=
  step.next :: step.rootExchanges.map (·.step.next)

variable {step : Step δ σ} {frame : Frame δ σ}

/-- The root listing answers the call that asks it, and the step goes on as the call does;
any other step is left as it is.
-/
theorem answerRoot_cases (step : Step δ σ)
    : (step.rootExchange? = none ∧ step.answerRoot = step
        ∧ ∀ frame, step.next = .calls frame → ∃ driver, frame.entry.driver = .given driver)
      ∨ ∃ exchange,
          step.rootExchange? = some exchange
          ∧ step.next = .calls exchange.frame
          ∧ step.session = exchange.session
          ∧ step.answerRoot.session = exchange.step.session
          ∧ step.answerRoot.next = exchange.step.next := by
  unfold rootExchange? answerRoot
  cases next : step.next with
  | returns answer => exact .inl ⟨rfl, rfl, nofun⟩
  | calls frame =>
      cases asked : frame.entry.driver with
      | given driver =>
          refine .inl ⟨by simp [asked], by simp [asked], ?_⟩
          intro other same
          obtain rfl := Next.calls.inj same
          exact ⟨driver, asked⟩
      | root =>
          refine .inr ⟨⟨step.session, frame, step.session.respondAsRoot⟩, ?_⟩
          simp [asked, Exchange.step]

theorem settle_next (step : Step δ σ)
    : step.settle.next = step.answerRoot.answerRoot.next := by
  unfold settle suspend
  split <;> rfl

theorem answerRoot_of_returns {answer : Answer σ} (returned : step.next = .returns answer)
    : step.answerRoot = step := by
  rcases step.answerRoot_cases with ⟨_, same, _⟩ | ⟨exchange, _, next, _⟩
  · exact same
  · rw [returned] at next
    contradiction

/-- An answer to the caller settles the step. -/
theorem settle_next_of_returns {answer : Answer σ} (returned : .returns answer ∈ step.nexts)
    : step.settle.next = .returns answer := by
  have returns {step : Step δ σ}
      (returned : .returns answer ∈ step.rootExchange?.map (·.step.next))
      : step.answerRoot.next = .returns answer := by
    rcases step.answerRoot_cases with ⟨none, _⟩ | ⟨exchange, answered, _, _, _, next⟩
    · simp [none] at returned
    · rw [next]
      simpa [answered] using returned
  rw [settle_next]
  rcases List.mem_cons.mp returned with first | later
  · rw [answerRoot_of_returns first.symm, answerRoot_of_returns first.symm, ← first]
  · rw [rootExchanges, List.map_append] at later
    rcases List.mem_append.mp later with first | second
    · have first : .returns answer ∈ step.rootExchange?.map (·.step.next) := by
        simpa using first
      have returned := returns first
      rw [answerRoot_of_returns returned, returned]
    · exact returns (by simpa using second)

end Step

namespace Session

/-- How a call begins.
- `returns`: the caller gets an answer, though no stream; only the tables may have changed.
- `asks`: a driver is asked, but not to close a directory.
- `lends`: a driver is asked, and the stream is lent to it.
- `ends`: the stream is taken for good, and its driver is asked to close the directory.
-/
inductive Starts (session : Session δ σ) : Step δ σ → Prop
  | returns {step answer} (returned : step.next = .returns answer)
    (unmade : ∀ stream, answer ≠ .streaming stream)
    (same : step.session = { session with vfs := step.session.vfs })
    : Starts session step
  | asks {frame} (plain : frame.handle? = none)
    (keeps : ∀ state, frame.request ≠ .closeDir state)
    : Starts session (session.ask frame)
  | lends {stream dir} (call : StreamCall) (found : session.stream? stream = some dir)
    : Starts session ((session.takeStream stream).ask (.moving stream dir call))
  | ends {stream dir} (dropped : Bool) (notices : List Vfs.Notice)
    (found : session.stream? stream = some dir)
    : Starts session ⟨session.takeStream stream, notices, .calls (.ending stream dir dropped)⟩

theorem start_starts (session : Session δ σ) (call : Call δ)
    : session.Starts (session.start call) := by
  have fails {error notices}
      : session.Starts ⟨session, notices, .returns (.failed error)⟩ :=
    .returns rfl (by simp) rfl
  cases call with
  | register | registerRange | reserveRange | unregister =>
      refine .returns rfl ?_ rfl
      intro stream
      split <;> simp
  | openFile | openDir =>
      simp only [start, askAt]
      split
      · exact fails
      · exact .asks rfl (by simp [Frame.request])
  | onPath call =>
      simp only [start, askAt]
      split
      · exact fails
      · exact .asks rfl (by cases call <;> simp [Frame.request, PathCall.request])
  | onPair call =>
      simp only [start, askPair]
      repeat' split
      · exact fails
      · exact fails
      · exact .asks rfl (by cases call <;> simp [Frame.request, PairCall.request])
      · exact fails
  | closeFile =>
      simp only [start, askFd]
      split
      · exact fails
      · exact .asks rfl (by simp [Frame.request])
  | onFile call =>
      simp only [start, askFd]
      split
      · exact fails
      · exact .asks rfl (by cases call <;> simp [Frame.request, FileCall.request])
  | onStream call =>
      simp only [start, askStream]
      split
      · exact fails
      · split
        · exact .lends call ‹_›
        · exact .asks rfl (by cases call <;> simp [Frame.request, StreamCall.request])
  | closeDir | dropDir =>
      simp only [start, endStream]
      split
      · exact fails
      · exact .ends _ _ ‹_›

end Session

/-- How a call goes on after an answer.
- `returns`: the caller gets an answer, though no stream.
- `undoes`: the file that was opened is closed again.
- `streams`: the caller gets a stream of the directory that was opened.
- `discards`: the directory that was opened is closed again.
-/
inductive Exchange.GoesOn (exchange : Exchange δ σ) : Next δ σ → Prop
  | returns {answer} (unmade : ∀ stream, answer ≠ .streaming stream)
    (none : exchange.obtained? = none)
    : GoesOn exchange (.returns answer)
  | undoes (file : LocalFd) (error : Error) (none : exchange.obtained? = none)
    : GoesOn exchange (.calls (.undoing exchange.frame.entry file error))
  | streams {dir} (out : exchange.obtained? = some (exchange.session.nextStream, dir))
    : GoesOn exchange (.returns (.streaming exchange.session.nextStream))
  | discards {dir} (out : exchange.obtained? = some (exchange.session.nextStream, dir))
    : GoesOn exchange (.calls (.discarding exchange.session.nextStream dir))

theorem Exchange.goesOn (exchange : Exchange δ σ) : exchange.GoesOn exchange.step.next := by
  obtain ⟨session, frame, respond⟩ := exchange
  cases frame with
  | relaying | undoing | discarding | moving => exact .returns (by simp) rfl
  | ending stream ended dropped => exact .returns (by cases dropped <;> simp) rfl
  | opening entry path flags mode =>
      simp only [step, Session.finish, Session.bindOpened]
      split
      · exact .returns (by simp) rfl
      · split
        · exact .returns (by simp) rfl
        · exact .undoes _ _ rfl
  | closing entry fd binding =>
      simp only [step, Session.finish, Session.freeClosed]
      split <;> exact .returns (by simp) rfl
  | listing entry path =>
      simp only [step, Session.finish]
      cases opened : respond (.openDir (entry.relative path)) with
      | error => exact .returns (by simp) (by simp only [obtained?, opened])
      | ok state =>
          have out
              : obtained? ⟨session, .listing entry path, respond⟩
                = some (session.nextStream, ⟨entry, state⟩) := by
            simp only [obtained?, opened]
          simp only [Session.listOpened]
          split
          · exact .streams out
          · exact .discards out

namespace Step

/-- The root listing is never left waiting.
Witness: a call that it has answered can only ask it once more, to close something, and
that answer ends the call.
-/
theorem settle_next_given {step : Step δ σ} {frame : Frame δ σ}
    (next : step.settle.next = .calls frame)
    : ∃ driver, frame.entry.driver = .given driver := by
  rw [settle_next] at next
  rcases step.answerRoot_cases with ⟨_, same, given⟩ | ⟨first, _, _, _, _, goesOn⟩
  · rw [same, same] at next
    exact given frame next
  · rcases step.answerRoot.answerRoot_cases
      with ⟨_, same, given⟩ | ⟨second, _, asks, _, _, ends⟩
    · rw [same] at next
      exact given frame next
    · rw [goesOn] at asks
      rw [ends] at next
      -- what the second answer ends is one of the two calls that close something
      have closes := first.goesOn
      rw [asks] at closes
      obtain ⟨resumed, closing, respond⟩ := second
      cases closes <;> contradiction

end Step

namespace Session

variable {session : Session δ σ} {move : Move δ σ} {step : Step δ σ}

/-- The answer that goes to the call asked last. -/
def exchange? (session : Session δ σ) (respond : Responder σ) : Option (Exchange δ σ) :=
  match session.pending with
  | [] => none
  | frame :: rest => some ⟨{ session with pending := rest }, frame, respond⟩

theorem eq_wait_of_exchange? {respond : Responder σ} {exchange : Exchange δ σ}
    (answered : session.exchange? respond = some exchange)
    : session = exchange.session.wait exchange.frame := by
  unfold exchange? at answered
  split at answered
  · contradiction
  · rename_i frame rest waiting
    obtain rfl := Option.some.inj answered
    exact eq_wait_of_pending waiting

/-- What a move leads to before the root listing answers. -/
def stage? (session : Session δ σ) : Move δ σ → Option (Step δ σ)
  | .call call => some (session.start call)
  | .reply respond => (session.exchange? respond).map Exchange.step
  | .drop => some (session.drop.answer .done)

theorem move?_eq_map_stage? (session : Session δ σ) (move : Move δ σ)
    : session.move? move = (session.stage? move).map Step.settle := by
  cases move with
  | call call => rfl
  | reply respond =>
      simp only [move?, stage?, resume?, exchange?]
      cases session.pending <;> rfl
  | drop => rfl

/-- Every move is a stage that the root listing settles. -/
theorem stage_of_move (moved : session.move? move = some step)
    : ∃ stage, session.stage? move = some stage ∧ stage.settle = step := by
  rw [move?_eq_map_stage?] at moved
  exact Option.map_eq_some_iff.mp moved

/-- A call that waits goes on waiting until its driver, then the one asked last, answers. -/
theorem pending_of_move (moved : session.move? move = some step) {frame : Frame δ σ}
    (waiting : frame ∈ session.pending)
    : frame ∈ step.session.pending
      ∨ ∃ respond rest, move = .reply respond ∧ session.pending = frame :: rest := by
  have settled {stage : Step δ σ} (same : frame ∈ stage.session.pending)
      : frame ∈ stage.settle.session.pending := by
    rw [Step.settle_pending]
    split
    · exact .tail _ same
    · exact same
  cases move with
  | call call =>
      obtain rfl := Option.some.inj moved
      exact .inl (settled (by rwa [start_pending]))
  | drop =>
      obtain rfl := Option.some.inj moved
      exact .inl waiting
  | reply respond =>
      obtain ⟨resumed, other, rfl, rfl⟩ := resume?_eq_some_iff.mp moved
      rcases List.mem_cons.mp waiting with rfl | later
      · exact .inr ⟨respond, resumed.pending, rfl, rfl⟩
      · exact .inl (settled (by rwa [finish_pending]))

/-- Whoever waits after a move waited before, or waits for a registered driver. -/
theorem given_of_move (moved : session.move? move = some step) {frame : Frame δ σ}
    (waiting : frame ∈ step.session.pending)
    : frame ∈ session.pending ∨ ∃ driver, frame.entry.driver = .given driver := by
  have settled {stage : Step δ σ} (waiting : frame ∈ stage.settle.session.pending)
      : frame ∈ stage.session.pending ∨ ∃ driver, frame.entry.driver = .given driver := by
    rw [Step.settle_pending] at waiting
    split at waiting
    · rename_i asking next
      rcases List.mem_cons.mp waiting with rfl | same
      · exact .inr (Step.settle_next_given next)
      · exact .inl same
    · exact .inl waiting
  cases move with
  | call call =>
      obtain rfl := Option.some.inj moved
      simpa only [start_pending] using settled waiting
  | drop =>
      obtain rfl := Option.some.inj moved
      exact .inl waiting
  | reply respond =>
      obtain ⟨resumed, other, rfl, rfl⟩ := resume?_eq_some_iff.mp moved
      refine (settled waiting).imp_left fun same => ?_
      rw [finish_pending] at same
      exact .tail _ same

variable {start : Session δ σ} {history : List (Moment δ σ)}

/-- A call that waits at the beginning of a run and not at its end has been answered.
Witness: induction on the run.
-/
theorem Run.answered (run : start.Run history session) {frame : Frame δ σ}
    (waiting : frame ∈ start.pending) (done : frame ∉ session.pending)
    : ∃ moment ∈ history, ∃ respond rest,
        moment.move = .reply respond ∧ moment.before.pending = frame :: rest := by
  induction run with
  | rest => exact absurd waiting done
  | @next history session move step run moved ih =>
      by_cases still : frame ∈ session.pending
      · rcases pending_of_move moved still with waits | ⟨respond, rest, replies, last⟩
        · exact absurd waits done
        · exact ⟨_, .head _, respond, rest, replies, last⟩
      · obtain ⟨moment, member, answered⟩ := ih still
        exact ⟨moment, .tail _ member, answered⟩

/-- In a reachable session nobody waits for the root listing. Witness: induction on the run.
-/
theorem Reachable.pending_given (reachable : session.Reachable) {frame : Frame δ σ}
    (waiting : frame ∈ session.pending)
    : ∃ driver, frame.entry.driver = .given driver := by
  obtain ⟨config, start, notices, history, made, run⟩ := reachable
  induction run with
  | rest =>
      obtain ⟨vfs, _, rfl⟩ := create_eq_ok made
      contradiction
  | next _ moved ih =>
      rcases given_of_move moved waiting with waited | given
      · exact ih waited
      · exact given

end Session

namespace Moment

/-- What drivers have answered in the course of the moment. -/
def exchanges (moment : Moment δ σ) : List (Exchange δ σ) :=
  (match moment.move with
    | .reply respond => (moment.before.exchange? respond).toList
    | _ => [])
    ++ (moment.before.stage? moment.move).elim [] Step.rootExchanges

/-- How the call of the moment goes on, at first and after each answer. -/
def nexts (moment : Moment δ σ) : List (Next δ σ) :=
  (moment.before.stage? moment.move).elim [] Step.nexts

/-- The calls that ask a driver in the course of the moment. -/
def asked (moment : Moment δ σ) : List (Frame δ σ) := moment.nexts.filterMap Next.asked?

variable {moment : Moment δ σ}

/-- An answer to the caller ends the moment. -/
theorem next_of_returns (moved : moment.before.move? moment.move = some moment.step)
    {answer : Answer σ} (returned : .returns answer ∈ moment.nexts)
    : moment.step.next = .returns answer := by
  obtain ⟨stage, staged, settled⟩ := Session.stage_of_move moved
  rw [nexts, staged] at returned
  rw [← settled]
  exact Step.settle_next_of_returns returned

/-- After each answer of a driver the call of the moment goes on. -/
theorem exchange_next_mem {exchange : Exchange δ σ} (member : exchange ∈ moment.exchanges)
    : exchange.step.next ∈ moment.nexts := by
  rcases List.mem_append.mp member with first | later
  · obtain ⟨before, move, step⟩ := moment
    cases move with
    | call | drop => contradiction
    | reply respond =>
        obtain answered : before.exchange? respond = some exchange := by simpa using first
        simp [nexts, Session.stage?, answered, Step.nexts]
  · cases staged : moment.before.stage? moment.move with
    | none => simp [staged] at later
    | some stage =>
        have member : exchange ∈ stage.rootExchanges := by simpa [staged] using later
        simp only [nexts, staged]
        exact .tail _ (List.mem_map.mpr ⟨exchange, member, rfl⟩)

end Moment

end StorageSwitch
