import StorageSwitch.Vfs.Session

/-! Runs of a session: what comes from outside, in any order. A driver at work makes its
calls as moves of their own, so the states in the middle of a driver call are states of a
run, and calls nest to any depth.
-/

namespace StorageSwitch

/-- What can happen to a session next: somebody makes a call, be it a program or a driver
at work; the driver asked last answers; or the switch is dropped. Nothing keeps a run from
calling a dropped switch, so there are more runs than a program can make.
-/
inductive Move (δ σ : Type) where
  | call (call : Call δ)
  | reply (respond : Responder σ)
  | drop

/-- One step of a run: the session before it, what happened, and what it led to. -/
structure Moment (δ σ : Type) where
  before : Session δ σ
  move : Move δ σ
  step : Step δ σ

/-- A driver that opens every file under one number and every directory at one position,
closes whatever it is asked to, and provides no other operation.
-/
def Responder.obliging {σ : Type} (file : LocalFd) (position : σ) : Responder σ
  | .openFile _ _ _ => .ok file
  | .openDir _ => .ok (.own position)
  | .closeFile _ => .ok ()
  | .closeDir _ => .ok ()
  | request => request.fail .notSupported

/-- What the switch tells a caller by itself when all is well: that the call is done, or what
the caller gets, a mount, a descriptor or a stream.
-/
inductive Success where
  | done
  | mounted (index : Nat)
  | opened (fd : Fd)
  | streaming (stream : Nat)
  deriving DecidableEq

namespace Success

def answer {σ : Type} : Success → Answer σ
  | done => .done
  | mounted index => .mounted index
  | opened fd => .opened fd
  | streaming stream => .streaming stream

def fd? : Success → Option Fd
  | opened fd => some fd
  | _ => none

def stream? : Success → Option Nat
  | streaming stream => some stream
  | _ => none

theorem fd?_eq_some_iff {success : Success} {fd : Fd}
    : success.fd? = some fd ↔ success = .opened fd := by
  cases success <;> simp [fd?]

theorem stream?_eq_some_iff {success : Success} {stream : Nat}
    : success.stream? = some stream ↔ success = .streaming stream := by
  cases success <;> simp [stream?]

end Success

variable {δ σ : Type}

namespace Next

/-- The success that the caller is told of, if that is what comes next. -/
def success? : Next δ σ → Option Success
  | .returns .done => some .done
  | .returns (.mounted index) => some (.mounted index)
  | .returns (.opened fd) => some (.opened fd)
  | .returns (.streaming stream) => some (.streaming stream)
  | _ => none

theorem success?_eq_some_iff {next : Next δ σ} {success : Success}
    : next.success? = some success ↔ next = .returns success.answer := by
  constructor
  · intro told
    unfold success? at told
    split at told
    all_goals cases told
    all_goals rfl
  · rintro rfl
    cases success <;> rfl

instance (next : Next δ σ) (success : Success)
    : Decidable (next = .returns success.answer) :=
  decidable_of_iff _ success?_eq_some_iff

instance (next : Next δ σ) : Decidable (next = .returns .done) :=
  inferInstanceAs (Decidable (next = .returns Success.done.answer))

instance (next : Next δ σ) (fd : Fd) : Decidable (next = .returns (.opened fd)) :=
  inferInstanceAs (Decidable (next = .returns (Success.opened fd).answer))

/-- Whether something holds of all successes of a kind is seen from the one that is told. -/
def decideForall {α : Type} {part? : Success → Option α} {success : α → Success}
    (parts : ∀ {whole part}, part? whole = some part ↔ whole = success part)
    (next : Next δ σ) (holds : α → Prop) [DecidablePred holds]
    : Decidable (∀ part, next = .returns (success part).answer → holds part) :=
  decidable_of_iff (∀ part ∈ next.success?.bind part?, holds part) (by
    simp only [Option.mem_def, Option.bind_eq_some_iff, success?_eq_some_iff, parts,
      exists_eq_right])

instance (next : Next δ σ) (holds : Fd → Prop) [DecidablePred holds]
    : Decidable (∀ fd, next = .returns (.opened fd) → holds fd) :=
  decideForall Success.fd?_eq_some_iff next holds

instance (next : Next δ σ) (holds : Nat → Prop) [DecidablePred holds]
    : Decidable (∀ stream, next = .returns (.streaming stream) → holds stream) :=
  decideForall Success.stream?_eq_some_iff next holds

end Next

namespace Session

/-- The step that a move leads to. An answer needs a call that waits for it. -/
def move? (session : Session δ σ) : Move δ σ → Option (Step δ σ)
  | .call call => some (session.begin call)
  | .reply respond => session.resume? respond
  | .drop => some (session.drop.answer .done)

/-- A run from `start`: its moments, the latest first, and the session that it ends in. -/
inductive Run (start : Session δ σ) : List (Moment δ σ) → Session δ σ → Prop
  | rest : Run start [] start
  | next {history session move step} (run : Run start history session)
    (moved : session.move? move = some step)
    : Run start (⟨session, move, step⟩ :: history) step.session

/-- Makes moves one after another. The result is the run as a history and a session. -/
def play? (session : Session δ σ)
    : List (Move δ σ) → Option (List (Moment δ σ) × Session δ σ)
  | [] => some ([], session)
  | move :: moves =>
      match session.move? move with
      | none => none
      | some step =>
          (step.session.play? moves).map fun (later, last) =>
            (later ++ [⟨session, move, step⟩], last)

/-- Makes moves one after another, beginning with a new session. -/
def playNew? (config : Config) (moves : List (Move δ σ))
    : Option (List (Moment δ σ) × Session δ σ) :=
  match create config with
  | .error _ => none
  | .ok (start, _) => start.play? moves

/-- The sessions that some run of a new session ends in. -/
def Reachable (session : Session δ σ) : Prop :=
  ∃ config start notices history,
    create config = .ok (start, notices) ∧ start.Run history session

/-- A driver may take a session to another one before it answers: a run during which the
calls that wait at its beginning keep waiting, and after which no others do.
-/
def Interlude (session after : Session δ σ) : Prop :=
  ∃ history,
    session.Run history after
    ∧ (∀ moment ∈ history, session.pending <:+ moment.step.session.pending)
    ∧ after.pending = session.pending

/-- The session while one more call waits for its driver. -/
def wait (session : Session δ σ) (frame : Frame δ σ) : Session δ σ :=
  { session with pending := frame :: session.pending }

theorem eq_wait_of_pending {session : Session δ σ} {frame : Frame δ σ}
    {rest : List (Frame δ σ)} (waiting : session.pending = frame :: rest)
    : session = ({ session with pending := rest } : Session δ σ).wait frame := by
  rw [wait, ← waiting]

/-- The driver asked last can answer, and the call that waits for it goes on. -/
theorem resume?_eq_some_iff {session : Session δ σ} {respond : Responder σ}
    {step : Step δ σ}
    : session.resume? respond = some step
      ↔ ∃ (resumed : Session δ σ) (frame : Frame δ σ),
          session = resumed.wait frame ∧ step = (resumed.finish respond frame).settle := by
  constructor
  · intro resumes
    unfold resume? at resumes
    split at resumes
    · contradiction
    · rename_i frame rest waiting
      exact ⟨_, frame, eq_wait_of_pending waiting, (Option.some.inj resumes).symm⟩
  · rintro ⟨resumed, frame, rfl, rfl⟩
    rfl

/-- A property of sessions that every stage of a call keeps: its beginning, and its going
on after an answer. A call that asks a driver next counts as waiting for it.
-/
structure Stable (kept : Session δ σ → Prop) : Prop where
  start
    : ∀ {session : Session δ σ} call,
        kept session → kept (session.start call).suspend.session
  finish
    : ∀ {session : Session δ σ} respond frame,
        kept (session.wait frame) → kept (session.finish respond frame).suspend.session
  drop : ∀ {session : Session δ σ}, kept session → kept session.drop

variable {start middle session after : Session δ σ} {history later : List (Moment δ σ)}

/-- Runs compose. Witness: induction on the second run. -/
theorem Run.trans (first : start.Run history middle) (second : middle.Run later session)
    : start.Run (later ++ history) session := by
  induction second with
  | rest => exact first
  | next _ moved ih => exact .next ih moved

/-- A run can be cut at each of its moments. Witness: induction on the moments after it. -/
theorem Run.cut {moment : Moment δ σ} {earlier : List (Moment δ σ)}
    (run : start.Run (later ++ moment :: earlier) session)
    : start.Run earlier moment.before
      ∧ moment.before.move? moment.move = some moment.step
      ∧ moment.step.session.Run later session := by
  induction later generalizing session with
  | nil =>
      cases run with
      | next run moved => exact ⟨run, moved, .rest⟩
  | cons last later ih =>
      cases run with
      | next run moved =>
          obtain ⟨first, made, second⟩ := ih run
          exact ⟨first, made, .next second moved⟩

/-- After a moment of a run, every session is one that this moment or a later one has led
to.
-/
theorem Run.exists_last {moment : Moment δ σ} {earlier : List (Moment δ σ)}
    (run : start.Run (later ++ moment :: earlier) session)
    : ∃ last ∈ moment :: later, session = last.step.session := by
  cases later with
  | nil =>
      cases run
      exact ⟨_, .head _, rfl⟩
  | cons last later =>
      cases run
      exact ⟨_, .tail _ (.head _), rfl⟩

theorem play?_cons {move : Move δ σ} {step : Step δ σ} {moves : List (Move δ σ)}
    (moved : session.move? move = some step)
    (played : step.session.play? moves = some (later, after))
    : session.play? (move :: moves) = some (later ++ [⟨session, move, step⟩], after) := by
  simp only [play?, moved, played, Option.map_some]

/-- What is played is a run. Witness: induction on the moves. -/
theorem run_of_play? {moves : List (Move δ σ)}
    (played : start.play? moves = some (history, session))
    : start.Run history session := by
  induction moves generalizing start history with
  | nil =>
      obtain ⟨rfl, rfl⟩ := Prod.mk.inj (Option.some.inj played)
      exact .rest
  | cons move moves ih =>
      unfold play? at played
      split at played
      · contradiction
      · rename_i step moved
        obtain ⟨⟨later, last⟩, rest, same⟩ := Option.map_eq_some_iff.mp played
        obtain ⟨rfl, rfl⟩ := Prod.mk.inj same
        exact (Run.next .rest moved).trans (ih rest)

theorem moves_of_play? {moves : List (Move δ σ)}
    (played : start.play? moves = some (history, session))
    : history.map (·.move) = moves.reverse := by
  induction moves generalizing start history with
  | nil =>
      obtain ⟨rfl, _⟩ := Prod.mk.inj (Option.some.inj played)
      rfl
  | cons move moves ih =>
      unfold play? at played
      split at played
      · contradiction
      · obtain ⟨⟨later, last⟩, rest, same⟩ := Option.map_eq_some_iff.mp played
        obtain ⟨rfl, rfl⟩ := Prod.mk.inj same
        rw [List.map_append, ih rest, List.reverse_cons]
        rfl

theorem exists_run_of_playNew? {config : Config} {moves : List (Move δ σ)}
    (played : playNew? config moves = some (history, session))
    : ∃ start notices,
        create config = .ok (start, notices) ∧ start.Run history session := by
  unfold playNew? at played
  split at played
  · contradiction
  · rename_i start notices made
    exact ⟨start, notices, made, run_of_play? played⟩

theorem exists_reachable_of_playNew? {config : Config} {moves : List (Move δ σ)}
    {holds : List (Moment δ σ) × Session δ σ → Bool}
    (played : (playNew? config moves).any holds = true)
    : ∃ history session, session.Reachable ∧ holds (history, session) = true := by
  obtain ⟨⟨history, session⟩, played, held⟩ := (Option.any_eq_true _ _).mp played
  obtain ⟨start, notices, made, run⟩ := exists_run_of_playNew? played
  exact ⟨history, session, ⟨config, start, notices, history, made, run⟩, held⟩

theorem Reachable.run (reachable : middle.Reachable) (run : middle.Run history session)
    : session.Reachable := by
  obtain ⟨config, start, notices, before, made, earlier⟩ := reachable
  exact ⟨config, start, notices, _, made, earlier.trans run⟩

theorem Reachable.move {move : Move δ σ} {step : Step δ σ} (reachable : session.Reachable)
    (moved : session.move? move = some step)
    : step.session.Reachable :=
  reachable.run (.next .rest moved)

theorem Reachable.begin (reachable : session.Reachable) (call : Call δ)
    : (session.begin call).session.Reachable := by
  have moved : session.move? (.call call) = some (session.begin call) := rfl
  exact reachable.move moved

theorem Reachable.interlude (reachable : session.Reachable)
    (interlude : session.Interlude after)
    : after.Reachable := by
  obtain ⟨_, run, _⟩ := interlude
  exact reachable.run run

theorem Interlude.pending (interlude : session.Interlude after)
    : after.pending = session.pending := by
  obtain ⟨_, _, _, same⟩ := interlude
  exact same

/-- What a call keeps by going on after an answer of the root listing, it keeps when the root
listing answers at once.
-/
theorem answerRoot_keeps {kept : Session δ σ → Prop}
    (finish
      : ∀ {session : Session δ σ} frame,
          frame.entry.driver = .root → kept (session.wait frame)
          → kept (session.finish session.respondAsRoot frame).suspend.session)
    {step : Step δ σ} (holds : kept step.suspend.session)
    : kept step.answerRoot.suspend.session := by
  obtain ⟨session, notices, next⟩ := step
  unfold Step.answerRoot
  cases next with
  | returns answer => exact holds
  | calls frame =>
      cases asked : frame.entry.driver with
      | given driver => simpa only [asked] using holds
      | root =>
          have finished := finish frame asked holds
          revert finished
          simp only [asked, Step.suspend]
          cases (session.finish session.respondAsRoot frame).next <;> exact id

/-- And it keeps it until the step is settled. -/
theorem settle_keeps {kept : Session δ σ → Prop}
    (finish
      : ∀ {session : Session δ σ} frame,
          frame.entry.driver = .root → kept (session.wait frame)
          → kept (session.finish session.respondAsRoot frame).suspend.session)
    {step : Step δ σ} (holds : kept step.suspend.session)
    : kept step.settle.session :=
  answerRoot_keeps finish (answerRoot_keeps finish holds)

theorem Stable.settle {kept : Session δ σ → Prop} (stable : Stable kept) {step : Step δ σ}
    (holds : kept step.suspend.session)
    : kept step.settle.session :=
  settle_keeps (fun frame _ => stable.finish _ frame) holds

theorem Stable.move {kept : Session δ σ → Prop} (stable : Stable kept) {move : Move δ σ}
    {step : Step δ σ} (holds : kept session) (moved : session.move? move = some step)
    : kept step.session := by
  cases move with
  | call call =>
      obtain rfl := Option.some.inj moved
      exact stable.settle (stable.start call holds)
  | reply respond =>
      obtain ⟨resumed, frame, rfl, rfl⟩ := resume?_eq_some_iff.mp moved
      exact stable.settle (stable.finish respond frame holds)
  | drop =>
      obtain rfl := Option.some.inj moved
      exact stable.drop holds

/-- What the stages of a call keep, every run keeps. Witness: induction on the run. -/
theorem Stable.run {kept : Session δ σ → Prop} (stable : Stable kept) (holds : kept start)
    (run : start.Run history session)
    : kept session := by
  induction run with
  | rest => exact holds
  | next _ moved ih => exact stable.move ih moved

end Session

namespace Step

variable {step : Step δ σ} {frame : Frame δ σ}

theorem settle_of_returns {answer : Answer σ} (returned : step.next = .returns answer)
    : step.settle = step := by
  simp [settle, answerRoot, suspend, returned]

theorem settle_of_given {driver : δ} (next : step.next = .calls frame)
    (given : frame.entry.driver = .given driver)
    : step.settle = { step with session := step.session.wait frame } := by
  simp [settle, answerRoot, suspend, next, given, Session.wait]

/-- If the root listing is asked next and has the last word, its answer settles the step.
-/
theorem settle_of_root {answer : Answer σ} (next : step.next = .calls frame)
    (root : frame.entry.driver = .root)
    (returned : (step.session.finish step.session.respondAsRoot frame).next = .returns answer)
    : step.settle
      = ⟨(step.session.finish step.session.respondAsRoot frame).session,
          step.notices ++ (step.session.finish step.session.respondAsRoot frame).notices,
          .returns answer⟩ := by
  simp [settle, answerRoot, suspend, next, root, returned]

/-- So a call that only asks the root listing goes on with its answer. -/
theorem settle_ask_of_root {session : Session δ σ} {answer : Answer σ}
    (root : frame.entry.driver = .root)
    (returned : (session.finish session.respondAsRoot frame).next = .returns answer)
    : (session.ask frame).settle = session.finish session.respondAsRoot frame := by
  refine (settle_of_root rfl root returned).trans ?_
  rw [← returned]
  rfl

/-- The call has just asked an entry's driver, and whatever the driver does before it
answers, and whatever it answers, the call goes on with a step that is right for the
session that the driver returns to and for its reply.
-/
def Asks (step : Step δ σ) (entry : Entry δ) (request : Request σ)
    (right : Session δ σ → request.Reply → Step δ σ → Prop) : Prop :=
  (∃ frame, step.next = .calls frame ∧ frame.entry = entry ∧ frame.request = request)
  ∧ ∀ after respond,
      step.session.Interlude after
      → ∃ next, after.resume? respond = some next ∧ right after (respond request) next

/-- Whatever a registered driver does before it answers, the call then waits for it still. -/
theorem exists_wait_of_interlude {driver : δ} {after : Session δ σ}
    (next : step.next = .calls frame) (given : frame.entry.driver = .given driver)
    (interlude : step.settle.session.Interlude after)
    : ∃ resumed : Session δ σ, after = resumed.wait frame := by
  have same : after.pending = frame :: step.session.pending := by
    rw [interlude.pending, settle_of_given next given]
    rfl
  exact ⟨_, Session.eq_wait_of_pending same⟩

/-- A call that asks a registered driver asks for what its frame says, and goes on by
finishing the frame.
-/
theorem settle_asks {driver : δ} {right : Session δ σ → frame.request.Reply → Step δ σ → Prop}
    (next : step.next = .calls frame) (given : frame.entry.driver = .given driver)
    (goesOn
      : ∀ (resumed : Session δ σ) (respond : Responder σ),
          step.settle.session.Interlude (resumed.wait frame)
          → right (resumed.wait frame) (respond frame.request)
              (resumed.finish respond frame).settle)
    : step.settle.Asks frame.entry frame.request right := by
  refine ⟨⟨frame, by rw [settle_of_given next given, next], rfl, rfl⟩, ?_⟩
  intro after respond interlude
  obtain ⟨resumed, rfl⟩ := exists_wait_of_interlude next given interlude
  exact ⟨_, Session.resume?_eq_some_iff.mpr ⟨_, frame, rfl, rfl⟩,
    goesOn resumed respond interlude⟩

end Step

end StorageSwitch
