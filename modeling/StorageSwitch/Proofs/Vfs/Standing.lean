import StorageSwitch.Proofs.Vfs.Positions

/-! What becomes of one stream number while others are used. An open stream stays as it is
until a call takes it, and a number whose stream has ended is never used again.
-/

namespace StorageSwitch

variable {δ σ : Type}

/-- The call takes the stream, to lend it to its driver or for good. -/
def Call.Takes : Call δ → Nat → Prop
  | .onStream call held, stream => call.lends = true ∧ held = stream
  | .closeDir held, stream | .dropDir held, stream => held = stream
  | _, _ => False

namespace Session

variable {session : Session δ σ} {stream held : Nat}
  {content : Option (DirStream δ σ)} {dir : DirStream δ σ}

theorem stream?_takeStream_self (stream : Nat)
    : (session.takeStream stream).stream? stream = none := by
  refine List.lookup_eq_none_iff.mpr fun held member => ?_
  have other : held.1 ≠ stream := of_decide_eq_true (List.mem_filter.mp member).2
  simp [Ne.symm other]

theorem stream?_takeStream_of_ne (other : stream ≠ held)
    : (session.takeStream held).stream? stream = session.stream? stream := by
  simp only [stream?, takeStream]
  induction session.streams with
  | nil => rfl
  | cons first rest ih =>
      by_cases taken : first.1 = held
      · rw [List.filter_cons_of_neg (by simpa using taken), ih, List.lookup_cons,
          beq_false_of_ne (taken ▸ other)]
      · rw [List.filter_cons_of_pos (by simpa using taken), List.lookup_cons, ih,
          List.lookup_cons]

theorem stream?_putStream_self (stream : Nat) (dir : DirStream δ σ)
    : (session.putStream stream dir).stream? stream = some dir :=
  List.lookup_cons_self

theorem stream?_putStream_of_ne (other : stream ≠ held) (dir : DirStream δ σ)
    : (session.putStream held dir).stream? stream = session.stream? stream := by
  simp [stream?, putStream, List.lookup_cons, beq_false_of_ne other]

/-- Whoever takes a stream has been called for it. -/
theorem takes_of_start {call : Call δ} {frame : Frame δ σ} {entry : Entry δ}
    (next : (session.start call).next = .calls frame)
    (taken : frame.handle? = some (held, entry))
    : call.Takes held := by
  cases call with
  | register | registerRange | reserveRange | unregister => contradiction
  | openFile | onPath | openDir =>
      simp only [start, askAt] at next
      split at next
      · contradiction
      · obtain rfl := Next.calls.inj next
        contradiction
  | onPair =>
      simp only [start, askPair] at next
      repeat' split at next
      all_goals try contradiction
      obtain rfl := Next.calls.inj next
      contradiction
  | closeFile | onFile =>
      simp only [start, askFd] at next
      split at next
      · contradiction
      · obtain rfl := Next.calls.inj next
        contradiction
  | onStream call stream =>
      simp only [start, askStream] at next
      repeat' split at next
      · contradiction
      · rename_i lends
        obtain rfl := Next.calls.inj next
        exact ⟨lends, (Prod.mk.inj (Option.some.inj taken)).1⟩
      · obtain rfl := Next.calls.inj next
        contradiction
  | closeDir | dropDir =>
      simp only [start, endStream] at next
      split at next
      · contradiction
      · obtain rfl := Next.calls.inj next
        exact (Prod.mk.inj (Option.some.inj taken)).1

/-- The number has been given out, no driver has its stream, and `content` is what is open
under the number.
-/
structure Settled (session : Session δ σ) (stream : Nat) (content : Option (DirStream δ σ))
    : Prop where
  given : stream < session.nextStream
  unlent : ∀ frame ∈ session.pending, frame.lent?.map (·.1) ≠ some stream
  content : session.stream? stream = content

/-- Nobody has been lent a stream whose number is yet to be given out. -/
theorem Consistent.unlent (consistent : session.Consistent)
    (fresh : session.nextStream ≤ stream)
    : ∀ frame ∈ session.pending, frame.lent?.map (·.1) ≠ some stream := by
  intro frame waiting lent
  cases frame with
  | moving number dir call =>
      obtain rfl : number = stream := by simpa [Frame.lent?] using lent
      have handle : (number, dir.entry) ∈ session.handles :=
        List.mem_append_right _ (List.mem_filterMap.mpr ⟨_, waiting, rfl⟩)
      exact absurd (consistent.balanced.numbered _ handle) (Nat.not_lt.mpr fresh)
  | _ => simp [Frame.lent?] at lent

/-- An open stream is settled. Witness: handles are distinct, so nobody has been lent a stream
that is open.
-/
theorem Consistent.settled (consistent : session.Consistent)
    (found : session.stream? stream = some dir)
    : session.Settled stream (some dir) := by
  have held : (stream, dir.entry) ∈ session.streams.map fun held => (held.1, held.2.entry) :=
    List.mem_map.mpr ⟨_, mem_streams_of_stream? found, rfl⟩
  refine ⟨?_, fun frame waiting lent => ?_, found⟩
  · exact consistent.balanced.numbered _ (List.mem_append_left _ held)
  · cases frame with
    | moving number other call =>
        obtain rfl : number = stream := by simpa [Frame.lent?] using lent
        have taken : (number, other.entry) ∈ session.pending.filterMap Frame.handle? :=
          List.mem_filterMap.mpr ⟨_, waiting, rfl⟩
        have distinct := consistent.balanced.distinct
        rw [handles, List.map_append] at distinct
        exact (List.nodup_append.mp distinct).2.2 number (List.mem_map_of_mem held) number
          (List.mem_map_of_mem taken) rfl
    | _ => simp [Frame.lent?] at lent

namespace Settled

variable {frame : Frame δ σ}

/-- A call can come to wait if the stream is not lent for it. -/
theorem wait (settled : session.Settled stream content)
    (unlent : frame.lent?.map (·.1) ≠ some stream)
    : (session.wait frame).Settled stream content :=
  { settled with unlent := List.forall_mem_cons.mpr ⟨unlent, settled.unlent⟩ }

theorem of_wait (waiting : (session.wait frame).Settled stream content)
    : session.Settled stream content :=
  { waiting with unlent := fun other member => waiting.unlent other (.tail _ member) }

theorem take_self (settled : session.Settled stream content)
    : (session.takeStream stream).Settled stream none :=
  { settled with content := stream?_takeStream_self stream }

theorem take (settled : session.Settled stream content) (other : stream ≠ held)
    : (session.takeStream held).Settled stream content :=
  { settled with content := (stream?_takeStream_of_ne other).trans settled.content }

theorem put_self (settled : session.Settled stream content) (dir : DirStream δ σ)
    : (session.putStream stream dir).Settled stream (some dir) :=
  { settled with content := stream?_putStream_self stream dir }

theorem put (settled : session.Settled stream content) (other : stream ≠ held)
    (dir : DirStream δ σ)
    : (session.putStream held dir).Settled stream content :=
  { settled with content := (stream?_putStream_of_ne other dir).trans settled.content }

/-- The beginning of a call leaves alone what it does not take. -/
theorem start (settled : session.Settled stream content) (call : Call δ)
    (free : content = none ∨ ¬ call.Takes stream)
    : (session.start call).suspend.session.Settled stream content := by
  have other {number : Nat} {dir : DirStream δ σ} {frame : Frame δ σ}
      (next : (session.start call).next = .calls frame)
      (taken : frame.handle? = some (number, dir.entry))
      (found : session.stream? number = some dir)
      : stream ≠ number := by
    rintro rfl
    rcases free with none | free
    · rw [settled.content, none] at found
      contradiction
    · exact free (takes_of_start next taken)
  have starts := session.start_starts call
  generalize session.start call = step at starts other ⊢
  cases starts with
  | returns returned _ same =>
      obtain ⟨after, notices, next⟩ := step
      dsimp only at returned same
      subst returned
      change after.Settled stream content
      rw [same]
      exact { settled with }
  | @asks frame plain _ =>
      refine settled.wait ?_
      cases frame with
      | moving => contradiction
      | _ => simp [Frame.lent?]
  | lends call found =>
      have beside := other rfl rfl found
      exact (settled.take beside).wait (by simpa [Frame.lent?] using Ne.symm beside)
  | ends dropped notices found =>
      exact (settled.take (other rfl rfl found)).wait (by simp [Frame.lent?])

/-- A call that goes on leaves a stream alone that it has not taken. -/
theorem finish (respond : Responder σ) (frame : Frame δ σ)
    (waiting : (session.wait frame).Settled stream content)
    : (session.finish respond frame).suspend.session.Settled stream content := by
  have settled := waiting.of_wait
  cases frame with
  | relaying | undoing | discarding | ending => exact { settled with }
  | opening entry path flags mode =>
      simp only [Session.finish, bindOpened]
      split
      · exact settled
      · split
        · exact { settled with }
        · exact settled.wait (by simp [Frame.lent?])
  | closing entry fd binding =>
      simp only [Session.finish, freeClosed]
      split <;> exact { settled with }
  | listing entry path =>
      have counted
          : Settled { session with nextStream := session.nextStream + 1 } stream content :=
        { settled with given := Nat.lt_succ_of_lt settled.given }
      simp only [Session.finish, listOpened]
      repeat' split
      · exact settled
      · exact { counted.put (Nat.ne_of_lt settled.given) _ with }
      · exact counted.wait (by simp [Frame.lent?])
  | moving number lent call =>
      have beside : stream ≠ number := by
        simpa [Frame.lent?, eq_comm] using waiting.unlent _ (.head _)
      exact settled.put beside _

/-- Answers of the root listing leave it alone as well. -/
theorem settle {step : Step δ σ} (settled : step.suspend.session.Settled stream content)
    : step.settle.session.Settled stream content :=
  @settle_keeps _ _ (fun session => session.Settled stream content)
    (fun frame _ => finish _ frame) _ settled

/-- What no call takes stays open, and what has ended stays so. -/
theorem move (settled : session.Settled stream content) {move : Move δ σ} {step : Step δ σ}
    (moved : session.move? move = some step)
    (free : content = none ∨ ∀ call, move = .call call → ¬ call.Takes stream)
    : step.session.Settled stream content := by
  cases move with
  | call call =>
      obtain rfl := Option.some.inj moved
      exact (settled.start call (free.imp_right fun free => free call rfl)).settle
  | reply respond =>
      obtain ⟨resumed, frame, rfl, rfl⟩ := resume?_eq_some_iff.mp moved
      exact (settled.finish respond frame).settle
  | drop =>
      obtain rfl := Option.some.inj moved
      exact { settled with }

/-- A stream that is closed or dropped is open no more, whatever its driver does. -/
theorem ended (settled : session.Settled stream content) (dropped : Bool)
    : (session.endStream stream dropped).settle.session.Settled stream none := by
  refine settle ?_
  unfold endStream
  cases found : session.stream? stream with
  | none => exact { settled with content := found }
  | some dir => exact settled.take_self.wait (by simp [Frame.lent?])

end Settled

/-- The root listing answers at once what it is asked about a stream that is lent to it. -/
theorem begin_onStream_of_root {call : StreamCall} (found : session.stream? stream = some dir)
    (root : dir.entry.driver = .root) (lends : call.lends = true)
    : session.begin (.onStream call stream)
      = (session.takeStream stream).finish session.respondAsRoot
          (.moving stream dir call) := by
  have next
      : session.start (.onStream call stream)
        = (session.takeStream stream).ask (.moving stream dir call) := by
    simp [start, askStream, found, lends]
  have asked : (Frame.moving stream dir call).entry.driver = .root := root
  rw [begin, next]
  exact Step.settle_ask_of_root asked rfl

theorem begin_tell_of_root (found : session.stream? stream = some dir)
    (root : dir.entry.driver = .root)
    : session.begin (.onStream .tell stream)
      = session.finish session.respondAsRoot (.relaying dir.entry (.tellDir dir.state)) := by
  have next
      : session.start (.onStream .tell stream)
        = session.ask (.relaying dir.entry (.tellDir dir.state)) := by
    simp [start, askStream, found, StreamCall.lends, StreamCall.request]
  have asked : (Frame.relaying dir.entry (.tellDir dir.state)).entry.driver = .root := root
  rw [begin, next]
  exact Step.settle_ask_of_root asked rfl

/-- A stream that is lent to it stays open, in the position that it gives back. -/
theorem Settled.lend_root {call : StreamCall} {state : StreamState σ}
    (settled : session.Settled stream (some dir)) (root : dir.entry.driver = .root)
    (lends : call.lends = true)
    (moves
      : (call.request dir.state).stateAfter (session.respondAsRoot (call.request dir.state))
        = some state)
    : (session.begin (.onStream call stream)).next
          = .returns
              (.replied (call.request dir.state)
                (session.respondAsRoot (call.request dir.state)))
      ∧ (session.begin (.onStream call stream)).session.Settled stream
          (some { dir with state }) := by
  rw [begin_onStream_of_root settled.content root lends]
  obtain rfl
      : ((call.request dir.state).stateAfter
            (session.respondAsRoot (call.request dir.state))).getD dir.state
        = state := by
    rw [moves, Option.getD_some]
  exact ⟨rfl, settled.take_self.put_self _⟩

end Session

end StorageSwitch
