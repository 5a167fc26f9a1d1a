import StorageSwitch.Proofs.Driver.Scanning
import StorageSwitch.Proofs.Vfs.Mounting
import StorageSwitch.Proofs.Vfs.Standing

/-! What a stream of the root directory lists while mounts come and go between its reads:
mounts with a path of their own, in the order of their slots, and those that stay once each.
-/

namespace StorageSwitch

variable {δ σ : Type}

/-- The calls that read a directory. -/
def StreamCall.reads : StreamCall → Bool
  | read | readInto _ => true
  | _ => false

theorem StreamCall.lends_of_reads {call : StreamCall} (reads : call.reads = true)
    : call.lends = true := by
  cases call with
  | read | readInto => rfl
  | tell | seek => contradiction

/-- What was read, an entry or the end, if the caller has been told so. -/
def Answer.read? : Answer σ → Option (Option DirEntry)
  | .replied (.readDir _) (.ok found, _) => some found
  | .replied (.readDirInto _ _) (.ok true, _, entry) => some (some entry)
  | .replied (.readDirInto _ _) (.ok false, _, _) => some none
  | _ => none

namespace Moment

/-- Somebody reads from the stream. -/
def Reads (moment : Moment δ σ) (stream : Nat) : Prop :=
  ∃ call : StreamCall, call.reads = true ∧ moment.move = .call (.onStream call stream)

/-- What was read from the stream, if its driver has answered at once. -/
def read? (moment : Moment δ σ) (stream : Nat) : Option (Option DirEntry) :=
  match moment.move, moment.step.next with
  | .call (.onStream _ held), .returns answer => if held = stream then answer.read? else none
  | _, _ => none

theorem read?_eq_some_iff {moment : Moment δ σ} {stream : Nat} {found : Option DirEntry}
    : moment.read? stream = some found
      ↔ ∃ call answer,
          moment.move = .call (.onStream call stream)
          ∧ moment.step.next = .returns answer
          ∧ answer.read? = some found := by
  unfold read?
  constructor
  · intro read
    split at read
    · rename_i call held answer calls returned
      rw [Option.ite_none_right_eq_some] at read
      obtain ⟨rfl, told⟩ := read
      exact ⟨call, answer, calls, returned, told⟩
    · contradiction
  · rintro ⟨call, answer, calls, returned, told⟩
    simp [calls, returned, told]

end Moment

/-- The entries that were read from the stream, in the order of the reads. -/
def listed (history : List (Moment δ σ)) (stream : Nat) : List DirEntry :=
  history.reverse.filterMap fun moment => (moment.read? stream).join

theorem listed_append (later history : List (Moment δ σ)) (stream : Nat)
    : listed (later ++ history) stream = listed history stream ++ listed later stream := by
  simp only [listed, List.reverse_append, List.filterMap_append]

theorem listed_cons (moment : Moment δ σ) (history : List (Moment δ σ)) (stream : Nat)
    : listed (moment :: history) stream
      = listed history stream ++ (moment.read? stream).join.toList := by
  rw [← List.singleton_append, listed_append, listed.eq_def [moment], List.reverse_singleton,
    filterMap_singleton]

/-- The entry was in the slot at the beginning of every moment. -/
def Stays (history : List (Moment δ σ)) (index : Nat) (entry : Entry δ) : Prop :=
  ∀ moment ∈ history, moment.before.vfs.mounts.get? index = some entry

theorem Stays.earlier {moment : Moment δ σ} {history : List (Moment δ σ)} {index : Nat}
    {entry : Entry δ} (stays : Stays (moment :: history) index entry)
    : Stays history index entry :=
  fun since member => stays since (.tail _ member)

-----------------------------------------------------------------------------------------
-- One read
-----------------------------------------------------------------------------------------

namespace RootListing

/-- Both ways of reading tell what is read, and give back the position behind it. -/
theorem respond_reads {call : StreamCall} (reads : call.reads = true)
    (mounts : Option (MountTable δ)) (state : StreamState σ)
    : Answer.read? (.replied (call.request state) (respond mounts (call.request state)))
          = (read mounts state).1.toOption
      ∧ (call.request state).stateAfter (respond mounts (call.request state))
          = some (read mounts state).2 := by
  cases call with
  | tell | seek => contradiction
  | read =>
      simp only [StreamCall.request, respond]
      generalize read mounts state = result
      obtain ⟨_ | _, _⟩ := result <;> exact ⟨rfl, rfl⟩
  | readInto entry =>
      simp only [StreamCall.request, respond]
      generalize read mounts state = result
      obtain ⟨_ | _ | _, _⟩ := result <;> exact ⟨rfl, rfl⟩

end RootListing

namespace Session

variable {session opened last : Session δ σ} {stream cursor : Nat} {root : Entry δ}
  {move : Move δ σ} {step : Step δ σ} {moment : Moment δ σ}
  {history later : List (Moment δ σ)}

/-- The number of a slot in use fits into a directory entry. -/
theorem Reachable.toNat_ofNat_of_present (reachable : session.Reachable) {slot : Nat}
    {entry : Entry δ} (present : session.vfs.mounts.get? slot = some entry)
    : (UInt64.ofNat slot).toNat = slot := by
  have fits := reachable.consistent.tables.fits present
  exact UInt64.toNat_ofNat_of_lt' (Nat.lt_trans fits (by decide))

/-- A slot shows in the listing if a mount with a path of its own is in it, and shows by
that path without its separator.
-/
theorem Reachable.entryAt?_eq_some_iff (reachable : session.Reachable) {slot : Nat}
    {shown : DirEntry}
    : RootListing.entryAt? session.vfs.mounts slot = some shown
      ↔ ∃ entry name,
          session.vfs.mounts.get? slot = some entry
          ∧ entry.point = .path ("/" ++ name)
          ∧ shown = ⟨.ofNat slot, name, .directory⟩ := by
  have listed {entry : Entry δ} {name : String}
      (found : session.vfs.mounts.get? slot = some entry)
      (atMount : entry.point = .path ("/" ++ name))
      : RootListing.listed? entry = some ⟨.ofNat slot, name, .directory⟩ := by
    have sameIndex := reachable.consistent.tables.mounts.index_eq found
    simp [RootListing.listed?, MountEntry.path?, atMount, MountPoint.path?, sameIndex]
  rw [RootListing.entryAt?, Option.bind_eq_some_iff]
  constructor
  · rintro ⟨entry, found, shows⟩
    cases point : entry.point with
    | descriptorsOnly =>
        simp [RootListing.listed?, MountEntry.path?, point, MountPoint.path?] at shows
    | path mount =>
        have notEmpty : mount ≠ "" := by
          rintro rfl
          simp [RootListing.listed?, MountEntry.path?, point, MountPoint.path?] at shows
        obtain ⟨name, rfl, _⟩ := reachable.mount_spec found point notEmpty
        exact ⟨entry, name, found, point, Option.some.inj (shows.symm.trans (listed found point))⟩
  · rintro ⟨entry, name, found, atMount, rfl⟩
    exact ⟨entry, found, listed found atMount⟩

/-- Nothing is read from a stream that has ended. -/
theorem Settled.unread_of_ended (ended : session.Settled stream none)
    (moved : session.move? move = some step)
    : Moment.read? ⟨session, move, step⟩ stream = none := by
  refine Option.eq_none_iff_forall_ne_some.mpr fun found read => ?_
  obtain ⟨call, answer, rfl, returned, told⟩ := Moment.read?_eq_some_iff.mp read
  obtain rfl := Option.some.inj moved
  have refuses
      : session.begin (.onStream call stream) = session.answer (.failed .badDescriptor) := by
    simp only [Session.begin, Session.start, askStream, ended.content]
    rfl
  rw [refuses] at returned
  obtain rfl := Next.returns.inj returned
  contradiction

/-- Nothing is read from a stream of the root directory by a move that does not take it. -/
theorem Settled.unread_of_free {dir : DirStream δ σ}
    (settled : session.Settled stream (some dir)) (isRoot : dir.entry.driver = .root)
    (free : ∀ call, move = .call call → ¬ call.Takes stream)
    (moved : session.move? move = some step)
    : Moment.read? ⟨session, move, step⟩ stream = none := by
  refine Option.eq_none_iff_forall_ne_some.mpr fun found read => ?_
  obtain ⟨call, answer, rfl, returned, told⟩ := Moment.read?_eq_some_iff.mp read
  obtain rfl := Option.some.inj moved
  cases call with
  | read | readInto | seek => exact free _ rfl ⟨rfl, rfl⟩
  | tell =>
      rw [begin_tell_of_root settled.content isRoot] at returned
      obtain rfl := Next.returns.inj returned
      contradiction

/-- A read of an open stream of the root directory tells what the listing has read. -/
theorem Settled.read_root {call : StreamCall} {state : StreamState σ}
    (settled : session.Settled stream (some ⟨root, state⟩)) (isRoot : root.driver = .root)
    (reads : call.reads = true)
    (moved : session.move? (.call (.onStream call stream)) = some step)
    : Moment.read? ⟨session, .call (.onStream call stream), step⟩ stream
          = (RootListing.read session.mounts? state).1.toOption
      ∧ step.session.Settled stream
          (some ⟨root, (RootListing.read session.mounts? state).2⟩) := by
  obtain rfl := Option.some.inj moved
  obtain ⟨told, after⟩ := RootListing.respond_reads reads session.mounts? state
  obtain ⟨returned, moves⟩ := settled.lend_root isRoot (StreamCall.lends_of_reads reads) after
  refine ⟨?_, moves⟩
  simpa only [Moment.read?, returned, if_true, respondAsRoot] using told

theorem mounts?_eq_some (present : session.dropped = false)
    : session.mounts? = some session.vfs.mounts := by
  simp [mounts?, present]

/-- What a move makes of an open stream of the root directory.
- `gone`: the stream is ended.
- `left`: nothing is read, and the stream is where it was.
- `read`: an entry or the end is found from the cursor on, and the stream is behind it.
-/
inductive Lists (moment : Moment δ σ) (stream : Nat) (root : Entry δ) (cursor : Nat) : Prop
  | gone (ends : moment.Ends stream) (unread : moment.read? stream = none)
    (settled : moment.step.session.Settled stream none)
  | left (unread : moment.read? stream = none)
    (settled : moment.step.session.Settled stream (some ⟨root, .rootSlot cursor⟩))
  | read {found} (reads : RootListing.ReadsOn moment.before.vfs.mounts cursor found)
    (read : moment.read? stream = some found.1)
    (settled : moment.step.session.Settled stream (some ⟨root, .rootSlot found.2⟩))

theorem Settled.lists
    (settled : session.Settled stream (some ⟨root, .rootSlot cursor⟩))
    (isRoot : root.driver = .root) (moved : session.move? move = some step)
    (unsought : ∀ position, move ≠ .call (.onStream (.seek position) stream))
    : Lists ⟨session, move, step⟩ stream root cursor := by
  by_cases taken : ∃ call, move = .call call ∧ call.Takes stream
  · obtain ⟨call, rfl, takes⟩ := taken
    have reading {call : StreamCall} (reads : call.reads = true)
        (moved : session.move? (.call (.onStream call stream)) = some step)
        : Lists ⟨session, .call (.onStream call stream), step⟩ stream root cursor := by
      obtain ⟨told, after⟩ := settled.read_root isRoot reads moved
      cases dropped : session.dropped with
      | true =>
          have gone : session.mounts? = none := by simp [mounts?, dropped]
          rw [gone] at told after
          exact .left told after
      | false =>
          rw [mounts?_eq_some dropped] at told after
          exact .read (RootListing.next_readsOn _ cursor) told after
    cases call with
    | onStream call held =>
        obtain ⟨lends, rfl⟩ := takes
        cases call with
        | read => exact reading rfl moved
        | readInto => exact reading rfl moved
        | tell => contradiction
        | seek position => exact absurd rfl (unsought position)
    | closeDir =>
        obtain rfl : _ = stream := takes
        obtain rfl := Option.some.inj moved
        exact .gone ⟨.inl rfl, settled.unlent⟩ rfl (settled.ended _)
    | dropDir =>
        obtain rfl : _ = stream := takes
        obtain rfl := Option.some.inj moved
        exact .gone ⟨.inr rfl, settled.unlent⟩ rfl (settled.ended _)
    | _ => contradiction
  · have free : ∀ call, move = .call call → ¬ call.Takes stream :=
      fun call calls takes => taken ⟨call, calls, takes⟩
    exact .left (settled.unread_of_free isRoot free moved) (settled.move moved (.inr free))

-----------------------------------------------------------------------------------------
-- Many reads
-----------------------------------------------------------------------------------------

/-- The stream has listed slots below the cursor only, in their order, and among them every
mount that has stayed there with a path of its own.
-/
structure ListedBelow (history : List (Moment δ σ)) (stream cursor : Nat) : Prop where
  below : ∀ entry ∈ listed history stream, entry.ino.toNat < cursor
  increasing : (listed history stream).Pairwise (·.ino < ·.ino)
  complete
    : ∀ index entry name,
        Stays history index entry → entry.point = .path ("/" ++ name) → index < cursor
        → ⟨.ofNat index, name, .directory⟩ ∈ listed history stream

namespace ListedBelow

theorem nil (stream : Nat) : ListedBelow (δ := δ) (σ := σ) [] stream 0 where
  below := nofun
  increasing := .nil
  complete := nofun

/-- A moment at which nothing is read changes nothing. -/
theorem pass (below : ListedBelow history stream cursor)
    (unread : moment.read? stream = none)
    : ListedBelow (moment :: history) stream cursor := by
  have same : listed (moment :: history) stream = listed history stream := by
    simp [listed_cons, unread]
  exact ⟨same ▸ below.below, same ▸ below.increasing,
    fun index entry name stays => same ▸ below.complete index entry name stays.earlier⟩

/-- A read takes the stream on. Witness: of the slots that the cursor passes at most the
last one shows, and a slot with a mount that has stayed shows.
-/
theorem read (below : ListedBelow history stream cursor)
    (reachable : moment.before.Reachable) {found : Option DirEntry × Nat}
    (reads : RootListing.ReadsOn moment.before.vfs.mounts cursor found)
    (read : moment.read? stream = some found.1)
    : ListedBelow (moment :: history) stream found.2 := by
  have shows {index : Nat} {entry : Entry δ} {name : String}
      (stays : Stays (moment :: history) index entry)
      (atMount : entry.point = .path ("/" ++ name))
      : RootListing.entryAt? moment.before.vfs.mounts index
        = some ⟨.ofNat index, name, .directory⟩ :=
    reachable.entryAt?_eq_some_iff.mpr ⟨entry, name, stays _ (.head _), atMount, rfl⟩
  have earlier {index : Nat} {entry : Entry δ} {name : String}
      (stays : Stays (moment :: history) index entry)
      (atMount : entry.point = .path ("/" ++ name)) (before : index < cursor)
      : ⟨.ofNat index, name, .directory⟩ ∈ listed history stream :=
    below.complete index entry name stays.earlier atMount before
  cases reads with
  | @finds slot _ reached hidden shown =>
      obtain ⟨entry, name, present, _, rfl⟩ := reachable.entryAt?_eq_some_iff.mp shown
      have whole
          : listed (moment :: history) stream
            = listed history stream ++ [⟨.ofNat slot, name, .directory⟩] := by
        simp [listed_cons, read]
      have number := reachable.toNat_ofNat_of_present present
      refine ⟨?_, ?_, ?_⟩ <;> rw [whole]
      · intro shown member
        rcases List.mem_append.mp member with before | last
        · exact Nat.lt_succ_of_lt (Nat.lt_of_lt_of_le (below.below shown before) reached)
        · rw [List.mem_singleton.mp last, number]
          exact Nat.lt_succ_self slot
      · refine List.pairwise_append.mpr
          ⟨below.increasing, List.pairwise_singleton _ _, fun shown before last isLast => ?_⟩
        rw [List.mem_singleton.mp isLast, UInt64.lt_iff_toNat_lt, number]
        exact Nat.lt_of_lt_of_le (below.below shown before) reached
      · intro index kept keptName stays atMount within
        rcases Nat.lt_or_ge index cursor with before | beyond
        · exact List.mem_append_left _ (earlier stays atMount before)
        · have last : index = slot := by
            by_contra other
            have blank := hidden index beyond (by omega)
            rw [shows stays atMount] at blank
            contradiction
          subst last
          have same := shown.symm.trans (shows stays atMount)
          rw [Option.some.inj same]
          exact List.mem_append_right _ (List.mem_singleton_self _)
  | ends reached hidden =>
      have whole : listed (moment :: history) stream = listed history stream := by
        simp [listed_cons, read]
      refine ⟨?_, whole ▸ below.increasing, ?_⟩ <;> rw [whole]
      · exact fun shown member => Nat.lt_of_lt_of_le (below.below shown member) reached
      · intro index kept keptName stays atMount _
        rcases Nat.lt_or_ge index cursor with before | beyond
        · exact earlier stays atMount before
        · have blank := hidden index beyond
          rw [shows stays atMount] at blank
          contradiction

end ListedBelow

/-- A stream of the root directory has just been opened. -/
structure AtStart (session : Session δ σ) (stream : Nat) (root : Entry δ) : Prop where
  reachable : session.Reachable
  isRoot : root.driver = .root
  settled : session.Settled stream (some ⟨root, .rootSlot 0⟩)

/-- Whoever opens the root directory gets a stream that is at its start. -/
theorem Reachable.begin_openDir_root (reachable : session.Reachable)
    : (session.begin (.openDir "/")).next = .returns (.streaming session.nextStream)
      ∧ ∃ root, (session.begin (.openDir "/")).session.AtStart session.nextStream root := by
  obtain ⟨root, resolved, present, isRoot, atEmpty⟩ := reachable.resolve_root
  have consistent := reachable.consistent
  have current : session.vfs.mounts.isCurrent root = true :=
    (consistent.tables.mounts.knows present).isCurrent_iff.mpr present
  have whole : root.relative "/" = RootListing.rootPath := by
    simp only [MountEntry.relative, MountEntry.path?, atEmpty, MountPoint.path?]
    decide
  have asks : session.start (.openDir "/") = session.ask (.listing root "/") := by
    simp only [start, askAt, resolved]
  have asked : (Frame.listing root "/" : Frame δ σ).entry.driver = .root := isRoot
  have opens
      : session.finish session.respondAsRoot (.listing root "/")
        = ⟨Session.putStream
              { session with
                vfs := session.vfs.streamOpened root
                nextStream := session.nextStream + 1 }
              session.nextStream ⟨root, .rootSlot 0⟩,
            [], .returns (.streaming session.nextStream)⟩ := by
    simp [finish, respondAsRoot, RootListing.respond, whole, listOpened, current]
  have begun
      : session.begin (.openDir "/")
        = session.finish session.respondAsRoot (.listing root "/") := by
    rw [Session.begin, asks]
    exact Step.settle_ask_of_root asked (congrArg Step.next opens)
  have reached := reachable.begin (.openDir "/")
  rw [begun, opens] at reached ⊢
  exact ⟨rfl, root, reached, isRoot,
    ⟨Nat.lt_succ_self _, consistent.unlent (Nat.le_refl _), stream?_putStream_self _ _⟩⟩

/-- The run does not move the stream by hand. -/
def Unsought (history : List (Moment δ σ)) (stream : Nat) : Prop :=
  ∀ moment ∈ history, ∀ position, moment.move ≠ .call (.onStream (.seek position) stream)

theorem Unsought.before (unsought : Unsought (later ++ moment :: history) stream)
    : Unsought history stream :=
  fun since member => unsought since (List.mem_append_right _ (.tail _ member))

/-- What has become of the stream at the end of a run. Witness: induction on the run. -/
theorem AtStart.listedBelow (start : opened.AtStart stream root)
    (run : opened.Run history last) (unsought : Unsought history stream)
    : ∃ cursor,
        ((last.Settled stream none ∧ ∃ since ∈ history, since.Ends stream)
          ∨ last.Settled stream (some ⟨root, .rootSlot cursor⟩))
        ∧ ListedBelow history stream cursor := by
  induction run with
  | rest => exact ⟨0, .inr start.settled, .nil stream⟩
  | @next history session move step run moved ih =>
      obtain ⟨cursor, settled, below⟩ := ih fun since member => unsought since (.tail _ member)
      rcases settled with ⟨ended, since, member, ends⟩ | settled
      · exact ⟨cursor, .inl ⟨ended.move moved (.inl rfl), since, .tail _ member, ends⟩,
          below.pass (ended.unread_of_ended moved)⟩
      · cases settled.lists start.isRoot moved (unsought _ (.head _)) with
        | gone ends unread ended =>
            exact ⟨cursor, .inl ⟨ended, _, .head _, ends⟩, below.pass unread⟩
        | left unread stays => exact ⟨cursor, .inr stays, below.pass unread⟩
        | read reads read moves =>
            exact ⟨_, .inr moves, below.read (start.reachable.run run) reads read⟩

/-- What a read in the course of a run finds. -/
theorem AtStart.reads (start : opened.AtStart stream root)
    (run : opened.Run (later ++ moment :: history) last)
    (unsought : Unsought (later ++ moment :: history) stream) {found : Option DirEntry}
    (read : moment.read? stream = some found)
    : ∃ cursor after,
        ListedBelow history stream cursor
        ∧ RootListing.ReadsOn moment.before.vfs.mounts cursor (found, after) := by
  obtain ⟨earlier, moved, _⟩ := run.cut
  have unsoughtNow := unsought moment (List.mem_append_right _ (.head _))
  obtain ⟨cursor, ⟨ended, _⟩ | settled, below⟩ := start.listedBelow earlier unsought.before
  · rw [ended.unread_of_ended moved] at read
    contradiction
  · cases settled.lists start.isRoot moved unsoughtNow with
    | gone _ unread | left unread =>
        rw [unread] at read
        contradiction
    | @read other reads reading =>
        obtain rfl := Option.some.inj (reading.symm.trans read)
        exact ⟨cursor, other.2, below, reads⟩

-----------------------------------------------------------------------------------------
-- The whole listing
-----------------------------------------------------------------------------------------

/-- What is read from a stream of the root directory in the course of a run.
- `increasing`: the slots are listed in their order, none of them twice.
- `live`: what is listed is a mount with a path of its own that is in its slot just then.
- `complete`: a mount with a path of its own that stays in its slot from the opening until
  a read finds the end is listed in between, and only once in the whole run.
- `answered`: until the stream is ended or the switch is dropped, every read succeeds.
- `sliced`: at every moment, every mount path that is not empty can be cut behind its first
  byte, which is what a read does with it.
-/
structure ListsMounts (history : List (Moment δ σ)) (stream : Nat) : Prop where
  increasing : (listed history stream).Pairwise (·.ino < ·.ino)
  live
    : ∀ moment ∈ history, ∀ shown,
        moment.read? stream = some (some shown)
        → ∃ slot entry name,
            moment.before.vfs.mounts.get? slot = some entry
            ∧ entry.point = .path ("/" ++ name)
            ∧ shown = ⟨.ofNat slot, name, .directory⟩
            ∧ shown.ino.toNat = slot
  complete
    : ∀ later final between index entry mount,
        history = later ++ final :: between → final.read? stream = some none
        → Stays (final :: between) index entry → entry.point = .path mount → mount ≠ ""
        → ∃ name,
            mount = "/" ++ name
            ∧ ⟨.ofNat index, name, .directory⟩ ∈ listed (final :: between) stream
            ∧ (listed history stream).filter (·.ino.toNat = index)
              = [⟨.ofNat index, name, .directory⟩]
  answered
    : ∀ later moment between,
        history = later ++ moment :: between → moment.Reads stream
        → (∀ since ∈ between, ¬ since.Ends stream) → moment.before.dropped = false
        → ∃ found, moment.read? stream = some found
  sliced
    : ∀ moment ∈ history, ∀ index entry mount,
        moment.before.vfs.mounts.get? index = some entry → entry.point = .path mount
        → mount ≠ ""
        → ∃ name, mount = "/" ++ name ∧ Path.dropBytes 1 mount.toList = some name.toList

theorem AtStart.listsMounts (start : opened.AtStart stream root)
    (run : opened.Run history last) (unsought : Unsought history stream)
    : ListsMounts history stream where
  increasing := by
    obtain ⟨_, _, below⟩ := start.listedBelow run unsought
    exact below.increasing
  live := by
    intro moment member shown read
    obtain ⟨later, earlier, rfl⟩ := List.append_of_mem member
    have reachable := start.reachable.run run.cut.1
    obtain ⟨_, _, _, reads⟩ := start.reads run unsought read
    cases reads with
    | @finds slot _ _ _ shows =>
        obtain ⟨entry, name, present, atMount, rfl⟩ := reachable.entryAt?_eq_some_iff.mp shows
        exact ⟨slot, entry, name, present, atMount, rfl, reachable.toNat_ofNat_of_present present⟩
  complete := by
    rintro later final between index entry mount rfl read stays atMount notEmpty
    have reachable := start.reachable.run run.cut.1
    have present := stays final (.head _)
    obtain ⟨name, rfl, _⟩ := reachable.mount_spec present atMount notEmpty
    obtain ⟨cursor, _, below, reads⟩ := start.reads run unsought read
    obtain ⟨_, _, belowAtEnd⟩ := start.listedBelow run unsought
    cases reads with
    | ends _ hidden =>
        have passed : index < cursor := by
          by_contra beyond
          have shows := reachable.entryAt?_eq_some_iff.mpr ⟨entry, name, present, atMount, rfl⟩
          rw [hidden index (Nat.not_lt.mp beyond)] at shows
          contradiction
        have before := below.complete index entry name stays.earlier atMount passed
        have within
            : ⟨.ofNat index, name, .directory⟩ ∈ listed (final :: between) stream := by
          rw [listed_cons]
          exact List.mem_append_left _ before
        have distinct
            : ((listed (later ++ final :: between) stream).map (·.ino.toNat)).Nodup :=
          List.pairwise_map.mpr (belowAtEnd.increasing.imp fun less => Nat.ne_of_lt less)
        have once := filter_eq_singleton (·.ino.toNat) distinct
          (listed_append later _ stream ▸ List.mem_append_left _ within)
        rw [reachable.toNat_ofNat_of_present present] at once
        exact ⟨name, rfl, within, once⟩
  answered := by
    rintro later ⟨before, move, step⟩ between rfl ⟨call, isRead, rfl⟩ unended present
    obtain ⟨earlier, moved, _⟩ := run.cut
    obtain ⟨cursor, ⟨_, since, member, ends⟩ | settled, _⟩ :=
      start.listedBelow earlier unsought.before
    · exact absurd ends (unended since member)
    · have told := (settled.read_root start.isRoot isRead moved).1
      rw [mounts?_eq_some present] at told
      exact ⟨_, told⟩
  sliced := by
    intro moment member index entry mount present atMount notEmpty
    obtain ⟨later, earlier, rfl⟩ := List.append_of_mem member
    have reachable := start.reachable.run run.cut.1
    obtain ⟨name, same, _, cut⟩ := reachable.mount_spec present atMount notEmpty
    exact ⟨name, same, cut⟩

/-- Whatever else happens between its reads: a stream of the root directory that is opened
in a reachable session and not moved by hand lists mounts that are there, in the order of
their slots, and those that stay once each.
-/
theorem root_stream_lists_mounts (reachable : session.Reachable)
    (run : (session.begin (.openDir "/")).session.Run history last)
    (unsought : Unsought history session.nextStream)
    : (session.begin (.openDir "/")).next = .returns (.streaming session.nextStream)
      ∧ ListsMounts history session.nextStream := by
  obtain ⟨opens, root, start⟩ := reachable.begin_openDir_root
  exact ⟨opens, start.listsMounts run unsought⟩

/-- Between the reads the first mount goes after it has been listed, another one takes its
slot and is not listed, and one more is mounted ahead of the cursor and is listed. The mount
in the third slot has descriptors only.
-/
theorem root_stream_lists_mounts_of_reused_slot
    : ∃ (session last : Session String Unit) (history : List (Moment String Unit)),
        session.Reachable
        ∧ (session.begin (.openDir "/")).session.Run history last
        ∧ Unsought history session.nextStream
        ∧ (session.begin (.openDir "/")).next = .returns (.streaming session.nextStream)
        ∧ ListsMounts history session.nextStream
        ∧ listed history session.nextStream
          = [⟨1, "a", .directory⟩, ⟨2, "b", .directory⟩, ⟨4, "d", .directory⟩] := by
  have played
      : (playNew? (σ := Unit) ⟨4, 6⟩
            [.call (.register "/a" "disk"), .call (.register "/b" "disk"),
              .call (.registerRange "tty" 1 2)]).any
          (fun (_, session) =>
            ((session.begin (.openDir "/")).session.play?
                [.call (.onStream .read 0), .call (.unregister 1),
                  .call (.register "/c" "disk"), .call (.register "/d" "disk"),
                  .call (.onStream (.readInto .empty) 0), .call (.onStream .tell 0),
                  .call (.onStream .read 0), .call (.onStream (.readInto .empty) 0)]).any
              fun (history, _) =>
                listed history session.nextStream
                = [⟨1, "a", .directory⟩, ⟨2, "b", .directory⟩, ⟨4, "d", .directory⟩])
        = true := by decide +kernel
  obtain ⟨_, session, reachable, checked⟩ := exists_reachable_of_playNew? played
  obtain ⟨⟨history, last⟩, played, shown⟩ := (Option.any_eq_true _ _).mp checked
  have run := run_of_play? played
  have unsought : Unsought history session.nextStream := by
    intro moment member position seeks
    have made := List.mem_map_of_mem (f := (·.move)) member
    rw [moves_of_play? played, seeks] at made
    simp at made
  obtain ⟨opens, lists⟩ := root_stream_lists_mounts reachable run unsought
  exact ⟨session, last, history, reachable, run, unsought, opens, lists,
    of_decide_eq_true shown⟩

end Session

end StorageSwitch
