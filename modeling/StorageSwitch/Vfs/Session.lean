import StorageSwitch.Vfs.Call

/-! A switch at work. A call goes on until a driver has to be asked; then it waits, and the
driver may make calls of its own, which may wait as well. The driver asked last answers
first. The root listing answers at once and calls nobody.
-/

namespace StorageSwitch

/-- An open directory stream: the entry that it was opened through, and its position. -/
structure DirStream (δ σ : Type) where
  entry : Entry δ
  state : StreamState σ

/-- The words that show a stream to a user. -/
def DirStream.text {δ σ : Type} (stream : DirStream δ σ) : String :=
  s!"DirHandle \x7b mount: {stream.entry.index}, .. \x7d"

/-- A call that waits for its driver, with what it needs to know when the answer comes.
- `relaying` passes the answer on.
- `opening` binds a descriptor to the file that was opened.
- `undoing` closes a file to which no descriptor could be bound.
- `closing` frees the descriptor whose file was closed.
- `listing` makes a stream of the directory that was opened.
- `discarding` closes a directory whose mount has gone in the meantime.
- `moving` puts a stream back that was lent to the driver.
- `ending` forgets a stream that was closed or dropped.
-/
inductive Frame (δ σ : Type) where
  | relaying (entry : Entry δ) (request : Request σ)
  | opening (entry : Entry δ) (path : String) (flags : OpenFlags) (mode : UInt32)
  | undoing (entry : Entry δ) (file : LocalFd) (error : Error)
  | closing (entry : Entry δ) (fd : Fd) (binding : Binding)
  | listing (entry : Entry δ) (path : String)
  | discarding (stream : Nat) (lost : DirStream δ σ)
  | moving (stream : Nat) (lent : DirStream δ σ) (call : StreamCall)
  | ending (stream : Nat) (ended : DirStream δ σ) (dropped : Bool)

namespace Frame

variable {δ σ : Type}

/-- The entry whose driver is asked. -/
def entry : Frame δ σ → Entry δ
  | relaying entry _ => entry
  | opening entry _ _ _ => entry
  | undoing entry _ _ => entry
  | closing entry _ _ => entry
  | listing entry _ => entry
  | discarding _ lost => lost.entry
  | moving _ lent _ => lent.entry
  | ending _ ended _ => ended.entry

/-- What the driver is asked. -/
def request : Frame δ σ → Request σ
  | relaying _ request => request
  | opening entry path flags mode => .openFile (entry.relative path) flags mode
  | undoing _ file _ => .closeFile file
  | closing _ _ binding => .closeFile binding.file
  | listing entry path => .openDir (entry.relative path)
  | discarding _ lost => .closeDir lost.state
  | moving _ lent call => call.request lent.state
  | ending _ ended _ => .closeDir ended.state

end Frame

/-- A switch with its open streams, the number of the next stream, and the calls that wait
for their drivers, the latest first. Streams that a waiting call has taken are not among the
open ones. Once the switch is dropped, only its streams are left to use.
-/
structure Session (δ σ : Type) where
  vfs : Vfs δ
  streams : List (Nat × DirStream δ σ)
  nextStream : Nat
  pending : List (Frame δ σ)
  dropped : Bool

/-- How a call goes on: a driver is asked, or the caller gets an answer. -/
inductive Next (δ σ : Type) where
  | calls (frame : Frame δ σ)
  | returns (answer : Answer σ)

/-- One step of a session: the session afterwards, the notices it logs, and what is next. -/
structure Step (δ σ : Type) where
  session : Session δ σ
  notices : List Vfs.Notice
  next : Next δ σ

namespace Session

variable {δ σ : Type}

-----------------------------------------------------------------------------------------
-- Making and dropping
-----------------------------------------------------------------------------------------

/-- A session with a new switch. -/
def create (config : Config) : Except Error (Session δ σ × List Vfs.Notice) := do
  let (vfs, notices) ← Vfs.create config
  return (⟨vfs, [], 0, [], false⟩, notices)

/-- A session for the whole process, which can only be made if there is none. -/
def createShared (shared : Option (Session δ σ)) (config : Config)
    : Except Error (Session δ σ × List Vfs.Notice) :=
  if shared.isSome then .error .busy else create config

/-- The switch is gone; its streams stay. -/
def drop (session : Session δ σ) : Session δ σ := { session with dropped := true }

/-- The mount table, as long as the switch exists. -/
def mounts? (session : Session δ σ) : Option (MountTable (Driver δ)) :=
  if session.dropped then none else some session.vfs.mounts

/-- How the root listing of the switch answers. -/
def respondAsRoot (session : Session δ σ) : Responder σ :=
  RootListing.respond session.mounts?

-----------------------------------------------------------------------------------------
-- Streams
-----------------------------------------------------------------------------------------

/-- An open stream that no waiting call has taken. -/
def stream? (session : Session δ σ) (stream : Nat) : Option (DirStream δ σ) :=
  session.streams.lookup stream

/-- Takes a stream away from the open ones. -/
def takeStream (session : Session δ σ) (stream : Nat) : Session δ σ :=
  { session with streams := session.streams.filter fun held => held.1 ≠ stream }

/-- Puts a stream among the open ones. -/
def putStream (session : Session δ σ) (stream : Nat) (dir : DirStream δ σ)
    : Session δ σ :=
  { session with streams := (stream, dir) :: session.streams }

-----------------------------------------------------------------------------------------
-- The beginning of a call
-----------------------------------------------------------------------------------------

/-- Gives the caller an answer and changes nothing. -/
def answer (session : Session δ σ) (answer : Answer σ) : Step δ σ :=
  ⟨session, [], .returns answer⟩

/-- Asks a driver and changes nothing. -/
def ask (session : Session δ σ) (frame : Frame δ σ) : Step δ σ :=
  ⟨session, [], .calls frame⟩

/-- Carries out a change of the tables and tells the caller how it went. -/
def apply {α : Type} (session : Session δ σ) (change : Vfs.Change δ α)
    (success : α → Answer σ) : Step δ σ :=
  ⟨{ session with vfs := change.vfs }, change.notices,
    .returns (match change.result with
      | .error error => .failed error
      | .ok result => success result)⟩

/-- No entry is responsible for the path. -/
def unmounted (session : Session δ σ) (path : String) : Step δ σ :=
  ⟨session, [.unmounted path], .returns (.failed .notFound)⟩

/-- Asks the driver that a path belongs to. -/
def askAt (session : Session δ σ) (path : String) (frame : Entry δ → Frame δ σ)
    : Step δ σ :=
  match session.vfs.resolve path with
  | none => session.unmounted path
  | some entry => session.ask (frame entry)

/-- Asks the driver that two paths belong to, provided it is one and the same entry. -/
def askPair (session : Session δ σ) (call : PairCall) (source target : String)
    : Step δ σ :=
  match session.vfs.resolve source with
  | none => session.unmounted source
  | some first =>
      match session.vfs.resolve target with
      | none => session.unmounted target
      | some second =>
          if first.serial = second.serial then
            session.ask (.relaying first
              (call.request (first.relative source) (second.relative target)))
          else session.answer (.failed .crossDevice)

/-- Asks the driver that a descriptor leads to. -/
def askFd (session : Session δ σ) (fd : Fd) (frame : Entry δ → Binding → Frame δ σ)
    : Step δ σ :=
  match session.vfs.resolveFd fd with
  | none => session.answer (.failed .badDescriptor)
  | some (entry, binding) => session.ask (frame entry binding)

/-- Takes a stream for good and hands its position back to the driver it came from. -/
def endStream (session : Session δ σ) (stream : Nat) (dropped : Bool) : Step δ σ :=
  match session.stream? stream with
  | none => session.answer (.failed .badDescriptor)
  | some dir =>
      ⟨session.takeStream stream,
        if dropped then [.dropped dir.entry.index] else [],
        .calls (.ending stream dir dropped)⟩

/-- Asks the driver of a stream, to which the stream may be lent. -/
def askStream (session : Session δ σ) (call : StreamCall) (stream : Nat) : Step δ σ :=
  match session.stream? stream with
  | none => session.answer (.failed .badDescriptor)
  | some dir =>
      if call.lends then (session.takeStream stream).ask (.moving stream dir call)
      else session.ask (.relaying dir.entry (call.request dir.state))

/-- A call up to the first driver request or to its answer. -/
def start (session : Session δ σ) : Call δ → Step δ σ
  | .register path driver => session.apply (session.vfs.register path driver) .mounted
  | .registerRange driver min max =>
      session.apply (session.vfs.registerRange driver min max) .mounted
  | .reserveRange index min max =>
      session.apply (session.vfs.reserveRange index min max) fun _ => .done
  | .unregister index => session.apply (session.vfs.unregister index) fun _ => .done
  | .openFile path flags mode =>
      session.askAt path fun entry => .opening entry path flags mode
  | .onPath call path =>
      session.askAt path fun entry => .relaying entry (call.request (entry.relative path))
  | .onPair call source target => session.askPair call source target
  | .closeFile fd => session.askFd fd fun entry binding => .closing entry fd binding
  | .onFile call fd =>
      session.askFd fd fun entry binding => .relaying entry (call.request binding.file)
  | .openDir path => session.askAt path fun entry => .listing entry path
  | .onStream call stream => session.askStream call stream
  | .closeDir stream => session.endStream stream false
  | .dropDir stream => session.endStream stream true

-----------------------------------------------------------------------------------------
-- After a driver has answered
-----------------------------------------------------------------------------------------

/-- A file has been opened: it gets a descriptor, or is closed again if it cannot have
one.
-/
def bindOpened (session : Session δ σ) (entry : Entry δ) (path : String) (file : LocalFd)
    : Step δ σ :=
  match session.vfs.bind entry file with
  | .ok (fd, vfs) =>
      ⟨{ session with vfs }, [.opened path fd entry.index file], .returns (.opened fd)⟩
  | .error error =>
      ⟨session, if error = .tooManyOpenFiles then [.tableFull file] else [],
        .calls (.undoing entry file error)⟩

/-- The driver of a descriptor has closed its file, or has tried to: the descriptor is
freed, unless the driver cannot close files or the descriptor leads elsewhere by now.
-/
def freeClosed (session : Session δ σ) (fd : Fd) (binding : Binding)
    (reply : Except Error Unit) : Step δ σ :=
  let answer : Answer σ := .replied (.closeFile binding.file) reply
  match reply with
  | .error .notSupported => session.answer answer
  | _ =>
      let (freed, vfs) := session.vfs.release fd binding
      ⟨{ session with vfs }, if freed then [.released fd] else [], .returns answer⟩

/-- A directory has been opened: it becomes a stream, or is closed again if its mount has
gone. Either way its position takes a stream number.
-/
def listOpened (session : Session δ σ) (entry : Entry δ) (state : StreamState σ)
    : Step δ σ :=
  let stream := session.nextStream
  let counted : Session δ σ := { session with nextStream := stream + 1 }
  if session.vfs.mounts.isCurrent entry then
    ⟨{ counted with vfs := session.vfs.streamOpened entry }.putStream stream ⟨entry, state⟩,
      [], .returns (.streaming stream)⟩
  else counted.ask (.discarding stream ⟨entry, state⟩)

/-- A waiting call goes on with its driver's answer. -/
def finish (session : Session δ σ) (respond : Responder σ) : Frame δ σ → Step δ σ
  | .relaying _ request => session.answer (.replied request (respond request))
  | .opening entry path flags mode =>
      match respond (.openFile (entry.relative path) flags mode) with
      | .error error => session.answer (.failed error)
      | .ok file => session.bindOpened entry path file
  | .undoing _ _ error => session.answer (.failed error)
  | .closing _ fd binding =>
      session.freeClosed fd binding (respond (.closeFile binding.file))
  | .listing entry path =>
      match respond (.openDir (entry.relative path)) with
      | .error error => session.answer (.failed error)
      | .ok state => session.listOpened entry state
  | .discarding _ _ => session.answer (.failed .notFound)
  | .moving stream lent call =>
      let request := call.request lent.state
      let reply := respond request
      let state := (request.stateAfter reply).getD lent.state
      (session.putStream stream { lent with state }).answer (.replied request reply)
  | .ending _ ended dropped =>
      let reply := respond (.closeDir ended.state)
      { session with vfs := session.vfs.streamClosed ended.entry }.answer
        (if dropped then .done else .replied (.closeDir ended.state) reply)

end Session

-----------------------------------------------------------------------------------------
-- Whole steps
-----------------------------------------------------------------------------------------

namespace Step

variable {δ σ : Type}

/-- If the root listing is asked next, it answers. -/
def answerRoot (step : Step δ σ) : Step δ σ :=
  match step.next with
  | .returns _ => step
  | .calls frame =>
      match frame.entry.driver with
      | .given _ => step
      | .root =>
          let after := step.session.finish step.session.respondAsRoot frame
          { after with notices := step.notices ++ after.notices }

/-- If a driver is asked next, the call waits for it. -/
def suspend (step : Step δ σ) : Step δ σ :=
  match step.next with
  | .returns _ => step
  | .calls frame =>
      { step with
        session := { step.session with pending := frame :: step.session.pending } }

/-- Goes on until a registered driver is asked or the caller has an answer. A call asks at
most two drivers, so the root listing answers at most twice.
-/
def settle (step : Step δ σ) : Step δ σ := step.answerRoot.answerRoot.suspend

end Step

namespace Session

variable {δ σ : Type}

/-- Makes a call. -/
def begin (session : Session δ σ) (call : Call δ) : Step δ σ := (session.start call).settle

/-- Goes on with the call that waits for the driver asked last, if a call waits. -/
def resume? (session : Session δ σ) (respond : Responder σ) : Option (Step δ σ) :=
  match session.pending with
  | [] => none
  | frame :: rest => some ({ session with pending := rest }.finish respond frame).settle

end Session

end StorageSwitch
