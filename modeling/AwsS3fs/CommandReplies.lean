/-
**The replies of the cache.**

A client of the cache sends one request at a time and then waits for one message
(`SendCacheRequest`, `filecacheclient.c`).  At the server a thread for each client reads the
requests and calls a function for the command (`ReceiveRequests` and `CommandDispatcher`,
`filecache.c`); it is this function that replies, or does not.

The functions are given here with everything they do, in the order they do it.  What the queries
return to them is left open: a row may be found or not, and an insertion may succeed or fail.

Main definitions:

* `AwsS3fs.Connection`, `AwsS3fs.Backend` — what a thread knows about its client, and what the
  functions it calls return;
* `AwsS3fs.Effect` — what a command does;
* `AwsS3fs.clientConnects`, `AwsS3fs.answerCreate`, ... — the functions for the commands;
* `AwsS3fs.dispatch`, `AwsS3fs.receiveRequests` — a message, and all the messages of a client;
* `AwsS3fs.Answered` — exactly one reply;
* `AwsS3fs.Served` — the commands that are carried through.

Main results:

* `AwsS3fs.answered_execute_iff` — the commands that get exactly one reply;
* `AwsS3fs.answered_dispatch_iff` — **which messages get exactly one reply**;
* `AwsS3fs.length_replies_receiveRequests` — a client that sends only such messages gets as many
  replies.
-/

import AwsS3fs.CreateMessage
import AwsS3fs.Lib.Runs

set_option relaxedAutoImplicit false
set_option autoImplicit false

namespace AwsS3fs

open CLib Runs

/-! ### The thread of a client -/

/-- What the server knows about a client, in `CacheClientConnection`. -/
structure Connection where
  uid : ℤ
  bucket : Option Bytes
  keyId : Bytes
  secretKey : Bytes
  deriving DecidableEq

/-- What the functions return that a command calls. -/
structure Backend where
  getuid : ℤ
  getLocalPath : Bytes → Option Bytes
  findFile : Bytes → ℤ
  isFileCached : ℤ → Bool
  createLocalDir : DirArguments → ℤ
  /-- The identifier of the row, and the name of the local file. -/
  createLocalFile : Option Bytes → FileArguments → ℤ → ℤ × Bytes
  /-- The buffer after `SendGrantMessage`. -/
  sendGrantMessage : Bytes → Bytes

/-- What a command does. -/
inductive Effect
  /-- `SendMessageToClient`. -/
  | reply (message : Bytes)
  | addUser (uid : ℤ) (keyId secretKey : Bytes)
  | receiveDownload (fileId uid : ℤ)
  | decrementSubscriptionCount (fileId : ℤ)
  | close
  /-- `pthread_exit`. -/
  | exitThread
  /-- `ShutdownFileCache` and `exit`. -/
  | shutdown
  deriving DecidableEq

/-- The message that is sent to the client, if one is. -/
def Effect.message : Effect → Option Bytes
  | .reply message => some message
  | _ => none

/-- The thread does not read on. -/
def Effect.Ends (es : List Effect) : Prop := .exitThread ∈ es ∨ .shutdown ∈ es

instance (es : List Effect) : Decidable (Effect.Ends es) := inferInstanceAs (Decidable (_ ∨ _))

/-- The replies among the effects of a command, in order. -/
def replies (es : List Effect) : List Bytes := es.filterMap Effect.message

/-! ### The commands -/

/-- `ClientRequestsLocalFilename`. -/
def clientRequestsLocalFilename (nl : Newlines) (b : Backend) (request : Bytes) : List Effect :=
  match b.getLocalPath (trimString nl request) with
  | none => [.reply (ascii "FILE -")]
  | some localpath => [.reply (ascii "FILE " ++ localpath)]

/-- `ClientRequestsDownload`.  The identifier is an unsigned number here. -/
def clientRequestsDownload (b : Backend) (conn : Connection) (request : Bytes) : List Effect :=
  let fileId := b.findFile request
  if b.isFileCached fileId then [.reply (ascii "OK")]
  else if fileId ≠ 0 then [.receiveDownload fileId conn.uid, .reply (ascii "OK")]
  else [.reply (ascii "ERROR ")]

/-- `ClientRequestsFileClose`. -/
def clientRequestsFileClose (b : Backend) (request : Bytes) : List Effect :=
  let fileId := b.findFile request
  if 0 < fileId then [.decrementSubscriptionCount fileId, .reply (ascii "OK")]
  else [.reply (ascii "OK")]

/-- `ClientRequestsCreate`, from the calls of `CreateLocalDir` and `CreateLocalFile` on. -/
def answerCreate (b : Backend) (conn : Connection) : CreateOutcome → List Effect
  | .error reply => [.reply reply]
  | .create dir file =>
      let parentId := b.createLocalDir dir
      if 0 < parentId then
        let created := b.createLocalFile conn.bucket file parentId
        if 0 < created.1 then
          [.reply (ascii "CREATED " ++ created.2 ++ 32 :: formatInt created.1)]
        else []
      else [.reply (ascii "ERROR: cannot create local directory")]

/-- `[a-zA-Z0-9-\+_]`. -/
def isBucket (ch : UInt8) : Bool := isalnum ch || ch == 45 || ch == 43 || ch == 95

/-- `[a-zA-Z0-9\+/=]`. -/
def isKey (ch : UInt8) : Bool := isalnum ch || ch == 43 || ch == 47 || ch == 61

/-- `\s*:\s*`. -/
def colonOption : Regex UInt8 :=
  .seq (.run isspace 0 none) (.seq (.run (· == 58) 1 (some 1)) (.run isspace 0 none))

/-- The expression for the parameters of a `CONNECT` request. -/
def connectAuth (nl : Newlines) : Regex UInt8 :=
  .seq .bos (.seq (.run isspace 0 none)
    (.seq (.group 1 (.run isBucket 1 none)) (.seq colonOption
      (.seq (.group 2 (.run isdigit 1 (some 5))) (.seq colonOption
        (.seq (.group 3 (.run isKey 20 (some 20))) (.seq colonOption
          (.seq (.group 4 (.run isKey 40 (some 40)))
            (.seq (.run isspace 0 none) (.eos nl.isNewline))))))))))

/-- `ClientConnects`. -/
def clientConnects (nl : Newlines) (conn : Connection) (request : Bytes) :
    Connection × List Effect :=
  match (connectAuth nl).search true request with
  | none => (conn, [.reply (ascii "ERROR: unable to parse keys")])
  | some (_, found) =>
      if (found.fetch 3).length = 20 ∧ (found.fetch 4).length = 40 then
        ({ conn with
            bucket := some (found.fetch 1)
            keyId := found.fetch 3
            secretKey := found.fetch 4 },
          [.addUser (atoi (found.fetch 2)) (found.fetch 3) (found.fetch 4),
            .reply (ascii "CONNECTED")])
      else (conn, [.reply (ascii "ERROR: unable to parse keys")])

/-- `ClientDisconnects`. -/
def clientDisconnects : List Effect := [.close, .exitThread]

/-- The clients that may shut the cache down. -/
def Connection.Authorised (conn : Connection) (b : Backend) : Prop :=
  conn.uid = 0 ∨ conn.uid = b.getuid

instance (conn : Connection) (b : Backend) : Decidable (conn.Authorised b) :=
  inferInstanceAs (Decidable (_ ∨ _))

/-- `ClientRequestsShutdown`. -/
def clientRequestsShutdown (b : Backend) (conn : Connection) : List Effect :=
  if conn.Authorised b then [.shutdown] else []

/-- `ClientRequestsDebugMessage`. -/
def clientRequestsDebugMessage (b : Backend) : List Effect :=
  [.reply (b.sendGrantMessage (ascii "DEBUG test socket"))]

/-- The function for a command: the connection afterwards, and what the function does. -/
def Command.execute (nl : Newlines) (released : Bytes → Bytes) (b : Backend) (conn : Connection)
    (request : Bytes) : Command → Connection × List Effect
  | .file => (conn, clientRequestsLocalFilename nl b request)
  | .create => (conn, answerCreate b conn (clientRequestsCreate nl released request))
  | .cache => (conn, clientRequestsDownload b conn request)
  | .drop => (conn, clientRequestsFileClose b request)
  | .connect => clientConnects nl conn request
  | .disconnect => (conn, clientDisconnects)
  | .quit => (conn, clientRequestsShutdown b conn)
  | .debug => (conn, clientRequestsDebugMessage b)

/-- `CommandDispatcher`, with the function that it calls. -/
def dispatch (nl : Newlines) (released : Bytes → Bytes) (b : Backend) (conn : Connection)
    (message : Bytes) : Connection × List Effect :=
  match commandDispatcher message with
  | none => (conn, [.reply (ascii "ERROR: unknown command")])
  | some (command, request) => command.execute nl released b conn request

/-- A message that a thread reads, and what comes from outside while it works on it. -/
structure Delivery where
  message : Bytes
  released : Bytes → Bytes
  backend : Backend

/-- `ReceiveRequests`: the effects of each message that is read.  A thread that has ended reads no
more. -/
def receiveRequests (nl : Newlines) : Connection → List Delivery → List (List Effect)
  | _, [] => []
  | conn, d :: ds =>
      let next := dispatch nl d.released d.backend conn d.message
      if Effect.Ends next.2 then [next.2] else next.2 :: receiveRequests nl next.1 ds

/-- A thread that reads on after a message, and what it knows about its client then. -/
def threadStep (nl : Newlines) (conn : Connection) (d : Delivery) : Option Connection :=
  let next := dispatch nl d.released d.backend conn d.message
  if Effect.Ends next.2 then none else some next.1

variable {nl : Newlines} {released : Bytes → Bytes} {b : Backend} {conn : Connection}
  {request message : Bytes}

/-! ### Exactly one reply -/

/-- The server is shut down, or there is exactly one reply. -/
def Answered (es : List Effect) : Prop := .shutdown ∈ es ∨ ∃ reply, replies es = [reply]

/-- Where `CreateLocalDir` succeeds for a request, so does `CreateLocalFile`. -/
def CreateOutcome.Completes (b : Backend) (conn : Connection) : CreateOutcome → Prop
  | .error _ => True
  | .create dir file =>
      0 < b.createLocalDir dir → 0 < (b.createLocalFile conn.bucket file (b.createLocalDir dir)).1

/-- A command that is carried through: it is not refused, and it does not end the connection or
break off after the first of its insertions. -/
def Served (nl : Newlines) (released : Bytes → Bytes) (b : Backend) (conn : Connection)
    (request : Bytes) : Command → Prop
  | .create => (clientRequestsCreate nl released request).Completes b conn
  | .disconnect => False
  | .quit => conn.Authorised b
  | _ => True

theorem answered_of_replies {es : List Effect} {reply : Bytes} (h : replies es = [reply]) :
    Answered es :=
  .inr ⟨reply, h⟩

theorem not_answered_nil : ¬ Answered [] := by
  rintro (h | ⟨reply, h⟩)
  · cases h
  · cases h

theorem answered_clientRequestsLocalFilename :
    Answered (clientRequestsLocalFilename nl b request) := by
  unfold clientRequestsLocalFilename
  split <;> exact answered_of_replies rfl

theorem answered_clientRequestsDownload : Answered (clientRequestsDownload b conn request) := by
  unfold clientRequestsDownload
  simp only
  split
  · exact answered_of_replies rfl
  · split <;> exact answered_of_replies rfl

theorem answered_clientRequestsFileClose : Answered (clientRequestsFileClose b request) := by
  unfold clientRequestsFileClose
  simp only
  split <;> exact answered_of_replies rfl

theorem answered_clientConnects : Answered (clientConnects nl conn request).2 := by
  unfold clientConnects
  split
  · exact answered_of_replies rfl
  · split <;> exact answered_of_replies rfl

theorem answered_answerCreate_iff (outcome : CreateOutcome) :
    Answered (answerCreate b conn outcome) ↔ outcome.Completes b conn := by
  cases outcome with
  | error reply => exact iff_of_true (answered_of_replies rfl) trivial
  | create dir file =>
      simp only [answerCreate, CreateOutcome.Completes]
      split
      · rename_i hdir
        split
        · rename_i hfile
          exact iff_of_true (answered_of_replies rfl) fun _ => hfile
        · rename_i hfile
          exact iff_of_false not_answered_nil fun h => hfile (h hdir)
      · rename_i hdir
        exact iff_of_true (answered_of_replies rfl) fun h => absurd h hdir

theorem answered_clientRequestsShutdown_iff :
    Answered (clientRequestsShutdown b conn) ↔ conn.Authorised b := by
  unfold clientRequestsShutdown
  split
  · rename_i h
    exact iff_of_true (.inl (List.mem_singleton_self _)) h
  · rename_i h
    exact iff_of_false not_answered_nil h

theorem not_answered_clientDisconnects : ¬ Answered clientDisconnects := by
  rintro (h | ⟨reply, h⟩)
  · simp [clientDisconnects] at h
  · cases h

/-- The commands that get exactly one reply. -/
theorem answered_execute_iff (command : Command) :
    Answered (command.execute nl released b conn request).2 ↔
      Served nl released b conn request command := by
  cases command with
  | file => exact iff_of_true answered_clientRequestsLocalFilename trivial
  | create => exact answered_answerCreate_iff _
  | cache => exact iff_of_true answered_clientRequestsDownload trivial
  | drop => exact iff_of_true answered_clientRequestsFileClose trivial
  | connect => exact iff_of_true answered_clientConnects trivial
  | disconnect => exact iff_of_false not_answered_clientDisconnects id
  | quit => exact answered_clientRequestsShutdown_iff
  | debug => exact iff_of_true (answered_of_replies rfl) trivial

/-- A message that is carried through gets exactly one reply. -/
theorem answered_of_served {message : Bytes}
    (h : ∀ command request, commandDispatcher message = some (command, request) →
      Served nl released b conn request command) :
    Answered (dispatch nl released b conn message).2 := by
  unfold dispatch
  split
  · exact answered_of_replies rfl
  · rename_i command request hsome
    exact (answered_execute_iff command).2 (h command request hsome)

/-- **Which messages get exactly one reply**: all but `DISCONNECT`, a `QUIT` that is refused, and a
`CREATE` that is accepted, finds or makes the directory and then fails to make the file. -/
theorem answered_dispatch_iff (nl : Newlines) (released : Bytes → Bytes) (b : Backend)
    (conn : Connection) (message : Bytes) :
    Answered (dispatch nl released b conn message).2 ↔
      ∀ command request, commandDispatcher message = some (command, request) →
        Served nl released b conn request command := by
  constructor
  · intro h command request hsome
    rw [dispatch, hsome] at h
    exact (answered_execute_iff command).1 h
  · exact answered_of_served

/-- An empty cache, in which a file cannot be made without a bucket. -/
def Backend.emptyCache : Backend where
  getuid := 1000
  getLocalPath _ := none
  findFile _ := 0
  isFileCached _ := false
  createLocalDir _ := 1
  createLocalFile bucket _ _ := (if bucket.isSome then 1 else 0, ascii "ffffff")
  sendGrantMessage message := message

/-- A client that has not connected gets no reply to a `CREATE` request. -/
theorem not_answered_create :
    ¬ ∀ (nl : Newlines) (released : Bytes → Bytes) (b : Backend) (conn : Connection)
      (message : Bytes), Answered (dispatch nl released b conn message).2 := by
  intro h
  have heffects : (dispatch .lineFeed id .emptyCache ⟨1000, none, [], []⟩
      (ascii "CREATE 0:0:493:1000:1000:420:0:a")).2 = [] := by
    decide +kernel
  have hanswered := h .lineFeed id .emptyCache ⟨1000, none, [], []⟩
    (ascii "CREATE 0:0:493:1000:1000:420:0:a")
  rw [heffects] at hanswered
  exact not_answered_nil hanswered

/-! ### All the messages of a client -/

/-- **A client that sends only messages that are carried through gets as many replies.**  By
induction on the messages: the replies to each of them are sent before the next one is read. -/
theorem length_replies_receiveRequests {conn' : Connection} {ds : List Delivery}
    (hrun : run (threadStep nl) conn ds = some conn')
    (halong : Along (threadStep nl) (fun conn d _ => ∀ command request,
      commandDispatcher d.message = some (command, request) →
        Served nl d.released d.backend conn request command) conn ds) :
    ((receiveRequests nl conn ds).flatMap replies).length = ds.length := by
  induction ds generalizing conn with
  | nil => rfl
  | cons d ds ih =>
      obtain ⟨conn₁, hstep, hrest⟩ := run_cons.1 hrun
      obtain ⟨hserved, halong'⟩ := halong conn₁ hstep
      have hanswered := answered_of_served hserved
      unfold threadStep at hstep
      simp only at hstep
      split at hstep
      · cases hstep
      · rename_i hgoes
        cases hstep
        obtain hshutdown | ⟨reply, hreply⟩ := hanswered
        · exact absurd (.inr hshutdown) hgoes
        · rw [receiveRequests, if_neg hgoes, List.flatMap_cons, hreply, List.length_append,
            List.length_singleton, ih hrest halong', List.length_cons, Nat.add_comm]

end AwsS3fs
