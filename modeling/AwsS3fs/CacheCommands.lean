/-
**The requests to the cache.**

A file system that uses the cache writes its requests as text: a command, a space and the
parameters.  The functions of `filecacheclient.c` build them, and on the other side of the socket
`CommandDispatcher` (`filecache.c`) picks the first command of its table that the message starts
with, whatever the case of its letters, and hands the rest of the message to the function for the
command.

Main definitions:

* `AwsS3fs.CreateRequest`, `AwsS3fs.createCachedFile` — the arguments of `CreateCachedFile`, and the
  request it builds from them;
* `AwsS3fs.downloadCacheFile`, `AwsS3fs.getLocalFilename`, `AwsS3fs.closeCacheFile` — the requests
  that have a path as their only parameter;
* `AwsS3fs.Command`, `AwsS3fs.commandDispatcher` — the commands, and which one a message gives.

Main results:

* `AwsS3fs.commandDispatcher_name` — **every request reaches the function for its command**;
* `AwsS3fs.commandDispatcher_path` — with the path that the client was given.
-/

import AwsS3fs.Lib.Bytes

set_option relaxedAutoImplicit false
set_option autoImplicit false

namespace AwsS3fs

open CLib

/-! ### The client -/

/-- The arguments of `CreateCachedFile`. -/
structure CreateRequest where
  path : Bytes
  parentUid : UInt32
  parentGid : UInt32
  parentPermissions : Int32
  uid : UInt32
  gid : UInt32
  permissions : Int32
  mtime : Int64
  deriving DecidableEq

/-- The numbers of a `CREATE` request as `sprintf` takes them, each with its width. -/
def CreateRequest.fields (f : CreateRequest) : List (ℕ × ℤ) :=
  [(5, wrapInt f.parentUid.toNat), (5, wrapInt f.parentGid.toNat), (5, f.parentPermissions.toInt),
    (5, wrapInt f.uid.toNat), (5, wrapInt f.gid.toNat), (5, f.permissions.toInt),
    (20, f.mtime.toInt)]

/-- Numbers in a format of several `%*d:`. -/
def formatFields (fields : List (ℕ × ℤ)) : Bytes :=
  fields.flatMap fun field => padInt field.1 field.2 ++ [58]

/-- The parameters of a `CREATE` request. -/
def CreateRequest.parameters (f : CreateRequest) : Bytes := formatFields f.fields ++ f.path

/-- The request of `CreateCachedFile`. -/
def createCachedFile (f : CreateRequest) : Bytes := ascii "CREATE " ++ f.parameters

/-- The request of `DownloadCacheFile`. -/
def downloadCacheFile (path : Bytes) : Bytes := ascii "CACHE " ++ path

/-- The request of `GetLocalFilename`. -/
def getLocalFilename (remotepath : Bytes) : Bytes := ascii "FILE " ++ remotepath

/-- The request of `CloseCacheFile`. -/
def closeCacheFile (path : Bytes) : Bytes := ascii "DROP " ++ path

/-! ### The server -/

/-- The entries of `dispatchTable`. -/
inductive Command
  | file
  | create
  | cache
  | drop
  | connect
  | disconnect
  | quit
  | debug
  deriving DecidableEq, Repr

namespace Command

/-- The keyword of a command. -/
def name : Command → Bytes
  | file => ascii "FILE"
  | create => ascii "CREATE"
  | cache => ascii "CACHE"
  | drop => ascii "DROP"
  | connect => ascii "CONNECT"
  | disconnect => ascii "DISCONNECT"
  | quit => ascii "QUIT"
  | debug => ascii "DEBUG"

/-- `strncasecmp( message, command, strlen( command ) ) == 0`. -/
def Begins (command : Command) (message : Bytes) : Prop :=
  (message.take command.name.length).map tolower = command.name.map tolower

instance (command : Command) (message : Bytes) : Decidable (command.Begins message) :=
  inferInstanceAs (Decidable (_ = _))

end Command

/-- The order of the entries of `dispatchTable`. -/
def dispatchTable : List Command :=
  [.file, .create, .cache, .drop, .connect, .disconnect, .quit, .debug]

/-- `CommandDispatcher`: the command of a message and its parameters, if there is one. -/
def commandDispatcher (message : Bytes) : Option (Command × Bytes) :=
  (dispatchTable.find? (·.Begins message)).map fun command =>
    (command, message.drop (command.name.length + 1))

/-- **Every request reaches the function for its command**, with its parameters. -/
theorem commandDispatcher_name (command : Command) (parameters : Bytes) :
    commandDispatcher (command.name ++ 32 :: parameters) = some (command, parameters) := by
  have hfind : dispatchTable.find? (·.Begins (command.name ++ 32 :: parameters)) =
      some command := by
    cases command <;> rfl
  rw [commandDispatcher, hfind, Option.map_some, ← List.drop_drop, List.drop_left, List.drop_one,
    List.tail_cons]

theorem commandDispatcher_keyword {keyword : Bytes} (command : Command)
    (hkeyword : keyword = command.name ++ [32]) (parameters : Bytes) :
    commandDispatcher (keyword ++ parameters) = some (command, parameters) := by
  rw [hkeyword, List.append_assoc, List.singleton_append, commandDispatcher_name]

theorem commandDispatcher_createCachedFile (f : CreateRequest) :
    commandDispatcher (createCachedFile f) = some (.create, f.parameters) := by
  rw [createCachedFile]
  exact commandDispatcher_keyword .create rfl f.parameters

/-- The functions for the commands with a path all get the path as the client has it. -/
theorem commandDispatcher_path (path : Bytes) :
    commandDispatcher (downloadCacheFile path) = some (.cache, path) ∧
      commandDispatcher (getLocalFilename path) = some (.file, path) ∧
      commandDispatcher (closeCacheFile path) = some (.drop, path) := by
  rw [downloadCacheFile, getLocalFilename, closeCacheFile]
  exact ⟨commandDispatcher_keyword .cache rfl path, commandDispatcher_keyword .file rfl path,
    commandDispatcher_keyword .drop rfl path⟩

end AwsS3fs
