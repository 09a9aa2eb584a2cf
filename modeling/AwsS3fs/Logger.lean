/-
**The logger.**

The logger (`logger.c`) writes messages to the system log, to a file or to the standard output, and
a mutex keeps its settings as they are while a message is written.  The functions of the logger
change the mutex, the file and the name of the file, and two of them are wrong: `InitLog` returns
with the mutex locked if logging is disabled, and logs a message, which locks the mutex once more,
if the file cannot be opened; `CloseLog` frees the name of the file but does not forget it.
Besides, a message has to fit into buffers of 1025 characters, together with the date and the name
of the host, and the name of the month is taken from behind the one that it is, where in December
there is none.

Main definitions:

* `AwsS3fs.LogState` — the logger, its mutex, and the memory that it has allocated;
* `AwsS3fs.initLog`, `AwsS3fs.closeLog`, `AwsS3fs.syslog` — the functions of `logger.c`;
* `AwsS3fs.PiecesFit` — a message can be put together;
* `AwsS3fs.LoggerSafe` — no call blocks, aborts or leaves an array, and no name is freed twice or
  used afterwards;
* `AwsS3fs.CarefulCall` — a call that does no harm after the calls before it.

Main results:

* `AwsS3fs.compileMessage_eq_ok_iff` — when a message can be put together;
* `AwsS3fs.exists_logStep_of_careful` — a careful call returns with the mutex unlocked;
* `AwsS3fs.careful_of_logStep` — a call that returns with the mutex unlocked was careful;
* `AwsS3fs.loggerSafe_iff` — **exactly when the logger is safe**: every call is careful.
-/

import AwsS3fs.CommandLine
import AwsS3fs.FileMetadata
import AwsS3fs.Lib.Allocations
import AwsS3fs.Lib.Runs

set_option relaxedAutoImplicit false
set_option autoImplicit false

namespace AwsS3fs

open CLib Allocations Runs

/-! ### The logger -/

/-- The value of a log level in `syslog.h`. -/
def LogLevels.value : LogLevels → ℤ
  | .err => 3
  | .warning => 4
  | .notice => 5
  | .info => 6
  | .debug => 7

/-- The static structure `logger`.  The file is known by its name, and the name of the log by the
number of its allocation. -/
structure Logger where
  loggingEnabled : Bool
  logToSyslog : Bool
  logFh : Option Bytes
  hostname : Option Bytes
  logFilename : Option ℕ
  logLevel : LogLevels
  stdoutDisabled : Bool

/-- Where a message is written. -/
inductive LogEntry
  | syslog (priority : ℤ) (message : Bytes)
  | file (name : Bytes) (logmessage : Bytes)
  | stdout (logmessage : Bytes)
  deriving DecidableEq

/-- The logger, `logger_mutex`, the allocations for `logFilename`, whether `openlog` was called
after the last `closelog`, and what has been written. -/
structure LogState where
  logger : Logger
  locked : Bool
  heap : Heap Bytes
  syslogOpen : Bool
  written : List LogEntry

/-- What goes wrong in a call: it waits for a mutex that it holds, it uses memory that has been
freed, an assertion fails, or it leaves an array. -/
inductive LogFault
  | deadlock
  | heap (fault : HeapFault)
  | assertion
  | outside
  deriving DecidableEq

namespace LogState

/-- `pthread_mutex_lock( &logger_mutex )`. -/
def lock (s : LogState) : Except LogFault LogState :=
  if s.locked then .error .deadlock else .ok { s with locked := true }

/-- `pthread_mutex_unlock( &logger_mutex )`. -/
def unlock (s : LogState) : LogState := { s with locked := false }

/-- `free( (char*) logger.logFilename )`, unless it is `NULL`. -/
def freeFilename (s : LogState) : Except LogFault LogState :=
  match s.logger.logFilename with
  | none => .ok s
  | some n => ((s.heap.free n).mapError .heap).map fun heap => { s with heap := heap }

/-- The static variables before the program starts. -/
def static : LogState where
  logger := ⟨false, false, none, none, none, .err, false⟩
  locked := false
  heap := .empty
  syslogOpen := false
  written := []

end LogState

/-- `InitializeLoggingModule`. -/
def initializeLoggingModule (s : LogState) : Except LogFault LogState := do
  let s ← s.lock
  return { s with logger := ⟨true, false, none, none, none, .warning, false⟩ }.unlock

/-- `DisableLogging`. -/
def disableLogging (s : LogState) : LogState :=
  { s with logger := { s.logger with loggingEnabled := false } }

/-- `EnableLogging`. -/
def enableLogging (s : LogState) : LogState :=
  { s with logger := { s.logger with loggingEnabled := true } }

/-- `struct tm`, as `localtime` fills it in. -/
structure LocalTime where
  tmMon : Fin 12
  tmMday : Fin 32
  tmHour : Fin 24
  tmMin : Fin 60
  tmSec : Fin 61

/-- `%2d`. -/
def formatPadded (n : ℕ) : Bytes := List.replicate (2 - (formatInt n).length) 32 ++ formatInt n

/-- The preamble of a message behind the month, and the message. -/
def formatEntry (tm : LocalTime) (hostname message : Bytes) : Bytes :=
  32 :: (formatPadded tm.tmMday ++ 32 :: (formatTwo tm.tmHour ++ 58 :: (formatTwo tm.tmMin ++
    58 :: (formatTwo tm.tmSec ++ 32 :: (hostname ++ (ascii " aws-s3fs: " ++ message))))))

/-- `LogMessage`; the array `logmessage` has 1025 elements. -/
def logMessage (logger : Logger) (tm : LocalTime) (priority : ℤ) (message : Bytes) :
    Except LogFault (List LogEntry) :=
  if logger.loggingEnabled then
    if logger.logToSyslog then .ok [.syslog priority message]
    else
      match monthNames[tm.tmMon.val + 1]? with
      | none => .error .outside
      | some month =>
          let hostname := logger.hostname.getD (ascii "(null)")
          let logmessage := month ++ formatEntry tm hostname message
          if logmessage.length ≤ 1024 then
            match logger.logFh with
            | some name => .ok [.file name logmessage]
            | none => .ok (if logger.stdoutDisabled then [] else [.stdout logmessage])
          else .error .outside
  else .ok []

/-- A character of a format, or what a conversion makes of an argument. -/
inductive LogPiece
  | character (ch : UInt8)
  | argument (text : Bytes)

/-- The text of a piece. -/
def LogPiece.text : LogPiece → Bytes
  | .character ch => [ch]
  | .argument text => text

/-- The message that is made of pieces. -/
def messageText (pieces : List LogPiece) : Bytes := pieces.flatMap LogPiece.text

/-- The loop of `Syslog` over its format, from an index of `compile` on; `compile` and `argument`
have 1025 elements. -/
def compileMessage : ℕ → List LogPiece → Except LogFault Bytes
  | _, [] => .ok []
  | outIdx, .character ch :: pieces =>
      if outIdx < 1024 then (compileMessage (outIdx + 1) pieces).map (ch :: ·)
      else .error .assertion
  | outIdx, .argument text :: pieces =>
      if outIdx < 1024 then
        if text.length ≤ 1024 then
          if outIdx + text.length < 1024 then
            (compileMessage (outIdx + text.length) pieces).map (text ++ ·)
          else .error .assertion
        else .error .outside
      else .error .assertion

/-- The arguments of `Syslog`, its format with the other arguments in place, and the time. -/
structure SyslogCall where
  priority : ℤ
  pieces : List LogPiece
  tm : LocalTime

/-- `Syslog`. -/
def syslog (call : SyslogCall) (s : LogState) : Except LogFault LogState := do
  let message ← compileMessage 0 call.pieces
  let s ← s.lock
  if call.priority ≤ s.logger.logLevel.value then
    let entries ← logMessage s.logger call.tm call.priority message
    return { s with written := s.written ++ entries }.unlock
  else
    return s.unlock

/-- The arguments of `InitLog`, the host's name, whether `fopen` opens the file, and the time. -/
structure InitLogCall where
  logfile : Option Bytes
  loglevel : LogLevels
  hostname : Bytes
  opens : Bool
  tm : LocalTime

/-- `InitLog` replaces the name of the log. -/
def replaceFilename (logfile : Option Bytes) (s : LogState) : Except LogFault LogState :=
  match logfile with
  | some logfile => do
      let s ← s.freeFilename
      let (heap, n) := s.heap.allocate logfile
      return { s with logger := { s.logger with logFilename := some n }, heap := heap }
  | none => .ok { s with logger := { s.logger with logFilename := none } }

/-- `InitLog` sets the level and the name of the host. -/
def setLoglevel (call : InitLogCall) (s : LogState) : LogState :=
  { s with logger :=
    { s.logger with logLevel := call.loglevel, hostname := some call.hostname } }

/-- `InitLog` opens the system log or the file. -/
def openLogfile (call : InitLogCall) (s : LogState) : Except LogFault LogState :=
  match call.logfile with
  | none => .ok s
  | some logfile =>
      if logfile = ascii "syslog" then
        .ok { s with logger := { s.logger with logToSyslog := true }, syslogOpen := true }
      else if call.opens then
        .ok { s with logger := { s.logger with logToSyslog := false, logFh := some logfile } }
      else
        syslog
          { priority := LogLevels.err.value
            pieces := (ascii "Cannot open ").map .character ++ .argument logfile ::
              (ascii " logfile for writing\n").map .character
            tm := call.tm }
          { s with logger := { s.logger with logToSyslog := false, logFh := none } }

/-- `InitLog`. -/
def initLog (call : InitLogCall) (s : LogState) : Except LogFault LogState := do
  let s ← s.lock
  if s.logger.loggingEnabled then
    let s ← replaceFilename call.logfile s
    let s ← openLogfile call (setLoglevel call s)
    return s.unlock
  else
    return { s with logger := { s.logger with logToSyslog := false, logFh := none } }

/-- `CloseLog` closes the file or the system log. -/
def closeLogfile (s : LogState) : Except LogFault LogState :=
  match s.logger.logFh, s.logger.logFilename with
  | some _, _ => .ok { s with logger := { s.logger with logFh := none } }
  | none, some n =>
      ((s.heap.read n).mapError .heap).map fun name =>
        { s with syslogOpen := if name = ascii "syslog" then false else s.syslogOpen }
  | none, none => .ok s

/-- `CloseLog`. -/
def closeLog (s : LogState) : Except LogFault LogState := do
  let s ← s.lock
  let s ← closeLogfile s
  let s ← s.freeFilename
  return s.unlock

/-! ### Calls -/

/-- A call of one of the functions. -/
inductive LogCall
  | initLog (call : InitLogCall)
  | closeLog
  | enableLogging
  | disableLogging
  | syslog (call : SyslogCall)

/-- What a call does. -/
def logStep (s : LogState) : LogCall → Except LogFault LogState
  | .initLog call => initLog call s
  | .closeLog => closeLog s
  | .enableLogging => .ok (enableLogging s)
  | .disableLogging => .ok (disableLogging s)
  | .syslog call => syslog call s

/-- The state after the start and the calls of a list. -/
def afterCalls (calls : List LogCall) : Except LogFault LogState := do
  let s ← initializeLoggingModule .static
  calls.foldlM logStep s

/-- **The logger is safe**: every call returns, with the mutex unlocked. -/
def LoggerSafe (calls : List LogCall) : Prop :=
  ∀ before, before <+: calls → ∃ s, afterCalls before = .ok s ∧ s.locked = false

/-! ### Calls that do no harm -/

/-- Whether logging is enabled after a list of calls. -/
def enabledAfter (calls : List LogCall) : Bool :=
  calls.foldl (fun enabled call =>
    match call with
    | .enableLogging => true
    | .disableLogging => false
    | _ => enabled) true

/-- What has become of the last name that was given to `InitLog`. -/
inductive FilenameState
  | absent
  | held
  | freed
  deriving DecidableEq

/-- What becomes of the name in a call. -/
def FilenameState.next (name : FilenameState) : LogCall → FilenameState
  | .initLog call => if call.logfile.isSome then .held else .absent
  | .closeLog => if name = .absent then .absent else .freed
  | _ => name

/-- What has become of the name after a list of calls. -/
def filenameAfter (calls : List LogCall) : FilenameState :=
  calls.foldl FilenameState.next .absent

/-- The log level after a list of calls. -/
def levelAfter (calls : List LogCall) : LogLevels :=
  calls.foldl (fun level call =>
    match call with
    | .initLog call => call.loglevel
    | _ => level) .warning

/-- Whether messages go to the system log after a list of calls. -/
def toSyslogAfter (calls : List LogCall) : Bool :=
  calls.foldl (fun toSyslog call =>
    match call with
    | .initLog call => call.logfile.elim toSyslog (· = ascii "syslog")
    | _ => toSyslog) false

/-- The name of the host after a list of calls, as it is printed. -/
def hostnameAfter (calls : List LogCall) : Bytes :=
  calls.foldl (fun hostname call =>
    match call with
    | .initLog call => call.hostname
    | _ => hostname) (ascii "(null)")

/-- The longest text that may end with a piece. -/
def LogPiece.limit : LogPiece → ℕ
  | .character _ => 1024
  | .argument _ => 1023

/-- **A message can be put together**: no piece ends too far. -/
def PiecesFit (pieces : List LogPiece) : Prop :=
  ∀ before piece, before ++ [piece] <+: pieces →
    (messageText (before ++ [piece])).length ≤ piece.limit

/-- A message is written to a file or the standard output, with a preamble. -/
def Written (before : List LogCall) (call : SyslogCall) : Prop :=
  enabledAfter before = true ∧ toSyslogAfter before = false ∧
    call.priority ≤ (levelAfter before).value

/-- **A call that does no harm** after the calls before it: `InitLog` while logging is enabled, with
a file that can be opened, `InitLog` with a name or `CloseLog` unless the last name has been freed,
and `Syslog` with a message that fits, with its preamble if it is written with one, which it is not
in December. -/
def CarefulCall (before : List LogCall) : LogCall → Prop
  | .initLog call => enabledAfter before = true ∧
      ∀ logfile, call.logfile = some logfile →
        filenameAfter before ≠ .freed ∧ (logfile = ascii "syslog" ∨ call.opens = true)
  | .closeLog => filenameAfter before ≠ .freed
  | .syslog call => PiecesFit call.pieces ∧ (Written before call →
      call.tm.tmMon ≠ 11 ∧
        27 + (hostnameAfter before).length + (messageText call.pieces).length ≤ 1024)
  | _ => True

/-- A part of a function that leaves the mutex and the name alone, and the settings that decide
about messages. -/
structure Unconcerned (s s' : LogState) : Prop where
  locked : s'.locked = s.locked
  filename : s'.logger.logFilename = s.logger.logFilename
  heap : s'.heap = s.heap
  level : s'.logger.logLevel = s.logger.logLevel
  hostname : s'.logger.hostname = s.logger.hostname

/-- What the calls before say about the state. -/
structure Tracks (before : List LogCall) (s : LogState) : Prop where
  unlocked : s.locked = false
  enabled : s.logger.loggingEnabled = enabledAfter before
  absent : filenameAfter before = .absent ↔ s.logger.logFilename = none
  live : ∀ n, s.logger.logFilename = some n → (s.heap.Live n ↔ filenameAfter before = .held)
  level : s.logger.logLevel = levelAfter before
  toSyslog : s.logger.logToSyslog = toSyslogAfter before
  hostname : s.logger.hostname.getD (ascii "(null)") = hostnameAfter before

variable {before : List LogCall} {s s' : LogState} {call : InitLogCall}

/-! ### The summary of the calls -/

theorem enabledAfter_concat (before : List LogCall) (call : LogCall) :
    enabledAfter (before ++ [call]) =
      match call with
      | .enableLogging => true
      | .disableLogging => false
      | _ => enabledAfter before := by
  rw [enabledAfter, List.foldl_append, List.foldl_cons, List.foldl_nil, ← enabledAfter]

theorem filenameAfter_concat (before : List LogCall) (call : LogCall) :
    filenameAfter (before ++ [call]) = (filenameAfter before).next call := by
  rw [filenameAfter, List.foldl_append, List.foldl_cons, List.foldl_nil, ← filenameAfter]

/-- A name that has not been freed is in use. -/
theorem Tracks.live_of_ne_freed (h : Tracks before s) (hname : filenameAfter before ≠ .freed)
    {n : ℕ} (hn : s.logger.logFilename = some n) : s.heap.Live n := by
  refine (h.live n hn).2 ?_
  cases hstate : filenameAfter before with
  | absent =>
      rw [h.absent.1 hstate] at hn
      cases hn
  | held => rfl
  | freed => exact absurd hstate hname

/-- A name that is in use, or is not there, has not been freed. -/
theorem Tracks.ne_freed (h : Tracks before s)
    (hlive : ∀ n, s.logger.logFilename = some n → s.heap.Live n) :
    filenameAfter before ≠ .freed := by
  intro hfreed
  cases hn : s.logger.logFilename with
  | none =>
      rw [h.absent.2 hn] at hfreed
      cases hfreed
  | some n =>
      rw [(h.live n hn).1 (hlive n hn)] at hfreed
      cases hfreed

/-- A call that leaves the settings alone leaves what is known of them. -/
theorem settingsAfter_concat (before : List LogCall) {c : LogCall}
    (hc : ∀ call, c ≠ .initLog call) :
    levelAfter (before ++ [c]) = levelAfter before ∧
      toSyslogAfter (before ++ [c]) = toSyslogAfter before ∧
      hostnameAfter (before ++ [c]) = hostnameAfter before := by
  rw [levelAfter, levelAfter, toSyslogAfter, toSyslogAfter, hostnameAfter, hostnameAfter,
    List.foldl_append, List.foldl_append, List.foldl_append]
  cases c with
  | initLog call => exact absurd rfl (hc call)
  | _ => exact ⟨rfl, rfl, rfl⟩

theorem settingsAfter_initLog (before : List LogCall) (call : InitLogCall) :
    levelAfter (before ++ [.initLog call]) = call.loglevel ∧
      toSyslogAfter (before ++ [.initLog call]) =
        call.logfile.elim (toSyslogAfter before) (· = ascii "syslog") ∧
      hostnameAfter (before ++ [.initLog call]) = call.hostname := by
  rw [levelAfter, toSyslogAfter, toSyslogAfter, hostnameAfter, List.foldl_append,
    List.foldl_append, List.foldl_append]
  exact ⟨rfl, rfl, rfl⟩

/-- A call that leaves the mutex, the name and the settings alone. -/
theorem Tracks.concat (h : Tracks before s) {c : LogCall} (hc : ∀ call, c ≠ .initLog call)
    (hnext : (filenameAfter before).next c = filenameAfter before) (hsame : Unconcerned s s')
    (htoSyslog : s'.logger.logToSyslog = s.logger.logToSyslog)
    (henabled : s'.logger.loggingEnabled = enabledAfter (before ++ [c])) :
    Tracks (before ++ [c]) s' := by
  have hafter : filenameAfter (before ++ [c]) = filenameAfter before := by
    rw [filenameAfter_concat, hnext]
  obtain ⟨hlevel, htoSyslogAfter, hhostname⟩ := settingsAfter_concat before hc
  refine ⟨hsame.locked.trans h.unlocked, henabled, ?_, ?_, ?_, ?_, ?_⟩
  · rw [hafter, hsame.filename]
    exact h.absent
  · rw [hafter, hsame.filename, hsame.heap]
    exact h.live
  · rw [hlevel, hsame.level, h.level]
  · rw [htoSyslogAfter, htoSyslog, h.toSyslog]
  · rw [hhostname, hsame.hostname, h.hostname]

/-! ### The mutex -/

theorem lock_of_unlocked (h : s.locked = false) : s.lock = .ok { s with locked := true } := by
  rw [LogState.lock, h, if_neg Bool.false_ne_true]

theorem locked_of_lock (h : s.lock = .ok s') :
    s.locked = false ∧ s' = { s with locked := true } := by
  cases hlocked : s.locked with
  | false =>
      rw [lock_of_unlocked hlocked] at h
      exact ⟨rfl, (Except.ok.inj h).symm⟩
  | true =>
      rw [LogState.lock, hlocked, if_pos rfl] at h
      cases h

/-! ### Messages -/

/-- The prefixes of a list that is not empty. -/
theorem forall_concat_prefix_cons_iff {α : Type*} {a : α} {l : List α} {P : List α → α → Prop} :
    (∀ before b, before ++ [b] <+: a :: l → P before b) ↔
      P [] a ∧ ∀ before b, before ++ [b] <+: l → P (a :: before) b := by
  constructor
  · intro h
    refine ⟨h [] a (by simp), fun before b hprefix => h (a :: before) b ?_⟩
    exact (List.prefix_cons_inj a).2 hprefix
  · rintro ⟨hnil, hcons⟩ before b hprefix
    cases before with
    | nil =>
        obtain ⟨rfl, -⟩ := List.cons_prefix_cons.1 hprefix
        exact hnil
    | cons c before =>
        obtain ⟨rfl, hrest⟩ := List.cons_prefix_cons.1 hprefix
        exact hcons before b hrest

/-- One piece of a message: it fits, and the rest does behind it. -/
theorem compileMessage_cons_eq_ok_iff {piece : LogPiece} {pieces : List LogPiece} {outIdx : ℕ}
    {message : Bytes} :
    compileMessage outIdx (piece :: pieces) = .ok message ↔
      outIdx + piece.text.length ≤ piece.limit ∧
        (compileMessage (outIdx + piece.text.length) pieces).map (piece.text ++ ·) =
          .ok message := by
  cases piece with
  | character ch =>
      rw [compileMessage]
      by_cases hfits : outIdx < 1024
      · rw [if_pos hfits]
        exact (and_iff_right hfits).symm
      · rw [if_neg hfits]
        exact iff_of_false (fun h => by cases h) fun h => hfits h.1
  | argument text =>
      rw [compileMessage]
      by_cases hfits : outIdx + text.length < 1024
      · rw [if_pos (by omega), if_pos (by omega), if_pos hfits]
        exact (and_iff_right (Nat.le_of_lt_succ hfits)).symm
      · -- one of the three checks fails
        refine iff_of_false (fun h => ?_) fun h => hfits (Nat.lt_succ_of_le h.1)
        rw [if_neg hfits] at h
        split at h
        · split at h <;> cases h
        · cases h

/-- **When a message can be put together.** -/
theorem compileMessage_eq_ok_iff {pieces : List LogPiece} {outIdx : ℕ} {message : Bytes} :
    compileMessage outIdx pieces = .ok message ↔ message = messageText pieces ∧
      ∀ before piece, before ++ [piece] <+: pieces →
        outIdx + (messageText (before ++ [piece])).length ≤ piece.limit := by
  induction pieces generalizing outIdx message with
  | nil =>
      refine ⟨fun h => ⟨(Except.ok.inj h).symm, fun before piece hprefix => ?_⟩, ?_⟩
      · exact absurd (List.prefix_nil.1 hprefix) (by simp)
      · rintro ⟨rfl, -⟩
        rfl
  | cons piece pieces ih =>
      have hlength : ∀ before p, (messageText (piece :: before ++ [p])).length =
          piece.text.length + (messageText (before ++ [p])).length := by
        simp [messageText]
      have hfirst : (messageText ([] ++ [piece])).length = piece.text.length := by
        simp [messageText]
      rw [compileMessage_cons_eq_ok_iff, forall_concat_prefix_cons_iff, hfirst, and_left_comm]
      refine and_congr_right fun _ => ?_
      simp only [hlength, ← Nat.add_assoc]
      cases hcompile : compileMessage (outIdx + piece.text.length) pieces with
      | error fault =>
          refine iff_of_false (fun h => by cases h) fun h => ?_
          have hok := ih.2 ⟨rfl, h.2⟩
          rw [hcompile] at hok
          cases hok
      | ok rest =>
          obtain ⟨rfl, hfit⟩ := ih.1 hcompile
          refine ⟨fun h => ⟨(Except.ok.inj h).symm, hfit⟩, ?_⟩
          rintro ⟨rfl, -⟩
          rfl

theorem length_formatTwo : ∀ n < 100, (formatTwo n).length = 2 := fun n hn =>
  (formatTwo_spec n hn).1

theorem length_formatPadded : ∀ n < 32, (formatPadded n).length = 2 := by decide +kernel

theorem length_formatEntry (tm : LocalTime) (hostname message : Bytes) :
    (formatEntry tm hostname message).length = 24 + hostname.length + message.length := by
  have hname : (ascii " aws-s3fs: ").length = 11 := by decide +kernel
  simp only [formatEntry, List.length_cons, List.length_append, hname,
    length_formatPadded _ tm.tmMday.isLt, length_formatTwo _ (tm.tmHour.isLt.trans (by decide)),
    length_formatTwo _ (tm.tmMin.isLt.trans (by decide)),
    length_formatTwo _ (tm.tmSec.isLt.trans (by decide))]
  omega

/-- The name of the month behind the one that it is. -/
theorem monthNames_succ : ∀ month : Fin 12,
    (month = 11 ∧ monthNames[month.val + 1]? = none) ∨
      (month ≠ 11 ∧ ∃ name, monthNames[month.val + 1]? = some name ∧ name.length = 3) := by
  intro month
  by_cases hmonth : month = 11
  · exact .inl ⟨hmonth, by rw [hmonth]; rfl⟩
  · refine .inr ⟨hmonth, ?_⟩
    have hall : ∀ m : Fin 12, m ≠ 11 → (monthNames[m.val + 1]?.map List.length) = some 3 := by
      decide +kernel
    exact Option.map_eq_some_iff.1 (hall month hmonth)

/-- **When a message can be written**: it has no preamble, or one that fits. -/
theorem exists_logMessage_iff {logger : Logger} {tm : LocalTime} {priority : ℤ} {message : Bytes} :
    (∃ entries, logMessage logger tm priority message = .ok entries) ↔
      (logger.loggingEnabled = true → logger.logToSyslog = false → tm.tmMon ≠ 11 ∧
        27 + (logger.hostname.getD (ascii "(null)")).length + message.length ≤ 1024) := by
  rw [logMessage]
  by_cases henabled : logger.loggingEnabled = true
  · by_cases htoSyslog : logger.logToSyslog = true
    · simp [henabled, htoSyslog]
    · rw [if_pos henabled, if_neg htoSyslog]
      simp only [henabled, Bool.eq_false_iff.2 htoSyslog, true_imp_iff]
      rcases monthNames_succ tm.tmMon with ⟨hmonth, hnone⟩ | ⟨hmonth, name, hname, hlength⟩
      · simp only [hnone]
        exact iff_of_false (by rintro ⟨entries, h⟩; cases h) fun h => h.1 hmonth
      · have hentry : (name ++ formatEntry tm (logger.hostname.getD (ascii "(null)"))
            message).length =
            27 + (logger.hostname.getD (ascii "(null)")).length + message.length := by
          rw [List.length_append, hlength, length_formatEntry]
          omega
        simp only [hname, hentry, hmonth, ne_eq, not_false_eq_true, true_and]
        split
        · rename_i hfits
          refine iff_of_true ?_ hfits
          cases logger.logFh <;> exact ⟨_, rfl⟩
        · rename_i hfits
          exact iff_of_false (by rintro ⟨entries, h⟩; cases h) hfits
  · simp [henabled]

/-- A message can be put together, and written if it is to be. -/
def CanLog (call : SyslogCall) (s : LogState) : Prop :=
  PiecesFit call.pieces ∧ (s.logger.loggingEnabled = true ∧ s.logger.logToSyslog = false ∧
    call.priority ≤ s.logger.logLevel.value → call.tm.tmMon ≠ 11 ∧
      27 + (s.logger.hostname.getD (ascii "(null)")).length + (messageText call.pieces).length ≤
        1024)

/-- `Syslog` returns if the mutex is not locked and the message can be logged. -/
theorem exists_syslog {call : SyslogCall} (h : s.locked = false) (hlog : CanLog call s) :
    ∃ s', syslog call s = .ok s' ∧ Unconcerned s s' ∧
      s'.logger.loggingEnabled = s.logger.loggingEnabled ∧
      s'.logger.logToSyslog = s.logger.logToSyslog := by
  have hmessage : compileMessage 0 call.pieces = .ok (messageText call.pieces) :=
    compileMessage_eq_ok_iff.2 ⟨rfl, fun before piece h => by
      rw [Nat.zero_add]
      exact hlog.1 before piece h⟩
  rw [syslog, hmessage, ok_bind, lock_of_unlocked h, ok_bind]
  split
  case isTrue hpriority =>
    obtain ⟨entries, hentries⟩ := exists_logMessage_iff.2 fun henabled htoSyslog =>
      hlog.2 ⟨henabled, htoSyslog, hpriority⟩
    rw [hentries]
    exact ⟨_, rfl, ⟨h.symm, rfl, rfl, rfl, rfl⟩, rfl, rfl⟩
  case isFalse => exact ⟨_, rfl, ⟨h.symm, rfl, rfl, rfl, rfl⟩, rfl, rfl⟩

/-- `Syslog` needs the mutex, and a message that can be logged. -/
theorem canLog_of_syslog {call : SyslogCall} (h : syslog call s = .ok s') :
    s.locked = false ∧ CanLog call s := by
  obtain ⟨message, hmessage, h⟩ := bind_eq_ok_iff.1 h
  obtain ⟨t, hlock, h⟩ := bind_eq_ok_iff.1 h
  obtain ⟨hlocked, rfl⟩ := locked_of_lock hlock
  obtain ⟨rfl, hfit⟩ := compileMessage_eq_ok_iff.1 hmessage
  refine ⟨hlocked, fun before piece hprefix => ?_, ?_⟩
  · have hpiece := hfit before piece hprefix
    rwa [Nat.zero_add] at hpiece
  rintro ⟨henabled, htoSyslog, hpriority⟩
  rw [if_pos hpriority] at h
  obtain ⟨entries, hentries, -⟩ := bind_eq_ok_iff.1 h
  exact exists_logMessage_iff.1 ⟨entries, hentries⟩ henabled htoSyslog

/-- Whether a message can be logged is known from the calls before. -/
theorem Tracks.canLog_iff (h : Tracks before s) (call : SyslogCall) :
    CanLog call s ↔ CarefulCall before (.syslog call) := by
  rw [CanLog, CarefulCall, Written, h.enabled, h.toSyslog, h.level, h.hostname]

/-! ### The name of the log -/

/-- The name can be freed if it is in use. -/
theorem exists_freeFilename (hlive : ∀ n, s.logger.logFilename = some n → s.heap.Live n) :
    ∃ heap, s.freeFilename = .ok { s with heap := heap } ∧
      ∀ n, s.logger.logFilename = some n → ¬ heap.Live n := by
  rw [LogState.freeFilename]
  cases hname : s.logger.logFilename with
  | none => exact ⟨s.heap, rfl, fun n hn => by cases hn⟩
  | some n =>
      obtain ⟨heap, hfree, hdead⟩ := exists_free_eq_ok (hlive n hname)
      refine ⟨heap, ?_, ?_⟩
      · simp only [hfree]
        rfl
      · rintro m ⟨⟩
        exact hdead

/-- Only a name that is in use can be freed, and the mutex stays as it is. -/
theorem of_freeFilename (h : s.freeFilename = .ok s') :
    (∀ n, s.logger.logFilename = some n → s.heap.Live n) ∧ s'.locked = s.locked := by
  rw [LogState.freeFilename] at h
  cases hname : s.logger.logFilename with
  | none =>
      rw [hname] at h
      obtain rfl := Except.ok.inj h
      exact ⟨nofun, rfl⟩
  | some n =>
      rw [hname] at h
      cases hfree : s.heap.free n with
      | error fault =>
          simp only [hfree] at h
          cases h
      | ok heap =>
          simp only [hfree] at h
          obtain rfl := Except.ok.inj h
          refine ⟨?_, rfl⟩
          rintro m ⟨⟩
          exact live_of_free hfree

/-- **`InitLog` replaces the name**: the new one, if there is one, is in use. -/
theorem exists_replaceFilename {logfile : Option Bytes}
    (hlive : logfile.isSome = true → ∀ n, s.logger.logFilename = some n → s.heap.Live n) :
    ∃ s', replaceFilename logfile s = .ok s' ∧
      s'.logger.loggingEnabled = s.logger.loggingEnabled ∧
      s'.logger.logToSyslog = s.logger.logToSyslog ∧
      (s'.logger.logFilename = none ↔ logfile = none) ∧
      ∀ n, s'.logger.logFilename = some n → s'.heap.Live n := by
  cases logfile with
  | none => exact ⟨_, rfl, rfl, rfl, iff_of_true rfl rfl, fun n hn => by cases hn⟩
  | some logfile =>
      obtain ⟨heap, hfree, -⟩ := exists_freeFilename (hlive rfl)
      rw [replaceFilename, hfree, ok_bind]
      refine ⟨_, rfl, rfl, rfl, by simp, ?_⟩
      rintro n ⟨⟩
      exact live_allocate heap logfile

/-- A name replaces only one that is in use, and the mutex stays as it is. -/
theorem of_replaceFilename {logfile : Option Bytes} (h : replaceFilename logfile s = .ok s') :
    (logfile.isSome = true → ∀ n, s.logger.logFilename = some n → s.heap.Live n) ∧
      s'.locked = s.locked := by
  cases logfile with
  | none =>
      obtain rfl := Except.ok.inj h
      exact ⟨nofun, rfl⟩
  | some logfile =>
      obtain ⟨t, hfree, ht⟩ := bind_eq_ok_iff.1 h
      obtain rfl := Except.ok.inj ht
      obtain ⟨hlive, hlocked⟩ := of_freeFilename hfree
      exact ⟨fun _ => hlive, hlocked⟩

/-! ### The file -/

/-- **`InitLog` opens a file that can be opened.** -/
theorem exists_openLogfile (hopens : ∀ logfile, call.logfile = some logfile →
      logfile = ascii "syslog" ∨ call.opens = true) (s : LogState) :
    ∃ s', openLogfile call s = .ok s' ∧ Unconcerned s s' ∧
      s'.logger.loggingEnabled = s.logger.loggingEnabled ∧ s'.logger.logToSyslog =
        call.logfile.elim s.logger.logToSyslog (· = ascii "syslog") := by
  rw [openLogfile]
  cases hlogfile : call.logfile with
  | none => exact ⟨s, rfl, ⟨rfl, rfl, rfl, rfl, rfl⟩, rfl, rfl⟩
  | some logfile =>
      by_cases hsyslog : logfile = ascii "syslog"
      · refine ⟨_, if_pos hsyslog, ⟨rfl, rfl, rfl, rfl, rfl⟩, rfl, ?_⟩
        exact (decide_eq_true hsyslog).symm
      · have hopen := (hopens logfile hlogfile).resolve_left hsyslog
        simp only [if_neg hsyslog, if_pos hopen]
        exact ⟨_, rfl, ⟨rfl, rfl, rfl, rfl, rfl⟩, rfl, (decide_eq_false hsyslog).symm⟩

/-- **A file that cannot be opened** needs the mutex. -/
theorem opens_of_openLogfile (hlocked : s.locked = true) (h : openLogfile call s = .ok s')
    {logfile : Bytes} (hlogfile : call.logfile = some logfile) :
    logfile = ascii "syslog" ∨ call.opens = true := by
  by_contra hcontra
  obtain ⟨hsyslog, hopens⟩ := not_or.1 hcontra
  simp only [openLogfile, hlogfile, if_neg hsyslog, if_neg hopens] at h
  have hunlocked := (canLog_of_syslog h).1
  rw [hlocked] at hunlocked
  cases hunlocked

/-- `CloseLog` reads the name if no file is open, and it can if the name is in use. -/
theorem exists_closeLogfile (hlive : ∀ n, s.logger.logFilename = some n → s.heap.Live n) :
    ∃ s', closeLogfile s = .ok s' ∧ Unconcerned s s' ∧
      s'.logger.loggingEnabled = s.logger.loggingEnabled ∧
      s'.logger.logToSyslog = s.logger.logToSyslog := by
  rw [closeLogfile]
  split
  case h_1 => exact ⟨_, rfl, ⟨rfl, rfl, rfl, rfl, rfl⟩, rfl, rfl⟩
  case h_2 n _ hn =>
    obtain ⟨name, hread⟩ := exists_read_eq_ok (hlive n hn)
    rw [hread]
    exact ⟨_, rfl, ⟨rfl, rfl, rfl, rfl, rfl⟩, rfl, rfl⟩
  case h_3 => exact ⟨s, rfl, ⟨rfl, rfl, rfl, rfl, rfl⟩, rfl, rfl⟩

/-- It changes neither the name nor the memory. -/
theorem filename_of_closeLogfile (h : closeLogfile s = .ok s') :
    s'.logger.logFilename = s.logger.logFilename ∧ s'.heap = s.heap := by
  rw [closeLogfile] at h
  split at h
  case h_1 =>
    obtain rfl := Except.ok.inj h
    exact ⟨rfl, rfl⟩
  case h_2 n _ _ =>
    cases hread : s.heap.read n with
    | error fault =>
        rw [hread] at h
        cases h
    | ok name =>
        rw [hread] at h
        obtain rfl := Except.ok.inj h
        exact ⟨rfl, rfl⟩
  case h_3 =>
    obtain rfl := Except.ok.inj h
    exact ⟨rfl, rfl⟩

/-! ### The steps -/

/-- The start. -/
theorem exists_initializeLoggingModule :
    ∃ s, initializeLoggingModule .static = .ok s ∧ Tracks [] s :=
  ⟨_, rfl, rfl, rfl, iff_of_true rfl rfl, nofun, rfl, rfl, rfl⟩

/-- `InitLog`. -/
theorem exists_initLog (htracks : Tracks before s) (hcareful : CarefulCall before (.initLog call)) :
    ∃ s', initLog call s = .ok s' ∧ Tracks (before ++ [.initLog call]) s' := by
  obtain ⟨henabled, hnamed⟩ := hcareful
  have hlive : call.logfile.isSome = true →
      ∀ n, s.logger.logFilename = some n → s.heap.Live n := by
    intro hsome n hn
    obtain ⟨logfile, hlogfile⟩ := Option.isSome_iff_exists.1 hsome
    exact htracks.live_of_ne_freed (hnamed logfile hlogfile).1 hn
  obtain ⟨t, hreplace, htenabled, httoSyslog, hnone, hname⟩ :=
    exists_replaceFilename (s := { s with locked := true }) hlive
  obtain ⟨u, hopen, hsame, huenabled, hutoSyslog⟩ :=
    exists_openLogfile (fun logfile hlogfile => (hnamed logfile hlogfile).2) (setLoglevel call t)
  obtain ⟨hlevel, htoSyslog, hhostname⟩ := settingsAfter_initLog before call
  have hnext : filenameAfter (before ++ [.initLog call]) =
      if call.logfile.isSome then .held else .absent := filenameAfter_concat before _
  refine ⟨u.unlock, ?_, rfl, ?_, ?_, ?_, ?_, ?_, ?_⟩
  · rw [initLog, lock_of_unlocked htracks.unlocked, ok_bind,
      if_pos (htracks.enabled.trans henabled), hreplace, ok_bind, hopen]
    rfl
  · rw [enabledAfter_concat]
    exact huenabled.trans (htenabled.trans htracks.enabled)
  · have hfilename : u.logger.logFilename = none ↔ call.logfile = none := by
      rw [hsame.filename]
      exact hnone
    rw [hnext]
    cases hlogfile : call.logfile <;> simp [LogState.unlock, hfilename, hlogfile]
  · intro n hn
    have hn' : t.logger.logFilename = some n := hsame.filename.symm.trans hn
    have hsome : call.logfile.isSome = true := by
      rw [Option.isSome_iff_ne_none, Ne, ← hnone, hn']
      exact nofun
    rw [hnext, if_pos hsome]
    refine iff_of_true ?_ rfl
    exact hsame.heap.symm ▸ hname n hn'
  · rw [hlevel]
    exact hsame.level
  · rw [htoSyslog, ← htracks.toSyslog]
    refine hutoSyslog.trans (congrArg (call.logfile.elim · _) ?_)
    exact httoSyslog
  · rw [hhostname]
    exact congrArg (Option.getD · _) hsame.hostname

/-- `CloseLog`. -/
theorem exists_closeLog (htracks : Tracks before s) (hcareful : CarefulCall before .closeLog) :
    ∃ s', closeLog s = .ok s' ∧ Tracks (before ++ [.closeLog]) s' := by
  have hlive : ∀ n, s.logger.logFilename = some n → s.heap.Live n :=
    fun n hn => htracks.live_of_ne_freed hcareful hn
  obtain ⟨t, hclose, hsame, htenabled, httoSyslog⟩ :=
    exists_closeLogfile (s := { s with locked := true }) hlive
  obtain ⟨heap, hfree, hdead⟩ := exists_freeFilename (s := t) (by
    rw [hsame.filename, hsame.heap]
    exact hlive)
  have hnext : filenameAfter (before ++ [.closeLog]) =
      if filenameAfter before = .absent then .absent else .freed := filenameAfter_concat before _
  obtain ⟨hlevel, htoSyslog, hhostname⟩ := settingsAfter_concat before (c := .closeLog) nofun
  refine ⟨{ t with heap := heap }.unlock, ?_, rfl, ?_, ?_, ?_, ?_, ?_, ?_⟩
  · rw [closeLog, lock_of_unlocked htracks.unlocked, ok_bind, hclose, ok_bind, hfree]
    rfl
  · rw [enabledAfter_concat]
    exact htenabled.trans htracks.enabled
  · have hfilename : t.logger.logFilename = none ↔ filenameAfter before = .absent := by
      rw [hsame.filename]
      exact htracks.absent.symm
    rw [hnext]
    by_cases habsent : filenameAfter before = .absent <;>
      simp [LogState.unlock, hfilename, habsent]
  · intro n hn
    rw [hnext]
    refine iff_of_false (hdead n hn) ?_
    split <;> exact nofun
  · rw [hlevel]
    exact hsame.level.trans htracks.level
  · rw [htoSyslog]
    exact httoSyslog.trans htracks.toSyslog
  · rw [hhostname, ← htracks.hostname]
    exact congrArg (Option.getD · _) hsame.hostname

/-- **A careful call returns with the mutex unlocked.** -/
theorem exists_logStep_of_careful (c : LogCall) (htracks : Tracks before s)
    (hcareful : CarefulCall before c) : ∃ s', logStep s c = .ok s' ∧ Tracks (before ++ [c]) s' := by
  cases c with
  | initLog call => exact exists_initLog htracks hcareful
  | closeLog => exact exists_closeLog htracks hcareful
  | enableLogging =>
      refine ⟨enableLogging s, rfl, ?_⟩
      refine htracks.concat nofun rfl ⟨rfl, rfl, rfl, rfl, rfl⟩ rfl ?_
      rw [enabledAfter_concat]
      rfl
  | disableLogging =>
      refine ⟨disableLogging s, rfl, ?_⟩
      refine htracks.concat nofun rfl ⟨rfl, rfl, rfl, rfl, rfl⟩ rfl ?_
      rw [enabledAfter_concat]
      rfl
  | syslog call =>
      obtain ⟨t, hsyslog, hsame, henabled, htoSyslog⟩ :=
        exists_syslog htracks.unlocked ((htracks.canLog_iff call).2 hcareful)
      refine ⟨t, hsyslog, htracks.concat nofun rfl hsame htoSyslog ?_⟩
      rw [enabledAfter_concat]
      exact henabled.trans htracks.enabled

/-- **A call that returns with the mutex unlocked was careful.** -/
theorem careful_of_logStep (c : LogCall) (htracks : Tracks before s)
    (hstep : logStep s c = .ok s') (hunlocked : s'.locked = false) : CarefulCall before c := by
  cases c with
  | initLog call =>
      obtain ⟨t, hlock, hrest⟩ := bind_eq_ok_iff.1 hstep
      obtain ⟨-, rfl⟩ := locked_of_lock hlock
      split at hrest
      case isTrue henabled =>
        obtain ⟨u, hreplace, hrest⟩ := bind_eq_ok_iff.1 hrest
        obtain ⟨v, hopen, -⟩ := bind_eq_ok_iff.1 hrest
        obtain ⟨hlive, hlocked⟩ := of_replaceFilename hreplace
        refine ⟨htracks.enabled.symm.trans henabled, fun logfile hlogfile => ⟨?_, ?_⟩⟩
        · exact htracks.ne_freed (hlive (by rw [hlogfile]; rfl))
        · exact opens_of_openLogfile (s := setLoglevel call u) hlocked hopen hlogfile
      case isFalse =>
        obtain rfl := Except.ok.inj hrest
        cases hunlocked
  | closeLog =>
      obtain ⟨t, hlock, hrest⟩ := bind_eq_ok_iff.1 hstep
      obtain ⟨-, rfl⟩ := locked_of_lock hlock
      obtain ⟨u, hclose, hrest⟩ := bind_eq_ok_iff.1 hrest
      obtain ⟨v, hfree, -⟩ := bind_eq_ok_iff.1 hrest
      obtain ⟨hfilename, hheap⟩ := filename_of_closeLogfile hclose
      refine htracks.ne_freed fun n hn => ?_
      have hlive := (of_freeFilename hfree).1 n (hfilename.trans hn)
      rwa [hheap] at hlive
  | enableLogging => trivial
  | disableLogging => trivial
  | syslog call => exact (htracks.canLog_iff call).1 (canLog_of_syslog hstep).2

/-- **Exactly when the logger is safe.** -/
theorem loggerSafe_iff (calls : List LogCall) :
    LoggerSafe calls ↔ ∀ before call, before ++ [call] <+: calls → CarefulCall before call := by
  obtain ⟨s, hs, hnil⟩ := exists_initializeLoggingModule
  have hcalls : ∀ before, afterCalls before = before.foldlM logStep s := by
    intro before
    rw [afterCalls, hs, ok_bind]
  simp only [LoggerSafe, hcalls]
  exact forall_prefix_foldlM_iff (fun _ _ htracks => htracks.unlocked)
    (fun before call s htracks => exists_logStep_of_careful call htracks)
    (fun before call s s' htracks => careful_of_logStep call htracks) hnil calls

/-- Half past noon, in a month. -/
def LocalTime.noonOf (month : Fin 12) : LocalTime := ⟨month, 1, 12, 30, 0⟩

/-- `InitLog` with a file of the name. -/
def InitLogCall.logTo (logfile : Bytes) (opens : Bool) : InitLogCall :=
  ⟨some logfile, .warning, ascii "host", opens, .noonOf 0⟩

/-- An error message that comes from one argument. -/
def SyslogCall.ofText (text : Bytes) (month : Fin 12) : SyslogCall :=
  ⟨LogLevels.err.value, [.argument text], .noonOf month⟩

/-- A message that leaves no room for its preamble. -/
theorem not_loggerSafe_of_long {text : Bytes} (hlong : 991 < text.length) :
    ¬ LoggerSafe [.syslog (.ofText text 0)] := by
  intro h
  obtain ⟨s, hs, hunlocked⟩ := h _ List.prefix_rfl
  obtain ⟨t, ht, htracks⟩ := exists_initializeLoggingModule
  rw [afterCalls, ht, ok_bind, List.foldlM_cons] at hs
  obtain ⟨u, hu, hs⟩ := bind_eq_ok_iff.1 hs
  obtain rfl := Except.ok.inj hs
  obtain ⟨-, hroom⟩ := careful_of_logStep _ htracks hu hunlocked
  have hpriority : LogLevels.err.value ≤ LogLevels.warning.value := by decide
  have hlength := (hroom ⟨rfl, rfl, hpriority⟩).2
  have hhostname : (hostnameAfter []).length = 6 := rfl
  rw [hhostname, messageText, SyslogCall.ofText, List.flatMap_singleton, LogPiece.text] at hlength
  omega

/-- Logging that is disabled, a file that cannot be opened, a log that is closed twice, a message in
December, and one that leaves no room for its preamble. -/
theorem not_loggerSafe :
    ¬ LoggerSafe [.disableLogging, .initLog (.logTo (ascii "log") true)] ∧
    ¬ LoggerSafe [.initLog (.logTo (ascii "/missing/log") false)] ∧
    ¬ LoggerSafe [.initLog (.logTo (ascii "log") true), .closeLog, .closeLog] ∧
    ¬ LoggerSafe [.syslog (.ofText (ascii "Out of memory") 11)] ∧
    ¬ LoggerSafe [.syslog (.ofText (List.replicate 1023 65) 0)] := by
  refine ⟨fun h => ?_, fun h => ?_, fun h => ?_, fun h => ?_, fun h => ?_⟩
  · obtain ⟨s, hs, hunlocked⟩ := h _ List.prefix_rfl
    obtain rfl := Except.ok.inj hs
    cases hunlocked
  · obtain ⟨s, hs, -⟩ := h _ List.prefix_rfl
    cases hs
  · obtain ⟨s, hs, -⟩ := h _ List.prefix_rfl
    cases hs
  · obtain ⟨s, hs, -⟩ := h _ List.prefix_rfl
    cases hs
  · refine not_loggerSafe_of_long ?_ h
    rw [List.length_replicate]
    decide

end AwsS3fs
