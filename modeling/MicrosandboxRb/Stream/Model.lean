import MicrosandboxRb.Lib.F64
import MicrosandboxRb.Lib.Serialized
import MicrosandboxRb.Runtime.Calls

/-!
# Streams of the core

`ExecHandle` (`exec.rs`), `LogStream` and `MetricsStream` (`stream.rs`) and `FsReadStream`
(`fs_stream.rs`) keep a handle of the core, which is driven by `&mut`, behind a `tokio::Mutex`. Each
of their methods makes one call of the core: `recv`, `wait` and `collect` under the guard; `signal`,
`kill` and `resize` through the control handle, which is not behind the mutex.

A native method is modelled by the future it hands to `block_on`, with what it makes of the output.

## Main definitions

* `execEventToHash`, `logEntryToHash`, `metricsToHash`: the Hashes that are handed to Ruby;
* `FsReadStream.recv`, `ExecHandle.wait`, …: the native methods;
* `HandleClass`: the methods of a class, as calls of the core.
-/

namespace MicrosandboxRb.Stream

open AsyncMutex

/-- Binary data, byte by byte. -/
abbrev Bytes := List UInt8

/-- A value in a Hash that the extension builds. -/
inductive Field where
  | nil
  | int (n : ℤ)
  | bool (b : Bool)
  | float (x : F64)
  | str (s : String)
  /-- A String in `ASCII-8BIT`. -/
  | bytes (b : Bytes)

/-- A number or `nil`. -/
def Field.ofOption : Option ℤ → Field
  | some n => .int n
  | none => .nil

/-- The entries of a Hash that is built by `aset`, each key once. -/
abbrev Hash := List (String × Field)

/-- `hash[key]`. -/
def Hash.get (hash : Hash) (key : String) : Field := (hash.lookup key).getD .nil

/-- What a native method returns to Ruby. -/
inductive Value where
  | nil
  | bytes (b : Bytes)
  | hash (h : Hash)

/-! ## Items -/

/-- The error of a process that could not be started, or of its stdin. The message is given by its
bytes. -/
structure Payload where
  message : Bytes
  errno : Option ℤ
deriving DecidableEq

/-- An event of a process. -/
inductive ExecEvent where
  | started (pid : ℕ)
  | stdout (data : Bytes)
  | stderr (data : Bytes)
  | exited (code : ℤ)
  | failed (payload : Payload)
  | stdinError (payload : Payload)
deriving DecidableEq

/-- Convert a core `ExecEvent` into a Ruby Hash. -/
def execEventToHash : ExecEvent → Hash
  | .started pid => [("type", .str "started"), ("pid", .int pid)]
  | .stdout data => [("type", .str "stdout"), ("data", .bytes data)]
  | .stderr data => [("type", .str "stderr"), ("data", .bytes data)]
  | .exited code => [("type", .str "exited"), ("code", .int code)]
  | .failed payload =>
    [("type", .str "failed"), ("data", .bytes payload.message), ("code", .ofOption payload.errno)]
  | .stdinError payload =>
    [("type", .str "stdin_error"), ("data", .bytes payload.message),
      ("code", .ofOption payload.errno)]

/-- How a process ended. -/
structure ExitStatus where
  code : ℤ
  success : Bool
deriving DecidableEq

/-- `exit_status_to_hash`. -/
def exitStatusToHash (status : ExitStatus) : Hash :=
  [("exit_code", .int status.code), ("success", .bool status.success)]

/-- The output of a process. -/
structure ExecOutput where
  status : ExitStatus
  stdoutBytes : Bytes
  stderrBytes : Bytes
deriving DecidableEq

/-- `exec_output_to_hash`. -/
def execOutputToHash (output : ExecOutput) : Hash :=
  [("exit_code", .int output.status.code), ("success", .bool output.status.success),
    ("stdout", .bytes output.stdoutBytes), ("stderr", .bytes output.stderrBytes)]

/-- The sources of a log. -/
inductive LogSource where
  | stdout
  | stderr
  | output
  | system
deriving DecidableEq

/-- The name of a source. -/
def LogSource.str : LogSource → String
  | .stdout => "stdout"
  | .stderr => "stderr"
  | .output => "output"
  | .system => "system"

/-- A log entry, with its timestamp in nanoseconds since the epoch and its cursor as the text of
`to_string`. -/
structure LogEntry where
  timestamp : ℤ
  source : LogSource
  sessionId : Option ℕ
  cursor : String
  data : Bytes
deriving DecidableEq

/-- `DateTime::timestamp_millis`. -/
def timestampMillis (nanos : ℤ) : ℤ := nanos / 10 ^ 6

/-- `log_entry_to_hash`. -/
def logEntryToHash (entry : LogEntry) : Hash :=
  [("timestamp_ms", .int (timestampMillis entry.timestamp)), ("source", .str entry.source.str),
    ("session_id", .ofOption (entry.sessionId.map Nat.cast)), ("cursor", .str entry.cursor),
    ("data", .bytes entry.data)]

/-- A `Duration`. -/
structure Duration where
  secs : UInt64
  nanos : UInt32
deriving DecidableEq

/-- `(secs as f64) + (nanos as f64) / 1e9`. -/
def Duration.asSecsF64 (d : Duration) : F64 :=
  -- the sum, written as a difference: a change of sign is exact
  F64.ofInt d.secs.toNat - (F64.ofInt 0 - F64.ofInt d.nanos.toNat / F64.ofInt (10 ^ 9))

/-- The metrics of the core. -/
structure SandboxMetrics where
  cpuPercent : F64
  vcpuTimeNs : ℕ
  memoryBytes : ℕ
  memoryAvailableBytes : Option ℕ
  memoryHostResidentBytes : Option ℕ
  memoryLimitBytes : ℕ
  diskReadBytes : ℕ
  diskWriteBytes : ℕ
  netRxBytes : ℕ
  netTxBytes : ℕ
  upperUsedBytes : Option ℕ
  upperFreeBytes : Option ℕ
  upperHostAllocatedBytes : Option ℕ
  uptime : Duration
  timestamp : ℤ

/-- `metrics_to_hash`. -/
def metricsToHash (m : SandboxMetrics) : Hash :=
  [("cpu_percent", .float m.cpuPercent), ("vcpu_time_ns", .int m.vcpuTimeNs),
    ("memory_bytes", .int m.memoryBytes),
    ("memory_available_bytes", .ofOption (m.memoryAvailableBytes.map Nat.cast)),
    ("memory_host_resident_bytes", .ofOption (m.memoryHostResidentBytes.map Nat.cast)),
    ("memory_limit_bytes", .int m.memoryLimitBytes), ("disk_read_bytes", .int m.diskReadBytes),
    ("disk_write_bytes", .int m.diskWriteBytes), ("net_rx_bytes", .int m.netRxBytes),
    ("net_tx_bytes", .int m.netTxBytes),
    ("upper_used_bytes", .ofOption (m.upperUsedBytes.map Nat.cast)),
    ("upper_free_bytes", .ofOption (m.upperFreeBytes.map Nat.cast)),
    ("upper_host_allocated_bytes", .ofOption (m.upperHostAllocatedBytes.map Nat.cast)),
    ("uptime_secs", .float m.uptime.asSecsF64), ("timestamp_ms", .int (timestampMillis m.timestamp))]

/-! ## The native methods -/

/-- A native method: what it hands to `block_on`, with what it makes of the output. -/
abbrev Method {Core : Type} (Reply : Core → Type) :=
  Future Unit Reply (Except RubyError Value)

/-- `block_on(async move { inner.lock().await.call().await })`. -/
def locked {Core : Type} {Reply : Core → Type} (c : Core)
    (finish : Reply c → Except RubyError Value) : Method Reply := do
  let output ← Future.withGuard (Future.await c)
  pure (finish output)

/-- `block_on(control.call())`. -/
def direct {Core : Type} {Reply : Core → Type} (c : Core)
    (finish : Reply c → Except RubyError Value) : Method Reply := do
  let output ← Future.await c
  pure (finish output)

/-- A call under the lock, as a call of its own. -/
theorem locked_eq {Core : Type} {Reply : Core → Type} (c : Core)
    (finish : Reply c → Except RubyError Value) :
    locked c finish = OneCall.future { core := c, guarded := true, finish } := rfl

/-- A call beside the lock, as a call of its own. -/
theorem direct_eq {Core : Type} {Reply : Core → Type} (c : Core)
    (finish : Reply c → Except RubyError Value) :
    direct c finish = OneCall.future { core := c, guarded := false, finish } := rfl

namespace FsReadStream

/-- The call of the core's reader. -/
inductive Core where
  | recv
deriving DecidableEq

/-- What a call of the core replies. -/
def Core.Reply : Core → Type
  | .recv => Except MicrosandboxError (Option Bytes)

/-- Next chunk of bytes, or nil at end of stream. -/
def received : Core.Reply .recv → Except RubyError Value
  | .error e => .error (.toRuby e)
  | .ok (some bytes) => .ok (.bytes bytes)
  | .ok none => .ok .nil

/-- `recv`. -/
def recv : Method Core.Reply := locked .recv received

end FsReadStream

/-- A core `Stream`, with items of type `T`. -/
inductive StreamCore where
  | next
deriving DecidableEq

/-- What a stream of the core replies. -/
def StreamCore.Reply (T : Type) : StreamCore → Type
  | .next => Option (Except MicrosandboxError T)

/-- Next item as a Hash, or nil when the stream ends. -/
def received {T : Type} (toHash : T → Hash) :
    StreamCore.Reply T .next → Except RubyError Value
  | some (.ok item) => .ok (.hash (toHash item))
  | some (.error e) => .error (.toRuby e)
  | none => .ok .nil

/-- `LogStream#recv`. -/
def LogStream.recv : Method (StreamCore.Reply LogEntry) := locked .next (received logEntryToHash)

/-- `MetricsStream#recv`. -/
def MetricsStream.recv : Method (StreamCore.Reply SandboxMetrics) :=
  locked .next (received metricsToHash)

namespace ExecHandle

/-- The calls of the core's `ExecHandle` and of its `ExecControl`. -/
inductive Core where
  | recv
  | wait
  | collect
  | signal (sig : Int32)
  | kill
  | resize (rows cols : UInt16)
deriving DecidableEq

/-- What a call of the core's handle of a process replies. -/
def Core.Reply : Core → Type
  | .recv => Option ExecEvent
  | .wait => Except MicrosandboxError ExitStatus
  | .collect => Except MicrosandboxError ExecOutput
  | .signal _ | .kill | .resize _ _ => Except MicrosandboxError Unit

/-- The value of an event, or `nil` at the end. -/
def received : Core.Reply .recv → Except RubyError Value
  | some event => .ok (.hash (execEventToHash event))
  | none => .ok .nil

/-- `result.map_err(error::to_ruby)`, with what is made of the value. -/
def mapResult {α : Type} (value : α → Value) (r : Except MicrosandboxError α) :
    Except RubyError Value :=
  r.mapError .toRuby |>.map value

/-- Next event as a Hash, or nil when the stream ends. -/
def recv : Method Core.Reply := locked .recv received

/-- Block until exit. -/
def wait : Method Core.Reply := locked .wait (mapResult fun status => .hash (exitStatusToHash status))

/-- Drain the stream and return a collected exec-output Hash. -/
def collect : Method Core.Reply :=
  locked .collect (mapResult fun output => .hash (execOutputToHash output))

/-- `signal`, beside the lock. -/
def signal (sig : Int32) : Method Core.Reply := direct (.signal sig) (mapResult fun _ => .nil)

/-- `kill`, beside the lock. -/
def kill : Method Core.Reply := direct .kill (mapResult fun _ => .nil)

/-- `resize`, beside the lock. -/
def resize (rows cols : UInt16) : Method Core.Reply :=
  direct (.resize rows cols) (mapResult fun _ => .nil)

end ExecHandle

/-! ## Classes -/

/-- The methods of a class of handles, as calls of the core. -/
structure HandleClass {Core : Type} (Reply : Core → Type) (Methods : Type) where
  future : Methods → Method Reply
  one : Methods → OneCall Reply (Except RubyError Value)
  future_eq : ∀ m, future m = (one m).future

/-- The methods of a class with nothing but `recv`. -/
inductive Receives where
  | recv
deriving DecidableEq

/-- The class of the streams of a file. -/
def FsReadStream.handles : HandleClass FsReadStream.Core.Reply Receives where
  future
    | .recv => FsReadStream.recv
  one
    | .recv => { core := .recv, guarded := true, finish := FsReadStream.received }
  future_eq
    | .recv => locked_eq ..

/-- The class of the streams of a log. -/
def LogStream.handles : HandleClass (StreamCore.Reply LogEntry) Receives where
  future
    | .recv => LogStream.recv
  one
    | .recv => { core := .next, guarded := true, finish := received logEntryToHash }
  future_eq
    | .recv => locked_eq ..

/-- The class of the streams of metrics. -/
def MetricsStream.handles : HandleClass (StreamCore.Reply SandboxMetrics) Receives where
  future
    | .recv => MetricsStream.recv
  one
    | .recv => { core := .next, guarded := true, finish := received metricsToHash }
  future_eq
    | .recv => locked_eq ..

namespace ExecHandle

/-- The methods of the handle. -/
inductive Methods where
  | recv
  | wait
  | collect
  | signal (sig : Int32)
  | kill
  | resize (rows cols : UInt16)
deriving DecidableEq

/-- The body of a method. -/
def Methods.future : Methods → Method Core.Reply
  | .recv => ExecHandle.recv
  | .wait => ExecHandle.wait
  | .collect => ExecHandle.collect
  | .signal sig => ExecHandle.signal sig
  | .kill => ExecHandle.kill
  | .resize rows cols => ExecHandle.resize rows cols

/-- The class of the handles of a process. -/
def handles : HandleClass Core.Reply Methods where
  future := Methods.future
  one
    | .recv => { core := .recv, guarded := true, finish := received }
    | .wait =>
      { core := .wait, guarded := true,
        finish := mapResult fun status => .hash (exitStatusToHash status) }
    | .collect =>
      { core := .collect, guarded := true,
        finish := mapResult fun output => .hash (execOutputToHash output) }
    | .signal sig => { core := .signal sig, guarded := false, finish := mapResult fun _ => .nil }
    | .kill => { core := .kill, guarded := false, finish := mapResult fun _ => .nil }
    | .resize rows cols =>
      { core := .resize rows cols, guarded := false, finish := mapResult fun _ => .nil }
  future_eq
    | .recv | .wait | .collect => locked_eq ..
    | .signal _ | .kill | .resize _ _ => direct_eq ..

end ExecHandle

end MicrosandboxRb.Stream
