import MicrosandboxRb.Runtime.Calls

/-!
# Closable sessions

`FsWriteSink` (`fs_stream.rs`), `SshClient` and `SftpClient` (`ssh.rs`) each keep a session of the
core in an `Option` behind a `tokio::Mutex`. Their operations borrow the session under the guard for
as long as they use it; `close` takes it, drops the guard, and then closes it.

A native method is modelled by the future it hands to `block_on`. The conversion of the output into
a Ruby value, which the method does after `block_on` has returned, is part of the future: no other
call can tell when it happens. A `tokio::Mutex` is fair; here a waiting call may get a free lock in
any order.

## Main definitions

* `FsWriteSink.write`, `SshClient.exec`, `SftpClient.write`, …: the methods;
* `SessionClass`: what the three classes have in common;
* `SessionClass.Step`: the steps of any number of threads that call the methods of one handle.
-/

namespace MicrosandboxRb.Session

open AsyncMutex

/-- Binary data, byte by byte. -/
abbrev Bytes := List UInt8

/-- A session object of the core. -/
structure CoreSession where
  id : ℕ
deriving DecidableEq

/-- What a native method returns to Ruby. -/
inductive Value where
  | nil
  | bytes (b : Bytes)
  | str (s : String)
  | int (n : ℤ)
  /-- `ssh_output_to_hash`. -/
  | sshOutput (status : ℤ) (success : Bool) (stdout stderr : Bytes)
  /-- A handle for a new SFTP session. -/
  | sftpClient (session : CoreSession)
deriving DecidableEq

/-- A future over the session of a handle. Every call of the core is made on a session, and is
answered or fails with an error of type `Err`. -/
abbrev SessionFuture {Core : Type} (Reply : Core → Type) (Err α : Type) :=
  Future (Option CoreSession) (fun c : CoreSession × Core => Except Err (Reply c.2)) α

section Shapes

variable {Core : Type} {Reply : Core → Type} {Err α : Type}

/-- A block that borrows the session, under the guard, to its end. -/
def withSession (closed : α) (body : CoreSession → SessionFuture Reply Err α) :
    SessionFuture Reply Err α :=
  Future.withGuard do
    match ← Future.replace id with
    | some session => body session
    | none => pure closed

/-- Take the session, and close it after the guard has been dropped. -/
def closeSession (send : CoreSession → SessionFuture Reply Err (Except Err Unit)) :
    SessionFuture Reply Err (Except Err Unit) := do
  -- the guard lives as long as this statement, so it is gone before the call
  match ← Future.withGuard (Future.replace fun _ => none) with
  | some session => send session
  | none => pure (.ok ())

/-- What is made of the output of an operation can be made of it under the guard. -/
theorem withSession_bind {β : Type} {closed : α} {body : CoreSession → SessionFuture Reply Err α}
    {g : α → SessionFuture Reply Err β} {g' : α → β} (hg : ∀ a, g a = .ready (g' a)) :
    (withSession closed body >>= g) =
      withSession (g' closed) fun session => body session >>= g := by
  obtain rfl : g = fun a => .ready (g' a) := funext hg
  simp only [withSession, Future.withGuard, Future.replace, Future.lock_bind, Future.access_bind,
    Future.ready_bind]
  congr
  funext taken
  cases taken with
  | none => rfl
  | some session => simp only [Future.bind_assoc, Future.unlock_bind, Future.ready_bind]

/-- What is made of the output of `close` can be made of the answer of its call. -/
theorem closeSession_bind {β : Type}
    {send : CoreSession → SessionFuture Reply Err (Except Err Unit)}
    {g : Except Err Unit → SessionFuture Reply Err β} {k : Option CoreSession →
      SessionFuture Reply Err β} (hsome : ∀ session, (send session >>= g) = k (some session))
    (hnone : g (.ok ()) = k none) :
    (closeSession send >>= g) = .lock (.access (fun _ => none) fun taken => .unlock (k taken)) := by
  simp only [closeSession, Future.withGuard, Future.replace, Future.lock_bind, Future.access_bind,
    Future.ready_bind, Future.unlock_bind]
  congr
  funext taken
  cases taken with
  | none =>
    rw [← hnone]
    rfl
  | some session => rw [← hsome]

end Shapes

/-! ## FsWriteSink -/

namespace FsWriteSink

/-- The calls of the core's sink. -/
inductive Core where
  | write (bytes : Bytes)
  | close
deriving DecidableEq

/-- What a call of a sink replies, errors apart. -/
def Core.Reply : Core → Type
  | .write _ | .close => Unit

/-- A method of `FsWriteSink`. -/
abbrev Method (α : Type) := SessionFuture Core.Reply MicrosandboxError α

/-- The same answer to every call. -/
def answers (r : Except MicrosandboxError Unit) :
    ∀ c : CoreSession × Core, Except MicrosandboxError c.2.Reply
  | (_, .write _) | (_, .close) => r

/-- A call of the sink, waited for. -/
def call (sink : CoreSession) (c : Core) : Method (Except MicrosandboxError c.Reply) :=
  Future.await (sink, c)

/-- What `write` makes of the output of its future. -/
def written : Option (Except MicrosandboxError Unit) → Except RubyError Value
  | some r => r.mapError .toRuby |>.map fun _ => .nil
  | none => .error (.baseError "write to a closed FsWriteSink")

/-- Write a chunk of bytes. -/
def write (bytes : Bytes) : Method (Except RubyError Value) := do
  let result ← withSession none fun sink => do
    let r ← call sink (.write bytes)
    pure (some r)
  pure (written result)

/-- Flush and close the sink. -/
def close : Method (Except RubyError Value) := do
  let result ← closeSession fun sink => call sink .close
  pure (result.mapError .toRuby |>.map fun _ => .nil)

end FsWriteSink

/-! ## SshClient -/

/-- A core error (`Custom`) for a session whose value was already taken. -/
def consumed : MicrosandboxError := .other "Error" "SSH session is already closed"

namespace SshClient

/-- The output of a command, as the core has it. -/
structure SshOutput where
  status : ℤ
  stdout : Bytes
  stderr : Bytes

/-- The calls of the core's SSH client. -/
inductive Core where
  | execWith (command : String) (tty : Bool)
  | attachWith (term detachKeys : Option String)
  | sftp
  | close
deriving DecidableEq

/-- What a call of an SSH client replies. -/
def Core.Reply : Core → Type
  | .execWith _ _ => SshOutput
  | .attachWith _ _ => ℤ
  | .sftp => CoreSession
  | .close => Unit

/-- A method of `SshClient`. -/
abbrev Method (α : Type) := SessionFuture Core.Reply MicrosandboxError α

/-- `ssh_output_to_hash`. -/
def sshOutputToHash (output : SshOutput) : Value :=
  .sshOutput output.status (output.status == 0) output.stdout output.stderr

/-- A call of the client, waited for. -/
def call (client : CoreSession) (c : Core) : Method (Except MicrosandboxError c.Reply) :=
  Future.await (client, c)

/-- An operation that makes one call of the session. -/
def operation (c : Core) (value : c.Reply → Value) : Method (Except RubyError Value) := do
  let result ← withSession (.error consumed) fun client => call client c
  pure (result.mapError .toRuby |>.map value)

/-- Run a command over SSH. -/
def exec (command : String) (tty : Bool) : Method (Except RubyError Value) :=
  operation (.execWith command tty) sshOutputToHash

/-- Attach the local terminal to an interactive SSH shell. -/
def attach (term detachKeys : Option String) : Method (Except RubyError Value) :=
  operation (.attachWith term detachKeys) .int

/-- Open an SFTP session over this SSH connection. -/
def sftp : Method (Except RubyError Value) := operation .sftp .sftpClient

/-- Close the SSH client session. -/
def close : Method (Except RubyError Value) := do
  let result ← closeSession fun client => call client .close
  pure (result.mapError .toRuby |>.map fun _ => .nil)

end SshClient

/-! ## SftpClient -/

namespace SftpClient

/-- The calls of the core's SFTP client, and of the file that `create` opens. Their errors are given
by their text. -/
inductive Core where
  | read (path : String)
  | create (path : String)
  | writeAll (bytes : Bytes)
  | shutdown
  | createDir (path : String)
  | removeFile (path : String)
  | removeDir (path : String)
  | rename (oldPath newPath : String)
  | symlink (target linkPath : String)
  | canonicalize (path : String)
  | readLink (path : String)
  | close
deriving DecidableEq

/-- What a call of an SFTP client replies, errors apart. -/
def Core.Reply : Core → Type
  | .read _ => Bytes
  | .canonicalize _ | .readLink _ => String
  | .create _ | .writeAll _ | .shutdown | .createDir _ | .removeFile _ | .removeDir _
  | .rename _ _ | .symlink _ _ | .close => Unit

/-- A method of `SftpClient`. -/
abbrev Method (α : Type) := SessionFuture Core.Reply String α

/-- Format an SFTP-layer error as a plain string. -/
def sftpStr (e : String) : String := "SFTP error: " ++ e

/-- Await a call of the session, with its error as a string. -/
def call (session : CoreSession) (c : Core) : Method (Except String c.Reply) := do
  let r ← Future.await (session, c)
  pure (r.mapError sftpStr)

/-- An operation that borrows the session. -/
def operation {β : Type} (body : CoreSession → Method (Except String β)) (value : β → Value) :
    Method (Except RubyError Value) := do
  let result ← withSession (.error (sftpStr "session closed")) body
  pure (result.mapError .baseError |>.map value)

/-- `read`. -/
def read (path : String) : Method (Except RubyError Value) :=
  operation (fun sftp => call sftp (.read path)) .bytes

/-- The early returns of `?` are the error branches. -/
def write (path : String) (bytes : Bytes) : Method (Except RubyError Value) :=
  operation
    (fun sftp => do
      match ← call sftp (.create path) with
      | .error e => pure (.error e)
      | .ok _file =>
        match ← call sftp (.writeAll bytes) with
        | .error e => pure (.error e)
        | .ok _ => call sftp .shutdown)
    fun _ => .nil

/-- `mkdir`. -/
def mkdir (path : String) : Method (Except RubyError Value) :=
  operation (fun sftp => call sftp (.createDir path)) fun _ => .nil

/-- `remove_file`. -/
def removeFile (path : String) : Method (Except RubyError Value) :=
  operation (fun sftp => call sftp (.removeFile path)) fun _ => .nil

/-- `remove_dir`. -/
def removeDir (path : String) : Method (Except RubyError Value) :=
  operation (fun sftp => call sftp (.removeDir path)) fun _ => .nil

/-- `rename`. -/
def rename (oldPath newPath : String) : Method (Except RubyError Value) :=
  operation (fun sftp => call sftp (.rename oldPath newPath)) fun _ => .nil

/-- `symlink`. -/
def symlink (target linkPath : String) : Method (Except RubyError Value) :=
  operation (fun sftp => call sftp (.symlink target linkPath)) fun _ => .nil

/-- `real_path`. -/
def realPath (path : String) : Method (Except RubyError Value) :=
  operation (fun sftp => call sftp (.canonicalize path)) .str

/-- `read_link`. -/
def readLink (path : String) : Method (Except RubyError Value) :=
  operation (fun sftp => call sftp (.readLink path)) .str

/-- `close`, which takes the session out of the cell. -/
def close : Method (Except RubyError Value) := do
  let result ← closeSession fun sftp => call sftp .close
  pure (result.mapError .baseError |>.map fun _ => .nil)

end SftpClient

/-! ## What the classes have in common -/

/-- The future makes these calls on the session, one after the other, and nothing else. It ends with
an error when one of them fails. -/
inductive Performs {Core : Type} {Reply : Core → Type} {Err : Type} (session : CoreSession) :
    List Core → SessionFuture Reply Err (Except RubyError Value) → Prop
  | done (a : Except RubyError Value) : Performs session [] (.ready a)
  | call {c : Core} {cs : List Core}
      {k : Except Err (Reply c) → SessionFuture Reply Err (Except RubyError Value)} :
      (∀ v, Performs session cs (k (.ok v))) → (∀ e, ∃ err, k (.error e) = .ready (.error err)) →
      Performs session (c :: cs) (.call (session, c) k)

/-- The end of `close`, after it has taken what was there and dropped the guard. -/
def closeTaken {Core : Type} {Reply : Core → Type} {Err : Type} (close : Core)
    (finish : Except Err (Reply close) → Except RubyError Value) :
    Option CoreSession → SessionFuture Reply Err (Except RubyError Value) :=
  Future.afterTaking (fun session => (session, close)) (fun _ => finish) (.ok .nil)

/-- A class of handles that keep a session of the core until it is closed. -/
structure SessionClass {Core : Type} (Reply : Core → Type) (Err Method : Type) where
  /-- What a method hands to `block_on`. -/
  future : Method → SessionFuture Reply Err (Except RubyError Value)
  /-- The calls an operation makes. `close` is not an operation. -/
  calls : Method → Option (List Core)
  /-- The error of an operation on a closed session. -/
  closed : RubyError
  /-- The call that closes the session, and what the method makes of its answer. -/
  close : Core
  finish : Except Err (Reply close) → Except RubyError Value
  close_not_mem : ∀ m cs, calls m = some cs → close ∉ cs
  /-- An operation makes its calls while it holds the guard. -/
  operation_eq : ∀ m cs, calls m = some cs → ∃ body,
    future m = withSession (.error closed) body ∧ ∀ session, Performs session cs (body session)
  /-- `close` takes the session, and makes its call after it has dropped the guard. -/
  close_eq : ∀ m, calls m = none → future m =
    .lock (.access (fun _ => none) fun taken => .unlock (closeTaken close finish taken))
  finish_ok : ∀ r, (∃ v, finish r = .ok v) ↔ ∃ v, r = .ok v

namespace FsWriteSink

/-- The methods of the class. -/
inductive Methods where
  | write (bytes : Bytes)
  | close
deriving DecidableEq

/-- The body of a method of `FsWriteSink`. -/
def Methods.future : Methods → Method (Except RubyError Value)
  | .write bytes => FsWriteSink.write bytes
  | .close => FsWriteSink.close

/-- The class of the write sinks. -/
def sessions : SessionClass Core.Reply MicrosandboxError Methods where
  future := Methods.future
  calls
    | .write bytes => some [.write bytes]
    | .close => none
  closed := .baseError "write to a closed FsWriteSink"
  close := .close
  finish r := r.mapError .toRuby |>.map fun _ => .nil
  close_not_mem := by
    rintro (bytes | _) cs ⟨⟩
    simp
  operation_eq := by
    rintro (bytes | _) cs ⟨⟩
    refine ⟨_, withSession_bind fun result => rfl, ?_⟩
    intro session
    exact .call (fun v => .done _) fun e => ⟨_, rfl⟩
  close_eq := by
    rintro (bytes | _) ⟨⟩
    exact closeSession_bind (fun session => rfl) rfl
  finish_ok := by
    intro r
    cases r <;> simp [Except.mapError, Except.map]

end FsWriteSink

namespace SshClient

/-- The methods of the class. -/
inductive Methods where
  | exec (command : String) (tty : Bool)
  | attach (term detachKeys : Option String)
  | sftp
  | close
deriving DecidableEq

/-- The body of a method of `SshClient`. -/
def Methods.future : Methods → Method (Except RubyError Value)
  | .exec command tty => SshClient.exec command tty
  | .attach term detachKeys => SshClient.attach term detachKeys
  | .sftp => SshClient.sftp
  | .close => SshClient.close

/-- An operation makes one call on the session, if there is one. -/
theorem operation_eq (c : Core) (value : c.Reply → Value) : ∃ body,
    operation c value = withSession (.error (.toRuby consumed)) body ∧
      ∀ session, Performs session [c] (body session) := by
  refine ⟨_, withSession_bind fun result => rfl, ?_⟩
  intro session
  exact .call (fun v => .done _) fun e => ⟨_, rfl⟩

/-- The class of the SSH clients. -/
def sessions : SessionClass Core.Reply MicrosandboxError Methods where
  future := Methods.future
  calls
    | .exec command tty => some [.execWith command tty]
    | .attach term detachKeys => some [.attachWith term detachKeys]
    | .sftp => some [.sftp]
    | .close => none
  closed := .toRuby consumed
  close := .close
  finish r := r.mapError .toRuby |>.map fun _ => .nil
  close_not_mem := by
    rintro (_ | _ | _ | _) cs ⟨⟩ <;> simp
  operation_eq := by
    rintro (_ | _ | _ | _) cs ⟨⟩ <;> exact operation_eq ..
  close_eq := by
    rintro (_ | _ | _ | _) ⟨⟩
    exact closeSession_bind (fun session => rfl) rfl
  finish_ok := by
    intro r
    cases r <;> simp [Except.mapError, Except.map]

end SshClient

namespace SftpClient

/-- The methods of the class. -/
inductive Methods where
  | read (path : String)
  | write (path : String) (bytes : Bytes)
  | mkdir (path : String)
  | removeFile (path : String)
  | removeDir (path : String)
  | rename (oldPath newPath : String)
  | symlink (target linkPath : String)
  | realPath (path : String)
  | readLink (path : String)
  | close
deriving DecidableEq

/-- The body of a method of `SftpClient`. -/
def Methods.future : Methods → Method (Except RubyError Value)
  | .read path => SftpClient.read path
  | .write path bytes => SftpClient.write path bytes
  | .mkdir path => SftpClient.mkdir path
  | .removeFile path => SftpClient.removeFile path
  | .removeDir path => SftpClient.removeDir path
  | .rename oldPath newPath => SftpClient.rename oldPath newPath
  | .symlink target linkPath => SftpClient.symlink target linkPath
  | .realPath path => SftpClient.realPath path
  | .readLink path => SftpClient.readLink path
  | .close => SftpClient.close

/-- The calls an operation makes: one, except for `write`, which creates the file, fills it and
closes it. -/
def Methods.calls : Methods → Option (List Core)
  | .read path => some [.read path]
  | .write path bytes => some [.create path, .writeAll bytes, .shutdown]
  | .mkdir path => some [.createDir path]
  | .removeFile path => some [.removeFile path]
  | .removeDir path => some [.removeDir path]
  | .rename oldPath newPath => some [.rename oldPath newPath]
  | .symlink target linkPath => some [.symlink target linkPath]
  | .realPath path => some [.canonicalize path]
  | .readLink path => some [.readLink path]
  | .close => none

/-- An SFTP operation makes one call on the session, if there is one. -/
theorem operation_eq (c : Core) (value : c.Reply → Value) : ∃ body,
    operation (fun sftp => call sftp c) value =
        withSession (.error (.baseError (sftpStr "session closed"))) body ∧
      ∀ session, Performs session [c] (body session) := by
  refine ⟨_, withSession_bind fun result => rfl, ?_⟩
  intro session
  exact .call (fun v => .done _) fun e => ⟨_, rfl⟩

/-- `write` makes three calls on the session, if there is one. -/
theorem write_eq (path : String) (bytes : Bytes) : ∃ body,
    write path bytes = withSession (.error (.baseError (sftpStr "session closed"))) body ∧
      ∀ session, Performs session [.create path, .writeAll bytes, .shutdown] (body session) := by
  refine ⟨_, withSession_bind fun result => rfl, ?_⟩
  intro session
  refine .call (fun v => ?_) fun e => ⟨_, rfl⟩
  refine .call (fun v => ?_) fun e => ⟨_, rfl⟩
  exact .call (fun v => .done _) fun e => ⟨_, rfl⟩

/-- The class of the SFTP clients. -/
def sessions : SessionClass Core.Reply String Methods where
  future := Methods.future
  calls := Methods.calls
  closed := .baseError (sftpStr "session closed")
  close := .close
  finish r := (r.mapError sftpStr).mapError .baseError |>.map fun _ => .nil
  close_not_mem := by
    rintro (_ | _ | _ | _ | _ | _ | _ | _ | _ | _) cs ⟨⟩ <;> simp
  operation_eq := by
    rintro (_ | _ | _ | _ | _ | _ | _ | _ | _ | _) cs ⟨⟩
    case write => exact write_eq ..
    all_goals exact operation_eq ..
  close_eq := by
    rintro (_ | _ | _ | _ | _ | _ | _ | _ | _ | _) ⟨⟩
    exact closeSession_bind (fun session => rfl) rfl
  finish_ok := by
    intro r
    cases r <;> simp [Except.mapError, Except.map]

end SftpClient

/-! ## Runs -/

namespace SessionClass

variable {Core : Type} {Reply : Core → Type} {Err Method E : Type}

/-- The session of a handle, with every call of its methods that has been made. -/
abbrev State {Core : Type} (Reply : Core → Type) (Err E : Type) :=
  Calls.State (Option CoreSession) (fun c : CoreSession × Core => Except Err (Reply c.2)) Value E

/-- The steps of any number of threads. Call number `i` is a call of `method i`. -/
abbrev Step (C : SessionClass Reply Err Method) (method : ℕ → Method) :
    State Reply Err E → State Reply Err E → Prop :=
  Calls.Step fun i => C.future (method i)

/-- The states that the calls reach from an open session. -/
abbrev Reaches (C : SessionClass Reply Err Method) (method : ℕ → Method) (session : CoreSession) :
    State Reply Err E → Prop :=
  Calls.Reaches (fun i => C.future (method i)) (some session)

end SessionClass

end MicrosandboxRb.Session
