import MicrosandboxRb.Lib.RubyValue

/-!
# Ruby exceptions of the extension

The errors of the core (`MicrosandboxError`) and the Ruby exceptions the extension builds
(`error.rs`). Only the exceptions that modelled functions raise are listed.

Where nothing depends on which error of the core an exception was made of, it is a
`Ruby.Exception`, with its full class name and its message.
-/

namespace MicrosandboxRb

/-- The core's error type. A variant other than `InvalidConfig` is given by the Ruby class it is
mapped to; `Custom`, like every variant without a class of its own, is mapped to `Error`. -/
inductive MicrosandboxError where
  | invalidConfig (message : String)
  | other (className message : String)
deriving DecidableEq, Repr

/-- The Ruby class, relative to the `Microsandbox` module, for a core error. -/
def MicrosandboxError.className : MicrosandboxError → String
  | .invalidConfig _ => "InvalidConfigError"
  | .other className _ => className

/-- The text of a core error. -/
def MicrosandboxError.display : MicrosandboxError → String
  | .invalidConfig message => "invalid config: " ++ message
  | .other _ message => message

/-- An `InvalidConfig` error of the core, mapped by `error::to_ruby`. -/
def invalidConfig (message : String) : Ruby.Exception :=
  .custom ("Microsandbox::" ++ (MicrosandboxError.invalidConfig message).className)
    (MicrosandboxError.invalidConfig message).display

/-- `error::base_error`: a plain `Microsandbox::Error` of the extension itself. -/
def baseError (message : String) : Ruby.Exception := .custom "Microsandbox::Error" message

/-- A Ruby exception. -/
inductive RubyError where
  /-- A core error, mapped with its class and its message. -/
  | toRuby (err : MicrosandboxError)
  /-- A plain `Microsandbox::Error` raised by the extension itself. -/
  | baseError (message : String)
  /-- `Microsandbox::ForkedHandleError`: a handle of class `cls`, created in the process with pid
  `born`, was used in the process with pid `cur`. -/
  | forkedHandle (cls : String) (born cur : UInt32)
deriving DecidableEq, Repr

/-- The class of the exception, relative to the `Microsandbox` module. -/
def RubyError.className : RubyError → String
  | .toRuby err => err.className
  | .baseError _ => "Error"
  | .forkedHandle .. => "ForkedHandleError"

/-- An exception of any class, as a `rescue Microsandbox::Error` tells it apart. -/
inductive Exc (E : Type) where
  | microsandbox (e : RubyError)
  | other (e : E)
deriving DecidableEq

/-- The message of a `ForkedHandleError`. Equal pids mean that the creating process has exited and
its pid was handed out again. -/
def forkedHandleMessage (cls : String) (born cur : UInt32) : String :=
  if born = cur then
    s!"{cls} was created in an earlier process that also had pid {born} and cannot be used in " ++
      "this forked process; create a new handle after fork"
  else
    s!"{cls} was created in process {born} and cannot be used in forked process {cur}; " ++
      s!"create a new handle after fork (the original keeps working in process {born})"

end MicrosandboxRb
