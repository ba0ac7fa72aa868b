import MicrosandboxRb.Error
import MicrosandboxRb.Lib.AssocMap
import MicrosandboxRb.Lib.RustStr
import MicrosandboxRb.Lib.StateError
import MicrosandboxRb.Runtime.Identity

/-!
# The backend record

The process-wide default backend of the core and the record the extension keeps about it
(`backend.rs`): how the default was chosen, which process it belongs to, and what the open
`with_backend` scopes restore.

Every operation runs with the GVL held from its first to its last read of the record, and `fork`
needs the GVL too, so operations and forks do not overlap and the locks of the record are not
modelled.

## Main definitions

* `State`: the record, the core's default slot, and a history of what the process did with
  references to backends;
* `adoptBackend`, `ensureThisProcessBackend`, `setDefaultBackend`, `pushDefaultBackend`,
  `popDefaultBackend`, `blockOn`, `defaultBackendKind`: the operations;
* `backendSystem`: the process tree in which every process runs these operations.
-/

namespace MicrosandboxRb.BackendRecord

open ForkTree

/-- The kinds of a backend. -/
inductive BackendKind where
  | localBackend
  | cloudBackend
deriving DecidableEq, Repr

/-- How a default backend was chosen, so that a forked child can choose it again. -/
inductive Selection where
  /-- The core's own resolution ladder. -/
  | ladder
  /-- A `set_default_backend` or `with_backend` selection. -/
  | explicit (kind : String) (url apiKey profile : Option String)
deriving DecidableEq

/-- The answers of the core while one operation runs. They depend on the environment, the
configuration file and the HTTP stack, and may be different for the next operation. -/
structure Core where
  -- `resolve_default_backend`: the ladder
  resolveDefaultBackend : Except MicrosandboxError BackendKind
  -- `CloudBackend::from_profile` and `CloudBackend::new`
  cloudFromProfile : String → Except MicrosandboxError Unit
  cloudNew : String → String → Except MicrosandboxError Unit
  -- what the default slot resolves to when it is first used
  lazyDefault : BackendKind

/-- Build a backend from the SDK facade. -/
def buildBackend (core : Core) (kind : String) (url apiKey profile : Option String) :
    Except MicrosandboxError BackendKind :=
  match RustStr.toAsciiLowercase (RustStr.trim kind) with
  | "local" => .ok .localBackend
  | "cloud" =>
    let cloud :=
      match profile with
      | some profile => core.cloudFromProfile profile
      | none =>
        match url, apiKey with
        | some url, some apiKey => core.cloudNew url apiKey
        | _, _ => .error (.invalidConfig "cloud backend requires url + api_key or profile")
    cloud.map fun _ => .cloudBackend
  | other =>
    .error (.invalidConfig
      s!"backend kind must be 'local' or 'cloud', got {RustStr.debug other}")

/-- What building a selection gives, without the object. -/
def Selection.resolve (core : Core) : Selection → Except MicrosandboxError BackendKind
  | .ladder => core.resolveDefaultBackend
  | .explicit kind url apiKey profile => buildBackend core kind url apiKey profile

/-- A backend object. No modelled function reads `id`, `builtIn` or `source`. -/
structure Backend where
  -- tells the objects of one branch apart
  id : ℕ
  -- the name of the process that built it
  builtIn : ℕ
  -- the selection it was built from
  source : Selection
  kind : BackendKind
deriving DecidableEq

/-- What an open `with_backend` scope restores when it closes. -/
structure Scope where
  -- the process that opened the scope
  owner : ProcessIdentity
  -- the backend that was the default before the push, unless there is none of this process's own
  previous : Option Backend
  -- how that backend had been chosen
  selection : Selection
deriving DecidableEq

/-- What a process did with references to backends. -/
inductive Effect where
  /-- `mem::forget`: the reference is leaked. -/
  | forgot (b : Backend)
  /-- The destructor of a reference held by the default slot or by a scope. -/
  | dropped (b : Backend)
  /-- The future of a native call starts while the default slot holds `default`. -/
  | started (default : Option Backend)
  /-- A pop took a scope out of the registry. -/
  | closed (token : UInt32)
deriving DecidableEq

/-- What a process started from. -/
structure Birth where
  owner : UInt64
  openScopes : ℕ
  held : List Backend

/-- The backend state of a process, and its history. -/
structure State where
  -- the core's default slot
  defaultBackend : Option Backend
  -- `SELECTION`
  selection : Selection
  -- `BACKEND_OWNER`
  backendOwner : UInt64
  -- `NEXT_BACKEND_SCOPE`
  nextBackendScope : UInt32
  -- `BACKEND_SCOPES`
  backendScopes : AssocMap UInt32 Scope
  -- how many backends were built, and how many scopes opened, on the branch so far
  built : ℕ
  pushes : ℕ
  -- what this process has done, oldest first
  effects : List Effect
  birth : Birth

namespace State

/-- The backends that the open scopes saved. -/
def saved (s : State) : List Backend := s.backendScopes.vals.filterMap Scope.previous

/-- The backends the state holds a reference to. -/
def held (s : State) : List Backend := s.defaultBackend.toList ++ s.saved

/-- Note effects, the latest at the end. -/
def record (s : State) (es : List Effect) : State := { s with effects := s.effects ++ es }

/-- The core and the record when the extension is loaded. -/
def initial : State where
  defaultBackend := none
  selection := .ladder
  backendOwner := 0
  nextBackendScope := 1
  backendScopes := ∅
  built := 0
  pushes := 0
  effects := []
  birth := { owner := 0, openScopes := 0, held := [] }

/-- A forked child has a copy of everything and has done nothing yet. -/
def forked (s : State) : State :=
  { s with
    effects := []
    birth := { owner := s.backendOwner, openScopes := s.backendScopes.keys.length, held := s.held } }

end State

/-! ## References to backends -/

section Primitives

variable {ε : Type} (p : Proc ProcessIdentity) (core : Core)

/-- Allocate a backend object. -/
def newBackend (source : Selection) (kind : BackendKind) : EStateM ε State Backend :=
  modifyGet fun s => ({ id := s.built, builtIn := p.name, source, kind },
    { s with built := s.built + 1 })

/-- A fresh backend for a selection, owned by the calling process. -/
def Selection.build (selection : Selection) : EStateM MicrosandboxError State Backend := do
  let kind ← EStateM.ofExcept (selection.resolve core)
  newBackend p selection kind

/-- `mem::forget` of an optional reference. -/
def forget (b : Option Backend) : EStateM ε State Unit :=
  modify fun s => s.record (b.toList.map .forgot)

/-- The core's `default_backend`: resolves the slot on its first use. -/
def coreDefaultBackend : EStateM ε State Backend := do
  match (← get).defaultBackend with
  | some b => pure b
  | none =>
    let b ← newBackend p .ladder core.lazyDefault
    modify fun s => { s with defaultBackend := some b }
    pure b

/-- The core's `swap_default_backend`: the reference the slot held moves to the caller. -/
def coreSwapDefaultBackend (b : Backend) : EStateM ε State Backend := do
  let previous ← coreDefaultBackend p core
  modify fun s => { s with defaultBackend := some b }
  pure previous

/-- The core's `set_default_backend`: the reference the slot held is dropped. -/
def coreSetDefaultBackend (b : Backend) : EStateM ε State Unit :=
  modify fun s =>
    { s.record (s.defaultBackend.toList.map .dropped) with defaultBackend := some b }

/-- `mem::replace` of `SELECTION`. -/
def replaceSelection (selection : Selection) : EStateM ε State Selection :=
  modifyGet fun s => (s.selection, { s with selection })

/-- Forget the backends that open scopes saved. The scopes stay, with owner and selection. -/
def forgetSaved : EStateM ε State Unit :=
  modify fun s =>
    { s.record (s.saved.map .forgot) with
      backendScopes := s.backendScopes.mapVals fun scope => { scope with previous := none } }

/-- Register a scope under the next token. An entry that a wrapped counter would replace is
dropped. -/
def insertScope (scope : Scope) : EStateM ε State UInt32 :=
  modifyGet fun s =>
    let token := s.nextBackendScope
    let replaced := ((s.backendScopes.lookup token).bind Scope.previous).toList
    (token, { s.record (replaced.map .dropped) with
      nextBackendScope := s.nextBackendScope + 1
      backendScopes := s.backendScopes.insert token scope
      pushes := s.pushes + 1 })

/-- Take a scope out of the registry. -/
def removeScope (token : UInt32) : EStateM ε State (Option Scope) :=
  modifyGet fun s =>
    match s.backendScopes.lookup token with
    | none => (none, s)
    | some scope => (some scope,
        { s.record [.closed token] with backendScopes := s.backendScopes.erase token })

end Primitives

/-! ## The operations -/

section Operations

variable (p : Proc ProcessIdentity) (core : Core)

/-- Take the backend state over for the process `p` if it still belongs to a parent process:
install a backend built in `p` and leak every inherited one. Returns the inherited selection when
`replacement` was installed, and `none` when the caller proceeds as the owner. -/
def adoptBackend (replacement : Option Selection) :
    EStateM MicrosandboxError State (Option Selection) := do
  let curBits := p.ident.toBits
  let seen := (← get).backendOwner
  if seen = curBits then
    pure none
  else if seen = 0 then
    -- nothing was inherited; the core resolves its default on first use
    modify fun s => { s with backendOwner := curBits }
    pure none
  else
    let fresh ←
      match replacement with
      | some selection => selection.build p core
      | none => (← get).selection.build p core
    forget (some (← coreSwapDefaultBackend p core fresh))
    forgetSaved
    let inherited ←
      match replacement with
      | some selection => do
        let inherited ← replaceSelection selection
        pure (some inherited)
      | none => pure none
    modify fun s => { s with backendOwner := curBits }
    pure inherited

/-- Make sure the core's default backend belongs to the process `p`. -/
def ensureThisProcessBackend : EStateM RubyError State Unit := do
  let _ ← (adoptBackend p core none).adaptExcept .toRuby

/-- Install a process-wide default backend. -/
def setDefaultBackend (kind : String) (url apiKey profile : Option String) :
    EStateM RubyError State Unit := do
  let selection := Selection.explicit kind url apiKey profile
  match ← (adoptBackend p core (some selection)).adaptExcept .toRuby with
  | some _ => pure ()
  | none =>
    let b ← (selection.build p core).adaptExcept .toRuby
    coreSetDefaultBackend b
    modify fun s => { s with selection }

/-- Swap in a new default backend and return a token for restoring the previous one. -/
def pushDefaultBackend (kind : String) (url apiKey profile : Option String) :
    EStateM RubyError State UInt32 := do
  let selection := Selection.explicit kind url apiKey profile
  match ← (adoptBackend p core (some selection)).adaptExcept .toRuby with
  | some inherited =>
    -- the scoped backend replaced an inherited default: nothing to put back
    insertScope { owner := p.ident, previous := none, selection := inherited }
  | none =>
    let b ← (selection.build p core).adaptExcept .toRuby
    let previous ← coreSwapDefaultBackend p core b
    let before ← replaceSelection selection
    insertScope { owner := p.ident, previous := some previous, selection := before }

/-- Put a backend built from the scope's selection in place of the default, which is leaked. -/
def rebuildScope (scope : Scope) : EStateM RubyError State Unit := do
  forget scope.previous
  let fresh ← (scope.selection.build p core).adaptExcept .toRuby
  forget (some (← coreSwapDefaultBackend p core fresh))

/-- Close the scope opened by `pushDefaultBackend`: restore the backend it saved. -/
def popDefaultBackend (token : UInt32) : EStateM RubyError State Unit := do
  match ← removeScope token with
  | none => throw (.baseError "unknown backend scope token")
  | some scope =>
    match ← EStateM.attempt (adoptBackend p core (some scope.selection)) with
    | .ok (some _temporary) => forget scope.previous
    | .ok none =>
      match scope.previous with
      | some previous =>
        if scope.owner = p.ident then coreSetDefaultBackend previous
        else rebuildScope p core scope
      | none => rebuildScope p core scope
      modify fun s => { s with selection := scope.selection }
    | .error e =>
      forget scope.previous
      throw (.toRuby e)

/-- `block_on`: take the backend over, then start the future. `touches` tells whether the future
uses the default slot before the next operation of the process. -/
def blockOn (touches : Bool) : EStateM RubyError State Unit := do
  ensureThisProcessBackend p core
  modify fun s => s.record [.started s.defaultBackend]
  if touches then
    let _ ← coreDefaultBackend p core
    pure ()
  else
    pure ()

/-- The kind of the active default backend. -/
def defaultBackendKind : EStateM RubyError State String := do
  ensureThisProcessBackend p core
  match (← coreDefaultBackend p core).kind with
  | .localBackend => pure "local"
  | .cloudBackend => pure "cloud"

end Operations

/-! ## The process tree -/

/-- The calls a process can make. -/
inductive Call where
  | ensureThisProcessBackend
  | setDefaultBackend (kind : String) (url apiKey profile : Option String)
  | pushDefaultBackend (kind : String) (url apiKey profile : Option String)
  | popDefaultBackend (token : UInt32)
  | blockOn (touches : Bool)
  | defaultBackendKind

/-- Run a call, without its result. -/
def Call.exec (p : Proc ProcessIdentity) (core : Core) : Call → EStateM RubyError State Unit
  | .ensureThisProcessBackend => BackendRecord.ensureThisProcessBackend p core
  | .setDefaultBackend kind url apiKey profile =>
    BackendRecord.setDefaultBackend p core kind url apiKey profile
  | .pushDefaultBackend kind url apiKey profile => do
    let _ ← BackendRecord.pushDefaultBackend p core kind url apiKey profile
  | .popDefaultBackend token => BackendRecord.popDefaultBackend p core token
  | .blockOn touches => BackendRecord.blockOn p core touches
  | .defaultBackendKind => do
    let _ ← BackendRecord.defaultBackendKind p core

/-- The process tree of the extension, seen through its backend record: every process makes calls,
the core answers each of them as it likes, and a fork between two calls copies the record. -/
def backendSystem : System ProcessIdentity State :=
  processSystem (fun _ => State.initial)
    (fun p s s' => ∃ core call, ((Call.exec p core call).run s).state = s')
    (fun _ s => s.forked)

end MicrosandboxRb.BackendRecord
