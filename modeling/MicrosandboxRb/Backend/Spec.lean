import MicrosandboxRb.Backend.Model

/-!
# What each backend operation does

One description for each operation, by cases on who owns the record and on whether the selection
it needs can be built. Everything proved about the operations is proved from these descriptions.

* A process that owns the record, or that inherited none, works on its own backends:
  `State.claimed`, `State.replaced`, `State.pushed`, `State.restored` and `State.rebuilt`.
* Any other process either fails and changes nothing, or takes the whole record over:
  `State.takenOver`.
-/

namespace MicrosandboxRb.BackendRecord

open ForkTree

/-- The process `p` owns the record, or nothing was inherited. -/
def Owns (p : Proc ProcessIdentity) (s : State) : Prop :=
  s.backendOwner = 0 ∨ s.backendOwner = p.ident.toBits

instance (p : Proc ProcessIdentity) (s : State) : Decidable (Owns p s) :=
  inferInstanceAs (Decidable (_ ∨ _))

namespace State

section

variable (p : Proc ProcessIdentity) (core : Core) (s : State)

/-- The object that the next build in `p` gives. -/
def fresh (source : Selection) (kind : BackendKind) : Backend :=
  { id := s.built, builtIn := p.name, source, kind }

/-- What the default slot holds once it has been used. -/
def resolvedDefault : Backend :=
  s.defaultBackend.getD (s.fresh p .ladder core.lazyDefault)

/-- The state after a use of the default slot. -/
def resolved : State :=
  { s with
    defaultBackend := some (s.resolvedDefault p core)
    built := s.built + s.defaultBackend.elim 1 fun _ => 0 }

/-- The state after one more build. -/
def afterBuild : State := { s with built := s.built + 1 }

/-- The owner word is `p`'s. -/
def claimed : State := { s with backendOwner := p.ident.toBits }

/-- `p` has taken the record over with a backend built from `source`. -/
def takenOver (source : Selection) (kind : BackendKind) : State :=
  { s.afterBuild.resolved p core with
    defaultBackend := some (s.fresh p source kind)
    selection := source
    backendOwner := p.ident.toBits
    backendScopes := s.backendScopes.mapVals fun scope => { scope with previous := none }
    effects := s.effects ++ .forgot (s.afterBuild.resolvedDefault p core) :: s.saved.map .forgot }

/-- The owner has installed a backend built from `source`. -/
def replaced (source : Selection) (kind : BackendKind) : State :=
  { s.afterBuild with
    defaultBackend := some (s.fresh p source kind)
    selection := source
    effects := s.effects ++ s.defaultBackend.toList.map .dropped }

/-- `scope` has been registered under the next token. -/
def opened (scope : Scope) : State :=
  { s with
    nextBackendScope := s.nextBackendScope + 1
    backendScopes := s.backendScopes.insert s.nextBackendScope scope
    pushes := s.pushes + 1
    effects := s.effects ++
      (((s.backendScopes.lookup s.nextBackendScope).bind Scope.previous).toList.map .dropped) }

/-- The owner has installed a backend built from `source` and saved the one before it. -/
def pushed (source : Selection) (kind : BackendKind) : State :=
  { s.afterBuild.resolved p core with
    defaultBackend := some (s.fresh p source kind)
    selection := source }.opened
      { owner := p.ident
        previous := some (s.afterBuild.resolvedDefault p core)
        selection := s.selection }

/-- The scope `token` has been taken out of the registry. -/
def removed (token : UInt32) : State :=
  { s with
    backendScopes := s.backendScopes.erase token
    effects := s.effects ++ [.closed token] }

/-- The owner has put the saved backend `previous` back, chosen by `source`. -/
def restored (source : Selection) (previous : Backend) : State :=
  { s with
    defaultBackend := some previous
    selection := source
    effects := s.effects ++ s.defaultBackend.toList.map .dropped }

/-- The owner has put a backend built from `source` in place of the default. -/
def rebuilt (source : Selection) (kind : BackendKind) : State :=
  { s.afterBuild.resolved p core with
    defaultBackend := some (s.fresh p source kind)
    selection := source
    effects := s.effects ++ [.forgot (s.afterBuild.resolvedDefault p core)] }

/-- A push inserts one scope. -/
@[simp] theorem backendScopes_pushed (source : Selection) (kind : BackendKind) :
    (s.pushed p core source kind).backendScopes = s.backendScopes.insert s.nextBackendScope
      { owner := p.ident
        previous := some (s.afterBuild.resolvedDefault p core)
        selection := s.selection } := rfl

end

end State

variable {p : Proc ProcessIdentity} {core : Core} {s : State} {ε : Type}

/-- A backend is built under the next serial number. -/
@[simp] theorem run_newBackend (source : Selection) (kind : BackendKind) :
    (newBackend (ε := ε) p source kind).run s = .ok (s.fresh p source kind) s.afterBuild := rfl

/-- The core builds what it can resolve. -/
theorem run_build_ok {selection : Selection} {kind : BackendKind}
    (h : selection.resolve core = .ok kind) :
    (selection.build p core).run s = .ok (s.fresh p selection kind) s.afterBuild := by
  simp [Selection.build, h]

/-- A selection that cannot be resolved builds nothing. -/
theorem run_build_error {selection : Selection} {e : MicrosandboxError}
    (h : selection.resolve core = .error e) :
    (selection.build p core).run s = .error e s := by
  simp [Selection.build, h]

/-- The default is built when it is read for the first time. -/
@[simp] theorem run_coreDefaultBackend :
    (coreDefaultBackend (ε := ε) p core).run s =
      .ok (s.resolvedDefault p core) (s.resolved p core) := by
  obtain ⟨default, _, _, _, _, _, _, _, _⟩ := s
  cases default <;>
    simp [coreDefaultBackend, State.resolvedDefault, State.resolved, State.afterBuild]

/-- The default that is swapped out is dropped. -/
@[simp] theorem run_coreSwapDefaultBackend (b : Backend) :
    (coreSwapDefaultBackend (ε := ε) p core b).run s =
      .ok (s.resolvedDefault p core)
        { s.resolved p core with defaultBackend := some b } := by
  simp [coreSwapDefaultBackend]

/-! ## Taking the record over -/

/-- An owner adopts nothing. -/
theorem run_adoptBackend_owns (h : Owns p s) (replacement : Option Selection) :
    (adoptBackend p core replacement).run s = .ok none (s.claimed p) := by
  by_cases hcur : s.backendOwner = p.ident.toBits
  · simp [adoptBackend, State.claimed, ← hcur]
  · have hzero : s.backendOwner = 0 := h.resolve_right hcur
    rw [hzero] at hcur
    simp [adoptBackend, State.claimed, hzero, hcur]

/-- A process that cannot rebuild the selection leaves the record alone. -/
theorem run_adoptBackend_error (h : ¬ Owns p s) {r : Option Selection}
    {e : MicrosandboxError}
    (hbuild : (r.getD s.selection).resolve core = .error e) :
    (adoptBackend p core r).run s = .error e s := by
  obtain ⟨hzero, hcur⟩ := not_or.mp h
  cases r with
  | none =>
    rw [Option.getD_none] at hbuild
    simp [adoptBackend, hzero, hcur, run_build_error hbuild]
  | some selection =>
    rw [Option.getD_some] at hbuild
    simp [adoptBackend, hzero, hcur, run_build_error hbuild]

/-- A process that can rebuild the selection takes the record over. -/
theorem run_adoptBackend_ok (h : ¬ Owns p s) {r : Option Selection}
    {kind : BackendKind} (hbuild : (r.getD s.selection).resolve core = .ok kind) :
    (adoptBackend p core r).run s =
      .ok (r.map fun _ => s.selection)
        (s.takenOver p core (r.getD s.selection) kind) := by
  obtain ⟨hzero, hcur⟩ := not_or.mp h
  cases r with
  | none =>
    rw [Option.getD_none] at hbuild
    simp [adoptBackend, hzero, hcur, run_build_ok hbuild, forget, forgetSaved, State.takenOver,
      State.record, State.resolved, State.afterBuild, State.saved]
  | some selection =>
    rw [Option.getD_some] at hbuild
    simp [adoptBackend, hzero, hcur, run_build_ok hbuild, forget, forgetSaved, State.takenOver,
      State.record, State.resolved, State.afterBuild, State.saved, replaceSelection]

/-! ## The operations -/

/-- What `ensure_this_process_backend` does, by who owns the record. -/
theorem run_ensureThisProcessBackend :
    (ensureThisProcessBackend p core).run s =
      if Owns p s then .ok () (s.claimed p)
      else
        match s.selection.resolve core with
        | .error e => .error (.toRuby e) s
        | .ok kind => .ok () (s.takenOver p core s.selection kind) := by
  by_cases h : Owns p s
  · simp [ensureThisProcessBackend, run_adoptBackend_owns h, h]
  · cases hbuild : s.selection.resolve core with
    | error e =>
      have hadopt := run_adoptBackend_error (r := none) h hbuild
      simp [ensureThisProcessBackend, hadopt, h]
    | ok kind =>
      have hadopt := run_adoptBackend_ok (r := none) h hbuild
      simp [ensureThisProcessBackend, hadopt, h]

/-- What `set_default_backend` does, by who owns the record. -/
theorem run_setDefaultBackend (kind : String) (url apiKey profile : Option String) :
    (setDefaultBackend p core kind url apiKey profile).run s =
      match (Selection.explicit kind url apiKey profile).resolve core with
      | .error e => .error (.toRuby e) (if Owns p s then s.claimed p else s)
      | .ok kind' => .ok () (if Owns p s
          then (s.claimed p).replaced p (.explicit kind url apiKey profile) kind'
          else s.takenOver p core (.explicit kind url apiKey profile) kind') := by
  generalize hsel : Selection.explicit kind url apiKey profile = selection
  by_cases h : Owns p s
  · cases hbuild : selection.resolve core with
    | error e =>
      simp [setDefaultBackend, hsel, run_adoptBackend_owns h, run_build_error hbuild, h]
    | ok kind' =>
      simp [setDefaultBackend, hsel, run_adoptBackend_owns h, run_build_ok hbuild, h,
        coreSetDefaultBackend, State.record, State.replaced, State.afterBuild]
  · cases hbuild : selection.resolve core with
    | error e =>
      have hadopt := run_adoptBackend_error (r := some selection) h hbuild
      simp [setDefaultBackend, hsel, hadopt, h]
    | ok kind' =>
      have hadopt := run_adoptBackend_ok (r := some selection) h hbuild
      simp [setDefaultBackend, hsel, hadopt, h]

/-- A scope is stored under the next token. -/
@[simp] theorem run_insertScope (scope : Scope) :
    (insertScope (ε := ε) scope).run s = .ok s.nextBackendScope (s.opened scope) := rfl

/-- What `push_default_backend` does, by who owns the record. -/
theorem run_pushDefaultBackend (kind : String) (url apiKey profile : Option String) :
    (pushDefaultBackend p core kind url apiKey profile).run s =
      match (Selection.explicit kind url apiKey profile).resolve core with
      | .error e => .error (.toRuby e) (if Owns p s then s.claimed p else s)
      | .ok kind' => .ok s.nextBackendScope (if Owns p s
          then (s.claimed p).pushed p core (.explicit kind url apiKey profile) kind'
          else (s.takenOver p core (.explicit kind url apiKey profile) kind').opened
            { owner := p.ident, previous := none, selection := s.selection }) := by
  generalize hsel : Selection.explicit kind url apiKey profile = selection
  by_cases h : Owns p s
  · cases hbuild : selection.resolve core with
    | error e =>
      simp [pushDefaultBackend, hsel, run_adoptBackend_owns h, run_build_error hbuild, h]
    | ok kind' =>
      simp [pushDefaultBackend, hsel, run_adoptBackend_owns h, run_build_ok hbuild, h,
        replaceSelection, State.pushed]
      exact ⟨rfl, rfl⟩
  · cases hbuild : selection.resolve core with
    | error e =>
      have hadopt := run_adoptBackend_error (r := some selection) h hbuild
      simp [pushDefaultBackend, hsel, hadopt, h]
    | ok kind' =>
      have hadopt := run_adoptBackend_ok (r := some selection) h hbuild
      simp [pushDefaultBackend, hsel, hadopt, h]
      rfl

/-- An unknown token removes nothing. -/
theorem run_removeScope_none {token : UInt32} (h : s.backendScopes.lookup token = none) :
    (removeScope (ε := ε) token).run s = .ok none s := by
  simp [removeScope, h]

/-- A known token takes its scope out. -/
theorem run_removeScope_some {token : UInt32} {scope : Scope}
    (h : s.backendScopes.lookup token = some scope) :
    (removeScope (ε := ε) token).run s = .ok (some scope) (s.removed token) := by
  simp [removeScope, h, State.removed, State.record]

/-- A scope of another process leaks what it saved, and its selection is built anew. -/
theorem run_rebuildScope (scope : Scope) :
    (rebuildScope p core scope).run s =
      match scope.selection.resolve core with
      | .error e => .error (.toRuby e) (s.record (scope.previous.toList.map .forgot))
      | .ok kind => .ok () { (s.record (scope.previous.toList.map .forgot)).rebuilt p core
          scope.selection kind with selection := s.selection } := by
  cases hbuild : scope.selection.resolve core with
  | error e => simp [rebuildScope, forget, run_build_error hbuild]
  | ok kind =>
    simp [rebuildScope, forget, run_build_ok hbuild, State.rebuilt, State.record, State.resolved,
      State.afterBuild]

/-- An unknown token is refused, and nothing changes. -/
theorem run_popDefaultBackend_unknown {token : UInt32}
    (h : s.backendScopes.lookup token = none) :
    (popDefaultBackend p core token).run s =
      .error (.baseError "unknown backend scope token") s := by
  simp [popDefaultBackend, run_removeScope_none h]

/-- A pop, in the process that opened it, of a scope that saved a backend of this process. -/
theorem run_popDefaultBackend_saved {token : UInt32} {scope : Scope} {previous : Backend}
    (hscope : s.backendScopes.lookup token = some scope) (h : Owns p s)
    (hprevious : scope.previous = some previous) (howner : scope.owner = p.ident) :
    (popDefaultBackend p core token).run s =
      .ok () (((s.removed token).claimed p).restored scope.selection previous) := by
  have h' : Owns p (s.removed token) := h
  simp [popDefaultBackend, run_removeScope_some hscope, run_adoptBackend_owns h', hprevious,
    howner, coreSetDefaultBackend, State.record, State.restored]

/-- A pop in the owner of the record of a scope that saved no backend. -/
theorem run_popDefaultBackend_rebuild {token : UInt32} {scope : Scope}
    (hscope : s.backendScopes.lookup token = some scope) (h : Owns p s)
    (hprevious : scope.previous = none) :
    (popDefaultBackend p core token).run s =
      match scope.selection.resolve core with
      | .error e => .error (.toRuby e) ((s.removed token).claimed p)
      | .ok kind =>
        .ok () (((s.removed token).claimed p).rebuilt p core scope.selection kind) := by
  have h' : Owns p (s.removed token) := h
  cases hbuild : scope.selection.resolve core with
  | error e =>
    simp [popDefaultBackend, run_removeScope_some hscope, run_adoptBackend_owns h', hprevious,
      run_rebuildScope, hbuild, State.record]
  | ok kind =>
    simp [popDefaultBackend, run_removeScope_some hscope, run_adoptBackend_owns h', hprevious,
      run_rebuildScope, hbuild, State.record, State.rebuilt]

/-- A pop of an open scope in a process that does not own the record. -/
theorem run_popDefaultBackend_inherited {token : UInt32} {scope : Scope}
    (hscope : s.backendScopes.lookup token = some scope) (h : ¬ Owns p s) :
    (popDefaultBackend p core token).run s =
      match scope.selection.resolve core with
      | .error e =>
        .error (.toRuby e) ((s.removed token).record (scope.previous.toList.map .forgot))
      | .ok kind => .ok () (((s.removed token).takenOver p core scope.selection kind).record
          (scope.previous.toList.map .forgot)) := by
  have h' : ¬ Owns p (s.removed token) := h
  cases hbuild : scope.selection.resolve core with
  | error e =>
    have hadopt := run_adoptBackend_error (r := some scope.selection) h' hbuild
    simp [popDefaultBackend, run_removeScope_some hscope, hadopt, forget]
  | ok kind =>
    have hadopt := run_adoptBackend_ok (r := some scope.selection) h' hbuild
    simp [popDefaultBackend, run_removeScope_some hscope, hadopt, forget]

/-- A native call ensures the backend of the process, and starts with it. -/
theorem run_blockOn (touches : Bool) :
    (blockOn p core touches).run s =
      match (ensureThisProcessBackend p core).run s with
      | .error e s' => .error e s'
      | .ok _ s' => .ok () (if touches
          then (s'.record [.started s'.defaultBackend]).resolved p core
          else s'.record [.started s'.defaultBackend]) := by
  cases touches <;> cases h : (ensureThisProcessBackend p core).run s <;> simp [blockOn, h]

/-- The kind is read off the default, which is resolved for it. -/
theorem run_defaultBackendKind_state :
    ((defaultBackendKind p core).run s).state =
      match (ensureThisProcessBackend p core).run s with
      | .error _ s' => s'
      | .ok _ s' => s'.resolved p core := by
  cases h : (ensureThisProcessBackend p core).run s with
  | error e s' => simp [defaultBackendKind, h]
  | ok u s' => cases hkind : (s'.resolvedDefault p core).kind <;> simp [defaultBackendKind, h, hkind]

/-- The token that a push returns is no part of the state. -/
theorem exec_pushDefaultBackend_state (kind : String) (url apiKey profile : Option String) :
    (((Call.pushDefaultBackend kind url apiKey profile).exec p core).run s).state =
      ((pushDefaultBackend p core kind url apiKey profile).run s).state := by
  cases h : (pushDefaultBackend p core kind url apiKey profile).run s <;> simp [Call.exec, h]

/-- Nor is the kind that is returned. -/
theorem exec_defaultBackendKind_state :
    ((Call.defaultBackendKind.exec p core).run s).state =
      ((defaultBackendKind p core).run s).state := by
  cases h : (defaultBackendKind p core).run s <;> simp [Call.exec, h]

end MicrosandboxRb.BackendRecord
