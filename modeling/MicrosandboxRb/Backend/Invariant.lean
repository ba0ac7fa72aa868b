import MicrosandboxRb.Backend.Spec

/-!
# The invariant of the backend record

`RecordInv` relates the four parts of the record to each other and to the process tree. Every
state transformation of `Backend.Spec` keeps it, hence every call and every fork does.

## Main results

* `recordInv_of_run`: `RecordInv` holds at the end of every branch;
* `backend_record_invariant`: the consistency of the record in every process of every tree.
-/

namespace MicrosandboxRb.BackendRecord

open ForkTree

/-- The record `s` of a process with lineage `l` is consistent. -/
structure RecordInv (l : List (Proc ProcessIdentity)) (s : State) : Prop where
  -- the owner word is `0` or names a process of the lineage
  owner : s.backendOwner = 0 ∨ ∃ q ∈ l, s.backendOwner = q.ident.toBits
  -- while nothing was inherited and nothing used, the record is empty
  unowned : s.backendOwner = 0 →
    s.defaultBackend = none ∧ s.selection = .ladder ∧ s.backendScopes = ∅
  unresolved : s.defaultBackend = none → s.selection = .ladder
  -- a resolved default was built by the owner from the recorded selection
  resolved : ∀ d, s.defaultBackend = some d →
    ∃ q ∈ l, s.backendOwner = q.ident.toBits ∧ d.builtIn = q.name ∧ d.source = s.selection
  -- a saved backend was built by the owner, who also opened the scope
  saved : ∀ token scope, s.backendScopes.lookup token = some scope →
    ∀ d, scope.previous = some d → ∃ q ∈ l, s.backendOwner = q.ident.toBits ∧
      scope.owner = q.ident ∧ d.builtIn = q.name ∧ d.source = scope.selection

section Transformations

variable {l : List (Proc ProcessIdentity)} {p : Proc ProcessIdentity} {core : Core} {s : State}
  {source : Selection} {kind : BackendKind}

/-- The record of a process that has not selected anything is consistent. -/
theorem recordInv_initial : RecordInv l State.initial := by
  constructor <;> simp [State.initial]

/-- A longer lineage names the owner as well. -/
theorem RecordInv.mono (h : RecordInv l s) : RecordInv (p :: l) s := by
  refine ⟨?_, h.unowned, h.unresolved, ?_, ?_⟩
  · exact h.owner.imp_right fun ⟨q, hq, hbits⟩ => ⟨q, List.mem_cons_of_mem p hq, hbits⟩
  · intro d hd
    obtain ⟨q, hq, hd'⟩ := h.resolved d hd
    exact ⟨q, List.mem_cons_of_mem p hq, hd'⟩
  · intro token scope hscope d hd
    obtain ⟨q, hq, hd'⟩ := h.saved token scope hscope d hd
    exact ⟨q, List.mem_cons_of_mem p hq, hd'⟩

/-- The copy that a child gets is consistent in the lineage of its parent. -/
theorem RecordInv.forked (h : RecordInv l s) : RecordInv l s.forked :=
  ⟨h.owner, h.unowned, h.unresolved, h.resolved, h.saved⟩

/-- Effects are no part of the record. -/
theorem RecordInv.record (h : RecordInv l s) (es : List Effect) : RecordInv l (s.record es) :=
  ⟨h.owner, h.unowned, h.unresolved, h.resolved, h.saved⟩

/-- The first process to claim an unclaimed record becomes its owner. -/
theorem RecordInv.claimed (h : RecordInv l s) (hp : p ∈ l) (howns : Owns p s)
    (hpid : p.ident.pid ≠ 0) : RecordInv l (s.claimed p) := by
  rcases howns with hzero | hcur
  · obtain ⟨hdefault, hselection, hscopes⟩ := h.unowned hzero
    refine ⟨Or.inr ⟨p, hp, rfl⟩, ?_, fun _ => hselection, ?_, ?_⟩
    · exact fun hbits => absurd hbits (ProcessIdentity.toBits_ne_zero hpid)
    · simp [State.claimed, hdefault]
    · simp [State.claimed, hscopes]
  · have hself : s.claimed p = s := by simp [State.claimed, ← hcur]
    rwa [hself]

/-- A process that takes the record over leaves it consistent, whatever it found. -/
theorem recordInv_takenOver (hp : p ∈ l) (hpid : p.ident.pid ≠ 0) :
    RecordInv l (s.takenOver p core source kind) := by
  refine ⟨Or.inr ⟨p, hp, rfl⟩, ?_, ?_, ?_, ?_⟩
  · exact fun hbits => absurd hbits (ProcessIdentity.toBits_ne_zero hpid)
  · simp [State.takenOver]
  · rintro d hd
    obtain rfl := Option.some.inj hd
    exact ⟨p, hp, rfl, rfl, rfl⟩
  · intro token scope hscope d hd
    simp only [State.takenOver, AList.lookup_mapVals, Option.map_eq_some_iff] at hscope
    obtain ⟨scope', -, rfl⟩ := hscope
    cases hd

/-- An owner that selects another backend has built it itself. -/
theorem RecordInv.replaced (h : RecordInv l s) (hp : p ∈ l)
    (howner : s.backendOwner = p.ident.toBits) (hpid : p.ident.pid ≠ 0) :
    RecordInv l (s.replaced p source kind) := by
  refine ⟨h.owner, ?_, by simp [State.replaced], ?_, h.saved⟩
  · intro hzero
    exact absurd (howner.symm.trans hzero) (ProcessIdentity.toBits_ne_zero hpid)
  · rintro d hd
    obtain rfl := Option.some.inj hd
    exact ⟨p, hp, howner, rfl, rfl⟩

/-- The default that an owner resolves comes from the recorded selection. -/
theorem RecordInv.resolvedDefault (h : RecordInv l s) (core : Core) (hp : p ∈ l)
    (howner : s.backendOwner = p.ident.toBits) :
    ∃ q ∈ l, s.backendOwner = q.ident.toBits ∧
      (s.resolvedDefault p core).builtIn = q.name ∧
      (s.resolvedDefault p core).source = s.selection := by
  cases hdefault : s.defaultBackend with
  | none =>
    refine ⟨p, hp, howner, ?_, ?_⟩
    · simp [State.resolvedDefault, State.fresh, hdefault]
    · simp [State.resolvedDefault, State.fresh, hdefault, h.unresolved hdefault]
  | some d =>
    have hd : s.resolvedDefault p core = d := by simp [State.resolvedDefault, hdefault]
    rw [hd]
    exact h.resolved d hdefault

/-- Resolving the default keeps the record consistent. -/
theorem RecordInv.resolved' (h : RecordInv l s) (hp : p ∈ l)
    (howner : s.backendOwner = p.ident.toBits) (hpid : p.ident.pid ≠ 0) :
    RecordInv l (s.resolved p core) := by
  refine ⟨h.owner, ?_, by simp [State.resolved], ?_, h.saved⟩
  · intro hzero
    exact absurd (howner.symm.trans hzero) (ProcessIdentity.toBits_ne_zero hpid)
  · rintro d hd
    obtain rfl := Option.some.inj hd
    exact h.resolvedDefault core hp howner

/-- Opening a scope keeps the invariant when the owner opens it and what it saves is its own. -/
theorem RecordInv.opened (h : RecordInv l s) (howner : s.backendOwner = p.ident.toBits)
    (hpid : p.ident.pid ≠ 0) {scope : Scope}
    (hprevious : ∀ d, scope.previous = some d → ∃ q ∈ l, s.backendOwner = q.ident.toBits ∧
      scope.owner = q.ident ∧ d.builtIn = q.name ∧ d.source = scope.selection) :
    RecordInv l (s.opened scope) := by
  refine ⟨h.owner, ?_, h.unresolved, h.resolved, ?_⟩
  · intro hzero
    exact absurd (howner.symm.trans hzero) (ProcessIdentity.toBits_ne_zero hpid)
  · intro token scope' hlookup d hd
    by_cases htoken : token = s.nextBackendScope
    · subst htoken
      obtain rfl : scope = scope' := by simpa [State.opened] using hlookup
      exact hprevious d hd
    · rw [State.opened, AList.lookup_insert_ne htoken] at hlookup
      exact h.saved token scope' hlookup d hd

/-- A push in the owner: the default it saves is the one that the owner built, or the one that
the slot resolves to in the owner. -/
theorem RecordInv.pushed (h : RecordInv l s) (hp : p ∈ l)
    (howner : s.backendOwner = p.ident.toBits) (hpid : p.ident.pid ≠ 0) :
    RecordInv l (s.pushed p core source kind) := by
  have hbuild : RecordInv l s.afterBuild := ⟨h.owner, h.unowned, h.unresolved, h.resolved, h.saved⟩
  obtain ⟨q, hq, hbits, hbuilt, hsource⟩ := hbuild.resolvedDefault core hp howner
  rw [State.pushed]
  refine RecordInv.opened (p := p) (s := { s.afterBuild.resolved p core with
    defaultBackend := some (s.fresh p source kind), selection := source }) ?_ howner hpid ?_
  · refine ⟨h.owner, ?_, by simp, ?_, h.saved⟩
    · intro hzero
      exact absurd (howner.symm.trans hzero) (ProcessIdentity.toBits_ne_zero hpid)
    · rintro d hd
      obtain rfl := Option.some.inj hd
      exact ⟨p, hp, howner, rfl, rfl⟩
  · rintro d hd
    obtain rfl := Option.some.inj hd
    have hident : p.ident = q.ident :=
      ProcessIdentity.toBits_injective (howner.symm.trans hbits)
    exact ⟨q, hq, hbits, hident, hbuilt, hsource⟩

/-- A scope that is gone needs no saved backend. -/
theorem RecordInv.removed (h : RecordInv l s) (token : UInt32) :
    RecordInv l (s.removed token) := by
  refine ⟨h.owner, ?_, h.unresolved, h.resolved, ?_⟩
  · intro hzero
    obtain ⟨hdefault, hselection, hscopes⟩ := h.unowned hzero
    refine ⟨hdefault, hselection, ?_⟩
    simp only [State.removed, hscopes]
    rfl
  · intro token' scope hlookup d hd
    by_cases htoken : token' = token
    · subst htoken
      simp [State.removed] at hlookup
    · rw [State.removed, AList.lookup_erase_ne htoken] at hlookup
      exact h.saved token' scope hlookup d hd

/-- A pop puts back a backend that the owner has built for the selection of the scope. -/
theorem RecordInv.restored (h : RecordInv l s) (hp : p ∈ l)
    (howner : s.backendOwner = p.ident.toBits) (hpid : p.ident.pid ≠ 0) {previous : Backend}
    (hprevious : ∃ q ∈ l, s.backendOwner = q.ident.toBits ∧ previous.builtIn = q.name ∧
      previous.source = source) :
    RecordInv l (s.restored source previous) := by
  refine ⟨Or.inr ⟨p, hp, howner⟩, ?_, by simp [State.restored], ?_, h.saved⟩
  · intro hzero
    exact absurd (howner.symm.trans hzero) (ProcessIdentity.toBits_ne_zero hpid)
  · rintro d hd
    obtain rfl := Option.some.inj hd
    exact hprevious

/-- A pop that finds no saved backend builds one for the selection of the scope. -/
theorem RecordInv.rebuilt (h : RecordInv l s) (hp : p ∈ l)
    (howner : s.backendOwner = p.ident.toBits) (hpid : p.ident.pid ≠ 0) :
    RecordInv l (s.rebuilt p core source kind) := by
  refine ⟨Or.inr ⟨p, hp, howner⟩, ?_, by simp [State.rebuilt], ?_, h.saved⟩
  · intro hzero
    exact absurd (howner.symm.trans hzero) (ProcessIdentity.toBits_ne_zero hpid)
  · rintro d hd
    obtain rfl := Option.some.inj hd
    exact ⟨p, hp, howner, rfl, rfl⟩

end Transformations

/-! ## The operations -/

section Operations

variable {l : List (Proc ProcessIdentity)} {p : Proc ProcessIdentity} {core : Core} {s : State}
  {token : UInt32} {scope : Scope}

/-- An owner that finds an open scope is the process the owner word names: a record that names
nobody has no open scope. -/
theorem owner_eq_of_scope (h : RecordInv l s) (howns : Owns p s)
    (hscope : s.backendScopes.lookup token = some scope) :
    s.backendOwner = p.ident.toBits := by
  rcases howns with hzero | hcur
  · rw [(h.unowned hzero).2.2] at hscope
    cases hscope
  · exact hcur

/-- A saved backend in a scope that an owner finds was saved by this owner. So a process that did
not open the scope finds none in it. -/
theorem scope_owner_eq_of_saved (h : RecordInv l s) (howns : Owns p s)
    (hscope : s.backendScopes.lookup token = some scope) {d : Backend}
    (hd : scope.previous = some d) : scope.owner = p.ident := by
  obtain ⟨q, -, hbits, howner, -⟩ := h.saved token scope hscope d hd
  have hcur := owner_eq_of_scope h howns hscope
  rw [howner]
  exact ProcessIdentity.toBits_injective (hbits.symm.trans hcur)

/-- A pop of an open scope in an owner of the record. -/
theorem run_popDefaultBackend_owns (h : RecordInv l s) (howns : Owns p s)
    (hscope : s.backendScopes.lookup token = some scope) :
    (popDefaultBackend p core token).run s =
      match scope.previous with
      | some previous => .ok () ((s.removed token).restored scope.selection previous)
      | none =>
        match scope.selection.resolve core with
        | .error e => .error (.toRuby e) (s.removed token)
        | .ok kind => .ok () ((s.removed token).rebuilt p core scope.selection kind) := by
  have hclaimed : (s.removed token).claimed p = s.removed token := by
    rw [State.claimed, ← owner_eq_of_scope h howns hscope]
    rfl
  cases hprevious : scope.previous with
  | some previous =>
    rw [run_popDefaultBackend_saved hscope howns hprevious
      (scope_owner_eq_of_saved h howns hscope hprevious), hclaimed]
  | none =>
    cases hbuild : scope.selection.resolve core <;>
      simp only [run_popDefaultBackend_rebuild hscope howns hprevious, hclaimed, hbuild]

/-- After a successful check the record belongs to the calling process. -/
theorem owner_of_ensure_ok {s' : State}
    (hok : (ensureThisProcessBackend p core).run s = .ok () s') :
    s'.backendOwner = p.ident.toBits := by
  rw [run_ensureThisProcessBackend] at hok
  split at hok
  · obtain rfl := (EStateM.Result.ok.inj hok).2
    rfl
  · cases hbuild : s.selection.resolve core with
    | error e => simp [hbuild] at hok
    | ok kind =>
      simp only [hbuild] at hok
      obtain rfl := (EStateM.Result.ok.inj hok).2
      rfl

/-- What a call can do to the state of the process `p`, in steps. -/
inductive Move (p : Proc ProcessIdentity) : State → State → Prop
  | claim {s : State} : Owns p s → Move p s (s.claimed p)
  | takeOver {s : State} (core : Core) (source : Selection) (kind : BackendKind) :
    ¬ Owns p s → Move p s (s.takenOver p core source kind)
  | resolve {s : State} (core : Core) : s.backendOwner = p.ident.toBits →
    Move p s (s.resolved p core)
  | start {s : State} : s.backendOwner = p.ident.toBits →
    Move p s (s.record [.started s.defaultBackend])
  | replace {s : State} (source : Selection) (kind : BackendKind) :
    s.backendOwner = p.ident.toBits → Move p s (s.replaced p source kind)
  | push {s : State} (core : Core) (source : Selection) (kind : BackendKind) :
    s.backendOwner = p.ident.toBits → Move p s (s.pushed p core source kind)
  | takeOverPush {s : State} (core : Core) (source : Selection) (kind : BackendKind) :
    ¬ Owns p s → Move p s ((s.takenOver p core source kind).opened
      { owner := p.ident, previous := none, selection := s.selection })
  | restore {s : State} {token : UInt32} {scope : Scope} {previous : Backend} :
    s.backendOwner = p.ident.toBits → s.backendScopes.lookup token = some scope →
    scope.previous = some previous →
    Move p s ((s.removed token).restored scope.selection previous)
  | rebuild {s : State} {token : UInt32} {scope : Scope} (core : Core) (kind : BackendKind) :
    s.backendOwner = p.ident.toBits → s.backendScopes.lookup token = some scope →
    scope.previous = none → Move p s ((s.removed token).rebuilt p core scope.selection kind)
  | discard {s : State} {token : UInt32} {scope : Scope} :
    s.backendOwner = p.ident.toBits → s.backendScopes.lookup token = some scope →
    scope.previous = none → Move p s (s.removed token)
  | abandon {s : State} {token : UInt32} {scope : Scope} :
    ¬ Owns p s → s.backendScopes.lookup token = some scope →
    Move p s ((s.removed token).record (scope.previous.toList.map .forgot))
  | takeOverAt {s : State} {token : UInt32} {scope : Scope} (core : Core) (kind : BackendKind) :
    ¬ Owns p s → s.backendScopes.lookup token = some scope →
    Move p s (((s.removed token).takenOver p core scope.selection kind).record
      (scope.previous.toList.map .forgot))

/-- Any number of moves. -/
abbrev Moves (p : Proc ProcessIdentity) : State → State → Prop := Relation.ReflTransGen (Move p)

/-- What `ensure_this_process_backend` does to the record is made of moves. -/
theorem moves_ensure :
    Moves p s ((ensureThisProcessBackend p core).run s).state := by
  rw [run_ensureThisProcessBackend]
  split
  · rename_i howns
    exact .single (.claim howns)
  · rename_i howns
    cases s.selection.resolve core with
    | error e => exact .refl
    | ok kind => exact .single (.takeOver core _ kind howns)

/-- So is what `set_default_backend` does. -/
theorem moves_setDefaultBackend (kind : String) (url apiKey profile : Option String) :
    Moves p s ((setDefaultBackend p core kind url apiKey profile).run s).state := by
  rw [run_setDefaultBackend]
  cases (Selection.explicit kind url apiKey profile).resolve core with
  | error e =>
    by_cases howns : Owns p s
    · simpa [howns] using Relation.ReflTransGen.single (.claim howns)
    · simpa [howns] using Relation.ReflTransGen.refl
  | ok kind' =>
    by_cases howns : Owns p s
    · simp only [howns, if_true, EStateM.Result.state_ok]
      exact .tail (.single (.claim howns)) (.replace _ kind' rfl)
    · simp only [howns, if_false, EStateM.Result.state_ok]
      exact .single (.takeOver core _ kind' howns)

/-- Opening a scope takes the record over, or pushes. -/
theorem moves_pushDefaultBackend (kind : String) (url apiKey profile : Option String) :
    Moves p s ((pushDefaultBackend p core kind url apiKey profile).run s).state := by
  rw [run_pushDefaultBackend]
  cases (Selection.explicit kind url apiKey profile).resolve core with
  | error e =>
    by_cases howns : Owns p s
    · simpa [howns] using Relation.ReflTransGen.single (.claim howns)
    · simpa [howns] using Relation.ReflTransGen.refl
  | ok kind' =>
    by_cases howns : Owns p s
    · simp only [howns, if_true, EStateM.Result.state_ok]
      exact .tail (.single (.claim howns)) (.push core _ kind' rfl)
    · simp only [howns, if_false, EStateM.Result.state_ok]
      exact .single (.takeOverPush core _ kind' howns)

/-- A pop removes the scope, and then restores or rebuilds. -/
theorem moves_popDefaultBackend (h : RecordInv l s) :
    Moves p s ((popDefaultBackend p core token).run s).state := by
  cases hscope : s.backendScopes.lookup token with
  | none =>
    rw [run_popDefaultBackend_unknown hscope]
    exact .refl
  | some scope =>
    by_cases howns : Owns p s
    · have hcur := owner_eq_of_scope h howns hscope
      rw [run_popDefaultBackend_owns h howns hscope]
      cases hprevious : scope.previous with
      | some previous => exact .single (.restore hcur hscope hprevious)
      | none =>
        cases scope.selection.resolve core with
        | error e => exact .single (.discard hcur hscope hprevious)
        | ok kind => exact .single (.rebuild core kind hcur hscope hprevious)
    · rw [run_popDefaultBackend_inherited hscope howns]
      cases scope.selection.resolve core with
      | error e => exact .single (.abandon howns hscope)
      | ok kind => exact .single (.takeOverAt core kind howns hscope)

/-- A native call takes the record over, and may resolve the default. -/
theorem moves_blockOn (touches : Bool) :
    Moves p s ((blockOn p core touches).run s).state := by
  have hensure : Moves p s ((ensureThisProcessBackend p core).run s).state := moves_ensure
  rw [run_blockOn]
  cases hrun : (ensureThisProcessBackend p core).run s with
  | error e s' => simpa [hrun] using hensure
  | ok u s' =>
    have howner : s'.backendOwner = p.ident.toBits := owner_of_ensure_ok hrun
    have hstart : Moves p s (s'.record [.started s'.defaultBackend]) :=
      .tail (by simpa [hrun] using hensure) (.start howner)
    cases touches with
    | false => exact hstart
    | true => exact .tail hstart (.resolve core howner)

/-- The kind of the default is read off the resolved default. -/
theorem moves_defaultBackendKind :
    Moves p s ((defaultBackendKind p core).run s).state := by
  have hensure : Moves p s ((ensureThisProcessBackend p core).run s).state := moves_ensure
  rw [run_defaultBackendKind_state]
  cases hrun : (ensureThisProcessBackend p core).run s with
  | error e s' => simpa [hrun] using hensure
  | ok u s' =>
    exact .tail (by simpa [hrun] using hensure) (.resolve core (owner_of_ensure_ok hrun))

/-- Every call is a sequence of moves, whatever the core answers. -/
theorem moves_exec (h : RecordInv l s) (call : Call) :
    Moves p s ((call.exec p core).run s).state := by
  cases call with
  | ensureThisProcessBackend => exact moves_ensure
  | setDefaultBackend kind url apiKey profile =>
    exact moves_setDefaultBackend kind url apiKey profile
  | pushDefaultBackend kind url apiKey profile =>
    rw [exec_pushDefaultBackend_state]
    exact moves_pushDefaultBackend kind url apiKey profile
  | popDefaultBackend token => exact moves_popDefaultBackend h
  | blockOn touches => exact moves_blockOn touches
  | defaultBackendKind =>
    rw [exec_defaultBackendKind_state]
    exact moves_defaultBackendKind

/-- A move of a process keeps the record consistent. -/
theorem RecordInv.move {s' : State} (h : RecordInv l s) (hp : p ∈ l) (hpid : p.ident.pid ≠ 0)
    (hmove : Move p s s') : RecordInv l s' := by
  cases hmove with
  | claim howns => exact h.claimed hp howns hpid
  | takeOver core source kind howns => exact recordInv_takenOver hp hpid
  | resolve core howner => exact h.resolved' hp howner hpid
  | start howner => exact h.record _
  | replace source kind howner => exact h.replaced hp howner hpid
  | push core source kind howner => exact h.pushed hp howner hpid
  | takeOverPush core source kind howns =>
    exact (recordInv_takenOver hp hpid).opened (p := p) rfl hpid (by simp)
  | @restore token scope previous howner hscope hprevious =>
    obtain ⟨q, hq, hbits, -, hbuilt, hsource⟩ := h.saved token scope hscope previous hprevious
    exact (h.removed token).restored hp howner hpid ⟨q, hq, hbits, hbuilt, hsource⟩
  | @rebuild token scope core kind howner hscope hprevious =>
    exact (h.removed token).rebuilt hp howner hpid
  | @discard token scope howner hscope hprevious => exact h.removed token
  | @abandon token scope howns hscope => exact (h.removed token).record _
  | takeOverAt core kind howns hscope => exact (recordInv_takenOver hp hpid).record _

/-- Any number of moves keep the record consistent. -/
theorem RecordInv.moves {s' : State} (h : RecordInv l s) (hp : p ∈ l) (hpid : p.ident.pid ≠ 0)
    (hmoves : Moves p s s') : RecordInv l s' := by
  induction hmoves with
  | refl => exact h
  | tail _ hmove ih => exact ih.move hp hpid hmove

end Operations

/-! ## Every branch, every tree -/

/-- The record is consistent at the end of every branch. -/
theorem recordInv_of_run {b : Branch ProcessIdentity State} (h : backendSystem.Run b) :
    RecordInv b.lineage b.mem := by
  induction h with
  | root hroot => exact recordInv_initial
  | @step b m hrun hstep ih =>
    obtain ⟨core, call, rfl⟩ := hstep
    have hself := b.self_mem_lineage
    exact ih.moves hself (pid_ne_zero hrun _ hself) (moves_exec ih call)
  | fork hrun hident hfresh ih => exact ih.forked.mono

/-- The consistency of the backend record in every process of every tree: the owner word is `0`
or names a process of the lineage; the core's default is unresolved, and then the recorded
selection is the ladder, or the process that the owner word names built it from the recorded
selection; and that process opened every scope that has a saved backend, and built this backend
from the selection of the scope. -/
theorem backend_record_invariant {t : List (Branch ProcessIdentity State)}
    (ht : backendSystem.TreeRun t) {b : Branch ProcessIdentity State} (hb : b ∈ t)
    (hforks : b.ancestors.length < 2 ^ 32) :
    (b.mem.backendOwner = 0 ∨
      b.mem.backendOwner = b.self.ident.toBits ∨
      ∃ q ∈ b.ancestors, b.mem.backendOwner = q.ident.toBits) ∧
    (match b.mem.defaultBackend with
      | none => b.mem.selection = .ladder
      | some d => d.source = b.mem.selection ∧ b.mem.backendOwner ≠ 0 ∧
          ∀ q ∈ b.lineage, d.builtIn = q.name ↔ b.mem.backendOwner = q.ident.toBits) ∧
    (∀ token scope d, b.mem.backendScopes.lookup token = some scope → scope.previous = some d →
      b.mem.backendOwner = scope.owner.toBits ∧ b.mem.backendOwner ≠ 0 ∧
      d.source = scope.selection ∧
      ∀ q ∈ b.lineage, d.builtIn = q.name ↔ b.mem.backendOwner = q.ident.toBits) := by
  obtain ⟨i, hi⟩ := List.mem_iff_getElem?.mp hb
  obtain ⟨-, -, hrun⟩ := ht.run hi
  have hinv := recordInv_of_run hrun
  -- the name of a process of the lineage, and its identity, say the same
  have hnames : ∀ q ∈ b.lineage, b.mem.backendOwner = q.ident.toBits →
      ∀ r ∈ b.lineage, q.name = r.name ↔ b.mem.backendOwner = r.ident.toBits := by
    intro q hq hbits r hr
    constructor
    · intro hname
      rwa [← hrun.eq_of_name_eq hq hr hname]
    · intro hbits'
      have hident := ProcessIdentity.toBits_injective (hbits.symm.trans hbits')
      rw [ident_injOn hrun hforks hq hr hident]
  have hne : ∀ q ∈ b.lineage, b.mem.backendOwner = q.ident.toBits → b.mem.backendOwner ≠ 0 := by
    intro q hq hbits
    rw [hbits]
    exact ProcessIdentity.toBits_ne_zero (pid_ne_zero hrun q hq)
  refine ⟨?_, ?_, ?_⟩
  · -- the owner is nobody, the process or one of its ancestors
    rcases hinv.owner with hzero | ⟨q, hq, hbits⟩
    · exact Or.inl hzero
    · rcases Branch.mem_lineage.mp hq with rfl | hq
      · exact Or.inr (Or.inl hbits)
      · exact Or.inr (Or.inr ⟨q, hq, hbits⟩)
  · cases hdefault : b.mem.defaultBackend with
    | none => exact hinv.unresolved hdefault
    | some d =>
      obtain ⟨q, hq, hbits, hbuilt, hsource⟩ := hinv.resolved d hdefault
      refine ⟨hsource, hne q hq hbits, ?_⟩
      rw [hbuilt]
      exact hnames q hq hbits
  · intro token scope d hscope hd
    obtain ⟨q, hq, hbits, howner, hbuilt, hsource⟩ := hinv.saved token scope hscope d hd
    rw [howner, hbuilt]
    exact ⟨hbits, hne q hq hbits, hsource, hnames q hq hbits⟩

section Example

/-- A core that builds every backend. -/
def readyCore : Core where
  resolveDefaultBackend := .ok .localBackend
  cloudFromProfile _ := .ok ()
  cloudNew _ _ := .ok ()
  lazyDefault := .localBackend

/-- A root process, and a child that got the pid of the root. -/
def rootProc : Proc ProcessIdentity := ⟨0, ⟨100, 0⟩⟩

/-- A child of the root, under the pid of the root. -/
def childProc : Proc ProcessIdentity := ⟨1, ⟨100, 1⟩⟩

/-- The root has opened a scope. -/
def scopedState : State :=
  (((Call.pushDefaultBackend "local" none none none).exec rootProc readyCore).run
    State.initial).state

/-- The root with an open scope, and the child that inherited it. -/
def scopedTree : List (Branch ProcessIdentity State) :=
  [⟨rootProc, [], scopedState⟩, ⟨childProc, [rootProc], scopedState.forked⟩]

/-- The root opens a scope and forks. -/
theorem scopedTree_treeRun : backendSystem.TreeRun scopedTree := by
  have root : backendSystem.TreeRun [⟨rootProc, [], State.initial⟩] :=
    System.TreeRun.root (S := backendSystem) (And.intro rfl (by decide))
  have push : backendSystem.TreeRun [⟨rootProc, [], scopedState⟩] :=
    root.act (p := 0) rfl ⟨readyCore, .pushDefaultBackend "local" none none none, rfl⟩
  exact push.fork (p := 0) (ι := childProc.ident) rfl (And.intro rfl (by decide))

/-- The child finds the owner word of its parent, and a default that the selection names. -/
theorem backend_record_invariant_inherited :
    (scopedState.forked.backendOwner = 0 ∨
      scopedState.forked.backendOwner = childProc.ident.toBits ∨
      ∃ q ∈ [rootProc], scopedState.forked.backendOwner = q.ident.toBits) ∧
    ∃ d, scopedState.forked.defaultBackend = some d ∧ d.source = scopedState.forked.selection := by
  obtain ⟨howner, hdefault, -⟩ := backend_record_invariant scopedTree_treeRun
    (b := ⟨childProc, [rootProc], scopedState.forked⟩) (by simp [scopedTree]) (by decide)
  exact ⟨howner, _, rfl, hdefault.1⟩

end Example

end MicrosandboxRb.BackendRecord
