import MicrosandboxRb.Backend.Invariant

/-!
# `with_backend` blocks

Ruby programs that use `with_backend` (`microsandbox.rb`). A program runs in one process at a time:
a fork copies the process, and the program goes on in the parent or in the child, out of any
`with_backend` block it is in.

## Main definitions

* `withBackend`: the method, with the body as an argument;
* `Prog`: programs of nested blocks, calls, forks and exceptions, and `Prog.run`;
* `LeftBlock`: what is recorded about a block when it is left;
* `Follows`: the traces of well-nested programs.

## Main results

* `Prog.run_extends`: a program follows a trace, and every block it leaves is a `LeftBlock.Valid`;
* `Follows.run`: such a trace is a branch of the process tree.
-/

namespace MicrosandboxRb.BackendRecord

open ForkTree

/-- An exception that goes through Ruby code. -/
inductive Raised where
  /-- A `Microsandbox::Error`. -/
  | microsandbox (e : RubyError)
  /-- An exception of the program itself. -/
  | program (message : String)
deriving DecidableEq

/-- A block that was left. -/
structure LeftBlock where
  -- right before the push, and right after it
  entered : Branch ProcessIdentity State
  inside : Branch ProcessIdentity State
  -- right before the pop, and right after it
  leaving : Branch ProcessIdentity State
  after : Branch ProcessIdentity State
  token : UInt32
  -- the answers of the core during the pop, and the outcome of the pop
  core : Core
  closed : Except RubyError Unit

/-- The process that the program runs in, and what the program has done. -/
structure World where
  branch : Branch ProcessIdentity State
  left : List LeftBlock
  warnings : List String

namespace World

/-- The world after the process of the program has changed its memory. -/
def withMem (w : World) (m : State) : World := { w with branch := { w.branch with mem := m } }

/-- The process is still the one of the program. -/
@[simp] theorem branch_withMem (w : World) (m : State) :
    (w.withMem m).branch = { w.branch with mem := m } := rfl

/-- No other branch is touched. -/
@[simp] theorem left_withMem (w : World) (m : State) : (w.withMem m).left = w.left := rfl

/-- Nothing is warned about. -/
@[simp] theorem warnings_withMem (w : World) (m : State) :
    (w.withMem m).warnings = w.warnings := rfl

end World

/-! ## The method -/

section Methods

variable {α : Type}

/-- Call a function of the extension. -/
def native (op : Proc ProcessIdentity → EStateM RubyError State α) : EStateM RubyError World α :=
  fun w =>
    match (op w.branch.self).run w.branch.mem with
    | .ok a m => .ok a (w.withMem m)
    | .error e m => .error e (w.withMem m)

/-- Run the body with a temporary default backend, and restore the previous one when it is left.
`message` is the message of an exception; `push` and `pop` are the answers of the core. -/
def withBackend (message : RubyError → String) (push pop : Core) (kind : String)
    (url apiKey profile : Option String) (body : EStateM Raised World α) :
    EStateM Raised World α := do
  let entered := (← get).branch
  let token ← (native fun p => pushDefaultBackend p push kind url apiKey profile).adaptExcept
    .microsandbox
  let inside := (← get).branch
  let result ← EStateM.attempt body
  let leaving := (← get).branch
  let closed ← EStateM.attempt (native fun p => popDefaultBackend p pop token)
  modify fun w =>
    { w with left := w.left ++
        [{ entered, inside, leaving, after := w.branch, token, core := pop, closed }] }
  match result, closed with
  | .ok a, .ok _ => pure a
  | .ok _, .error e => throw (.microsandbox e)
  | .error raised, .ok _ => throw raised
  | .error raised, .error e =>
    -- the restore failure never replaces what the block raised
    modify fun w =>
      { w with warnings := w.warnings ++
          [s!"microsandbox: with_backend could not restore the previous backend: {message e}"] }
    throw raised

end Methods

/-! ## Programs -/

/-- The calls of a program outside the entry and the exit of blocks. -/
inductive BodyCall where
  | setDefaultBackend (kind : String) (url apiKey profile : Option String)
  /-- A native call: whether it uses the default slot, and the error it may end with. -/
  | nativeCall (touches : Bool) (failure : Option MicrosandboxError)
  | defaultBackendKind

/-- The call of the record that a call of the block makes. -/
def BodyCall.toCall : BodyCall → Call
  | .setDefaultBackend kind url apiKey profile => .setDefaultBackend kind url apiKey profile
  | .nativeCall touches _ => .blockOn touches
  | .defaultBackendKind => .defaultBackendKind

/-- The exception that a native call raises once it has run. -/
def BodyCall.failure : BodyCall → Option MicrosandboxError
  | .nativeCall _ failure => failure
  | _ => none

/-- A call of the block, with the exception of the core after it. -/
def BodyCall.exec (p : Proc ProcessIdentity) (core : Core) (call : BodyCall) :
    EStateM RubyError State Unit := do
  call.toCall.exec p core
  match call.failure with
  | some e => throw (.toRuby e)
  | none => pure ()

/-- The program goes on in the child. Its name is new in the lineage. -/
def forkChild (pid : UInt32) (b : Branch ProcessIdentity State) :
    Branch ProcessIdentity State where
  self :=
    { name := (b.lineage.map Proc.name).foldr max 0 + 1
      ident := b.self.ident.onForkChild pid }
  ancestors := b.lineage
  mem := b.mem.forked

/-- A program of `with_backend` blocks. -/
inductive Prog where
  | skip
  | raise (message : String)
  | call (core : Core) (call : BodyCall)
  /-- A fork. The program goes on in the parent, or in the child with the given pid. -/
  | fork (child : Option { pid : UInt32 // pid ≠ 0 })
  | seq (first second : Prog)
  | rescue (body handler : Prog)
  | withBackend (push pop : Core) (kind : String) (url apiKey profile : Option String)
      (body : Prog)

/-- What a program does. A fork goes on in the child, or in the parent. -/
def Prog.run (message : RubyError → String) : Prog → EStateM Raised World Unit
  | .skip => pure ()
  | .raise text => throw (.program text)
  | .call core bodyCall => (native fun p => bodyCall.exec p core).adaptExcept .microsandbox
  | .fork none => pure ()
  | .fork (some pid) => modify fun w => { w with branch := forkChild pid.1 w.branch }
  | .seq first second => do
    first.run message
    second.run message
  | .rescue body handler => do
    match ← EStateM.attempt (body.run message) with
    | .ok _ => pure ()
    | .error _ => handler.run message
  | .withBackend push pop kind url apiKey profile body =>
    BackendRecord.withBackend message push pop kind url apiKey profile (body.run message)

/-! ## Traces -/

/-- A well-nested trace from one process of a branch to another. -/
inductive Follows : Branch ProcessIdentity State → Branch ProcessIdentity State → Prop
  | refl (b : Branch ProcessIdentity State) : Follows b b
  | trans {b₁ b₂ b₃ : Branch ProcessIdentity State} :
    Follows b₁ b₂ → Follows b₂ b₃ → Follows b₁ b₃
  | call (b : Branch ProcessIdentity State) (core : Core) (call : BodyCall) :
    Follows b { b with mem := ((call.toCall.exec b.self core).run b.mem).state }
  | fork (b : Branch ProcessIdentity State) {pid : UInt32} :
    pid ≠ 0 → Follows b (forkChild pid b)
  | pushFailed {b : Branch ProcessIdentity State} {core : Core} {kind : String}
    {url apiKey profile : Option String} {e : RubyError} {m : State} :
    (pushDefaultBackend b.self core kind url apiKey profile).run b.mem = .error e m →
    Follows b { b with mem := m }
  | block {b b' : Branch ProcessIdentity State} {push : Core} (pop : Core) {kind : String}
    {url apiKey profile : Option String} {token : UInt32} {m : State} :
    (pushDefaultBackend b.self push kind url apiKey profile).run b.mem = .ok token m →
    Follows { b with mem := m } b' →
    Follows b { b' with mem := ((popDefaultBackend b'.self pop token).run b'.mem).state }

/-- The record of a block agrees with what the operations do. -/
structure LeftBlock.Valid (x : LeftBlock) : Prop where
  entered : backendSystem.Run x.entered
  inside : ∃ push kind url apiKey profile m,
    (pushDefaultBackend x.entered.self push kind url apiKey profile).run x.entered.mem =
      .ok x.token m ∧ x.inside = { x.entered with mem := m }
  body : Follows x.inside x.leaving
  after : ∃ m, x.after = { x.leaving with mem := m } ∧
    (popDefaultBackend x.leaving.self x.core x.token).run x.leaving.mem =
      match x.closed with
      | .ok _ => .ok () m
      | .error e => .error e m

section Runs

variable {b b' : Branch ProcessIdentity State}

/-- A child has a name that no process before it has. -/
theorem forkChild_name_ne {pid : UInt32} :
    ∀ p ∈ b.lineage, p.name ≠ (forkChild pid b).self.name := by
  intro p hp
  have hle : p.name ≤ (b.lineage.map Proc.name).foldr max 0 :=
    List.le_max_of_le' 0 (List.mem_map_of_mem hp) le_rfl
  exact Nat.ne_of_lt (Nat.lt_succ_of_le hle)

/-- A fork is a step of the tree. -/
theorem run_forkChild (h : backendSystem.Run b) {pid : UInt32} (hpid : pid ≠ 0) :
    backendSystem.Run (forkChild pid b) :=
  System.Run.fork (c := (forkChild pid b).self) h (And.intro rfl hpid) forkChild_name_ne

/-- A push that succeeds is a step of the tree. -/
theorem run_of_push (hb : backendSystem.Run b) {core : Core} {kind : String}
    {url apiKey profile : Option String} {token : UInt32} {m : State}
    (hpush : (pushDefaultBackend b.self core kind url apiKey profile).run b.mem = .ok token m) :
    backendSystem.Run { b with mem := m } := by
  refine System.Run.step hb ⟨core, .pushDefaultBackend kind url apiKey profile, ?_⟩
  rw [exec_pushDefaultBackend_state, hpush]
  rfl

/-- A trace stays on a branch of the process tree. -/
theorem Follows.run (h : Follows b b') (hb : backendSystem.Run b) : backendSystem.Run b' := by
  induction h with
  | refl => exact hb
  | trans _ _ ih₁ ih₂ => exact ih₂ (ih₁ hb)
  | call b core call => exact System.Run.step hb ⟨core, call.toCall, rfl⟩
  | fork b hpid => exact run_forkChild hb hpid
  | @pushFailed b core kind url apiKey profile e m hpush =>
    refine System.Run.step hb ⟨core, .pushDefaultBackend kind url apiKey profile, ?_⟩
    rw [exec_pushDefaultBackend_state, hpush]
    rfl
  | @block b b' push pop kind url apiKey profile token m hpush _ ih =>
    have hscoped : backendSystem.Run { b with mem := m } := by
      refine System.Run.step hb ⟨push, .pushDefaultBackend kind url apiKey profile, ?_⟩
      rw [exec_pushDefaultBackend_state, hpush]
      rfl
    exact System.Run.step (ih hscoped) ⟨pop, .popDefaultBackend token, rfl⟩

/-- What a program does to the world: it follows a trace, and records the blocks it leaves. -/
structure World.Extends (w w' : World) : Prop where
  follows : Follows w.branch w'.branch
  left : ∀ x ∈ w'.left, x ∈ w.left ∨ x.Valid

/-- A world extends itself. -/
theorem World.Extends.refl (w : World) : w.Extends w :=
  ⟨Follows.refl w.branch, fun _ hx => Or.inl hx⟩

/-- Extending is transitive. -/
theorem World.Extends.trans {w₁ w₂ w₃ : World} (h : w₁.Extends w₂) (h' : w₂.Extends w₃) :
    w₁.Extends w₃ :=
  ⟨h.follows.trans h'.follows, fun x hx => (h'.left x hx).elim (h.left x) Or.inr⟩

/-- An operation of the process, on its own memory. -/
theorem run_native {α : Type} (op : Proc ProcessIdentity → EStateM RubyError State α)
    (w : World) : (native op).run w =
      match (op w.branch.self).run w.branch.mem with
      | .ok a m => .ok a (w.withMem m)
      | .error e m => .error e (w.withMem m) := rfl

/-- A native call that fails after its start leaves the state of one that does not. -/
theorem state_exec_bodyCall (call : BodyCall) (p : Proc ProcessIdentity) (core : Core)
    (s : State) : ((call.exec p core).run s).state = ((call.toCall.exec p core).run s).state := by
  rw [BodyCall.exec, EStateM.run_bind]
  cases (call.toCall.exec p core).run s with
  | error e s' => rfl
  | ok u s' => cases call.failure <;> rfl

section Block

variable {push pop : Core} {kind : String} {url apiKey profile : Option String} {w w' : World}
  {token : UInt32} {m m' : State} {c : Except RubyError Unit}

/-- A block that was entered, run and left. -/
theorem block_extends (hw : backendSystem.Run w.branch)
    (hpush : (pushDefaultBackend w.branch.self push kind url apiKey profile).run w.branch.mem =
      .ok token m)
    (hbody : (w.withMem m).Extends w')
    (hpop : (popDefaultBackend w'.branch.self pop token).run w'.branch.mem =
      match c with
      | .ok _ => .ok () m'
      | .error e => .error e m')
    (warnings : List String) :
    w.Extends
      { branch := { w'.branch with mem := m' }
        left := w'.left ++
          [{  entered := w.branch
              inside := { w.branch with mem := m }
              leaving := w'.branch
              after := { w'.branch with mem := m' }
              token := token
              core := pop
              closed := c }]
        warnings := warnings } := by
  constructor
  · have hblock := Follows.block pop hpush hbody.follows
    rw [hpop] at hblock
    cases c <;> exact hblock
  · intro x hx
    -- the blocks that the body has left, and then this one
    rcases List.mem_append.mp hx with hx | hx
    · exact hbody.left x hx
    · obtain rfl := List.mem_singleton.mp hx
      exact Or.inr ⟨hw, ⟨push, kind, url, apiKey, profile, m, hpush, rfl⟩, hbody.follows,
        ⟨m', rfl, hpop⟩⟩

/-- A block whose body and pop succeed. -/
theorem run_withBackend_ok (message : RubyError → String) {body : EStateM Raised World Unit}
    (hpush : (pushDefaultBackend w.branch.self push kind url apiKey profile).run w.branch.mem =
      .ok token m)
    (hbody : body.run (w.withMem m) = .ok () w')
    (hpop : (popDefaultBackend w'.branch.self pop token).run w'.branch.mem = .ok () m') :
    (withBackend message push pop kind url apiKey profile body).run w = .ok ()
      { branch := { w'.branch with mem := m' }
        left := w'.left ++
          [{  entered := w.branch
              inside := { w.branch with mem := m }
              leaving := w'.branch
              after := { w'.branch with mem := m' }
              token := token
              core := pop
              closed := .ok () }]
        warnings := w'.warnings } := by
  simp [withBackend, run_native, hpush, hbody, hpop]

/-- A block extends the world if its body does. -/
theorem withBackend_extends {message : RubyError → String} {body : EStateM Raised World Unit}
    (hbody : ∀ w : World, backendSystem.Run w.branch → w.Extends (body.run w).state)
    (hw : backendSystem.Run w.branch) :
    w.Extends ((withBackend message push pop kind url apiKey profile body).run w).state := by
  cases hpush : (pushDefaultBackend w.branch.self push kind url apiKey profile).run w.branch.mem
  with
  | error e m =>
    have hstate : ((withBackend message push pop kind url apiKey profile body).run w).state =
        w.withMem m := by
      simp [withBackend, run_native, hpush]
    rw [hstate]
    -- a block whose push fails is never entered
    exact ⟨Follows.pushFailed hpush, fun _ hx => Or.inl hx⟩
  | ok token m =>
    have hext := hbody (w.withMem m) (run_of_push hw hpush)
    -- whatever the outcomes of the body and of the pop, the block is recorded
    cases hrun : body.run (w.withMem m) with
    | ok u w' =>
      rw [hrun] at hext
      cases hpop : (popDefaultBackend w'.branch.self pop token).run w'.branch.mem with
      | ok u m' =>
        rw [run_withBackend_ok message hpush hrun hpop]
        exact block_extends (c := .ok u) hw hpush hext hpop w'.warnings
      | error e m' =>
        have hblock := block_extends (c := .error e) hw hpush hext hpop w'.warnings
        simpa [withBackend, run_native, hpush, hrun, hpop] using hblock
    | error raised w' =>
      rw [hrun] at hext
      cases hpop : (popDefaultBackend w'.branch.self pop token).run w'.branch.mem with
      | ok u m' =>
        have hblock := block_extends (c := .ok u) hw hpush hext hpop w'.warnings
        simpa [withBackend, run_native, hpush, hrun, hpop] using hblock
      | error e m' =>
        have hblock := block_extends (c := .error e) hw hpush hext hpop (w'.warnings ++
          [s!"microsandbox: with_backend could not restore the previous backend: {message e}"])
        simpa [withBackend, run_native, hpush, hrun, hpop] using hblock

end Block

/-- So a program does, by induction on its blocks. -/
theorem Prog.run_extends (message : RubyError → String) (P : Prog) {w : World}
    (hw : backendSystem.Run w.branch) : w.Extends ((P.run message).run w).state := by
  induction P generalizing w with
  | skip => exact World.Extends.refl w
  | raise text => exact World.Extends.refl w
  | call core call =>
    -- a call ends in the same state whether it raises or not
    have hcall := Follows.call w.branch core call
    rw [← state_exec_bodyCall] at hcall
    cases hexec : (call.exec w.branch.self core).run w.branch.mem with
    | ok u m =>
      rw [hexec] at hcall
      have hstate : (((Prog.call core call).run message).run w).state = w.withMem m := by
        simp [Prog.run, run_native, hexec]
      rw [hstate]
      exact ⟨hcall, fun _ hx => Or.inl hx⟩
    | error e m =>
      rw [hexec] at hcall
      have hstate : (((Prog.call core call).run message).run w).state = w.withMem m := by
        simp [Prog.run, run_native, hexec]
      rw [hstate]
      exact ⟨hcall, fun _ hx => Or.inl hx⟩
  | fork child =>
    cases child with
    | none => exact World.Extends.refl w
    | some pid => exact ⟨Follows.fork w.branch pid.2, fun _ hx => Or.inl hx⟩
  | seq first second ih₁ ih₂ =>
    have h₁ := ih₁ hw
    cases hfirst : (first.run message).run w with
    | error raised w' =>
      rw [hfirst] at h₁
      simpa [Prog.run, hfirst] using h₁
    | ok u w' =>
      rw [hfirst] at h₁
      -- the second part starts where the first one stopped
      have h₂ := ih₂ (h₁.follows.run hw)
      simpa [Prog.run, hfirst] using h₁.trans h₂
  | rescue body handler ih₁ ih₂ =>
    have h₁ := ih₁ hw
    cases hbody : (body.run message).run w with
    | ok u w' =>
      rw [hbody] at h₁
      simpa [Prog.run, hbody] using h₁
    | error raised w' =>
      rw [hbody] at h₁
      have h₂ := ih₂ (h₁.follows.run hw)
      simpa [Prog.run, hbody] using h₁.trans h₂
  | withBackend push pop kind url apiKey profile body ih =>
    exact withBackend_extends (fun w hw => ih hw) hw

end Runs

end MicrosandboxRb.BackendRecord
