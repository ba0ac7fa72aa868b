import MicrosandboxRb.Lib.AsyncMutex
import MicrosandboxRb.Runtime.BlockOn

/-!
# `PullSession#sandbox`

A pull session joins the task that creates a sandbox. `Native::PullSession#result` takes the join
handle and awaits it, in one call of `block_on`; `PullSession#sandbox` (`sandbox.rb`) keeps the
outcome in `@failure` or `@sandbox`. The VM can switch threads between any two steps of the Ruby
method, and while the native call waits.

The threads are those of the process that created the session, and nothing interrupts them. Then
`Sandbox.acquire` is the native call and the construction of the wrapper, in this order.

## Main definitions

* `result`: what the native method hands to `block_on`;
* `Call.next`: the Ruby method, step by step;
* `Step`: the steps of any number of threads;
* `Reaches`: the states reached by steps that satisfy a condition.

## Main results

* `along_result`: every event of one native call;
* `accessed_cases`: at most one native call takes the join handle;
* `returned_cases`: what a native call returns.
-/

namespace MicrosandboxRb.PullSession

open AsyncMutex
open Nogvl (MAX_ENTRY_ATTEMPTS)

/-! ## The native result -/

/-- The join handle of the create task. -/
structure JoinHandle where
  id : ℕ
deriving DecidableEq

/-- A sandbox of the core. -/
structure CoreSandbox where
  id : ℕ
deriving DecidableEq

/-- The task was cancelled or has panicked. -/
structure JoinError where
  text : String
deriving DecidableEq, Inhabited

/-- How a create task ends. -/
abbrev Joined := Except JoinError (Except MicrosandboxError CoreSandbox)

/-- A body of `#result`. -/
abbrev ResultFuture (α : Type) := Future (Option JoinHandle) (fun _ : JoinHandle => Joined) α

/-- What `result` makes of the output of its future. -/
def joinedResult : Option Joined → Except RubyError CoreSandbox
  | none => .error (.baseError "pull session result already taken")
  | some (.error e) => .error (.baseError ("sandbox creation task failed: " ++ e.text))
  | some (.ok (.error e)) => .error (.toRuby e)
  | some (.ok (.ok inner)) => .ok inner

/-- Await the booted sandbox. The guard is dropped when the join handle has been taken. -/
def result : ResultFuture (Except RubyError CoreSandbox) := do
  let joined ← do
    match ← Future.withGuard (Future.replace fun _ => none) with
    | some handle =>
      let r ← Future.await handle
      pure (some r)
    | none => pure none
  pure (joinedResult joined)

/-- What a call of `#result` does. -/
abbrev ResultEvent :=
  Event (Option JoinHandle) (fun _ : JoinHandle => Joined) (Except RubyError CoreSandbox)

/-- What the calls did, in order. -/
abbrev Log := List (ℕ × ResultEvent)

/-- The session and the calls on it. -/
abbrev ResultWorld :=
  World (Option JoinHandle) (fun _ : JoinHandle => Joined) (Except RubyError CoreSandbox)

/-- How often a join handle has been awaited. -/
def awaits (log : Log) : ℕ :=
  log.countP fun x => match x.2 with
    | .began _ => true
    | _ => false

/-! ## The Ruby method -/

/-- A `Microsandbox::Sandbox`. An object is told from others by the call that made it. -/
structure SandboxObject where
  native : CoreSandbox
  madeBy : ℕ
deriving DecidableEq

/-- An exception object. -/
structure ErrorObject where
  error : RubyError
  madeBy : ℕ
deriving DecidableEq

/-- `@failure` and `@sandbox`. -/
structure Ivars where
  failure : Option ErrorObject
  sandbox : Option SandboxObject
deriving DecidableEq

/-- Where a call of `PullSession#sandbox` stands. Every exception of the body is a
`Microsandbox::Error`. -/
inductive Call where
  /-- Before `raise @failure if @failure`. -/
  | checkFailure
  /-- Before `@sandbox` is read. -/
  | checkSandbox
  /-- On the way into the native call. -/
  | entering (en : Entry Empty)
  /-- Inside the native call. -/
  | awaiting
  /-- Before `new(native)`. -/
  | wrap (native : CoreSandbox)
  /-- Before the assignment of `@sandbox`. -/
  | store (sandbox : SandboxObject)
  | returning (sandbox : SandboxObject)
  /-- At the `rescue`, before `@failure` is read. -/
  | rescued (e : ErrorObject)
  /-- Before the assignment of `@failure`. -/
  | memoize (e : ErrorObject)
  /-- Before the bare `raise`. -/
  | reraise (e : ErrorObject)
  | returned (sandbox : SandboxObject)
  | raised (e : ErrorObject)
deriving DecidableEq

namespace Call

/-- Call `i` has returned or raised. -/
def Ended : Call → Prop
  | .returned _ | .raised _ => True
  | _ => False

/-- The next step of call `i` in Ruby, outside the native call. -/
def next (i : ℕ) (vars : Ivars) : Call → Option (Call × Ivars)
  | .checkFailure =>
    match vars.failure with
    | some e => some (.rescued e, vars)
    | none => some (.checkSandbox, vars)
  | .checkSandbox =>
    match vars.sandbox with
    | some sandbox => some (.returning sandbox, vars)
    | none => some (.entering .get, vars)
  | .wrap native => some (.store ⟨native, i⟩, vars)
  | .store sandbox => some (.returning sandbox, { vars with sandbox := some sandbox })
  | .returning sandbox => some (.returned sandbox, vars)
  | .rescued e =>
    match vars.failure with
    | some _ => some (.reraise e, vars)
    | none => some (.memoize e, vars)
  | .memoize e => some (.reraise e, { vars with failure := some e })
  | .reraise e => some (.raised e, vars)
  | .entering _ | .awaiting | .returned _ | .raised _ => none

/-- What call `i` makes of the answer of the native call. -/
def joined (i : ℕ) : Except RubyError CoreSandbox → Call
  | .ok native => .wrap native
  | .error error => .rescued ⟨error, i⟩

end Call

/-- An answer on the way into a native call when nothing interrupts it and its process is the one
that created the session. A timer tick may decline an attempt, as long as attempts are left. -/
def Quiet (en : Entry Empty) : Answer Empty → Prop
  | .got r | .ensured r => r = .ok ()
  | .checked _ => True
  | .entered ran => ran = true ∨ ∃ attempts, en = .enter attempts ∧
      attempts + 1 < MAX_ENTRY_ATTEMPTS

/-! ## Runs -/

/-- The session, the calls on it and the variables of the Ruby object. -/
structure State where
  world : ResultWorld
  calls : ℕ → Option Call
  vars : Ivars

namespace State

/-- A new session. -/
def init (handle : JoinHandle) : State where
  world := .init (some handle)
  calls _ := none
  vars := { failure := none, sandbox := none }

/-- Move call `i`. -/
def move (s : State) (i : ℕ) (c : Call) : State :=
  { s with calls := Function.update s.calls i (some c) }

end State

/-- The steps of any number of threads, for the call that takes the step. -/
inductive Step (s : State) (i : ℕ) : State → Prop
  /-- A thread calls the method. -/
  | invoke : s.calls i = none → Step s i (s.move i .checkFailure)
  | ruby {c c' : Call} {vars : Ivars} : s.calls i = some c → c.next i s.vars = some (c', vars) →
      Step s i { s.move i c' with vars }
  /-- A step on the way into the native call. -/
  | advance {en en' : Entry Empty} {answer : Answer Empty} : s.calls i = some (.entering en) →
      en.next answer = some en' → Quiet en answer → en' ≠ .polled →
      Step s i (s.move i (.entering en'))
  /-- The future of the native call is polled for the first time. -/
  | poll {en : Entry Empty} {answer : Answer Empty} : s.calls i = some (.entering en) →
      en.next answer = some .polled → Quiet en answer →
      Step s i { s.move i .awaiting with world := s.world.spawn i result }
  /-- The future goes on. A panic of the create task is an answer of its join handle. -/
  | act {e : ResultEvent} {w : ResultWorld} : Act s.world i e w → (∀ c, e ≠ .panicked c) →
      Step s i { s with world := w }
  /-- The native call returns. -/
  | join {r : Except RubyError CoreSandbox} : s.calls i = some .awaiting →
      (i, .returned r) ∈ s.world.log → Step s i (s.move i (.joined i r))

/-- The steps of threads that satisfy `C`, a condition on the state before the step and the call
that takes it. -/
def Steps (C : State → ℕ → Prop) : State → State → Prop :=
  Relation.ReflTransGen fun s s' => ∃ i, C s i ∧ Step s i s'

/-- The states that such steps reach from a new session. -/
def Reaches (C : State → ℕ → Prop) (handle : JoinHandle) : State → Prop := Steps C (.init handle)

/-! ## One native call -/

/-- The events of `result`. -/
def Joining : List ResultEvent → ResultEvent → Prop :=
  Taking id (fun _ r => joinedResult (some r)) (joinedResult none)

/-- The join handle is taken, and then awaited. -/
theorem result_eq :
    result = Future.takeAndCall id (fun _ r => joinedResult (some r)) (joinedResult none) := by
  simp only [result, Future.takeAndCall, Future.withGuard, Future.replace, Future.lock_bind,
    Future.access_bind, Future.ready_bind, Future.unlock_bind]
  congr
  funext taken
  cases taken with
  | none => rfl
  | some handle => rfl

/-- Every event of `result`. -/
theorem along_result : result.Along Joining [] := by
  rw [result_eq]
  exact along_takeAndCall _ _ _

/-! ## All native calls -/

section Taken

variable {handle : JoinHandle} {w w' : ResultWorld} {i j : ℕ} {r r' : Joined}

/-- The worlds of the native calls of one session. -/
abbrev Runs (handle : JoinHandle) : ResultWorld → Prop := Run (fun _ => result) (some handle)

/-- What a step of a native call was preceded by in the same call. -/
theorem Runs.along (h : Runs handle w) {before after : Log} {e : ResultEvent}
    (hlog : w.log = before ++ (i, e) :: after) : Joining (eventsOf i before) e := by
  obtain ⟨u, u', hrun, rfl, hact⟩ := h.split hlog
  exact hrun.along_act hact along_result

/-- A call that began has taken the handle before. -/
theorem Runs.events_of_began (h : Runs handle w) {before after : Log} {c : JoinHandle}
    (hlog : w.log = before ++ (i, .began c) :: after) :
    eventsOf i before = [.acquired, .accessed (some c) none, .released] := by
  obtain ⟨x, rfl, hevents⟩ := (h.along hlog).2
  exact hevents

/-- A call that finished has begun before. -/
theorem Runs.events_of_finished (h : Runs handle w) {before after : Log} {c : JoinHandle}
    (hlog : w.log = before ++ (i, .finished c r) :: after) :
    eventsOf i before = [.acquired, .accessed (some c) none, .released, .began c] := by
  obtain ⟨x, rfl, hevents⟩ := (h.along hlog).2
  exact hevents

/-- The join handle is in place until one native call takes it. -/
theorem Runs.accessed_cases (h : Runs handle w) :
    (w.value = some handle ∧ ∀ j v v', (j, .accessed v v') ∉ w.log) ∨
      w.value = none ∧ ∃ i, (i, .accessed (some handle) none) ∈ w.log ∧
        ∀ j x v', (j, .accessed (some x) v') ∈ w.log → j = i ∧ x = handle := by
  induction h with
  | init => exact Or.inl ⟨rfl, by simp [World.init]⟩
  | spawn _ _ ih => exact ih
  | @act w w' i e hrun hact ih =>
    have halong := (hrun.along_act hact along_result).2
    obtain ⟨-, -, hallows⟩ := hact
    rw [World.value_after, World.log_after]
    cases e with
    | accessed v v' =>
      -- every access takes what is there and leaves nothing
      obtain ⟨-, rfl⟩ := halong
      right
      refine ⟨rfl, ?_⟩
      obtain ⟨hopen, hnone⟩ | ⟨htaken, j, htook, hunique⟩ := ih
      · obtain rfl : v = some handle := hallows.2.symm.trans hopen
        refine ⟨i, by simp, ?_⟩
        intro j x v' hmem
        rcases List.mem_append.mp hmem with hmem | hmem
        · exact absurd hmem (hnone j _ _)
        · simp only [List.mem_singleton, Prod.mk.injEq, Event.accessed.injEq, Option.some.injEq]
            at hmem
          exact ⟨hmem.1, hmem.2.1⟩
      · obtain rfl : v = none := hallows.2.symm.trans htaken
        refine ⟨j, List.mem_append_left _ htook, ?_⟩
        intro k x v' hmem
        rcases List.mem_append.mp hmem with hmem | hmem
        · exact hunique k x v' hmem
        · simp at hmem
    | acquired | released | began | finished | panicked | returned =>
      simpa [Event.valueAfter] using ih

/-- One call takes the handle. -/
theorem Runs.took_unique (h : Runs handle w) {x y v v'}
    (hi : (i, .accessed (some x) v) ∈ w.log) (hj : (j, .accessed (some y) v') ∈ w.log) :
    j = i ∧ y = x := by
  obtain ⟨-, hnone⟩ | ⟨-, k, -, hunique⟩ := h.accessed_cases
  · exact absurd hi (hnone i _ _)
  · obtain ⟨rfl, rfl⟩ := hunique i x v hi
    exact hunique j y v' hj

/-- Only the native call that has taken the join handle awaits it. -/
theorem Runs.took_of_began (h : Runs handle w) {c : JoinHandle} (hmem : (i, .began c) ∈ w.log) :
    (i, .accessed (some c) none) ∈ w.log := by
  obtain ⟨before, after, hlog⟩ := List.append_of_mem hmem
  rw [hlog]
  refine List.mem_append_left _ (mem_eventsOf.mp ?_)
  simp [h.events_of_began hlog]

/-- What finished had begun. -/
theorem Runs.began_of_finished (h : Runs handle w) {c : JoinHandle}
    (hmem : (i, .finished c r) ∈ w.log) : (i, .began c) ∈ w.log := by
  obtain ⟨before, after, hlog⟩ := List.append_of_mem hmem
  rw [hlog]
  refine List.mem_append_left _ (mem_eventsOf.mp ?_)
  simp [h.events_of_finished hlog]

/-- The create task ends once. -/
theorem Runs.finished_unique (h : Runs handle w) {c d : JoinHandle}
    (hi : (i, .finished c r) ∈ w.log) (hj : (j, .finished d r') ∈ w.log) : j = i ∧ r' = r := by
  obtain ⟨rfl, rfl⟩ := h.took_unique (h.took_of_began (h.began_of_finished hi))
    (h.took_of_began (h.began_of_finished hj))
  refine ⟨rfl, ?_⟩
  -- both events come after the same four events of the call
  obtain ⟨before, after, hlog⟩ := List.append_of_mem hi
  obtain ⟨before', after', hlog'⟩ := List.append_of_mem hj
  have hsame : eventsOf j before ++ .finished d r :: eventsOf j after =
      eventsOf j before' ++ .finished d r' :: eventsOf j after' := by
    rw [← eventsOf_cons_self, ← eventsOf_append, ← hlog, hlog', eventsOf_append,
      eventsOf_cons_self]
  rw [h.events_of_finished hlog, h.events_of_finished hlog'] at hsame
  simp only [List.append_cancel_left_eq, List.cons.injEq, Event.finished.injEq, true_and,
    heq_eq_eq] at hsame
  exact hsame.1.symm

/-- What a native call returns: the outcome of the create task, when it has taken the join handle,
and an error of its own otherwise. -/
theorem Runs.returned_cases (h : Runs handle w) {a : Except RubyError CoreSandbox}
    (hmem : (i, .returned a) ∈ w.log) :
    ((i, .accessed none none) ∈ w.log ∧ a = joinedResult none) ∨
      ∃ r, (i, .finished handle r) ∈ w.log ∧ a = joinedResult (some r) := by
  obtain ⟨before, after, hlog⟩ := List.append_of_mem hmem
  have hsub : ∀ e, e ∈ eventsOf i before → (i, e) ∈ w.log := by
    intro e he
    rw [hlog]
    exact List.mem_append_left _ (mem_eventsOf.mp he)
  obtain ⟨hevents, ha⟩ | ⟨c, r, hevents, ha⟩ := (h.along hlog).2
  · exact Or.inl ⟨hsub _ (by simp [hevents]), ha⟩
  · have htook : (i, .accessed (some c) none) ∈ w.log := hsub _ (by simp [hevents])
    obtain ⟨-, hnone⟩ | ⟨-, k, -, hunique⟩ := h.accessed_cases
    · exact absurd htook (hnone i _ _)
    · obtain ⟨-, rfl⟩ := hunique i c none htook
      exact Or.inr ⟨r, hsub _ (by simp [hevents]), ha⟩

/-- No call awaits the join handle twice, and no two calls await it. -/
theorem Runs.awaits_le_one (h : Runs handle w) : awaits w.log ≤ 1 := by
  induction h with
  | init => simp [awaits, World.init]
  | spawn _ _ ih => exact ih
  | @act w w' i e hrun hact ih =>
    have halong := (hrun.along_act hact along_result).2
    have hrun' : Runs handle _ := hrun.act hact
    obtain ⟨-, -, -⟩ := hact
    rw [World.log_after]
    cases e with
    | began c =>
      have hbefore : eventsOf i w.log = [.acquired, .accessed (some c) none, .released] := by
        obtain ⟨x, rfl, hevents⟩ := halong
        exact hevents
      have hzero : awaits w.log = 0 := by
        refine List.countP_eq_zero.mpr ?_
        rintro ⟨j, e⟩ hmem
        cases e with
        | began d =>
          -- it would be the same call, which has only taken the handle so far
          have htook := hrun'.took_of_began (World.log_after .. ▸ List.mem_append_left _ hmem)
          have htook' : (i, .accessed (some c) none) ∈ w.log := by
            rw [← mem_eventsOf, hbefore]
            simp
          obtain ⟨rfl, rfl⟩ := hrun'.took_unique
            (World.log_after .. ▸ List.mem_append_left _ htook') htook
          rw [← mem_eventsOf, hbefore] at hmem
          simp at hmem
        | _ => simp
      rw [awaits, List.countP_append]
      rw [awaits] at hzero
      simp [hzero]
    | _ => simpa [awaits, List.countP_append] using ih

/-- The handle is awaited once. -/
theorem Runs.awaits_eq_one (h : Runs handle w) {c : JoinHandle}
    (hmem : (i, .finished c r) ∈ w.log) : awaits w.log = 1 := by
  have hpos : 0 < awaits w.log := by
    rw [awaits, List.countP_pos_iff]
    exact ⟨(i, .began c), h.began_of_finished hmem, rfl⟩
  have hle := h.awaits_le_one
  omega

end Taken

end MicrosandboxRb.PullSession
