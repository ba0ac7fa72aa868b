import MicrosandboxRb.Error
import MicrosandboxRb.Lib.StateError

/-!
# Calls without the GVL

`nogvl` (`runtime.rs`) runs a closure with the GVL released, between interrupt checks that can leave
by an exception. What the VM does is given by two sequences: the answers to the interrupt checks, and
whether each `rb_thread_call_without_gvl2` runs its callback or declines to. That function never
jumps, and a protected check returns.

## Main results

* `run_entryLoop`: the loop declines, and checks, up to the attempt that runs the closure or to the
  error that it ends with;
* `nogvl_runs_at_most_once`: the closure runs at most once, its result is never lost, and the loop is
  bounded.
-/

namespace MicrosandboxRb.Nogvl

/-- What running a closure gives: `std::thread::Result`. -/
inductive ThreadResult (R P : Type) where
  | value (r : R)
  | panic (payload : P)
deriving DecidableEq

/-- The error `nogvl` returns: what an interrupt check raised, or an error of its own. -/
inductive NogvlError (E : Type) where
  | interrupt (e : E)
  | own (e : RubyError)
deriving DecidableEq

/-- The ways out of `nogvl` other than a returned value. -/
inductive Exit (P E : Type) where
  | err (e : NogvlError E)
  /-- `resume_unwind`. -/
  | unwind (payload : P)
  /-- A panic of the callback in its C frame. -/
  | abort (message : String)
deriving DecidableEq

/-- What a call of `nogvl` has done. -/
inductive Event where
  | check
  /-- `rb_thread_call_without_gvl2`, which ran the callback or declined. -/
  | entry (ran : Bool)
  | called
deriving DecidableEq

/-- How the VM answers. -/
structure Vm (E : Type) where
  checkInterrupts : ℕ → Except E Unit
  runs : ℕ → Bool

/-- The closure with its result slot, and what has happened. -/
structure State (R P : Type) where
  -- the closure, given by the result of running it
  f : Option (ThreadResult R P)
  out : Option (ThreadResult R P)
  events : List Event

namespace State

variable {R P : Type}

/-- What was done is appended. -/
def record (s : State R P) (es : List Event) : State R P := { s with events := s.events ++ es }

@[simp] theorem f_record (s : State R P) (es : List Event) : (s.record es).f = s.f := rfl

@[simp] theorem out_record (s : State R P) (es : List Event) : (s.record es).out = s.out := rfl

@[simp] theorem record_record (s : State R P) (es es' : List Event) :
    (s.record es).record es' = s.record (es ++ es') := by
  simp [record]

/-- How often interrupts were checked. -/
def checks (s : State R P) : ℕ := s.events.countP (· == .check)

/-- How often the VM was entered. -/
def entries (s : State R P) : ℕ := s.events.countP fun e => e == .entry true || e == .entry false

/-- How often the closure was called. -/
def calls (s : State R P) : ℕ := s.events.countP (· == .called)

/-- A call of `nogvl` with a closure. -/
def start (f : ThreadResult R P) : State R P := { f := some f, out := none, events := [] }

end State

section Bridge

variable {R P E : Type}

/-- `MAX_ENTRY_ATTEMPTS`. -/
def MAX_ENTRY_ATTEMPTS : ℕ := 64

/-- Let Ruby deliver pending interrupts. -/
def checkInterrupts (vm : Vm E) : EStateM (Exit P E) (State R P) Unit := do
  let s ← get
  set (s.record [.check])
  match vm.checkInterrupts s.checks with
  | .ok _ => pure ()
  | .error e => throw (.err (.interrupt e))

/-- The callback: takes the closure, runs it and stores its result. -/
def call : EStateM (Exit P E) (State R P) Unit := do
  match (← get).f with
  | none => throw (.abort "nogvl callback invoked twice")
  | some f => modify fun s => { s.record [.called] with f := none, out := some f }

/-- `rb_thread_call_without_gvl2` on the callback. -/
def callWithoutGvl2 (vm : Vm E) : EStateM (Exit P E) (State R P) Unit := do
  let s ← get
  set (s.record [.entry (vm.runs s.entries)])
  if vm.runs s.entries then call else pure ()

/-- Enter until the callback has run. -/
def entryLoop (vm : Vm E) (attempts : ℕ) : EStateM (Exit P E) (State R P) Unit := do
  callWithoutGvl2 vm
  if (← get).out.isSome then
    pure ()
  else
    checkInterrupts vm
    if attempts + 1 ≥ MAX_ENTRY_ATTEMPTS then
      throw (.err (.own
        (.baseError "native call could not start: interrupt check did not settle")))
    else
      entryLoop vm (attempts + 1)
termination_by MAX_ENTRY_ATTEMPTS - attempts

/-- Run a closure with the GVL released. -/
def nogvl (vm : Vm E) : EStateM (Exit P E) (State R P) R := do
  checkInterrupts vm
  entryLoop vm 0
  match (← get).out with
  | some (.value r) => pure r
  | some (.panic payload) => throw (.unwind payload)
  | none => throw (.err (.own (.baseError "native call did not run")))

end Bridge

/-! ## The loop -/

section Loop

variable {R P E : Type} {vm : Vm E} {s : State R P} {f : ThreadResult R P}

/-- The events of `k` attempts that the VM declined. -/
def declines (k : ℕ) : List Event := (List.replicate k [Event.entry false, Event.check]).flatten

/-- One more declined entry, seen from the front. -/
theorem declines_succ (k : ℕ) : declines (k + 1) = .entry false :: .check :: declines k := by
  rw [declines, List.replicate_succ, List.flatten_cons]
  rfl

/-- A check raises what the VM raises, and is recorded either way. -/
theorem run_checkInterrupts :
    (checkInterrupts vm).run s =
      match vm.checkInterrupts s.checks with
      | .ok _ => .ok () (s.record [.check])
      | .error e => .error (.err (.interrupt e)) (s.record [.check]) := by
  cases h : vm.checkInterrupts s.checks <;> simp [checkInterrupts, h]

/-- An entry runs the closure if the VM lets it, and is recorded either way. -/
theorem run_callWithoutGvl2 (hf : s.f = some f) :
    (callWithoutGvl2 vm).run s = .ok () (if vm.runs s.entries
      then { s.record [.entry true, .called] with f := none, out := some f }
      else s.record [.entry false]) := by
  by_cases h : vm.runs s.entries
  · simp [callWithoutGvl2, call, h, State.record, hf]
  · simp [callWithoutGvl2, h]

/-- One attempt. -/
theorem run_entryLoop_step (attempts : ℕ) (hf : s.f = some f) (hout : s.out = none) :
    (entryLoop vm attempts).run s =
      if vm.runs s.entries then
        .ok () { s.record [.entry true, .called] with f := none, out := some f }
      else
        match vm.checkInterrupts (s.record [.entry false]).checks with
        | .error e => .error (.err (.interrupt e)) (s.record (declines 1))
        | .ok _ =>
          if attempts + 1 ≥ MAX_ENTRY_ATTEMPTS then
            .error (.err (.own
              (.baseError "native call could not start: interrupt check did not settle")))
              (s.record (declines 1))
          else (entryLoop vm (attempts + 1)).run (s.record (declines 1)) := by
  have hdeclines : declines 1 = [.entry false, .check] := rfl
  rw [entryLoop, EStateM.run_bind, run_callWithoutGvl2 hf, hdeclines]
  by_cases hruns : vm.runs s.entries
  · simp [hruns]
  · cases hcheck : vm.checkInterrupts (s.record [.entry false]).checks with
    | error e => simp [hruns, run_checkInterrupts, hcheck, hout]
    | ok u =>
      by_cases hlast : MAX_ENTRY_ATTEMPTS ≤ attempts + 1
      · simp [hruns, run_checkInterrupts, hcheck, hout, hlast]
      · simp [hruns, run_checkInterrupts, hcheck, hout, hlast]

variable (vm) in
/-- From an attempt `attempts < 64` on, with the closure not taken: after `k` attempts that the VM
declined, each followed by a check, the loop ends with the closure run, or with an error. -/
theorem run_entryLoop {attempts : ℕ} (hattempts : attempts < MAX_ENTRY_ATTEMPTS)
    (hf : s.f = some f) (hout : s.out = none) :
    ∃ k, (k + attempts < MAX_ENTRY_ATTEMPTS ∧
        (entryLoop vm attempts).run s =
          .ok () { s.record (declines k ++ [.entry true, .called]) with
            f := none, out := some f }) ∨
      (k + attempts ≤ MAX_ENTRY_ATTEMPTS ∧ ∃ e,
        (entryLoop vm attempts).run s = .error (.err e) (s.record (declines k))) := by
  induction hn : MAX_ENTRY_ATTEMPTS - attempts generalizing attempts s with
  | zero => omega
  | succ n ih =>
    -- the induction is on the attempts that are left
    rw [run_entryLoop_step attempts hf hout]
    by_cases hruns : vm.runs s.entries
    · exact ⟨0, Or.inl ⟨by omega, by simp [hruns, declines]⟩⟩
    · cases hcheck : vm.checkInterrupts (s.record [.entry false]).checks with
      | error e => exact ⟨1, Or.inr ⟨by omega, .interrupt e, by simp [hruns]⟩⟩
      | ok u =>
        by_cases hlast : attempts + 1 ≥ MAX_ENTRY_ATTEMPTS
        · exact ⟨1, Or.inr ⟨by omega, .own
            (.baseError "native call could not start: interrupt check did not settle"),
            by simp [hruns, hlast]⟩⟩
        · -- the next attempt starts after the events of this one
          have hadd : ∀ k es, declines 1 ++ (declines k ++ es) = declines (k + 1) ++ es := by
            intro k es
            rw [declines_succ, declines_succ]
            rfl
          obtain ⟨k, ⟨hk, hrun⟩ | ⟨hk, e, hrun⟩⟩ :=
            ih (Nat.lt_of_not_le hlast) (s := s.record (declines 1)) hf hout (by omega)
          · refine ⟨k + 1, Or.inl ⟨by omega, ?_⟩⟩
            simp [hruns, hlast, hrun, hadd]
          · refine ⟨k + 1, Or.inr ⟨by omega, e, ?_⟩⟩
            have hadd' := hadd k []
            simp only [List.append_nil] at hadd'
            simp [hruns, hlast, hrun, hadd']

end Loop

/-! ## The bridge -/

section Results

variable {R P E : Type}

/-- A declined entry does not call the closure. -/
@[simp] theorem calls_declines (k : ℕ) : (declines k).countP (· == .called) = 0 := by
  induction k with
  | zero => rfl
  | succ k ih => rw [declines_succ, List.countP_cons, List.countP_cons, ih]; rfl

/-- Each is followed by a check. -/
@[simp] theorem checks_declines (k : ℕ) : (declines k).countP (· == .check) = k := by
  induction k with
  | zero => rfl
  | succ k ih => rw [declines_succ, List.countP_cons, List.countP_cons, ih]; rfl

/-- Each is an entry. -/
@[simp] theorem entries_declines (k : ℕ) :
    (declines k).countP (fun e => e == .entry true || e == .entry false) = k := by
  induction k with
  | zero => rfl
  | succ k ih => rw [declines_succ, List.countP_cons, List.countP_cons, ih]; rfl

/-- No call is among them. -/
theorem called_not_mem_declines (k : ℕ) : Event.called ∉ declines k := by
  have hcount := calls_declines k
  rw [List.countP_eq_zero] at hcount
  intro hmem
  exact hcount _ hmem rfl

/-- `nogvl` ends in the state `s` with the result of the closure: it returns the value, or resumes
the panic. -/
def ThreadResult.handedOn (f : ThreadResult R P) (s : State R P) :
    EStateM.Result (Exit P E) (State R P) R :=
  match f with
  | .value r => .ok r s
  | .panic payload => .error (.unwind payload) s

/-- A call of `nogvl` either runs the closure after `k < 64` declined attempts, and hands on what it
gave, or fails after `k ≤ 64` of them, and never runs it. -/
theorem run_nogvl (vm : Vm E) (f : ThreadResult R P) :
    (∃ k s, k < MAX_ENTRY_ATTEMPTS ∧ s.events = .check :: (declines k ++ [.entry true, .called]) ∧
      (nogvl vm).run (State.start f) = f.handedOn s) ∨
    ∃ k s e, k ≤ MAX_ENTRY_ATTEMPTS ∧ s.events = .check :: declines k ∧
      (nogvl vm).run (State.start f) = .error (.err e) s := by
  have hfirst : (checkInterrupts vm).run (State.start f) = _ := run_checkInterrupts
  cases hcheck : vm.checkInterrupts (State.start f).checks with
  | error e =>
    refine Or.inr ⟨0, (State.start f).record [.check], .interrupt e, Nat.zero_le _, rfl, ?_⟩
    rw [nogvl, EStateM.run_bind, hfirst, hcheck]
  | ok u =>
    have hloop := run_entryLoop vm (show 0 < MAX_ENTRY_ATTEMPTS by decide)
      (show ((State.start f : State R P).record [.check]).f = some f from rfl) rfl
    obtain ⟨k, ⟨hk, hrun⟩ | ⟨hk, e, hrun⟩⟩ := hloop
    · refine Or.inl ⟨k, { (State.start f).record (.check :: (declines k ++ [.entry true, .called]))
        with f := none, out := some f }, hk, rfl, ?_⟩
      rw [nogvl, EStateM.run_bind, hfirst, hcheck]
      simp only [EStateM.run_bind, hrun]
      cases f <;> rfl
    · refine Or.inr ⟨k, (State.start f).record (.check :: declines k), e, hk, rfl, ?_⟩
      rw [nogvl, EStateM.run_bind, hfirst, hcheck]
      simp only [EStateM.run_bind, hrun]
      rfl

/-- For every closure and every behaviour of the VM: `nogvl` runs the closure at most once, returns
an error exactly when it did not run it, and otherwise hands on exactly what the closure gave; it
checks no interrupts after the closure has run, tries to enter at most 64 times and checks
interrupts at most 65 times. -/
theorem nogvl_runs_at_most_once (vm : Vm E) (f : ThreadResult R P) :
    let r := (nogvl vm).run (State.start f)
    r.state.calls ≤ 1 ∧
    ((∃ e s, r = .error (.err e) s) ↔ r.state.calls = 0) ∧
    (r.state.calls ≠ 0 → r = f.handedOn r.state) ∧
    (∀ before after, r.state.events = before ++ .called :: after → .check ∉ after) ∧
    r.state.entries ≤ MAX_ENTRY_ATTEMPTS ∧ r.state.checks ≤ MAX_ENTRY_ATTEMPTS + 1 := by
  intro r
  -- either the closure ran in the end, or a check raised before it could
  rcases run_nogvl vm f with ⟨k, s, hk, hevents, hrun⟩ | ⟨k, s, e, hk, hevents, hrun⟩
  · have hr : r = f.handedOn s := hrun
    have hstate : r.state = s := by
      rw [hr]
      cases f <;> rfl
    have hcalls : s.calls = 1 := by
      simp [State.calls, hevents]
    refine ⟨?_, ⟨?_, ?_⟩, ?_, ?_, ?_, ?_⟩
    · rw [hstate, hcalls]
    · rintro ⟨e, s', herr⟩
      rw [hr] at herr
      cases f <;> cases herr
    · intro hzero
      rw [hstate, hcalls] at hzero
      cases hzero
    · intro _
      rw [hstate]
      exact hr
    · intro before after hsplit
      -- the call is the last event
      rw [hstate, hevents] at hsplit
      rcases List.eq_nil_or_concat after with rfl | ⟨init, x, rfl⟩
      · exact List.not_mem_nil
      · exfalso
        have hsplit' : (.check :: declines k ++ [.entry true]) ++ [.called] =
            (before ++ .called :: init) ++ [x] := by
          simpa using hsplit
        have hmem : Event.called ∈ Event.check :: declines k ++ [.entry true] := by
          rw [List.append_inj_left' hsplit' rfl]
          exact List.mem_append_right _ List.mem_cons_self
        simp [called_not_mem_declines k] at hmem
    · rw [hstate, State.entries, hevents]
      simp
      omega
    · rw [hstate, State.checks, hevents]
      simp
      omega
  · have hr : r = .error (.err e) s := hrun
    have hstate : r.state = s := by
      rw [hr]
      rfl
    -- the closure was not called
    have hcalls : s.calls = 0 := by
      simp [State.calls, hevents]
    refine ⟨?_, ⟨?_, ?_⟩, ?_, ?_, ?_, ?_⟩
    · rw [hstate, hcalls]
      exact Nat.zero_le 1
    · intro _
      rw [hstate, hcalls]
    · intro _
      exact ⟨e, s, hr⟩
    · intro hne
      rw [hstate, hcalls] at hne
      exact absurd rfl hne
    · intro before after hsplit
      rw [hstate, hevents] at hsplit
      have hmem : .called ∈ Event.check :: declines k := by
        rw [hsplit]
        exact List.mem_append_right _ List.mem_cons_self
      rcases List.mem_cons.mp hmem with h | h
      · cases h
      · exact absurd h (called_not_mem_declines k)
    · rw [hstate, State.entries, hevents]
      simp
      omega
    · rw [hstate, State.checks, hevents]
      simp
      omega

end Results

end MicrosandboxRb.Nogvl
