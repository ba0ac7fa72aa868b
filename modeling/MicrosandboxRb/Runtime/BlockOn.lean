import MicrosandboxRb.Runtime.Nogvl

/-!
# The way into `block_on`

Before the future of a native call is polled, the bound method passes `ForkGuarded::get`, `block_on`
passes `ensure_this_process_backend`, and `nogvl` its interrupt checks (`runtime.rs`). `Entry` is the
position of a call on this way. Other threads, and the Ruby code that an interrupt check runs, can
act between any two of its steps.

## Main results

* `drives_nogvl`: from the first interrupt check on, the steps are those of `nogvl`: they end with
  the future polled when `nogvl` runs its closure, and with the error of `nogvl` otherwise.
-/

namespace MicrosandboxRb

open Nogvl

/-- Where a native call stands before its future is polled. -/
inductive Entry (E : Type) where
  /-- Before `ForkGuarded::get`. -/
  | get
  /-- Before `ensure_this_process_backend`. -/
  | ensureBackend
  /-- Before the first interrupt check. -/
  | check
  /-- Before `rb_thread_call_without_gvl2`, when that many attempts have been declined. -/
  | enter (attempts : ℕ)
  /-- Before the interrupt check that follows a declined attempt. -/
  | recheck (attempts : ℕ)
  | polled
  | failed (e : NogvlError E)
deriving DecidableEq

/-- How one step on the way in goes. -/
inductive Answer (E : Type) where
  | got (r : Except RubyError Unit)
  | ensured (r : Except RubyError Unit)
  | checked (r : Except E Unit)
  | entered (ran : Bool)

namespace Entry

variable {E : Type}

/-- What the entry does with an answer; no other answer is one it waits for. -/
def next : Entry E → Answer E → Option (Entry E)
  | .get, .got (.ok _) => some .ensureBackend
  | .get, .got (.error e) => some (.failed (.own e))
  | .ensureBackend, .ensured (.ok _) => some .check
  | .ensureBackend, .ensured (.error e) => some (.failed (.own e))
  | .check, .checked (.ok _) => some (.enter 0)
  | .check, .checked (.error e) => some (.failed (.interrupt e))
  | .enter _, .entered true => some .polled
  -- a pending interrupt declines the entry
  | .enter attempts, .entered false => some (.recheck attempts)
  -- a check that raises nothing lets the entry be tried again, but not without end
  | .recheck attempts, .checked (.ok _) =>
    if attempts + 1 ≥ MAX_ENTRY_ATTEMPTS then
      some (.failed (.own
        (.baseError "native call could not start: interrupt check did not settle")))
    else some (.enter (attempts + 1))
  | .recheck _, .checked (.error e) => some (.failed (.interrupt e))
  | _, _ => none

/-- The handle is read first, and a stale one ends the call. -/
theorem next_got {en en' : Entry E} {r : Except RubyError Unit} (h : en.next (.got r) = some en') :
    en = .get ∧
      (r = .ok () ∧ en' = .ensureBackend ∨ ∃ e, r = .error e ∧ en' = .failed (.own e)) := by
  cases en <;> cases r <;> simp_all [next]

/-- The backend is ensured next, and its error ends the call. -/
theorem next_ensured {en en' : Entry E} {r : Except RubyError Unit}
    (h : en.next (.ensured r) = some en') :
    en = .ensureBackend ∧
      (r = .ok () ∧ en' = .check ∨ ∃ e, r = .error e ∧ en' = .failed (.own e)) := by
  cases en <;> cases r <;> simp_all [next]

/-- A check lets the call enter, or raises. -/
theorem next_checked {en en' : Entry E} {r : Except E Unit} (h : en.next (.checked r) = some en') :
    (en = .check ∨ ∃ attempts, en = .recheck attempts) ∧
      ((∃ attempts, en' = .enter attempts) ∨ ∃ e, en' = .failed e) := by
  cases en with
  | check =>
    cases r with
    | error e => exact ⟨Or.inl rfl, Or.inr ⟨_, (Option.some.inj h).symm⟩⟩
    | ok u => exact ⟨Or.inl rfl, Or.inl ⟨_, (Option.some.inj h).symm⟩⟩
  | recheck attempts =>
    cases r with
    | error e => exact ⟨Or.inr ⟨attempts, rfl⟩, Or.inr ⟨_, (Option.some.inj h).symm⟩⟩
    | ok u =>
      by_cases hlast : attempts + 1 ≥ MAX_ENTRY_ATTEMPTS
      · rw [next, if_pos hlast] at h
        exact ⟨Or.inr ⟨attempts, rfl⟩, Or.inr ⟨_, (Option.some.inj h).symm⟩⟩
      · rw [next, if_neg hlast] at h
        exact ⟨Or.inr ⟨attempts, rfl⟩, Or.inl ⟨_, (Option.some.inj h).symm⟩⟩
  | get | ensureBackend | enter | polled | failed => cases r <;> cases h

/-- An entry that ran is over, one that was declined is tried again. -/
theorem next_entered {en en' : Entry E} {ran : Bool} (h : en.next (.entered ran) = some en') :
    ∃ attempts, en = .enter attempts ∧ en' = if ran then .polled else .recheck attempts := by
  cases en <;> cases ran <;> simp_all [next]

/-- The steps from one position to another when the VM gives the answers of `nogvl`: the interrupt
checks from number `checks` on, the attempts to enter from number `entries` on. -/
inductive Drives (vm : Vm E) : ℕ → ℕ → Entry E → Entry E → Prop
  | refl {checks entries : ℕ} {en : Entry E} : Drives vm checks entries en en
  | check {checks entries : ℕ} {en en' last : Entry E} :
      en.next (.checked (vm.checkInterrupts checks)) = some en' →
      Drives vm (checks + 1) entries en' last → Drives vm checks entries en last
  | enter {checks entries : ℕ} {en en' last : Entry E} :
      en.next (.entered (vm.runs entries)) = some en' →
      Drives vm checks (entries + 1) en' last → Drives vm checks entries en last

/-- Where the way in ends, from what `nogvl` returns. -/
def ofResult {P σ α : Type} : EStateM.Result (Exit P E) σ α → Entry E
  | .error (.err e) _ => .failed e
  | _ => .polled

end Entry

section Nogvl

variable {R P E : Type} {vm : Vm E} {s : State R P} {f : ThreadResult R P}

/-- An entry is no check. -/
theorem checks_record_entry (ran : Bool) : (s.record [.entry ran]).checks = s.checks := by
  simp [State.checks, State.record]

/-- A declined entry is followed by one check. -/
theorem checks_record_declines : (s.record (declines 1)).checks = s.checks + 1 := by
  simp [State.checks, State.record]

/-- It counts as one entry. -/
theorem entries_record_declines : (s.record (declines 1)).entries = s.entries + 1 := by
  simp [State.entries, State.record]

variable (vm) in
/-- From an attempt `attempts < 64` on. The induction is on the attempts that are left. -/
theorem drives_entryLoop {attempts : ℕ} (hattempts : attempts < MAX_ENTRY_ATTEMPTS)
    (hf : s.f = some f) (hout : s.out = none) :
    Entry.Drives vm s.checks s.entries (.enter attempts)
      (.ofResult ((entryLoop vm attempts).run s)) := by
  induction hn : MAX_ENTRY_ATTEMPTS - attempts generalizing attempts s with
  | zero => omega
  | succ n ih =>
    -- the induction is on the attempts that are left
    rw [run_entryLoop_step attempts hf hout, checks_record_entry]
    by_cases hruns : vm.runs s.entries
    · have hnext : Entry.next (.enter attempts) (.entered (vm.runs s.entries)) =
          some (.polled : Entry E) := by
        rw [hruns]
        rfl
      refine .enter hnext ?_
      rw [if_pos hruns]
      exact .refl
    · have hnext : Entry.next (.enter attempts) (.entered (vm.runs s.entries)) =
          some (.recheck attempts : Entry E) := by
        simp [Entry.next, hruns]
      refine .enter hnext ?_
      rw [if_neg hruns]
      cases hcheck : vm.checkInterrupts s.checks with
      | error e => exact .check (by rw [hcheck]; rfl) .refl
      | ok u =>
        -- a declined entry is checked, and tried again while attempts are left
        by_cases hlast : attempts + 1 ≥ MAX_ENTRY_ATTEMPTS
        · refine .check (by rw [hcheck]; exact if_pos hlast) ?_
          simp only [hlast, if_true]
          exact .refl
        · refine .check (by rw [hcheck]; exact if_neg hlast) ?_
          simp only [hlast, if_false]
          have hrest := ih (Nat.lt_of_not_le hlast) (s := s.record (declines 1)) hf hout (by omega)
          rwa [checks_record_declines, entries_record_declines] at hrest

/-- The steps on the way in from the first interrupt check are those of `nogvl`. -/
theorem drives_nogvl (vm : Vm E) (f : ThreadResult R P) :
    Entry.Drives vm 0 0 .check (.ofResult ((nogvl vm).run (State.start f))) := by
  have hfirst : (checkInterrupts vm).run (State.start f) = _ := run_checkInterrupts
  have hzero : (State.start f : State R P).checks = 0 := rfl
  rw [nogvl, EStateM.run_bind, hfirst, hzero]
  cases hcheck : vm.checkInterrupts 0 with
  | error e => exact .check (by rw [hcheck]; rfl) .refl
  | ok u =>
    refine .check (by rw [hcheck]; rfl) ?_
    have hloop := drives_entryLoop vm (show 0 < MAX_ENTRY_ATTEMPTS by decide)
      (show ((State.start f : State R P).record [.check]).f = some f from rfl) rfl
    -- the loop decides: `nogvl` only hands on what it left
    obtain ⟨k, ⟨-, hrun⟩ | ⟨-, e, hrun⟩⟩ := run_entryLoop vm (show 0 < MAX_ENTRY_ATTEMPTS by decide)
      (show ((State.start f : State R P).record [.check]).f = some f from rfl) rfl
    · rw [hrun] at hloop
      simp only [EStateM.run_bind, hrun]
      cases f <;> exact hloop
    · rw [hrun] at hloop
      simp only [EStateM.run_bind, hrun]
      exact hloop

end Nogvl

end MicrosandboxRb
