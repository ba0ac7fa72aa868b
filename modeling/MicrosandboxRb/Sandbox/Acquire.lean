import Mathlib.Logic.Relation
import MicrosandboxRb.Runtime.BlockOn

/-!
# Acquiring a sandbox under interrupts

`Sandbox.acquire` (`sandbox.rb`) makes one native call under
`Thread.handle_interrupt(Object => :never)`, wraps its result with normal interrupt handling, and
stops the sandbox again when control leaves before the wrapper is handed off. `create`,
`connect_or_create`, `start` and `PullSession#sandbox` pass it nothing but their native call.

One `Thread#raise` or `Thread#kill` arrives at some moment, and is delivered at a later checkpoint of
the VM, or not at all while the caller masks it: any step outside a mask can be a checkpoint. A
native call delivers nothing once its future is polled. The thread stays in the process that created
the sandbox.

## Main definitions

* `Pc.interrupted`: where an interrupt takes the method;
* `State.next`: the method, step by step;
* `Reaches`: the states of its runs.

## Main results

* `Reaches.inv`: what holds in every run;
* `kept`: when the sandbox is stopped, and what propagates;
* `exists_not_stopped`: an interrupt that is delivered in the cleanup keeps it from stopping the
  sandbox.
-/

namespace MicrosandboxRb.Acquire

variable {E : Type}

/-- A `Thread#raise`, with its exception, or a `Thread#kill`. -/
inductive Interrupt (E : Type) where
  | raise (e : Exc E)
  | kill
deriving DecidableEq

/-- What can leave the method other than its result. -/
inductive Thrown (E : Type) where
  | interrupt (i : Interrupt E)
  /-- Raised by the native call. -/
  | native (e : RubyError)
  /-- Raised by `initialize`. -/
  | own (e : Exc E)
  /-- Raised by the cleanup. -/
  | cleanup (e : RubyError)
deriving DecidableEq

/-- Whether a `rescue Microsandbox::Error` catches it. -/
def Thrown.rescued : Thrown E → Bool
  | .interrupt (.raise (.microsandbox _)) | .native _ | .own (.microsandbox _) | .cleanup _ => true
  | .interrupt (.raise (.other _)) | .interrupt .kill | .own (.other _) => false

/-- A `Native::Sandbox`. -/
structure Native where
  id : ℕ
  ownsLifecycle : Bool
deriving DecidableEq

/-- Where the method stands. `leaving` is what leaves it when its `ensure` is done. -/
inductive Pc (E : Type) where
  /-- Before the mask. -/
  | start
  /-- On the way into the native call. -/
  | entering (en : Entry (Interrupt E))
  | calling
  /-- The native call has returned; its result is not assigned yet. -/
  | assign (native : Native)
  /-- At the end of the mask. -/
  | unmask
  /-- Before `new`. -/
  | construct
  /-- Inside `initialize`, which an interrupt may have been delivered to. -/
  | constructing (delivered : Option (Interrupt E))
  /-- Before `handed_off = true`. -/
  | handOff
  /-- At the `ensure`. -/
  | ensure (leaving : Option (Thrown E))
  /-- Before `native.owns_lifecycle`. -/
  | askOwner (leaving : Option (Thrown E))
  /-- Before `native.stop`. -/
  | stop (leaving : Option (Thrown E))
  /-- On the way into the native stop. -/
  | stopping (leaving : Option (Thrown E)) (en : Entry (Interrupt E))
  | stopCalling (leaving : Option (Thrown E))
  /-- At the end of the `ensure`. -/
  | leave (leaving : Option (Thrown E))
  | ended (leaving : Option (Thrown E))

/-- An exception in the inner `begin` of the cleanup. -/
def Pc.rescue (leaving : Option (Thrown E)) (thrown : Thrown E) : Pc E :=
  if thrown.rescued then .leave leaving else .ended (some thrown)

/-- Where the delivery of an interrupt takes the method. -/
def Pc.interrupted (i : Interrupt E) : Pc E → Option (Pc E)
  | .start | .assign _ | .unmask | .construct | .handOff => some (.ensure (some (.interrupt i)))
  | .entering en =>
    (en.next (.checked (.error i))).map fun _ => .ensure (some (.interrupt i))
  -- `initialize` may rescue it
  | .constructing _ => some (.constructing (some i))
  | .ensure _ | .leave _ => some (.ended (some (.interrupt i)))
  | .askOwner leaving | .stop leaving => some (.rescue leaving (.interrupt i))
  | .stopping leaving en =>
    (en.next (.checked (.error i))).map fun _ => .rescue leaving (.interrupt i)
  | .calling | .stopCalling _ | .ended _ => none

/-- The cleanup has begun, and has not called the native stop. -/
def Pc.BeforeStop : Pc E → Prop
  | .ensure _ | .askOwner _ | .stop _ => True
  | _ => False

instance (pc : Pc E) : Decidable pc.BeforeStop := by
  unfold Pc.BeforeStop
  split <;> infer_instance

/-- The locals of the method, its thread's interrupt, and what has happened. -/
structure State (E : Type) where
  pc : Pc E
  native : Option Native
  handedOff : Bool
  masked : Bool
  /-- The interrupt that has arrived, and whether it is still queued. -/
  arrived : Option (Interrupt E)
  queued : Bool
  /-- The exception `initialize` has raised. -/
  own : Option (Exc E)
  /-- An interrupt was delivered in the cleanup before it called the native stop. -/
  cut : Bool
  /-- How often `native.stop` has been called. -/
  stops : ℕ

namespace State

/-- Before the call. -/
def init : State E where
  pc := .start
  native := none
  handedOff := false
  masked := false
  arrived := none
  queued := false
  own := none
  cut := false
  stops := 0

end State

/-- How a step goes. -/
inductive Input (E : Type) where
  | go
  /-- The thread's one interrupt is queued. -/
  | arrive (i : Interrupt E)
  /-- The queued interrupt is delivered. -/
  | deliver
  /-- A step on the way into a native call that delivers nothing. -/
  | way (a : Answer (Interrupt E))
  /-- The native call returns. -/
  | acquired (r : Except RubyError Native)
  /-- `initialize` returns, raises, or leaves with the interrupt it was delivered. -/
  | finish
  | raise (e : Exc E)
  | propagate
  /-- The native stop returns. -/
  | stopped (r : Except RubyError Unit)

/-- The way into a native call, when no interrupt is delivered on it. -/
def quietNext (en : Entry (Interrupt E)) : Answer (Interrupt E) → Option (Entry (Interrupt E))
  | .checked (.error _) => none
  | a => en.next a

/-- The interrupt is delivered, and takes the method to `pc`. -/
def State.deliver (s : State E) (pc : Pc E) : State E :=
  { s with
    pc
    queued := false
    cut := s.cut || (s.native.isSome && !s.handedOff && decide s.pc.BeforeStop) }

/-- The next step of the method, or of its thread's interrupt. -/
def State.next (s : State E) : Input E → Option (State E)
  | .arrive i =>
    if s.arrived.isNone && !s.handedOff then some { s with arrived := some i, queued := true }
    else none
  | .deliver =>
    match s.arrived with
    | some i =>
      if s.queued && !s.masked then (s.pc.interrupted i).map s.deliver else none
    | none => none
  | .way a =>
    match s.pc with
    | .entering en =>
      match quietNext en a with
      | some .polled => some { s with pc := .calling }
      | some (.failed (.own e)) =>
        some { s with pc := .ensure (some (.native e)), masked := false }
      | some en' => some { s with pc := .entering en' }
      | none => none
    | .stopping leaving en =>
      match quietNext en a with
      | some .polled => some { s with pc := .stopCalling leaving }
      | some (.failed (.own e)) => some { s with pc := .rescue leaving (.cleanup e) }
      | some en' => some { s with pc := .stopping leaving en' }
      | none => none
    | _ => none
  | .acquired r =>
    match s.pc, r with
    | .calling, .ok native => some { s with pc := .assign native }
    | .calling, .error e => some { s with pc := .ensure (some (.native e)), masked := false }
    | _, _ => none
  | .finish =>
    match s.pc with
    | .constructing _ => some { s with pc := .handOff }
    | _ => none
  | .raise e =>
    match s.pc with
    | .constructing _ => some { s with pc := .ensure (some (.own e)), own := some e }
    | _ => none
  | .propagate =>
    match s.pc with
    | .constructing (some i) => some { s with pc := .ensure (some (.interrupt i)) }
    | _ => none
  | .stopped r =>
    match s.pc, r with
    | .stopCalling leaving, .ok _ => some { s with pc := .leave leaving }
    | .stopCalling leaving, .error e => some { s with pc := .rescue leaving (.cleanup e) }
    | _, _ => none
  | .go =>
    match s.pc with
    | .start => some { s with pc := .entering .get, masked := true }
    | .assign native => some { s with pc := .unmask, native := some native }
    | .unmask => some { s with pc := .construct, masked := false }
    | .construct => some { s with pc := .constructing none }
    -- `initialize` takes a step
    | .constructing delivered => some { s with pc := .constructing delivered }
    | .handOff => some { s with pc := .ensure none, handedOff := true }
    | .ensure leaving =>
      if s.native.isSome && !s.handedOff then some { s with pc := .askOwner leaving }
      else some { s with pc := .leave leaving }
    | .askOwner leaving =>
      match s.native with
      | some native =>
        if native.ownsLifecycle then some { s with pc := .stop leaving }
        else some { s with pc := .leave leaving }
      | none => none
    | .stop leaving => some { s with pc := .stopping leaving .get, stops := s.stops + 1 }
    | .leave leaving => some { s with pc := .ended leaving }
    | .entering _ | .calling | .stopping _ _ | .stopCalling _ | .ended _ => none

/-- The states of the runs of the method. -/
def Reaches (s : State E) : Prop :=
  Relation.ReflTransGen (fun s s' : State E => ∃ input, s.next input = some s') .init s

/-! ## The invariant -/

namespace State

/-- Interrupt `i` has been delivered. -/
def Delivered (s : State E) (i : Interrupt E) : Prop := s.arrived = some i ∧ s.queued = false

/-- Nothing has been handed off, stopped, or kept from being stopped. -/
def Calm (s : State E) : Prop := s.handedOff = false ∧ s.stops = 0 ∧ s.cut = false

/-- What leaves the method is its interrupt, or the exception of `initialize`. -/
def Cause (s : State E) (thrown : Thrown E) : Prop :=
  (∃ i, thrown = .interrupt i ∧ s.Delivered i) ∨ ∃ e, thrown = .own e ∧ s.own = some e

/-- Why control is in the `ensure`. -/
def Leaving (s : State E) : Option (Thrown E) → Prop
  | none => s.handedOff = true
  | some thrown => s.handedOff = false ∧ (s.native ≠ none → s.Cause thrown)

/-- How often the cleanup is to call the native stop. -/
def due (s : State E) : ℕ :=
  match s.native with
  | some native => if native.ownsLifecycle && !s.handedOff && !s.cut then 1 else 0
  | none => 0

/-- The cleanup is done with the sandbox. -/
def Settled (s : State E) : Prop := s.stops = s.due ∧ (s.cut = true → s.own ≠ none)

/-- The cleanup is going to stop the sandbox, or has called its stop. -/
def Owned (s : State E) : Prop :=
  s.handedOff = false ∧ s.cut = false ∧
    ∃ native, s.native = some native ∧ native.ownsLifecycle = true

/-- What holds where the method stands. -/
def Inv (s : State E) : Prop :=
  match s.pc with
  | .start => s.native = none ∧ s.Calm
  | .entering _ | .calling | .assign _ => s.masked = true ∧ s.native = none ∧ s.Calm
  | .unmask => s.masked = true ∧ s.native ≠ none ∧ s.Calm
  | .construct | .handOff => s.native ≠ none ∧ s.Calm
  | .constructing delivered => s.native ≠ none ∧ s.Calm ∧ ∀ i, delivered = some i → s.Delivered i
  | .ensure leaving => s.stops = 0 ∧ s.cut = false ∧ s.Leaving leaving
  | .askOwner leaving => s.native ≠ none ∧ s.Calm ∧ s.Leaving leaving
  | .stop leaving => s.stops = 0 ∧ s.Owned ∧ s.Leaving leaving
  | .stopping leaving _ | .stopCalling leaving => s.stops = 1 ∧ s.Owned ∧ s.Leaving leaving
  | .leave leaving => s.Settled ∧ s.Leaving leaving
  | .ended none => s.Settled ∧ s.handedOff = true
  | .ended (some thrown) =>
    s.Settled ∧ (s.native ≠ none → s.handedOff = false → s.Cause thrown)

end State

section Step

variable {s s' : State E} {i : Interrupt E} {thrown : Thrown E} {leaving : Option (Thrown E)}

/-- It holds before the call. -/
theorem inv_init : (State.init : State E).Inv := ⟨rfl, rfl, rfl, rfl⟩

/-- Nothing is to be stopped. -/
theorem settled_of_not_due (hstops : s.stops = 0) (hcut : s.cut = true → s.own ≠ none)
    (hdue : ∀ native, s.native = some native → native.ownsLifecycle = true → s.cut = false →
      s.handedOff = true) : s.Settled := by
  refine ⟨?_, hcut⟩
  rw [hstops, State.due]
  cases hnative : s.native with
  | none => rfl
  | some native =>
    cases howns : native.ownsLifecycle <;> cases hcut : s.cut <;> simp [howns]
    exact hdue native hnative howns hcut

/-- A sandbox that was stopped once is settled. -/
theorem settled_of_owned (hstops : s.stops = 1) (howned : s.Owned) : s.Settled := by
  obtain ⟨hhanded, hcut, native, hnative, howns⟩ := howned
  exact ⟨by simp [State.due, hstops, hnative, howns, hhanded, hcut], by simp [hcut]⟩

/-- While no interrupt has been delivered, what leaves is the exception of `initialize`. -/
theorem own_of_cause (h : s.Cause thrown) (hnot : ∀ i, ¬ s.Delivered i) :
    ∃ e, thrown = .own e ∧ s.own = some e := by
  rcases h with ⟨i, -, hdelivered⟩ | hown
  · exact absurd hdelivered (hnot i)
  · exact hown

/-- An exception in the inner `begin` of the cleanup, which is swallowed or takes the place of what
was leaving. -/
theorem inv_rescue {s : State E} (hpc : s.pc = .rescue leaving thrown) (hsettled : s.Settled)
    (hleaving : s.Leaving leaving) (hcause : thrown.rescued = false → s.Cause thrown) : s.Inv := by
  rw [Pc.rescue] at hpc
  cases hrescued : thrown.rescued with
  | true =>
    rw [hrescued, if_pos rfl] at hpc
    rw [State.Inv, hpc]
    exact ⟨hsettled, hleaving⟩
  | false =>
    rw [hrescued, if_neg (by simp)] at hpc
    rw [State.Inv, hpc]
    exact ⟨hsettled, fun _ _ => hcause hrescued⟩

/-- A failure of the cleanup does not leave it. -/
theorem inv_rescue_cleanup {s : State E} (e : RubyError) (hpc : s.pc = .rescue leaving (.cleanup e))
    (hsettled : s.Settled) (hleaving : s.Leaving leaving) : s.Inv := by
  refine inv_rescue hpc hsettled hleaving ?_
  intro hnot
  cases hnot

/-- An interrupt that arrives keeps it. -/
theorem inv_arrive (h : s.Inv) (hnone : s.arrived = none) :
    ({ s with arrived := some i, queued := true } : State E).Inv := by
  have hnot : ∀ j, ¬ s.Delivered j := by
    rintro j ⟨harrived, -⟩
    rw [hnone] at harrived
    cases harrived
  -- an interrupt that has just arrived has not been delivered, so the causes stay
  have hcause : ∀ {t}, s.Cause t → Or (∃ j, t = .interrupt j ∧
      State.Delivered { s with arrived := some i, queued := true } j)
      (∃ e, t = .own e ∧ s.own = some e) := fun ht => Or.inr (own_of_cause ht hnot)
  have hleaving : ∀ {o}, s.Leaving o →
      State.Leaving { s with arrived := some i, queued := true } o := by
    intro o ho
    cases o with
    | none => exact ho
    | some t => exact ⟨ho.1, fun hnative => hcause (ho.2 hnative)⟩
  unfold State.Inv at h ⊢
  cases hpc : s.pc with
  | constructing delivered =>
    rw [hpc] at h
    exact ⟨h.1, h.2.1, fun j hj => absurd (h.2.2 j hj) (hnot j)⟩
  | ensure leaving | askOwner leaving | stop leaving | stopping leaving | stopCalling leaving =>
    rw [hpc] at h
    exact ⟨h.1, h.2.1, hleaving h.2.2⟩
  | leave leaving =>
    rw [hpc] at h
    exact ⟨h.1, hleaving h.2⟩
  | ended leaving =>
    rw [hpc] at h
    cases leaving with
    | none => exact h
    | some t => exact ⟨h.1, fun hnative hhanded => hcause (h.2 hnative hhanded)⟩
  | start | entering | calling | assign | unmask | construct | handOff =>
    rw [hpc] at h
    exact h

/-- An interrupt that is delivered in the cleanup before it calls the native stop, when
`initialize` has raised. -/
theorem own_of_cut (hleaving : s.Leaving leaving) (hqueued : s.queued = true)
    (hcut : s.cut = false) {pc : Pc E} (h : (s.deliver pc).cut = true) : s.own ≠ none := by
  have hnot : ∀ j, ¬ s.Delivered j := by
    rintro j ⟨-, hnot⟩
    rw [hqueued] at hnot
    cases hnot
  simp only [State.deliver, hcut, Bool.false_or, Bool.and_eq_true, Bool.not_eq_true'] at h
  obtain ⟨⟨hnative, hhanded⟩, -⟩ := h
  cases leaving with
  | none =>
    rw [State.Leaving, hhanded] at hleaving
    cases hleaving
  | some t =>
    obtain ⟨e, -, hown⟩ := own_of_cause (hleaving.2 (Option.isSome_iff_ne_none.mp hnative)) hnot
    simp [hown]

/-- So does one that is delivered. -/
theorem inv_deliver (h : s.Inv) (harrived : s.arrived = some i) (hqueued : s.queued = true)
    (hmasked : s.masked = false) {pc : Pc E} (hpc' : s.pc.interrupted i = some pc) :
    (s.deliver pc).Inv := by
  have hcause : (s.deliver pc).Cause (.interrupt i) := Or.inl ⟨i, rfl, harrived, rfl⟩
  -- what was leaving still has its cause
  have hleaving' : ∀ {o}, s.Leaving o → (s.deliver pc).Leaving o := by
    intro o ho
    cases o with
    | none => exact ho
    | some t =>
      refine ⟨ho.1, fun hnative => ?_⟩
      rcases ho.2 hnative with ⟨j, -, -, hnot⟩ | hown
      · rw [hqueued] at hnot
        cases hnot
      · exact Or.inr hown
  have hcut' : ¬ s.pc.BeforeStop → (s.deliver pc).cut = s.cut := by
    intro hbefore
    simp [State.deliver, hbefore]
  have hinv := h
  rw [State.Inv] at hinv
  cases hpc : s.pc with
  | calling | stopCalling | ended =>
    rw [hpc] at hpc'
    cases hpc'
  | entering | assign | unmask =>
    -- the mask holds the interrupt back
    rw [hpc] at hinv
    rw [hinv.1] at hmasked
    cases hmasked
  | start =>
    rw [hpc] at hinv hpc'
    obtain ⟨hnative, hhanded, hstops, hcut⟩ := hinv
    cases hpc'
    exact ⟨hstops, by simp [State.deliver, hcut, hnative], hhanded, fun _ => hcause⟩
  | construct | handOff =>
    have hsame := hcut' (by simp [hpc, Pc.BeforeStop])
    rw [hpc] at hinv hpc'
    obtain ⟨-, hhanded, hstops, hcut⟩ := hinv
    cases hpc'
    exact ⟨hstops, hsame.trans hcut, hhanded, fun _ => hcause⟩
  | constructing delivered =>
    have hsame := hcut' (by simp [hpc, Pc.BeforeStop])
    rw [hpc] at hinv hpc'
    obtain ⟨hnative, ⟨hhanded, hstops, hcut⟩, -⟩ := hinv
    cases hpc'
    refine ⟨hnative, ⟨hhanded, hstops, hsame.trans hcut⟩, ?_⟩
    rintro j ⟨⟩
    exact ⟨harrived, rfl⟩
  | ensure leaving =>
    rw [hpc] at hinv hpc'
    obtain ⟨hstops, hcut, hleaving⟩ := hinv
    cases hpc'
    refine ⟨settled_of_not_due hstops (own_of_cut hleaving hqueued hcut) ?_, fun _ _ => hcause⟩
    intro native hnative _ hnot
    have hnative' : s.native = some native := hnative
    simpa [State.deliver, hcut, hnative', hpc, Pc.BeforeStop] using hnot
  | askOwner leaving =>
    rw [hpc] at hinv hpc'
    obtain ⟨hnative, ⟨hhanded, hstops, hcut⟩, hleaving⟩ := hinv
    have hset : (s.deliver pc).cut = true := by
      simp [State.deliver, hcut, hhanded, hpc, Pc.BeforeStop, Option.isSome_iff_ne_none, hnative]
    refine inv_rescue (Option.some.inj hpc').symm (settled_of_not_due hstops
      (own_of_cut hleaving hqueued hcut) ?_) (hleaving' hleaving) fun _ => hcause
    intro native _ _ hnot
    rw [hset] at hnot
    cases hnot
  | stop leaving =>
    rw [hpc] at hinv hpc'
    obtain ⟨hstops, ⟨hhanded, hcut, native, hnative, -⟩, hleaving⟩ := hinv
    have hset : (s.deliver pc).cut = true := by
      simp [State.deliver, hcut, hhanded, hpc, Pc.BeforeStop, hnative]
    refine inv_rescue (Option.some.inj hpc').symm (settled_of_not_due hstops
      (own_of_cut hleaving hqueued hcut) ?_) (hleaving' hleaving) fun _ => hcause
    intro native _ _ hnot
    rw [hset] at hnot
    cases hnot
  | stopping leaving en =>
    have hsame := hcut' (by simp [hpc, Pc.BeforeStop])
    rw [hpc] at hinv hpc'
    obtain ⟨hstops, ⟨hhanded, hcut, hnative⟩, hleaving⟩ := hinv
    obtain ⟨en', -, rfl⟩ := Option.map_eq_some_iff.mp hpc'
    have howned : (s.deliver (.rescue leaving (.interrupt i))).Owned :=
      ⟨hhanded, hsame.trans hcut, hnative⟩
    exact inv_rescue rfl (settled_of_owned hstops howned) (hleaving' hleaving) fun _ => hcause
  | leave leaving =>
    have hsame := hcut' (by simp [hpc, Pc.BeforeStop])
    rw [hpc] at hinv hpc'
    obtain ⟨⟨hstops, hown⟩, hleaving⟩ := hinv
    cases hpc'
    refine ⟨⟨?_, fun hcut => hown (hsame ▸ hcut)⟩, fun _ _ => hcause⟩
    rw [State.due, hsame]
    exact hstops

/-- A step on the way into the native call leads into it, further on, or out of the mask. -/
theorem inv_entering {en : Entry (Interrupt E)} (hpc : s.pc = .entering en) (h : s.Inv)
    {a : Answer (Interrupt E)} (hnext : s.next (.way a) = some s') : s'.Inv := by
  rw [State.Inv, hpc] at h
  obtain ⟨hmasked, hnative, hhanded, hstops, hcut⟩ := h
  simp only [State.next, hpc] at hnext
  split at hnext <;> cases hnext
  · exact ⟨hmasked, hnative, hhanded, hstops, hcut⟩
  · exact ⟨hstops, hcut, hhanded, fun hsome => absurd hnative hsome⟩
  · exact ⟨hmasked, hnative, hhanded, hstops, hcut⟩

/-- So does every step of the stop. -/
theorem inv_stopping {en : Entry (Interrupt E)} (hpc : s.pc = .stopping leaving en) (h : s.Inv)
    {a : Answer (Interrupt E)} (hnext : s.next (.way a) = some s') : s'.Inv := by
  rw [State.Inv, hpc] at h
  obtain ⟨hstops, howned, hleaving⟩ := h
  simp only [State.next, hpc] at hnext
  split at hnext <;> cases hnext
  · exact ⟨hstops, howned, hleaving⟩
  · rename_i e _
    have howned' : ({ s with pc := .rescue leaving (.cleanup e) } : State E).Owned := howned
    exact inv_rescue_cleanup e rfl (settled_of_owned hstops howned') hleaving
  · exact ⟨hstops, howned, hleaving⟩

/-- A step of the method itself. -/
theorem inv_go (h : s.Inv) (hnext : s.next .go = some s') : s'.Inv := by
  rw [State.Inv] at h
  cases hpc : s.pc with
  | start =>
    rw [hpc] at h
    simp only [State.next, hpc, Option.some.injEq] at hnext
    subst hnext
    exact ⟨rfl, h⟩
  | assign native =>
    rw [hpc] at h
    simp only [State.next, hpc, Option.some.injEq] at hnext
    subst hnext
    exact ⟨h.1, by simp, h.2.2⟩
  | unmask =>
    rw [hpc] at h
    simp only [State.next, hpc, Option.some.injEq] at hnext
    subst hnext
    exact h.2
  | construct =>
    rw [hpc] at h
    simp only [State.next, hpc, Option.some.injEq] at hnext
    subst hnext
    exact ⟨h.1, h.2, by simp⟩
  | constructing delivered =>
    rw [hpc] at h
    simp only [State.next, hpc, Option.some.injEq] at hnext
    subst hnext
    exact h
  | handOff =>
    rw [hpc] at h
    simp only [State.next, hpc, Option.some.injEq] at hnext
    subst hnext
    -- from here on the sandbox belongs to the caller
    exact ⟨h.2.2.1, h.2.2.2, rfl⟩
  | ensure leaving =>
    rw [hpc] at h
    obtain ⟨hstops, hcut, hleaving⟩ := h
    -- the cleanup is due if there is a sandbox and it was not handed off
    by_cases hcond : (s.native.isSome && !s.handedOff) = true
    · simp only [State.next, hpc, if_pos hcond, Option.some.injEq] at hnext
      subst hnext
      simp only [Bool.and_eq_true, Bool.not_eq_true'] at hcond
      exact ⟨Option.isSome_iff_ne_none.mp hcond.1, ⟨hcond.2, hstops, hcut⟩, hleaving⟩
    · simp only [State.next, hpc, if_neg hcond, Option.some.injEq] at hnext
      subst hnext
      -- otherwise no stop is due, and none was made
      refine ⟨settled_of_not_due hstops (by simp [hcut]) ?_, hleaving⟩
      intro native hnative _ _
      have hnative' : s.native = some native := hnative
      simpa [hnative'] using hcond
  | askOwner leaving =>
    rw [hpc] at h
    obtain ⟨hnative, ⟨hhanded, hstops, hcut⟩, hleaving⟩ := h
    simp only [State.next, hpc] at hnext
    split at hnext
    · rename_i native hsome
      -- the sandbox is stopped only by the process that owns its lifecycle
      by_cases howns : native.ownsLifecycle = true
      · rw [if_pos howns] at hnext
        cases hnext
        exact ⟨hstops, ⟨hhanded, hcut, native, hsome, howns⟩, hleaving⟩
      · rw [if_neg howns] at hnext
        cases hnext
        refine ⟨settled_of_not_due hstops (by simp [hcut]) ?_, hleaving⟩
        intro native' hnative' howns' _
        have hsame : s.native = some native' := hnative'
        rw [hsome, Option.some.injEq] at hsame
        exact absurd (hsame ▸ howns') howns
    · cases hnext
  | stop leaving =>
    rw [hpc] at h
    simp only [State.next, hpc, Option.some.injEq] at hnext
    subst hnext
    -- the one stop is counted when it is called
    exact ⟨by simp [h.1], h.2⟩
  | leave leaving =>
    rw [hpc] at h
    simp only [State.next, hpc, Option.some.injEq] at hnext
    subst hnext
    -- what the block was left with is raised again
    cases leaving with
    | none => exact h
    | some t => exact ⟨h.1, fun hnative _ => h.2.2 hnative⟩
  | entering | calling | stopping | stopCalling | ended => simp [State.next, hpc] at hnext

/-- The invariant, over one step. -/
theorem State.Inv.next {input : Input E} (h : s.Inv) (hnext : s.next input = some s') : s'.Inv := by
  cases input with
  | go => exact inv_go h hnext
  | arrive i =>
    obtain ⟨hcond, hs⟩ := Option.ite_none_right_eq_some.mp hnext
    cases hs
    simp only [Bool.and_eq_true, Option.isNone_iff_eq_none] at hcond
    exact inv_arrive h hcond.1
  | deliver =>
    -- delivered only if it is queued and the mask is off
    cases harrived : s.arrived with
    | none => simp [State.next, harrived] at hnext
    | some i =>
      simp only [State.next, harrived] at hnext
      obtain ⟨hcond, hmap⟩ := Option.ite_none_right_eq_some.mp hnext
      obtain ⟨pc, hpc, rfl⟩ := Option.map_eq_some_iff.mp hmap
      simp only [Bool.and_eq_true, Bool.not_eq_true'] at hcond
      exact inv_deliver h harrived hcond.1 hcond.2 hpc
  | way a =>
    cases hpc : s.pc with
    | entering en => exact inv_entering hpc h hnext
    | stopping leaving en => exact inv_stopping hpc h hnext
    | _ => simp [State.next, hpc] at hnext
  | acquired r =>
    cases hpc : s.pc with
    | calling =>
      rw [State.Inv, hpc] at h
      obtain ⟨hmasked, hnative, hhanded, hstops, hcut⟩ := h
      -- the native call hands its sandbox over, or raises
      cases r with
      | ok native =>
        simp only [State.next, hpc, Option.some.injEq] at hnext
        subst hnext
        exact ⟨hmasked, hnative, hhanded, hstops, hcut⟩
      | error e =>
        simp only [State.next, hpc, Option.some.injEq] at hnext
        subst hnext
        -- it raised: there is no sandbox to stop
        exact ⟨hstops, hcut, hhanded, fun hsome => absurd hnative hsome⟩
    | _ => simp [State.next, hpc] at hnext
  | finish =>
    cases hpc : s.pc with
    | constructing delivered =>
      rw [State.Inv, hpc] at h
      simp only [State.next, hpc, Option.some.injEq] at hnext
      subst hnext
      exact ⟨h.1, h.2.1⟩
    | _ => simp [State.next, hpc] at hnext
  | raise e =>
    cases hpc : s.pc with
    | constructing delivered =>
      rw [State.Inv, hpc] at h
      -- an error of its own leaves the block before the sandbox is handed off
      obtain ⟨hnative, ⟨hhanded, hstops, hcut⟩, -⟩ := h
      simp only [State.next, hpc, Option.some.injEq] at hnext
      subst hnext
      exact ⟨hstops, hcut, hhanded, fun _ => Or.inr ⟨e, rfl, rfl⟩⟩
    | _ => simp [State.next, hpc] at hnext
  | propagate =>
    cases hpc : s.pc with
    | constructing delivered =>
      rw [State.Inv, hpc] at h
      obtain ⟨hnative, ⟨hhanded, hstops, hcut⟩, hdelivered⟩ := h
      -- only an interrupt that was delivered propagates
      cases delivered with
      | none => simp [State.next, hpc] at hnext
      | some i =>
        simp only [State.next, hpc, Option.some.injEq] at hnext
        subst hnext
        exact ⟨hstops, hcut, hhanded, fun _ => Or.inl ⟨i, rfl, hdelivered i rfl⟩⟩
    | _ => simp [State.next, hpc] at hnext
  | stopped r =>
    cases hpc : s.pc with
    | stopCalling leaving =>
      rw [State.Inv, hpc] at h
      -- whether the stop returns or raises, it has been called once
      obtain ⟨hstops, howned, hleaving⟩ := h
      cases r with
      | ok u =>
        simp only [State.next, hpc, Option.some.injEq] at hnext
        subst hnext
        have howned' : ({ s with pc := .leave leaving } : State E).Owned := howned
        exact ⟨settled_of_owned hstops howned', hleaving⟩
      | error e =>
        simp only [State.next, hpc, Option.some.injEq] at hnext
        subst hnext
        have howned' : ({ s with pc := .rescue leaving (.cleanup e) } : State E).Owned := howned
        exact inv_rescue_cleanup e rfl (settled_of_owned hstops howned') hleaving
    | _ => simp [State.next, hpc] at hnext

/-- It holds in every state reached. -/
theorem Reaches.inv (h : Reaches s) : s.Inv := by
  induction h with
  | refl => exact inv_init
  | tail _ hstep ih =>
    obtain ⟨input, hnext⟩ := hstep
    exact ih.next hnext

/-- The native stop has not been called, or it has been called for an owned sandbox, or the cleanup
is done. -/
theorem State.Inv.stops_cases (h : s.Inv) :
    (s.stops = 0 ∧ s.cut = false) ∨ (s.stops = 1 ∧ s.Owned) ∨ s.Settled := by
  rw [State.Inv] at h
  -- before the cleanup, in it, or after it
  cases hpc : s.pc with
  | start | construct | handOff =>
    rw [hpc] at h
    exact Or.inl h.2.2
  | entering | calling | assign | unmask =>
    rw [hpc] at h
    exact Or.inl h.2.2.2
  | constructing =>
    rw [hpc] at h
    exact Or.inl h.2.1.2
  | ensure =>
    rw [hpc] at h
    exact Or.inl ⟨h.1, h.2.1⟩
  | askOwner =>
    rw [hpc] at h
    exact Or.inl h.2.1.2
  | stop =>
    rw [hpc] at h
    exact Or.inl ⟨h.1, h.2.1.2.1⟩
  | stopping | stopCalling =>
    rw [hpc] at h
    exact Or.inr (Or.inl ⟨h.1, h.2.1⟩)
  | leave =>
    rw [hpc] at h
    exact Or.inr (Or.inr h.1)
  | ended leaving =>
    rw [hpc] at h
    cases leaving <;> exact Or.inr (Or.inr h.1)

end Step

/-! ## What the method promises -/

/-- The sandbox is treated as the method promises, in a state of a run. -/
structure Kept (s : State E) : Prop where
  /-- A wrapper that has been handed off is not stopped. -/
  handed_off : s.handedOff = true → s.stops = 0
  /-- When control has left before that, the sandbox has been stopped once if it is owned, unless an
  interrupt was delivered in the cleanup before the stop was called. -/
  stopped : ∀ leaving native, s.pc = .ended leaving → s.native = some native →
    s.handedOff = false → s.cut = false → s.stops = if native.ownsLifecycle then 1 else 0
  /-- That can only happen when `initialize` has raised. -/
  cut_own : s.cut = true → s.stops = 0 ∧ s.own ≠ none
  /-- A sandbox that is not owned is never stopped. -/
  not_owned : ∀ native, s.native = some native → native.ownsLifecycle = false → s.stops = 0
  /-- What propagates is the interrupt or the exception of `initialize`. -/
  propagates : ∀ leaving native, s.pc = .ended leaving → s.native = some native →
    s.handedOff = false → (∃ i, leaving = some (.interrupt i) ∧ s.arrived = some i) ∨
      ∃ e, leaving = some (.own e) ∧ s.own = some e
  /-- Nothing is delivered before the result of the native call is assigned. -/
  held_back : ((∃ en, s.pc = .entering en) ∨ s.pc = .calling ∨ ∃ native, s.pc = .assign native) →
    s.next .deliver = none

/-- For every run of `acquire`, with an `initialize` of any number of steps that may raise or rescue,
and at most one interrupt that arrives and is delivered at any moment: an acquired sandbox that is
not handed off is stopped exactly when it is owned, unless the interrupt cuts the cleanup short. -/
theorem kept (E : Type) (s : State E) (h : Reaches s) : Kept s := by
  have hinv := h.inv
  have hcases := hinv.stops_cases
  rw [State.Inv] at hinv
  refine ⟨?_, ?_, ?_, ?_, ?_, ?_⟩
  · -- a sandbox that was handed off is not stopped
    intro hhanded
    rcases hcases with ⟨hstops, -⟩ | ⟨-, hnot, -⟩ | ⟨hstops, -⟩
    · exact hstops
    · rw [hhanded] at hnot
      cases hnot
    · rw [hstops, State.due]
      cases s.native <;> simp [hhanded]
  · -- one that was not is stopped, unless an interrupt cut the cleanup short
    intro leaving native hpc hnative hhanded hcut
    rw [hpc] at hinv
    have hstops : s.stops = s.due := by
      cases leaving with
      | none => exact hinv.1.1
      | some thrown => exact hinv.1.1
    rw [hstops, State.due, hnative]
    simp [hhanded, hcut]
  · -- a cleanup that was cut short had not called `stop`
    intro hcut
    rcases hcases with ⟨-, hnot⟩ | ⟨-, -, hnot, -⟩ | ⟨hstops, hown⟩
    · rw [hcut] at hnot
      cases hnot
    · rw [hcut] at hnot
      cases hnot
    · refine ⟨?_, hown hcut⟩
      rw [hstops, State.due]
      cases s.native <;> simp [hcut]
  · -- no sandbox of another process is stopped
    intro native hnative howns
    rcases hcases with ⟨hstops, -⟩ | ⟨-, -, -, native', hnative', howns'⟩ | ⟨hstops, -⟩
    · exact hstops
    · rw [hnative, Option.some.injEq] at hnative'
      rw [hnative', howns'] at howns
      cases howns
    · rw [hstops, State.due, hnative]
      simp [howns]
  · -- the call raises what the block was left with
    intro leaving native hpc hnative hhanded
    rw [hpc] at hinv
    cases leaving with
    | none =>
      rw [hhanded] at hinv
      cases hinv.2
    | some thrown =>
      rcases hinv.2 (by simp [hnative]) hhanded with ⟨i, rfl, harrived, -⟩ | ⟨e, rfl, hown⟩
      · exact Or.inl ⟨i, rfl, harrived⟩
      · exact Or.inr ⟨e, rfl, hown⟩
  · -- under the mask no interrupt is delivered
    intro hpc
    have hmasked : s.masked = true := by
      rcases hpc with ⟨en, hpc⟩ | hpc | ⟨native, hpc⟩ <;> rw [hpc] at hinv <;> exact hinv.1
    simp only [State.next, hmasked, Bool.not_true, Bool.and_false, Bool.false_eq_true, if_false]
    cases s.arrived <;> rfl

section Sample

/-- The inputs of a run. -/
def State.run : State E → List (Input E) → Option (State E)
  | s, [] => some s
  | s, input :: rest => (s.next input).bind fun s' => s'.run rest

/-- A list of inputs is a run. -/
theorem reaches_of_run {s s' : State E} (inputs : List (Input E)) (h : Reaches s)
    (hrun : s.run inputs = some s') : Reaches s' := by
  induction inputs generalizing s with
  | nil =>
    cases hrun
    exact h
  | cons input rest ih =>
    obtain ⟨u, hnext, hrest⟩ := Option.bind_eq_some_iff.mp hrun
    exact ih (h.tail ⟨input, hnext⟩) hrest

/-- The way into a native call. -/
def way : List (Input Unit) :=
  [.way (.got (.ok ())), .way (.ensured (.ok ())), .way (.checked (.ok ())), .way (.entered true)]

/-- A `Thread#kill` arrives during the native call. It is delivered at the end of the mask, and the
sandbox is stopped; the failure of the stop is swallowed. -/
theorem kept_kill : ∃ s : State Unit, Kept s ∧ s.native = some ⟨7, true⟩ ∧ s.handedOff = false ∧
    s.pc = .ended (some (.interrupt .kill)) ∧ s.stops = 1 :=
  ⟨_, kept Unit _ (reaches_of_run ([.go] ++ way ++ [.arrive .kill, .acquired (.ok ⟨7, true⟩), .go,
    .go, .deliver, .go, .go, .go] ++ way ++ [.stopped (.error (.baseError "stop failed")), .go])
    .refl rfl), rfl, rfl, rfl, rfl⟩

/-- A `Thread#kill` arrives in an `initialize` that raises, and is delivered in the cleanup: the
owned sandbox is not stopped. -/
theorem exists_not_stopped : ∃ s : State Unit, Reaches s ∧ s.native = some ⟨7, true⟩ ∧
    s.handedOff = false ∧ s.pc = .ended (some (.interrupt .kill)) ∧ s.stops = 0 :=
  ⟨_, reaches_of_run ([.go] ++ way ++ [.acquired (.ok ⟨7, true⟩), .go, .go, .go, .go, .arrive .kill,
    .raise (.other ()), .deliver]) .refl rfl, rfl, rfl, rfl, rfl⟩

end Sample

end MicrosandboxRb.Acquire
