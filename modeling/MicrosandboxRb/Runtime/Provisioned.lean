import MicrosandboxRb.Runtime.Provision

/-!
# The runtime is provisioned alone, and at most once

What every run of `ensure_runtime!`, `install` and `setup` keeps. A call that has entered the monitor
is alone there, so what it found of `@runtime_ready` stays true until it leaves.

## Main results

* `State.Inv.step`: the invariant, over one step;
* `State.Inv.goes_on`: a call that has not ended can go on, or waits for one that can;
* `provisioned`: the promises of `ensure_runtime!`, in every state that is reached.
-/

namespace MicrosandboxRb.Provision

variable {E : Type}

/-- A call has found that `@runtime_ready` may be set. -/
def Reason (events : List (Event E)) : Prop :=
  .bundled ∈ events ∨ .disabled ∈ events ∨ .finished (.ok ()) ∈ events

/-- The call has returned or raised. -/
def Pc.Ended : Pc E → Prop
  | .returned | .raised _ => True
  | _ => False

/-- Call `i` is inside the native installer. -/
def State.Installing (s : State E) (i : ℕ) : Prop :=
  ∃ c, s.calls i = some c ∧ c.pc = .installing

/-- The promises of `ensure_runtime!`, in a state. -/
structure Provisioned (s : State E) : Prop where
  /-- No two runs of the native installer overlap. -/
  alone : ∀ i j, s.Installing i → s.Installing j → i = j
  /-- `@runtime_ready` is set by a call of `ensure_runtime!` that has a reason to. -/
  ready_set : ∀ i a s', s.step i a = some s' → s.ready = false → s'.ready = true →
    ∃ c, s.calls i = some c ∧ c.method = .ensureRuntime ∧ Reason c.events
  ready_stays : s.ready = true → ∀ s', Steps s s' → s'.ready = true
  /-- No call of `ensure_runtime!` that starts when `@runtime_ready` is set runs the installer. -/
  ready_done : s.ready = true → ∀ s', Steps s s' → ∀ i c, s.calls i = none →
    s'.calls i = some c → c.method = .ensureRuntime → ∀ installer, .began installer ∉ c.events
  /-- A failure of the installer changes nothing; in a call of `ensure_runtime!` it leaves
  `@runtime_ready` unset, and the call does not set it later. -/
  failed_unset : ∀ i c e s', s.calls i = some c → c.pc = .installing →
    s.step i (.installer (.error e)) = some s' →
      s'.ready = s.ready ∧ (c.method = .ensureRuntime → s'.ready = false)
  failed_not_set : ∀ i c e, s.calls i = some c → .finished (.error e) ∈ c.events → .set ∉ c.events
  /-- A call of `ensure_runtime!` that has returned has run the installer, unless it had a reason
  not to. -/
  tries_again : ∀ i c, s.calls i = some c → c.method = .ensureRuntime → c.pc = .returned →
    .ready ∈ c.events ∧ s.ready = true ∨ .backend "cloud" ∈ c.events ∨ .bundled ∈ c.events ∨
      .disabled ∈ c.events ∨ ∃ installer, .began installer ∈ c.events
  /-- A call that has observed a cloud backend installs nothing and sets nothing. -/
  cloud_unchanged : ∀ i c, s.calls i = some c → .backend "cloud" ∈ c.events →
    (∀ installer, .began installer ∉ c.events) ∧ .set ∉ c.events
  /-- While a call has not ended, a call goes on. -/
  goes_on : ∀ i c, s.calls i = some c → ¬ c.pc.Ended →
    ∃ j a s', s.calls j ≠ none ∧ (∀ e, a ≠ .abort e) ∧ s.step j a = some s'

/-! ## The invariant of a call -/

/-- How often a call that stands there is inside the monitor. -/
def Pc.depth (method : Method) : Pc E → ℕ
  | .checkReady | .enterLock | .returned | .raised _ => 0
  | .recheckReady | .checkBackend | .checkBundled | .checkAutoInstall | .checkInstalled | .warn
  | .setReady | .leave _ => 1
  | .enterInstall =>
    match method with
    | .ensureRuntime => 1
    | .install | .setup _ => 0
  | .install | .installing | .leaveInstall _ =>
    match method with
    | .ensureRuntime => 2
    | .install | .setup _ => 1

/-- The call has found `@runtime_ready` unset inside the monitor, and has not left it. -/
def Pc.Unset (method : Method) : Pc E → Prop
  | .checkBackend | .checkBundled | .checkAutoInstall | .checkInstalled | .warn | .setReady => True
  | .enterInstall | .install | .installing | .leaveInstall _ => method = .ensureRuntime
  | _ => False

/-- The call has not come to a decision. -/
structure Undecided (events : List (Event E)) : Prop where
  not_ready : .ready ∉ events
  not_cloud : .backend "cloud" ∉ events
  not_set : .set ∉ events

/-- What a call has found and done, from where it stands. -/
def Shape (method : Method) (events : List (Event E)) : Pc E → Prop
  | .checkReady | .enterLock | .recheckReady | .checkBackend =>
    method = .ensureRuntime ∧ events = []
  | .checkBundled | .checkAutoInstall | .checkInstalled | .warn =>
    method = .ensureRuntime ∧ Undecided events ∧ ∀ r, .finished r ∉ events
  | .enterInstall | .install => Undecided events ∧ ∀ r, .finished r ∉ events
  | .installing =>
    Undecided events ∧ (∀ r, .finished r ∉ events) ∧ ∃ installer, .began installer ∈ events
  | .leaveInstall r =>
    Undecided events ∧ (r = .ok () → .finished (.ok ()) ∈ events ∧ ∀ e, .finished (.error e) ∉ events)
  | .setReady =>
    method = .ensureRuntime ∧ Undecided events ∧ Reason events ∧ ∀ e, .finished (.error e) ∉ events
  | .leave r =>
    method = .ensureRuntime ∧
      (r = .ok () → .ready ∈ events ∨ .backend "cloud" ∈ events ∨ .set ∈ events)
  | .returned =>
    method = .ensureRuntime → .ready ∈ events ∨ .backend "cloud" ∈ events ∨ .set ∈ events
  | .raised _ => True

/-- What holds of every call. -/
structure Call.Inv (c : Call E) (ready : Bool) : Prop where
  shape : Shape c.method c.events c.pc
  cloud : .backend "cloud" ∈ c.events →
    (∀ installer, .began installer ∉ c.events) ∧ .set ∉ c.events
  set : .set ∈ c.events → c.method = .ensureRuntime ∧ Reason c.events ∧ ready = true
  found : .ready ∈ c.events → ready = true
  finished : ∀ r, .finished r ∈ c.events → ∃ installer, .began installer ∈ c.events
  failed : ∀ e, .finished (.error e) ∈ c.events → .set ∉ c.events
  unset : c.pc.Unset c.method → ready = false

section OneCall

variable {method : Method} {ready : Bool} {pc pc' : Pc E} {events es : List (Event E)}
  {effect : Effect} {m m' : Monitor ℕ} {i : ℕ}

/-- A new call. -/
theorem inv_entry (method : Method) (ready : Bool) :
    Call.Inv (⟨method, method.entry, []⟩ : Call E) ready := by
  refine ⟨?_, by simp, by simp, by simp, by simp, by simp, ?_⟩
  · cases method with
    | ensureRuntime => exact ⟨rfl, rfl⟩
    | install | setup => exact ⟨⟨by simp, by simp, by simp⟩, by simp⟩
  · cases method <;> simp [Method.entry, Pc.Unset]

/-- An exception leaves the events of a shape that is possible. -/
theorem unwind_shape {e : Exc E} (h : Shape method events pc)
    (hunwind : pc.unwind method e = some pc') : Shape method events pc' := by
  cases pc with
  | checkReady | enterLock | recheckReady | checkBackend =>
    cases hunwind
    simp [Shape, h.1]
  | checkBundled | checkAutoInstall | checkInstalled | warn | setReady | leave =>
    cases hunwind
    simp [Shape, h.1]
  | enterInstall =>
    cases method <;> cases hunwind <;> simp [Shape]
  | install | leaveInstall =>
    cases hunwind
    simp [Shape, h.1]
  | installing | returned | raised => cases hunwind

/-- Nothing is set while an exception unwinds. -/
theorem unwind_unset {e : Exc E} (hunwind : pc.unwind method e = some pc')
    (hunset : pc'.Unset method) : pc.Unset method := by
  cases pc with
  | enterInstall => cases method <;> cases hunwind <;> exact hunset.elim
  | install | leaveInstall =>
    cases hunwind
    exact hunset
  | installing | returned | raised => cases hunwind
  | _ =>
    cases hunwind
    exact hunset.elim

/-- A block that is left through an exception has left its monitor. -/
theorem unwind_depth {e : Exc E} (hunwind : pc.unwind method e = some pc') :
    pc'.depth method = pc.depth method := by
  cases pc with
  | enterInstall => cases method <;> cases hunwind <;> rfl
  | installing | returned | raised => cases hunwind
  | _ =>
    cases hunwind
    rfl

/-- A step goes as deep into the monitor as its effect says. -/
theorem Moves.depth (h : Moves method ready pc es effect pc') (hshape : Shape method events pc)
    (hlock : effect.lock m i = some m') (hdepth : m.depth i = pc.depth method) :
    m'.depth i = pc'.depth method := by
  have henter : m.enter i = some m' → m'.depth i = m.depth i + 1 :=
    fun h => (Monitor.depth_of_enter h).1
  have hleave : m.leave i = some m' → m'.depth i + 1 = m.depth i :=
    fun h => (Monitor.depth_of_leave h).1
  cases h with
  | enterLock => rw [henter hlock, hdepth, Pc.depth, Pc.depth]
  | enterInstall =>
    rw [henter hlock, hdepth]
    cases method <;> rfl
  | installOk u hmethod | installError e hmethod =>
    -- a block is left as often as it was entered
    have hleft := hleave hlock
    rw [hdepth, hmethod] at hleft
    simp only [Pc.depth] at hleft ⊢
    omega
  | leaveInstall r hmethod =>
    have hleft := hleave hlock
    rw [hdepth] at hleft
    cases method with
    | ensureRuntime => exact absurd rfl hmethod
    | install | setup => cases r <;> (simp only [Pc.depth, Pc.ofResult] at hleft ⊢; omega)
  | leave r =>
    have hleft := hleave hlock
    rw [hdepth] at hleft
    cases r <;> (simp only [Pc.depth, Pc.ofResult] at hleft ⊢; omega)
  | unwind hunwind =>
    cases hlock
    rw [hdepth, unwind_depth hunwind]
  | installed | warn =>
    cases hlock
    obtain ⟨rfl, -⟩ := hshape
    exact hdepth
  | install | finish =>
    cases hlock
    exact hdepth
  | _ =>
    cases hlock
    exact hdepth

/-- A call stays undecided until it finds the runtime ready, the cloud or sets it. -/
theorem Undecided.concat {x : Event E} (h : Undecided events) (hready : x ≠ .ready)
    (hcloud : x ≠ .backend "cloud") (hset : x ≠ .set) : Undecided (events ++ [x]) where
  not_ready := by simp [h.not_ready, hready.symm]
  not_cloud := by simp [h.not_cloud, hcloud.symm]
  not_set := by simp [h.not_set, hset.symm]

/-- What a call has found and done, after a step. -/
theorem Moves.shape (h : Moves method ready pc es effect pc') (hshape : Shape method events pc) :
    Shape method (events ++ es) pc' := by
  cases h with
  | unwind hunwind =>
    rw [List.append_nil]
    exact unwind_shape hshape hunwind
  | found | refound | cloud => simp [Shape, hshape.1]
  | notFound | enterLock | notRefound => simpa [Shape] using hshape
  | backend hkind =>
    obtain ⟨rfl, rfl⟩ := hshape
    exact ⟨rfl, ⟨by simp, by simpa using Ne.symm hkind, by simp⟩, by simp⟩
  | backendError | bundledError => exact ⟨hshape.1, by simp⟩
  | notBundled | notDisabled | notInstalled => simpa [Shape] using hshape
  | installed | warn => exact ⟨by simpa using hshape.2.1, by simpa using hshape.2.2⟩
  | bundled | disabled =>
    obtain ⟨rfl, hundecided, hfinished⟩ := hshape
    refine ⟨rfl, hundecided.concat (by simp) (by simp) (by simp), by simp [Reason], ?_⟩
    intro e
    simp [hfinished]
  | enterInstall => simpa [Shape] using hshape
  -- the installer is begun by a call that found nothing before
  | install =>
    obtain ⟨hundecided, hfinished⟩ := hshape
    exact ⟨hundecided.concat (by simp) (by simp) (by simp), by simp [hfinished],
      method.installer, by simp⟩
  | finish r =>
    obtain ⟨hundecided, hfinished, -⟩ := hshape
    refine ⟨hundecided.concat (by simp) (by simp) (by simp), ?_⟩
    rintro rfl
    simp [hfinished]
  | installOk u hmethod =>
    obtain ⟨hundecided, hok⟩ := hshape
    obtain ⟨hfinished, hfailed⟩ := hok rfl
    rw [List.append_nil]
    exact ⟨hmethod, hundecided, Or.inr (Or.inr hfinished), hfailed⟩
  | installError e hmethod => exact ⟨hmethod, by simp⟩
  | leaveInstall r hmethod =>
    cases r with
    | ok u => exact fun h => absurd h hmethod
    | error e => trivial
  | setReady => exact ⟨hshape.1, by simp⟩
  | leave r =>
    cases r with
    | ok u =>
      intro _
      simpa using hshape.2 rfl
    | error e => trivial

/-- A call that has found `@runtime_ready` unset inside the monitor has done so in this step or
before it. -/
theorem Moves.unset (h : Moves method ready pc es effect pc') (hshape : Shape method events pc)
    (hunset : pc.Unset method → ready = false) (hunset' : pc'.Unset method) :
    (ready || effect == .setReady) = false := by
  cases h with
  | unwind hunwind => simpa using hunset (unwind_unset hunwind hunset')
  | notRefound hready => simpa using hready
  | leaveInstall r | leave r => cases r <;> exact hunset'.elim
  | installOk u hmethod => simpa using hunset hmethod
  | installed | warn | backend | bundled | disabled | notBundled | notDisabled | notInstalled =>
    simpa using hunset trivial
  | enterInstall | install | finish => simpa using hunset hunset'
  | _ => exact hunset'.elim

/-- What a step adds to what a call has found and done. -/
theorem Moves.adds (h : Moves method ready pc es effect pc') (hshape : Shape method events pc) :
    es = [] ∨ events = [] ∧ (es = [.ready] ∧ ready = true ∨ ∃ kind, es = [.backend kind]) ∨
      Undecided events ∧ (es = [.bundled] ∨ es = [.disabled] ∨ ∃ installer, es = [.began installer]) ∨
      (Undecided events ∧ (∃ installer, .began installer ∈ events) ∧ ∃ r, es = [.finished r]) ∨
      Undecided events ∧ method = .ensureRuntime ∧ Reason events ∧
        (∀ e, .finished (.error e) ∉ events) ∧ es = [.set] ∧ effect = .setReady := by
  cases h with
  | found hready | refound hready => simp [hshape.2, hready]
  | cloud | backend => simp [hshape.2]
  | bundled | disabled => simp [hshape.2.1]
  | install => simp [hshape.1]
  | finish r => simp [hshape.1, hshape.2.2]
  | setReady =>
    obtain ⟨hmethod, hundecided, hreason, hfailed⟩ := hshape
    simp [hmethod, hundecided, hreason, hfailed]
  | _ => exact Or.inl rfl

/-- The invariant of a call, over one of its own steps. -/
theorem Call.Inv.move {c : Call E} (hc : c.Inv ready) (h : Moves c.method ready c.pc es effect pc') :
    Call.Inv ⟨c.method, pc', c.events ++ es⟩ (ready || effect == .setReady) := by
  have hshape := hc.shape
  have hunset := h.unset hshape hc.unset
  have hshape' := h.shape hshape
  -- the installer has been started before its end is recorded
  have hfinished : ∀ x, (∀ r, x ≠ .finished r) → ∀ r, .finished r ∈ c.events ++ [x] →
      ∃ installer, .began installer ∈ c.events ++ [x] := by
    intro x hx r hmem
    rcases List.mem_append.mp hmem with hmem | hmem
    · obtain ⟨installer, hbegan⟩ := hc.finished r hmem
      exact ⟨installer, List.mem_append_left _ hbegan⟩
    · exact absurd (List.mem_singleton.mp hmem).symm (hx r)
  -- a move records at most one event
  rcases h.adds hshape with rfl | ⟨hnil, ⟨rfl, hready⟩ | ⟨kind, rfl⟩⟩ |
    ⟨hundecided, rfl | rfl | ⟨installer, rfl⟩⟩ | ⟨hundecided, hbegan, r, rfl⟩ |
    ⟨hundecided, hmethod, hreason, hfailed, rfl, rfl⟩
  · rw [List.append_nil] at hshape' ⊢
    refine ⟨hshape', hc.cloud, ?_, ?_, hc.finished, hc.failed, hunset⟩
    · intro hset
      obtain ⟨hmethod, hreason, hready⟩ := hc.set hset
      exact ⟨hmethod, hreason, by simp [hready]⟩
    · intro hfound
      simp [hc.found hfound]
  · refine ⟨hshape', ?_, ?_, ?_, ?_, ?_, hunset⟩ <;> simp [hnil, hready]
  · refine ⟨hshape', ?_, ?_, ?_, ?_, ?_, hunset⟩ <;> simp [hnil]
  · refine ⟨hshape', ?_, ?_, ?_, hfinished _ (by simp), ?_, hunset⟩ <;>
      simp [hundecided.not_ready, hundecided.not_cloud, hundecided.not_set]
  · refine ⟨hshape', ?_, ?_, ?_, hfinished _ (by simp), ?_, hunset⟩ <;>
      simp [hundecided.not_ready, hundecided.not_cloud, hundecided.not_set]
  · refine ⟨hshape', ?_, ?_, ?_, hfinished _ (by simp), ?_, hunset⟩ <;>
      simp [hundecided.not_ready, hundecided.not_cloud, hundecided.not_set]
  · obtain ⟨installer, hbegan⟩ := hbegan
    have hbegan' : ∃ installer, .began installer ∈ c.events ++ [.finished r] :=
      ⟨installer, List.mem_append_left _ hbegan⟩
    refine ⟨hshape', ?_, ?_, ?_, fun _ _ => hbegan', ?_, hunset⟩ <;>
      simp [hundecided.not_ready, hundecided.not_cloud, hundecided.not_set]
  · have hreason' : Reason (c.events ++ [.set]) := by
      rcases hreason with h | h | h
      · exact Or.inl (List.mem_append_left _ h)
      · exact Or.inr (Or.inl (List.mem_append_left _ h))
      · exact Or.inr (Or.inr (List.mem_append_left _ h))
    refine ⟨hshape', ?_, fun _ => ⟨hmethod, hreason', by simp⟩, by simp, hfinished _ (by simp),
      ?_, hunset⟩ <;>
      simp [hundecided.not_cloud, hfailed]

/-- A change of `@runtime_ready` that does not concern the call. -/
theorem Call.Inv.of_ready {c : Call E} (hc : c.Inv ready) {ready' : Bool}
    (hle : ready = true → ready' = true) (hunset : c.pc.Unset c.method → ready' = false) :
    c.Inv ready' where
  shape := hc.shape
  cloud := hc.cloud
  set hset := ⟨(hc.set hset).1, (hc.set hset).2.1, hle (hc.set hset).2.2⟩
  found hfound := hle (hc.found hfound)
  finished := hc.finished
  failed := hc.failed
  unset := hunset

/-- A call that may still set the path holds the monitor. -/
theorem Pc.Unset.depth_pos (h : pc.Unset method) : 0 < pc.depth method := by
  cases pc with
  | enterInstall | install | installing | leaveInstall =>
    obtain rfl := h
    simp [Pc.depth]
  | checkReady | enterLock | recheckReady | leave | returned | raised => exact h.elim
  | _ => simp [Pc.depth]

end OneCall

/-! ## The invariant of a state -/

/-- How often a call is inside the monitor. -/
def depthOf : Option (Call E) → ℕ
  | none => 0
  | some c => c.pc.depth c.method

/-- What holds of every state. -/
structure State.Inv (s : State E) : Prop where
  depth : ∀ i, s.lock.depth i = depthOf (s.calls i)
  call : ∀ i c, s.calls i = some c → c.Inv s.ready

section Run

variable {s s' : State E} {i j : ℕ} {a : Answer E}

/-- A step starts a call, or moves one. -/
theorem step_cases (h : s.step i a = some s') :
    (s.calls i = none ∧ ∃ method, s' = s.move i ⟨method, method.entry, []⟩) ∨
      ∃ c pc events effect lock, s.calls i = some c ∧
        c.pc.next c.method s.ready a = some (pc, events, effect) ∧
        effect.lock s.lock i = some lock ∧
        s' = { s.move i ⟨c.method, pc, c.events ++ events⟩ with
          ready := s.ready || effect == .setReady
          lock } := by
  unfold State.step at h
  cases hi : s.calls i with
  | none =>
    rw [hi] at h
    cases a with
    | call method => exact Or.inl ⟨rfl, method, (Option.some.inj h).symm⟩
    | _ => cases h
  | some c =>
    rw [hi] at h
    obtain ⟨⟨pc, events, effect⟩, hnext, h⟩ := Option.bind_eq_some_iff.mp h
    obtain ⟨lock, hlock, h⟩ := Option.bind_eq_some_iff.mp h
    exact Or.inr ⟨c, pc, events, effect, lock, rfl, hnext, hlock, (Option.some.inj h).symm⟩

/-- A step moves one call and has one effect. -/
theorem step_eq {c : Call E} {pc : Pc E} {events : List (Event E)} {effect : Effect}
    {lock : Monitor ℕ} (hc : s.calls i = some c)
    (hnext : c.pc.next c.method s.ready a = some (pc, events, effect))
    (hlock : effect.lock s.lock i = some lock) :
    s.step i a = some { s.move i ⟨c.method, pc, c.events ++ events⟩ with
      ready := s.ready || effect == .setReady
      lock } := by
  unfold State.step
  rw [hc]
  simp only [hnext, hlock, Option.bind_eq_bind, Option.bind_some]

/-- A step leaves the other calls where they are. -/
theorem step_calls_of_ne (h : s.step i a = some s') (hne : j ≠ i) : s'.calls j = s.calls j := by
  rcases step_cases h with ⟨-, method, rfl⟩ | ⟨c, pc, events, effect, lock, -, -, -, rfl⟩ <;>
    exact Function.update_of_ne hne ..

/-- The monitor counts nothing for the other threads. -/
theorem depth_lock_of_ne {effect : Effect} {m m' : Monitor ℕ} (h : effect.lock m i = some m')
    (hne : j ≠ i) : m'.depth j = m.depth j := by
  cases effect with
  | keep | setReady =>
    cases h
    rfl
  | enter => exact (Monitor.depth_of_enter h).2 j hne
  | leave => exact (Monitor.depth_of_leave h).2 j hne

/-- It holds before the first call. -/
theorem inv_init : (State.init : State E).Inv where
  depth _ := rfl
  call := by simp [State.init]

/-- Every step keeps it. -/
theorem State.Inv.step (h : s.Inv) (hstep : s.step i a = some s') : s'.Inv := by
  rcases step_cases hstep with ⟨hnone, method, rfl⟩ |
    ⟨c, pc, events, effect, lock, hc, hnext, hlock, rfl⟩
  · -- a new call holds nothing and has recorded nothing
    refine ⟨?_, ?_⟩
    · intro j
      by_cases hij : j = i
      · subst hij
        have hdepth := h.depth j
        rw [hnone] at hdepth
        simp only [State.move, Function.update_self, hdepth]
        cases method <;> rfl
      · rw [step_calls_of_ne hstep hij]
        exact h.depth j
    · intro j c hj
      by_cases hij : j = i
      · subst hij
        simp only [State.move, Function.update_self, Option.some.injEq] at hj
        subst hj
        exact inv_entry method s.ready
      · rw [step_calls_of_ne hstep hij] at hj
        exact h.call j c hj
  · have hmoves := moves_of_next hnext
    have hinv := h.call i c hc
    -- the monitor counts the blocks the call is in
    have hdepth : s.lock.depth i = c.pc.depth c.method := by rw [h.depth i, hc, depthOf]
    refine ⟨?_, ?_⟩
    · intro j
      by_cases hij : j = i
      · subst hij
        simp only [State.move, Function.update_self, depthOf]
        exact hmoves.depth hinv.shape hlock hdepth
      · rw [step_calls_of_ne hstep hij]
        exact (depth_lock_of_ne hlock hij).trans (h.depth j)
    · intro j d hj
      by_cases hij : j = i
      · subst hij
        simp only [State.move, Function.update_self, Option.some.injEq] at hj
        subst hj
        exact hinv.move hmoves
      · rw [step_calls_of_ne hstep hij] at hj
        refine (h.call j d hj).of_ready (by simp +contextual) ?_
        intro hunset
        rw [(h.call j d hj).unset hunset, Bool.false_or]
        by_contra hset
        -- the call that sets `@runtime_ready` would be inside the monitor with this one
        have heffect : effect = .setReady := by simpa using hset
        subst heffect
        have hi : 0 < s.lock.depth i := by
          rw [hdepth]
          cases hpc : c.pc <;> rw [hpc] at hmoves <;> cases hmoves
          simp [Pc.depth]
        have hj' : 0 < s.lock.depth j := by
          rw [h.depth j, hj]
          exact hunset.depth_pos
        exact hij (Monitor.eq_of_depth_pos hj' hi)

/-- So does every run. -/
theorem State.Inv.steps (h : s.Inv) (hsteps : Steps s s') : s'.Inv := by
  induction hsteps with
  | refl => exact h
  | tail _ hstep ih =>
    obtain ⟨i, a, hstep⟩ := hstep
    exact ih.step hstep

/-! ## Calls go on -/

/-- A call that has not ended has an answer it waits for. -/
theorem exists_next (method : Method) (ready : Bool) {pc : Pc E} (hlive : ¬ pc.Ended) :
    ∃ a pc' events effect, (∀ e, a ≠ .abort e) ∧
      pc.next method ready a = some (pc', events, effect) := by
  cases pc with
  | checkReady | recheckReady =>
    cases ready
    · exact ⟨.go, _, _, _, by simp, rfl⟩
    · exact ⟨.go, _, _, _, by simp, rfl⟩
  | checkBackend => exact ⟨.backend (.ok "cloud"), _, _, _, by simp, by rw [Pc.next, if_pos rfl]⟩
  | checkBundled => exact ⟨.runtimePath none (.ok ""), _, _, _, by simp, rfl⟩
  | checkAutoInstall => exact ⟨.env none, _, _, _, by simp, rfl⟩
  | checkInstalled => exact ⟨.installed true, _, _, _, by simp, rfl⟩
  | installing => exact ⟨.installer (.ok ()), _, _, _, by simp, rfl⟩
  | leaveInstall r =>
    cases method
    · cases r
      · exact ⟨.go, _, _, _, by simp, rfl⟩
      · exact ⟨.go, _, _, _, by simp, rfl⟩
    · exact ⟨.go, _, _, _, by simp, rfl⟩
    · exact ⟨.go, _, _, _, by simp, rfl⟩
  | enterLock | warn | enterInstall | install | setReady | leave =>
    exact ⟨.go, _, _, _, by simp, rfl⟩
  | returned | raised => exact absurd trivial hlive

/-- A call leaves a monitor it holds. -/
theorem Moves.depth_pos {method : Method} {ready : Bool} {pc pc' : Pc E} {es : List (Event E)}
    (h : Moves method ready pc es .leave pc') : 0 < pc.depth method := by
  cases h with
  | installOk | installError | leaveInstall => cases method <;> simp [Pc.depth]
  | leave => simp [Pc.depth]

/-- A call can go on when no other call is inside the monitor. -/
theorem State.Inv.exists_step (h : s.Inv) {c : Call E} (hc : s.calls i = some c)
    (hlive : ¬ c.pc.Ended) (halone : ∀ j, 0 < s.lock.depth j → j = i) :
    ∃ a s', (∀ e, a ≠ .abort e) ∧ s.step i a = some s' := by
  obtain ⟨a, pc, events, effect, ha, hnext⟩ := exists_next c.method s.ready hlive
  have hlock : ∃ lock, effect.lock s.lock i = some lock := by
    cases effect with
    | keep | setReady => exact ⟨_, rfl⟩
    | enter => exact Monitor.exists_enter_iff.mpr halone
    | leave =>
      refine Monitor.exists_leave_iff.mpr ?_
      rw [h.depth i, hc]
      exact (moves_of_next hnext).depth_pos
  obtain ⟨lock, hlock⟩ := hlock
  exact ⟨a, _, ha, step_eq hc hnext hlock⟩

/-- A call that waits for the monitor waits for a call that can go on. -/
theorem State.Inv.goes_on (h : s.Inv) {c : Call E} (hc : s.calls i = some c)
    (hlive : ¬ c.pc.Ended) :
    ∃ j a s', s.calls j ≠ none ∧ (∀ e, a ≠ .abort e) ∧ s.step j a = some s' := by
  by_cases halone : ∀ j, 0 < s.lock.depth j → j = i
  · obtain ⟨a, s', ha, hstep⟩ := h.exists_step hc hlive halone
    exact ⟨i, a, s', by simp [hc], ha, hstep⟩
  · obtain ⟨j, hnot⟩ := not_forall.mp halone
    obtain ⟨hj, -⟩ := Classical.not_imp.mp hnot
    have hdepth := hj
    rw [h.depth j] at hdepth
    cases hd : s.calls j with
    | none =>
      rw [hd] at hdepth
      cases hdepth
    | some d =>
      rw [hd, depthOf] at hdepth
      have hlive' : ¬ d.pc.Ended := by
        intro hended
        cases hpc : d.pc <;> rw [hpc] at hended hdepth <;> first | exact hended | cases hdepth
      obtain ⟨a, s', ha, hstep⟩ :=
        h.exists_step hd hlive' fun k hk => Monitor.eq_of_depth_pos hk hj
      exact ⟨j, a, s', by simp [hd], ha, hstep⟩

/-! ## Later calls -/

/-- A call of `ensure_runtime!` that starts when `@runtime_ready` is set runs no installer. -/
def Late (o : Option (Call E)) : Prop :=
  ∀ c, o = some c → c.method = .ensureRuntime →
    (c.pc = .checkReady ∨ c.pc.Ended) ∧ ∀ installer, .began installer ∉ c.events

/-- Once ready, the runtime stays ready. -/
theorem step_ready (h : s.step i a = some s') (hready : s.ready = true) : s'.ready = true := by
  rcases step_cases h with ⟨-, method, rfl⟩ | ⟨c, pc, events, effect, lock, -, -, -, rfl⟩
  · exact hready
  · simp [hready]

/-- A call that came later installs nothing. -/
theorem late_step (h : s.step i a = some s') (hready : s.ready = true)
    (hlate : Late (s.calls j)) : Late (s'.calls j) := by
  by_cases hij : j = i
  · subst hij
    intro d hd hmethod
    rcases step_cases h with ⟨-, method, rfl⟩ | ⟨c, pc, events, effect, lock, hc, hnext, -, rfl⟩
    · simp only [State.move, Function.update_self, Option.some.injEq] at hd
      subst hd
      obtain rfl : method = .ensureRuntime := hmethod
      exact ⟨Or.inl rfl, by simp⟩
    · simp only [State.move, Function.update_self, Option.some.injEq] at hd
      subst hd
      -- a call that starts when the flag is set ends at its first look
      obtain ⟨hpc, hbegan⟩ := hlate c hc hmethod
      have hmoves := moves_of_next hnext
      rcases hpc with hpc | hended
      · rw [hpc] at hmoves
        cases hmoves with
        | unwind hunwind =>
          cases hunwind
          exact ⟨Or.inr trivial, by simpa using hbegan⟩
        | found => exact ⟨Or.inr trivial, by simpa using hbegan⟩
        | notFound hnot =>
          rw [hready] at hnot
          cases hnot
      · -- nothing follows the end of a call
        cases hpc : c.pc <;> rw [hpc] at hended hmoves <;> first | exact hended.elim | cases hmoves
        all_goals
          rename_i hunwind
          cases hunwind
  · rw [step_calls_of_ne h hij]
    exact hlate

/-- Along a run it stays ready. -/
theorem steps_ready (hsteps : Steps s s') (hready : s.ready = true) : s'.ready = true := by
  induction hsteps with
  | refl => exact hready
  | tail _ hstep ih =>
    obtain ⟨i, a, hstep⟩ := hstep
    exact step_ready hstep ih

/-- And a later call installs nothing along it. -/
theorem late_steps (hsteps : Steps s s') (hready : s.ready = true) (hlate : Late (s.calls j)) :
    Late (s'.calls j) := by
  induction hsteps with
  | refl => exact hlate
  | tail hsteps hstep ih =>
    obtain ⟨i, a, hstep⟩ := hstep
    exact late_step hstep (steps_ready hsteps hready) ih

/-! ## The promises -/

/-- The runtime is made ready by a call of `ensure_runtime!` that has a reason. -/
theorem State.Inv.ready_set (h : s.Inv) (hstep : s.step i a = some s') (hready : s.ready = false)
    (hready' : s'.ready = true) :
    ∃ c, s.calls i = some c ∧ c.method = .ensureRuntime ∧ Reason c.events := by
  rcases step_cases hstep with ⟨-, method, rfl⟩ | ⟨c, pc, events, effect, lock, hc, hnext, -, rfl⟩
  · rw [State.move, hready] at hready'
    cases hready'
  · have heffect : effect = .setReady := by simpa [hready] using hready'
    subst heffect
    have hshape := (h.call i c hc).shape
    have hmoves := moves_of_next hnext
    cases hpc : c.pc <;> rw [hpc] at hmoves hshape <;> cases hmoves
    exact ⟨c, hc, hshape.1, hshape.2.2.1⟩

end Run

/-- For any number of threads that call `ensure_runtime!`, `install` and `setup`, in every
interleaving, with any outcome of each run of the installer and anything observed at each check: the
runtime is provisioned alone, and at most once. -/
theorem provisioned (E : Type) (s : State E) (h : Reaches s) : Provisioned s := by
  have hinv : s.Inv := inv_init.steps h
  refine ⟨?_, ?_, ?_, ?_, ?_, ?_, ?_, ?_, ?_⟩
  · -- a call that installs is inside the monitor, which no two threads are
    have hinside : ∀ i, s.Installing i → 0 < s.lock.depth i := by
      rintro i ⟨c, hc, hpc⟩
      rw [hinv.depth i, hc, depthOf, hpc]
      cases c.method <;> simp [Pc.depth]
    exact fun i j hi hj => Monitor.eq_of_depth_pos (hinside i hi) (hinside j hj)
  · exact fun i a s' hstep => hinv.ready_set hstep
  · exact fun hready s' hsteps => steps_ready hsteps hready
  · intro hready s' hsteps i c hnone hc hmethod
    have hlate : Late (s.calls i) := by
      rw [hnone]
      rintro d ⟨⟩
    exact (late_steps hsteps hready hlate c hc hmethod).2
  · intro i c e s' hc hpc hstep
    have hnext : c.pc.next c.method s.ready (.installer (.error e)) =
        some (.leaveInstall (.error e), [.finished (.error e)], .keep) := by rw [hpc, Pc.next]
    rw [step_eq hc hnext rfl] at hstep
    cases hstep
    have hready : (s.ready || Effect.keep == Effect.setReady) = s.ready := by simp
    refine ⟨hready, ?_⟩
    intro hmethod
    refine hready.trans ((hinv.call i c hc).unset ?_)
    rw [hpc]
    exact hmethod
  · exact fun i c e hc => (hinv.call i c hc).failed e
  · intro i c hc hmethod hpc
    have hcall := hinv.call i c hc
    have hshape := hcall.shape
    rw [hpc] at hshape
    rcases hshape hmethod with hfound | hcloud | hset
    · exact Or.inl ⟨hfound, hcall.found hfound⟩
    · exact Or.inr (Or.inl hcloud)
    · rcases (hcall.set hset).2.1 with hbundled | hdisabled | hfinished
      · exact Or.inr (Or.inr (Or.inl hbundled))
      · exact Or.inr (Or.inr (Or.inr (Or.inl hdisabled)))
      · exact Or.inr (Or.inr (Or.inr (Or.inr (hcall.finished _ hfinished))))
  · exact fun i c hc => (hinv.call i c hc).cloud
  · exact fun i c hc => hinv.goes_on hc

section Sample

/-- A schedule: which call takes the next step, and what it is answered. -/
def State.run : State E → List (ℕ × Answer E) → Option (State E)
  | s, [] => some s
  | s, (i, a) :: rest => (s.step i a).bind fun s' => s'.run rest

/-- A schedule is a run. -/
theorem steps_of_run {s s' : State E} (schedule : List (ℕ × Answer E))
    (h : s.run schedule = some s') : Steps s s' := by
  induction schedule generalizing s with
  | nil =>
    cases h
    exact .refl
  | cons x rest ih =>
    obtain ⟨u, hstep, hrest⟩ := Option.bind_eq_some_iff.mp h
    exact .head ⟨x.1, x.2, hstep⟩ (ih hrest)

/-- An error of the installer. -/
def offline : Exc Unit := .microsandbox (.baseError "download failed")

/-- Call `i` of `ensure_runtime!` comes to its installer run and back. -/
def ensureRuntime (i : ℕ) (r : Except (Exc Unit) Unit) : List (ℕ × Answer Unit) :=
  [(i, .call .ensureRuntime), (i, .go), (i, .go), (i, .go), (i, .backend (.ok "local")),
    (i, .runtimePath none (.ok "")), (i, .env none), (i, .installed true), (i, .go), (i, .go),
    (i, .installer r), (i, .go)]

/-- The installer run of call 0 fails, and call 1 tries again. -/
theorem provisioned_retry : ∃ s : State Unit, Provisioned s ∧ s.ready = true ∧
    s.calls 0 = some ⟨.ensureRuntime, .raised offline,
      [.backend "local", .began .install, .finished (.error offline)]⟩ ∧
    s.calls 1 = some ⟨.ensureRuntime, .returned,
      [.backend "local", .began .install, .finished (.ok ()), .set]⟩ := by
  refine ⟨_, provisioned Unit _ (steps_of_run (ensureRuntime 0 (.error offline) ++ [(0, .go)] ++
    ensureRuntime 1 (.ok ()) ++ [(1, .go), (1, .go)]) rfl), rfl, rfl, rfl⟩

end Sample

end MicrosandboxRb.Provision
