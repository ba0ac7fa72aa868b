import MicrosandboxRb.Stream.Model

/-!
# The handles serve one call after the other

Any number of threads call the methods of one `ExecHandle`, `LogStream`, `MetricsStream` or
`FsReadStream`, in every interleaving of their steps. Calls end on their way in by interrupts and
errors; the core answers the others in any way, at any time, or panics.

## Main results

* `HandleClass.Reaches.serves`: what the threads see is what one client of the core's handle sees;
* `handles_serve`: for the four classes.
-/

namespace MicrosandboxRb.Stream

open AsyncMutex

namespace HandleClass

variable {Core Methods E : Type} {Reply : Core → Type}

/-- The states of a handle, when call number `i` is a call of `method i`. -/
abbrev Reaches (C : HandleClass Reply Methods) (method : ℕ → Methods)
    (s : Calls.State Unit Reply Value E) : Prop :=
  Calls.Reaches (fun i => C.future (method i)) () s

/-- The steps of the threads. -/
abbrev Steps (C : HandleClass Reply Methods) (method : ℕ → Methods) :
    Calls.State Unit Reply Value E → Calls.State Unit Reply Value E → Prop :=
  Relation.ReflTransGen (Calls.Step fun i => C.future (method i))

/-- A handle whose core object is `obj` has served its callers. -/
structure Serves (C : HandleClass Reply Methods) (method : ℕ → Methods) (obj : Object Reply)
    (s : Calls.State Unit Reply Value E) : Prop where
  /-- The calls under the guard have been served one after the other. -/
  linearized : Linearized (fun i => C.one (method i)) obj s.world
  /-- A call that was ended on its way in has taken nothing from the core: without it, everything
  else could have happened just so. -/
  ended : ∀ i e, s.entry i = some (.failed e) →
    eventsOf i s.world.log = [] ∧
      C.Reaches method { s with entry := Function.update s.entry i none }
  /-- A new call that does not lock can be made and answered while nothing else moves, whoever holds
  the guard. -/
  outOfBand : ∀ i, s.entry i = none → (C.one (method i)).guarded = false →
    ∀ r, ∃ s', C.Steps method s s' ∧ (i, .returned ((C.one (method i)).finish r)) ∈ s'.world.log ∧
      ∀ j, j ≠ i → s'.entry j = s.entry j ∧ eventsOf j s'.world.log = eventsOf j s.world.log

variable {C : HandleClass Reply Methods} {method : ℕ → Methods} {s : Calls.State Unit Reply Value E}

/-- Every method is one call. -/
theorem futures_eq (C : HandleClass Reply Methods) (method : ℕ → Methods) :
    (fun i => C.future (method i)) = fun i => (C.one (method i)).future :=
  funext fun i => C.future_eq (method i)

/-- The calls take the steps of a run. -/
theorem Reaches.run (h : C.Reaches method s) :
    Run (fun i => (C.one (method i)).future) () s.world := by
  rw [← C.futures_eq method]
  exact (Calls.Reaches.run h).1

/-- A call beside the lock returns whatever the others do. -/
theorem exists_outOfBand {i : ℕ} (hi : s.entry i = none)
    (hguarded : (C.one (method i)).guarded = false) (r : Reply (C.one (method i)).core) :
    ∃ s', C.Steps method s s' ∧ (i, .returned ((C.one (method i)).finish r)) ∈ s'.world.log ∧
      ∀ j, j ≠ i → s'.entry j = s.entry j ∧ eventsOf j s'.world.log = eventsOf j s.world.log := by
  have henter := Calls.steps_enter (F := fun i => C.future (method i)) hi
  have htask : (s.world.spawn i (C.future (method i))).tasks i =
      some (.running (C.one (method i)).future) := by
    rw [← C.future_eq]
    exact Function.update_self ..
  obtain ⟨w', halone, hret⟩ :=
    Run.exists_direct (m := fun i => C.one (method i)) hguarded htask r
  refine ⟨_, henter.trans (Calls.steps_of_goes (Calls.goes_alone halone)), hret, ?_⟩
  intro j hj
  exact ⟨Function.update_of_ne hj .., halone.eventsOf_of_ne hj⟩

/-- In every state that the threads reach. -/
theorem Reaches.serves (h : C.Reaches method s) (obj : Object Reply) : C.Serves method obj s where
  linearized := h.run.linearized obj
  ended i e hi := by
    have hpolled : s.entry i ≠ some .polled := by simp [hi]
    exact ⟨Calls.Reaches.eventsOf_eq_nil h hpolled, Calls.Reaches.erase h hpolled⟩
  outOfBand _ hi hguarded r := exists_outOfBand hi hguarded r

end HandleClass

/-- For the four classes, any number of calls of any methods on one handle, every interleaving of
their steps, every answer of the core and every interrupt on the way into a call. -/
theorem handles_serve (E : Type) :
    (∀ method obj (s : Calls.State Unit FsReadStream.Core.Reply Value E),
      FsReadStream.handles.Reaches method s → FsReadStream.handles.Serves method obj s) ∧
    (∀ method obj (s : Calls.State Unit (StreamCore.Reply LogEntry) Value E),
      LogStream.handles.Reaches method s → LogStream.handles.Serves method obj s) ∧
    (∀ method obj (s : Calls.State Unit (StreamCore.Reply SandboxMetrics) Value E),
      MetricsStream.handles.Reaches method s → MetricsStream.handles.Serves method obj s) ∧
    (∀ method obj (s : Calls.State Unit ExecHandle.Core.Reply Value E),
      ExecHandle.handles.Reaches method s → ExecHandle.handles.Serves method obj s) :=
  ⟨fun _ obj _ h => h.serves obj, fun _ obj _ h => h.serves obj, fun _ obj _ h => h.serves obj,
    fun _ obj _ h => h.serves obj⟩

/-- The same answer to every `recv`, and success to everything else. -/
def ExecHandle.answers (event : Option ExecEvent) : ∀ c, ExecHandle.Core.Reply c
  | .recv => event
  | .wait => .ok { code := 0, success := true }
  | .collect =>
    .ok { status := { code := 0, success := true }, stdoutBytes := [], stderrBytes := [] }
  | .signal _ | .kill | .resize _ _ => .ok ()

open ExecHandle in
/-- One `recv` waits for the lock, another one for an event, and `kill` gets through. -/
theorem handles_serve_kill :
    let method : ℕ → Methods := fun i => if i = 2 then .kill else .recv
    let obj : Object Core.Reply := fun _ _ _ => True
    ∃ s : Calls.State Unit Core.Reply Value Unit,
      s.world.log = [(0, .acquired), (0, .began .recv), (2, .began .kill),
        (2, .finished .kill (.ok ())), (2, .returned (.ok .nil)),
        (0, .finished .recv (some (.exited 9))), (0, .released), (1, .acquired)] ∧
      handles.Serves method obj s := by
  intro method obj
  have hstart : handles.Reaches (E := Unit) method (.init ()) := .init
  have hreach := (((hstart.enter 0 rfl).enter 1 rfl).enter 2 rfl).execAll
    [(0, .go), (0, .go), (2, .go), (2, .answer (answers none)), (2, .go),
      (0, .answer (answers (some (.exited 9)))), (0, .go), (1, .go)] rfl
  exact ⟨_, rfl, (handles_serve Unit).2.2.2 method obj _ hreach⟩

end MicrosandboxRb.Stream
