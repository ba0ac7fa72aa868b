import Mathlib.Data.List.Basic
import Mathlib.Data.List.Induction
import Mathlib.Logic.Function.Basic
import Mathlib.Logic.Relation

/-!
# Futures over a value behind an asynchronous mutex

A `Future` is a task that locks a mutex, reads or replaces the value behind it while it holds the
guard, gives the guard back, and awaits calls of the outside world, with or without the guard. Any
number of tasks run over one mutex, in any interleaving; an awaited call may answer anything, at any
time, or panic. The guard of a task that panics is dropped. A waiting task may get a free lock in
any order, so what is proved here holds for a fair mutex too.

A world keeps a log of everything that has happened. Two views of it are related:

* `Ran`: the events of one task, as a run of its future alone;
* `Run`: the worlds that the tasks of a set of futures reach together.

## Main results

* `Ran.always`: a property of every event of a future, from what the future did before it, by the
  rules of `Future.Along`;
* `Run.split`: before every event of a log there was a reachable world in which the event could
  happen;
* `Run.holder_iff`, `Run.value_of_view`: the lock excludes, so that what a task saw under the guard
  stays true until it gives the guard back;
* `along_takeAndCall`: a task that takes the value and then calls once does so in this order;
* `Run.exists_finish`: the task that holds the guard can run until it gives it back.
-/

namespace AsyncMutex

/-- A task over a value of type `σ`, with a result of type `α`. It can await the calls of a type
`κ`, and the call `c` is answered in the type `ρ c`. -/
inductive Future (σ : Type) {κ : Type} (ρ : κ → Type) (α : Type) where
  | ready (a : α)
  /-- `mutex.lock().await`. -/
  | lock (k : Future σ ρ α)
  /-- Replace the value under the guard, and continue with the value it had. -/
  | access (f : σ → σ) (k : σ → Future σ ρ α)
  /-- Drop the guard. -/
  | unlock (k : Future σ ρ α)
  /-- Await a call. -/
  | call (c : κ) (k : ρ c → Future σ ρ α)

/-- What a task does, as others can see it. -/
inductive Event (σ : Type) {κ : Type} (ρ : κ → Type) (α : Type) where
  | acquired
  | accessed (before after : σ)
  | released
  | began (c : κ)
  | finished (c : κ) (r : ρ c)
  | panicked (c : κ)
  | returned (a : α)

namespace Future

variable {σ κ α β γ : Type} {ρ : κ → Type}

/-- Go on with `g` when the future is ready. -/
def bind : Future σ ρ α → (α → Future σ ρ β) → Future σ ρ β
  | .ready a, g => g a
  | .lock k, g => .lock (k.bind g)
  | .access f k, g => .access f fun v => (k v).bind g
  | .unlock k, g => .unlock (k.bind g)
  | .call c k, g => .call c fun r => (k r).bind g

instance : Monad (Future σ ρ) where
  pure := .ready
  bind := bind

@[simp] theorem pure_eq (a : α) : (pure a : Future σ ρ α) = .ready a := rfl

@[simp] theorem ready_bind (a : α) (g : α → Future σ ρ β) : (.ready a >>= g) = g a := rfl

@[simp] theorem lock_bind (k : Future σ ρ α) (g : α → Future σ ρ β) :
    (.lock k >>= g) = .lock (k >>= g) := rfl

@[simp] theorem access_bind (f : σ → σ) (k : σ → Future σ ρ α) (g : α → Future σ ρ β) :
    (.access f k >>= g) = .access f fun v => k v >>= g := rfl

@[simp] theorem unlock_bind (k : Future σ ρ α) (g : α → Future σ ρ β) :
    (.unlock k >>= g) = .unlock (k >>= g) := rfl

@[simp] theorem call_bind (c : κ) (k : ρ c → Future σ ρ α) (g : α → Future σ ρ β) :
    (.call c k >>= g) = .call c fun r => k r >>= g := rfl

@[simp] theorem map_eq_bind (g : α → β) (f : Future σ ρ α) : g <$> f = f >>= fun a => .ready (g a) :=
  rfl

/-- Going on is associative. -/
theorem bind_assoc (f : Future σ ρ α) (g : α → Future σ ρ β) (h : β → Future σ ρ γ) :
    (f >>= g) >>= h = f >>= fun a => g a >>= h := by
  induction f with
  | ready a => rfl
  | lock k ih => simp only [lock_bind, ih]
  | access f k ih => simp only [access_bind, ih]
  | unlock k ih => simp only [unlock_bind, ih]
  | call c k ih => simp only [call_bind, ih]

/-- Await a call. -/
def await (c : κ) : Future σ ρ (ρ c) := .call c .ready

/-- Replace the value under the guard, and return the value it had. -/
def replace (f : σ → σ) : Future σ ρ σ := .access f .ready

/-- A block that holds the guard until its end. -/
def withGuard (body : Future σ ρ α) : Future σ ρ α :=
  .lock do
    let a ← body
    .unlock (.ready a)

/-- Make one call with what was taken, if there was something. -/
def afterTaking {τ : Type} {ρ : κ → Type} (call : τ → κ) (finish : ∀ x, ρ (call x) → α)
    (absent : α) : Option τ → Future (Option τ) ρ α
  | some x => .call (call x) fun r => .ready (finish x r)
  | none => .ready absent

/-- Take what is there, drop the guard, and then make one call with it. -/
def takeAndCall {τ : Type} {ρ : κ → Type} (call : τ → κ) (finish : ∀ x, ρ (call x) → α)
    (absent : α) : Future (Option τ) ρ α :=
  .lock (.access (fun _ => none) fun taken => .unlock (afterTaking call finish absent taken))

/-- Every event of the future satisfies `P`, together with what the future did before it, when it
has done `h` so far. -/
def Along (P : List (Event σ ρ α) → Event σ ρ α → Prop) : List (Event σ ρ α) → Future σ ρ α → Prop
  | h, .ready a => P h (.returned a)
  | h, .lock k => P h .acquired ∧ Along P (h ++ [.acquired]) k
  | h, .access f k => ∀ v, P h (.accessed v (f v)) ∧ Along P (h ++ [.accessed v (f v)]) (k v)
  | h, .unlock k => P h .released ∧ Along P (h ++ [.released]) k
  | h, .call c k => P h (.began c) ∧ P (h ++ [.began c]) (.panicked c) ∧
      ∀ r, P (h ++ [.began c]) (.finished c r) ∧ Along P (h ++ [.began c] ++ [.finished c r]) (k r)

/-- A weaker condition holds along the same future. -/
theorem Along.mono {P Q : List (Event σ ρ α) → Event σ ρ α → Prop} (hPQ : ∀ h e, P h e → Q h e)
    {f : Future σ ρ α} {h : List (Event σ ρ α)} (hf : f.Along P h) : f.Along Q h := by
  induction f generalizing h with
  | ready a => exact hPQ _ _ hf
  | lock k ih => exact ⟨hPQ _ _ hf.1, ih hf.2⟩
  | access g k ih =>
    intro v
    exact ⟨hPQ _ _ (hf v).1, ih v (hf v).2⟩
  | unlock k ih => exact ⟨hPQ _ _ hf.1, ih hf.2⟩
  | call c k ih =>
    refine ⟨hPQ _ _ hf.1, hPQ _ _ hf.2.1, ?_⟩
    intro r
    exact ⟨hPQ _ _ (hf.2.2 r).1, ih r (hf.2.2 r).2⟩

end Future

/-! ## One task -/

/-- Where a task stands. -/
inductive Task (σ : Type) {κ : Type} (ρ : κ → Type) (α : Type) where
  | running (f : Future σ ρ α)
  | awaiting (c : κ) (k : ρ c → Future σ ρ α)
  | ended

section Local

variable {σ κ α : Type} {ρ : κ → Type}

/-- What a task can do next, by itself. -/
inductive TaskStep : Task σ ρ α → Event σ ρ α → Task σ ρ α → Prop
  | ready (a : α) : TaskStep (.running (.ready a)) (.returned a) .ended
  | lock (k : Future σ ρ α) : TaskStep (.running (.lock k)) .acquired (.running k)
  | access (f : σ → σ) (k : σ → Future σ ρ α) (v : σ) :
      TaskStep (.running (.access f k)) (.accessed v (f v)) (.running (k v))
  | unlock (k : Future σ ρ α) : TaskStep (.running (.unlock k)) .released (.running k)
  | call (c : κ) (k : ρ c → Future σ ρ α) :
      TaskStep (.running (.call c k)) (.began c) (.awaiting c k)
  | finish (c : κ) (k : ρ c → Future σ ρ α) (r : ρ c) :
      TaskStep (.awaiting c k) (.finished c r) (.running (k r))
  | panic (c : κ) (k : ρ c → Future σ ρ α) : TaskStep (.awaiting c k) (.panicked c) .ended

/-- The events of a future run alone, and where it then stands. -/
inductive Ran (f : Future σ ρ α) : List (Event σ ρ α) → Task σ ρ α → Prop
  | start : Ran f [] (.running f)
  | step {es : List (Event σ ρ α)} {t t' : Task σ ρ α} {e : Event σ ρ α} :
      Ran f es t → TaskStep t e t' → Ran f (es ++ [e]) t'

/-- Every event of a list satisfies `P`, together with the events before it. -/
def Always {ε : Type} (P : List ε → ε → Prop) (es : List ε) : Prop :=
  ∀ before e after, es = before ++ e :: after → P before e

/-- A condition on each event and those before it, one event on. -/
theorem always_concat {ε : Type} {P : List ε → ε → Prop} {es : List ε} {e : ε}
    (hes : Always P es) (he : P es e) : Always P (es ++ [e]) := by
  intro before x after hsplit
  rcases List.eq_nil_or_concat after with rfl | ⟨after, y, rfl⟩
  · obtain ⟨rfl, hx⟩ := List.append_inj' hsplit rfl
    cases hx
    exact he
  · have hsplit' : es ++ [e] = (before ++ x :: after) ++ [y] := by simpa using hsplit
    obtain ⟨rfl, -⟩ := List.append_inj' hsplit' rfl
    exact hes before x after rfl

/-- `Future.Along`, for a task. -/
def Task.Along (P : List (Event σ ρ α) → Event σ ρ α → Prop) (h : List (Event σ ρ α)) :
    Task σ ρ α → Prop
  | .running f => f.Along P h
  | .awaiting c k => P h (.panicked c) ∧
      ∀ r, P h (.finished c r) ∧ (k r).Along P (h ++ [.finished c r])
  | .ended => True

/-- A step meets the condition, and the task that is left goes on meeting it. -/
theorem TaskStep.along {P : List (Event σ ρ α) → Event σ ρ α → Prop} {h : List (Event σ ρ α)}
    {t t' : Task σ ρ α} {e : Event σ ρ α} (hstep : TaskStep t e t') (ht : t.Along P h) :
    P h e ∧ t'.Along P (h ++ [e]) := by
  cases hstep with
  | ready a => exact ⟨ht, trivial⟩
  | lock k => exact ht
  | access f k v => exact ht v
  | unlock k => exact ht
  | call c k => exact ht
  | finish c k r => exact ht.2 r
  | panic c k => exact ⟨ht.1, trivial⟩

/-- The rule for the events of one task: what its future promises of every event holds of every
event of every run. -/
theorem Ran.always {P : List (Event σ ρ α) → Event σ ρ α → Prop} {f : Future σ ρ α}
    (hf : f.Along P []) {es : List (Event σ ρ α)} {t : Task σ ρ α} (hran : Ran f es t) :
    Always P es ∧ t.Along P es := by
  induction hran with
  | start =>
    refine ⟨?_, hf⟩
    intro before e after hsplit
    cases before <;> cases hsplit
  | step _ hstep ih =>
    obtain ⟨hnow, hlater⟩ := hstep.along ih.2
    exact ⟨always_concat ih.1 hnow, hlater⟩

/-- A future that has not moved is where it began. -/
theorem Ran.of_nil {f : Future σ ρ α} {t : Task σ ρ α} (h : Ran f [] t) : t = .running f := by
  generalize hes : ([] : List (Event σ ρ α)) = es at h
  cases h with
  | start => rfl
  | step _ _ => simp at hes

/-- Where a future stands after it has locked. -/
theorem Ran.of_lock {k : Future σ ρ α} {t : Task σ ρ α} (h : Ran (.lock k) [.acquired] t) :
    t = .running k := by
  generalize hes : [Event.acquired] = es at h
  cases h with
  | start => cases hes
  | step hran hstep =>
    obtain ⟨rfl, he⟩ := List.append_inj' (show [] ++ [Event.acquired] = _ ++ [_] from hes) rfl
    cases he
    rw [hran.of_nil] at hstep
    cases hstep
    rfl

/-- Nothing follows the end of a future. -/
theorem along_not_returned (f : Future σ ρ α) {h : List (Event σ ρ α)}
    (hh : ∀ a, .returned a ∉ h) : f.Along (fun h _ => ∀ a, .returned a ∉ h) h := by
  have hconcat : ∀ (h : List (Event σ ρ α)) (e : Event σ ρ α), (∀ a, e ≠ .returned a) →
      (∀ a, .returned a ∉ h) → ∀ a, .returned a ∉ h ++ [e] := by
    intro h e he hh a hmem
    rcases List.mem_append.mp hmem with hmem | hmem
    · exact hh a hmem
    · exact he a (List.mem_singleton.mp hmem).symm
  induction f generalizing h with
  | ready a => exact hh
  | lock k ih => exact ⟨hh, ih (hconcat h _ (by simp) hh)⟩
  | access g k ih =>
    intro v
    exact ⟨hh, ih v (hconcat h _ (by simp) hh)⟩
  | unlock k ih => exact ⟨hh, ih (hconcat h _ (by simp) hh)⟩
  | call c k ih =>
    have hbegan := hconcat h (.began c) (by simp) hh
    refine ⟨hh, hbegan, ?_⟩
    intro r
    exact ⟨hbegan, ih r (hconcat _ _ (by simp) hbegan)⟩

end Local

/-! ## All tasks -/

section Worlds

variable {σ κ α : Type} {ρ : κ → Type}

namespace Event

/-- Who holds the guard after an event of task `i`. A task that ends drops its guard. -/
def holderAfter (i : ℕ) (holder : Option ℕ) : Event σ ρ α → Option ℕ
  | .acquired => some i
  | .released | .panicked _ | .returned _ => if holder = some i then none else holder
  | .accessed _ _ | .began _ | .finished _ _ => holder

/-- Whether the task itself holds the guard after an event. -/
def heldAfter (held : Bool) : Event σ ρ α → Bool
  | .acquired => true
  | .released | .panicked _ | .returned _ => false
  | .accessed _ _ | .began _ | .finished _ _ => held

/-- What the task knows of the value after an event. -/
def viewAfter (seen : Option σ) : Event σ ρ α → Option σ
  | .accessed _ v => some v
  | .acquired | .released | .panicked _ | .returned _ => none
  | .began _ | .finished _ _ => seen

/-- The value that an event leaves. -/
def valueAfter (value : σ) : Event σ ρ α → σ
  | .accessed _ v => v
  | .acquired | .released | .panicked _ | .returned _ | .began _ | .finished _ _ => value

end Event

/-- Whether a task with these events holds the guard. -/
def holds (es : List (Event σ ρ α)) : Bool := es.foldl Event.heldAfter false

/-- The value as a task with these events has left it, when it holds the guard and has accessed the
value under it. -/
def view (es : List (Event σ ρ α)) : Option σ := es.foldl Event.viewAfter none

/-- The events of task `i`. -/
def eventsOf (i : ℕ) (log : List (ℕ × Event σ ρ α)) : List (Event σ ρ α) :=
  log.filterMap fun x => if x.1 = i then some x.2 else none

/-- The mutex, the tasks that have been started, and what has happened. -/
structure World (σ : Type) {κ : Type} (ρ : κ → Type) (α : Type) where
  value : σ
  holder : Option ℕ
  tasks : ℕ → Option (Task σ ρ α)
  log : List (ℕ × Event σ ρ α)

namespace World

/-- No task has been started. -/
def init (v : σ) : World σ ρ α := { value := v, holder := none, tasks := fun _ => none, log := [] }

/-- Start a future as task `i`. -/
def spawn (w : World σ ρ α) (i : ℕ) (f : Future σ ρ α) : World σ ρ α :=
  { w with tasks := Function.update w.tasks i (some (.running f)) }

/-- What the mutex demands of an event of task `i`. -/
def Allows (w : World σ ρ α) (i : ℕ) : Event σ ρ α → Prop
  | .acquired => w.holder = none
  | .accessed v _ => w.holder = some i ∧ w.value = v
  | .released => w.holder = some i
  | _ => True

/-- The world after an event of task `i`, which then stands at `t`. -/
def after (w : World σ ρ α) (i : ℕ) (e : Event σ ρ α) (t : Task σ ρ α) : World σ ρ α where
  value := e.valueAfter w.value
  holder := e.holderAfter i w.holder
  tasks := Function.update w.tasks i (some t)
  log := w.log ++ [(i, e)]

end World

/-- One event of one task. -/
inductive Act (w : World σ ρ α) (i : ℕ) (e : Event σ ρ α) : World σ ρ α → Prop
  | intro {t t' : Task σ ρ α} : w.tasks i = some t → TaskStep t e t' → w.Allows i e →
      Act w i e (w.after i e t')

/-- What happens is allowed. -/
theorem Act.allows {w w' : World σ ρ α} {i : ℕ} {e : Event σ ρ α} (h : Act w i e w') :
    w.Allows i e := by
  obtain ⟨-, -, hallows⟩ := h
  exact hallows

/-- The worlds reached from the value `v` when task `i`, once it has been started, runs `F i`. -/
inductive Run (F : ℕ → Future σ ρ α) (v : σ) : World σ ρ α → Prop
  | init : Run F v (World.init v)
  | spawn {w : World σ ρ α} {i : ℕ} : Run F v w → w.tasks i = none → Run F v (w.spawn i (F i))
  | act {w w' : World σ ρ α} {i : ℕ} {e : Event σ ρ α} :
      Run F v w → Act w i e w' → Run F v w'

section Views

variable {es : List (Event σ ρ α)} {e : Event σ ρ α} {i j : ℕ} {log : List (ℕ × Event σ ρ α)}

@[simp] theorem holds_nil : holds ([] : List (Event σ ρ α)) = false := rfl

@[simp] theorem view_nil : view ([] : List (Event σ ρ α)) = none := rfl

@[simp] theorem holds_concat : holds (es ++ [e]) = e.heldAfter (holds es) := List.foldl_concat ..

@[simp] theorem view_concat : view (es ++ [e]) = e.viewAfter (view es) := List.foldl_concat ..

/-- What a task saw, it has accessed. -/
theorem exists_accessed_of_view {x : σ} (hview : view es = some x) : ∃ v, .accessed v x ∈ es := by
  induction es using List.reverseRecOn with
  | nil => cases hview
  | append_singleton es e ih =>
    rw [view_concat] at hview
    cases e with
    | accessed v y =>
      cases hview
      exact ⟨v, by simp⟩
    | began | finished =>
      obtain ⟨v, hmem⟩ := ih hview
      exact ⟨v, List.mem_append_left _ hmem⟩
    | acquired | released | panicked | returned => cases hview

/-- A task that locks only as its first event and has dropped the guard never holds it again. -/
theorem holds_append_eq_false {es es' : List (Event σ ρ α)}
    (hfirst : Always (fun h e => e = .acquired → h = []) (es ++ es')) (hlocked : .acquired ∈ es)
    (hdropped : holds es = false) : holds (es ++ es') = false := by
  induction es' using List.reverseRecOn with
  | nil => simpa using hdropped
  | append_singleton es' e ih =>
    have hprev : holds (es ++ es') = false := by
      refine ih ?_
      intro before x after hsplit
      refine hfirst before x (after ++ [e]) ?_
      rw [← List.append_assoc, hsplit]
      simp
    rw [← List.append_assoc, holds_concat]
    cases e with
    | acquired =>
      have hempty := hfirst (es ++ es') .acquired [] (by simp) rfl
      rw [(List.append_eq_nil_iff.mp hempty).1] at hlocked
      cases hlocked
    | accessed | began | finished => exact hprev
    | released | panicked | returned => rfl

@[simp] theorem eventsOf_nil : eventsOf i ([] : List (ℕ × Event σ ρ α)) = [] := rfl

@[simp] theorem eventsOf_concat_self : eventsOf i (log ++ [(i, e)]) = eventsOf i log ++ [e] := by
  simp [eventsOf]

/-- The event of another task is none of this one. -/
theorem eventsOf_concat_of_ne (hne : j ≠ i) : eventsOf i (log ++ [(j, e)]) = eventsOf i log := by
  simp [eventsOf, hne]

/-- The events of a task, log by log. -/
theorem eventsOf_append (log' : List (ℕ × Event σ ρ α)) :
    eventsOf i (log ++ log') = eventsOf i log ++ eventsOf i log' :=
  List.filterMap_append

/-- The first event of the log. -/
theorem eventsOf_cons_self : eventsOf i ((i, e) :: log) = e :: eventsOf i log := by
  simp [eventsOf]

@[simp] theorem mem_eventsOf : e ∈ eventsOf i log ↔ (i, e) ∈ log := by
  simp only [eventsOf, List.mem_filterMap, Option.ite_none_right_eq_some, Option.some.injEq]
  constructor
  · rintro ⟨⟨k, x⟩, hmem, rfl, rfl⟩
    exact hmem
  · intro hmem
    exact ⟨(i, e), hmem, rfl, rfl⟩

end Views

namespace World

variable (w : World σ ρ α) (i : ℕ) (e : Event σ ρ α) (t : Task σ ρ α)

@[simp] theorem value_after : (w.after i e t).value = e.valueAfter w.value := rfl

@[simp] theorem holder_after : (w.after i e t).holder = e.holderAfter i w.holder := rfl

@[simp] theorem log_after : (w.after i e t).log = w.log ++ [(i, e)] := rfl

@[simp] theorem tasks_after : (w.after i e t).tasks i = some t := Function.update_self ..

/-- An event moves its own task only. -/
theorem tasks_after_of_ne {j : ℕ} (hne : j ≠ i) : (w.after i e t).tasks j = w.tasks j :=
  Function.update_of_ne hne ..

end World

namespace Run

variable {F : ℕ → Future σ ρ α} {v : σ} {w : World σ ρ α}

/-- The log holds of every task a run of its own future. -/
theorem ran (h : Run F v w) (i : ℕ) :
    (w.tasks i = none → eventsOf i w.log = []) ∧
      ∀ t, w.tasks i = some t → Ran (F i) (eventsOf i w.log) t := by
  induction h with
  | init => exact ⟨fun _ => rfl, by rintro t ⟨⟩⟩
  | @spawn w j _ hnew ih =>
    by_cases hij : i = j
    · subst hij
      refine ⟨?_, ?_⟩
      · simp [World.spawn]
      · intro t ht
        -- the task starts with no event behind it
        have ht' : Task.running (F i) = t := by simpa [World.spawn] using ht
        subst ht'
        simpa only [World.spawn, ih.1 hnew] using Ran.start
    · simpa only [World.spawn, Function.update_of_ne hij] using ih
  | @act w w' j e _ hact ih =>
    obtain ⟨htask, hstep, -⟩ := hact
    by_cases hij : j = i
    · subst hij
      refine ⟨?_, ?_⟩
      · simp [World.after]
      · intro t ht
        simp only [World.after, Function.update_self, Option.some.injEq] at ht
        subst ht
        simpa only [World.after, eventsOf_concat_self] using (ih.2 _ htask).step hstep
    · simpa only [World.after, eventsOf_concat_of_ne hij,
        Function.update_of_ne (Ne.symm hij)] using ih

/-- The rule for every event of a log: in a reachable world with the log up to the event, a task
could take the step. -/
theorem split (h : Run F v w) {before after : List (ℕ × Event σ ρ α)} {i : ℕ} {e : Event σ ρ α}
    (hlog : w.log = before ++ (i, e) :: after) :
    ∃ u u', Run F v u ∧ u.log = before ∧ Act u i e u' := by
  induction h generalizing after with
  | init => cases before <;> cases hlog
  | spawn _ _ ih => exact ih hlog
  | @act w w' j e' hrun hact ih =>
    have hact' := hact
    obtain ⟨htask, hstep, hallows⟩ := hact
    simp only [World.after] at hlog
    rcases List.eq_nil_or_concat after with rfl | ⟨after, y, rfl⟩
    · obtain ⟨rfl, hx⟩ := List.append_inj' hlog rfl
      cases hx
      exact ⟨w, _, hrun, rfl, hact'⟩
    · have hsplit : w.log ++ [(j, e')] = (before ++ (i, e) :: after) ++ [y] := by
        simpa using hlog
      exact ih (List.append_inj' hsplit rfl).1

/-- What every future promises of its events holds of every event in the log. -/
theorem always (h : Run F v w) {i : ℕ} {P : List (Event σ ρ α) → Event σ ρ α → Prop}
    (hF : (F i).Along P []) : Always P (eventsOf i w.log) := by
  cases ht : w.tasks i with
  | none =>
    rw [(h.ran i).1 ht]
    intro before e after hsplit
    cases before <;> cases hsplit
  | some t => exact (((h.ran i).2 t ht).always hF).1

/-- What a future promises of its events, at a step. -/
theorem along_act (h : Run F v w) {i : ℕ} {e : Event σ ρ α} {w' : World σ ρ α} (hact : Act w i e w')
    {P : List (Event σ ρ α) → Event σ ρ α → Prop} (hF : (F i).Along P []) :
    P (eventsOf i w.log) e := by
  have halways := (h.act hact).always hF
  obtain ⟨-, -, -⟩ := hact
  rw [World.log_after, eventsOf_concat_self] at halways
  exact halways _ e [] rfl

/-- A call that has returned does nothing more. -/
theorem eventsOf_of_returned (h : Run F v w) {before after : List (ℕ × Event σ ρ α)} {i : ℕ} {a : α}
    (hlog : w.log = before ++ (i, .returned a) :: after) :
    eventsOf i w.log = eventsOf i before ++ [.returned a] := by
  have hlater : eventsOf i after = [] := by
    rw [List.eq_nil_iff_forall_not_mem]
    intro e hmem
    obtain ⟨mid, rest, hsplit⟩ := List.append_of_mem hmem
    have hevents : eventsOf i w.log =
        (eventsOf i before ++ .returned a :: mid) ++ e :: rest := by
      rw [hlog, eventsOf_append, eventsOf_cons_self, hsplit]
      simp
    exact h.always (along_not_returned (F i) (by simp)) _ e rest hevents a (by simp)
  rw [hlog, eventsOf_append, eventsOf_cons_self, hlater]

/-- Exactly the holder holds the guard. -/
theorem holder_iff (h : Run F v w) (i : ℕ) : w.holder = some i ↔ holds (eventsOf i w.log) := by
  induction h with
  | init => simp [World.init]
  | spawn _ _ ih => exact ih
  | @act w w' j e _ hact ih =>
    obtain ⟨-, -, hallows⟩ := hact
    by_cases hij : j = i
    · subst hij
      rw [World.after, eventsOf_concat_self, holds_concat]
      cases e with
      | accessed | began | finished => exact ih
      | acquired => simp [Event.holderAfter, Event.heldAfter]
      | released | panicked | returned => by_cases hheld : w.holder = some j <;>
          simp [Event.holderAfter, Event.heldAfter, hheld]
    · rw [World.after, eventsOf_concat_of_ne hij]
      cases e with
      | accessed | began | finished => exact ih
      | acquired =>
        -- nobody held the guard
        have hfree : w.holder = none := hallows
        simp only [hfree, reduceCtorEq, false_iff, Bool.not_eq_true] at ih
        simp [Event.holderAfter, ih, hij]
      | released | panicked | returned =>
        by_cases hheld : w.holder = some j
        · simp only [hheld, Option.some.injEq, hij, false_iff, Bool.not_eq_true] at ih
          simp [Event.holderAfter, hheld, ih]
        · simpa [Event.holderAfter, hheld] using ih

/-- A task that does not hold the guard leaves it free. -/
theorem holder_eq_none (h : Run F v w) {i : ℕ} (hfree : w.holder = none ∨ w.holder = some i)
    (hnot : holds (eventsOf i w.log) = false) : w.holder = none := by
  rcases hfree with hfree | hheld
  · exact hfree
  · rw [(h.holder_iff i).mp hheld] at hnot
    cases hnot

/-- Two tasks that hold the guard are one. -/
theorem holder_unique (h : Run F v w) {i j : ℕ} (hi : holds (eventsOf i w.log))
    (hj : holds (eventsOf j w.log)) : i = j := by
  rw [← h.holder_iff] at hi hj
  exact Option.some.inj (hi.symm.trans hj)

/-- What a task saw under the guard stays true until it gives the guard back. -/
theorem value_of_view (h : Run F v w) {i : ℕ} {x : σ} (hview : view (eventsOf i w.log) = some x) :
    holds (eventsOf i w.log) ∧ w.value = x := by
  induction h with
  | init => cases hview
  | spawn _ _ ih => exact ih hview
  | @act w w' j e hrun hact ih =>
    obtain ⟨-, -, hallows⟩ := hact
    by_cases hij : j = i
    · subst hij
      rw [World.after, eventsOf_concat_self, view_concat] at hview
      rw [World.after, eventsOf_concat_self, holds_concat]
      cases e with
      | accessed a b => exact ⟨(hrun.holder_iff j).mp hallows.1, Option.some.inj hview⟩
      | began | finished => exact ih hview
      | acquired | released | panicked | returned => cases hview
    · rw [World.after, eventsOf_concat_of_ne hij] at hview
      obtain ⟨hheld, hvalue⟩ := ih hview
      rw [World.after, eventsOf_concat_of_ne hij]
      refine ⟨hheld, ?_⟩
      cases e with
      | accessed a b =>
        -- the other task would have to hold the guard
        exact absurd (hrun.holder_unique ((hrun.holder_iff j).mp hallows.1) hheld) hij
      | _ => exact hvalue

end Run

/-! ## Progress -/

/-- A future that accesses the value and drops the guard only while it holds the guard, and locks
and returns only while it does not. -/
def Disciplined (h : List (Event σ ρ α)) : Event σ ρ α → Prop
  | .acquired | .returned _ => holds h = false
  | .accessed _ _ | .released => holds h = true
  | .began _ | .finished _ _ | .panicked _ => True

/-- A task may return once it has dropped the guard. -/
theorem disciplined_returned_of_released (h : List (Event σ ρ α)) (a : α) :
    Disciplined (h ++ [.released]) (.returned a) := by
  rw [Disciplined, holds_concat]
  rfl

/-- The steps of one task, while no other task takes any. -/
def Alone (i : ℕ) : World σ ρ α → World σ ρ α → Prop :=
  Relation.ReflTransGen fun w w' => ∃ e, Act w i e w'

/-- What a task does alone belongs to the run. -/
theorem Alone.run {F : ℕ → Future σ ρ α} {v : σ} {w w' : World σ ρ α} {i : ℕ} (h : Alone i w w')
    (hrun : Run F v w) : Run F v w' := by
  induction h with
  | refl => exact hrun
  | tail _ hact ih =>
    obtain ⟨e, hact⟩ := hact
    exact ih.act hact

/-- A disciplined task that holds the guard, or finds it free, can run to its end by itself, and
then the guard is free. The induction is on what the future has left to do. -/
theorem Run.exists_finish [∀ c, Nonempty (ρ c)] {F : ℕ → Future σ ρ α} {v : σ} {i : ℕ}
    (f : Future σ ρ α) {w : World σ ρ α} (h : Run F v w) (htask : w.tasks i = some (.running f))
    (hfree : w.holder = none ∨ w.holder = some i)
    (hf : f.Along Disciplined (eventsOf i w.log)) :
    ∃ w', Alone i w w' ∧ w'.holder = none ∧ w'.tasks i = some .ended := by
  induction f generalizing w with
  | ready a =>
    have hact := Act.intro htask (.ready a) trivial
    refine ⟨_, .single ⟨_, hact⟩, ?_, World.tasks_after ..⟩
    simp [Event.holderAfter, h.holder_eq_none hfree hf]
  | lock k ih =>
    have hact := Act.intro htask (.lock k) (h.holder_eq_none hfree hf.1)
    obtain ⟨w', halone, hend⟩ := ih (h.act hact) (World.tasks_after ..) (Or.inr rfl)
      (by simpa using hf.2)
    exact ⟨w', .head ⟨_, hact⟩ halone, hend⟩
  | access g k ih =>
    obtain ⟨hheld, hrest⟩ := hf w.value
    have hholder := (h.holder_iff i).mpr hheld
    have hact := Act.intro htask (.access g k w.value) ⟨hholder, rfl⟩
    obtain ⟨w', halone, hend⟩ := ih w.value (h.act hact) (World.tasks_after ..) (Or.inr hholder)
      (by simpa using hrest)
    exact ⟨w', .head ⟨_, hact⟩ halone, hend⟩
  | unlock k ih =>
    have hholder := (h.holder_iff i).mpr hf.1
    have hact := Act.intro htask (.unlock k) hholder
    obtain ⟨w', halone, hend⟩ := ih (h.act hact) (World.tasks_after ..)
      (Or.inl (by simp [Event.holderAfter, hholder])) (by simpa using hf.2)
    exact ⟨w', .head ⟨_, hact⟩ halone, hend⟩
  | call c k ih =>
    -- a call may be answered with any reply; one is picked
    obtain ⟨r⟩ := ‹∀ c, Nonempty (ρ c)› c
    have hbegin := Act.intro htask (.call c k) trivial
    have hfinish := Act.intro (World.tasks_after w i (.began c) (.awaiting c k))
      (.finish c k r) trivial
    obtain ⟨w', halone, hend⟩ := ih r ((h.act hbegin).act hfinish) (World.tasks_after ..) hfree
      (by
        rw [World.log_after, eventsOf_concat_self, World.log_after, eventsOf_concat_self]
        exact (hf.2.2 r).2)
    exact ⟨w', .head ⟨_, hbegin⟩ (.head ⟨_, hfinish⟩ halone), hend⟩

/-- A task that has ended has dropped the guard. -/
theorem Ran.not_holds_of_ended {f : Future σ ρ α} {es : List (Event σ ρ α)} (h : Ran f es .ended) :
    holds es = false := by
  cases h with
  | step _ hstep => cases hstep <;> exact holds_concat

/-- A task ends by returning or in a panic. -/
theorem Ran.returned_or_panicked {f : Future σ ρ α} {es : List (Event σ ρ α)} (h : Ran f es .ended) :
    (∃ a, .returned a ∈ es) ∨ ∃ c, .panicked c ∈ es := by
  cases h with
  | step _ hstep =>
    cases hstep with
    | ready a => exact Or.inl ⟨a, by simp⟩
    | panic c => exact Or.inr ⟨c, by simp⟩

/-- The holder of the guard can run to its end. -/
theorem Run.exists_free [∀ c, Nonempty (ρ c)] {F : ℕ → Future σ ρ α} {v : σ} {w : World σ ρ α}
    {i : ℕ} (h : Run F v w) (hF : (F i).Along Disciplined []) (hheld : w.holder = some i) :
    ∃ w', Alone i w w' ∧ w'.holder = none := by
  -- the holder has events that hold the lock, so it has started and has not ended
  have hholds := (h.holder_iff i).mp hheld
  cases htask : w.tasks i with
  | none =>
    rw [(h.ran i).1 htask] at hholds
    cases hholds
  | some t =>
    have hran := (h.ran i).2 t htask
    have halong := (hran.always hF).2
    cases t with
    | running f =>
      obtain ⟨w', halone, hfree, -⟩ := h.exists_finish f htask (Or.inr hheld) halong
      exact ⟨w', halone, hfree⟩
    | awaiting c k =>
      -- the call is answered, and the task then runs to the end of its guard
      obtain ⟨r⟩ := ‹∀ c, Nonempty (ρ c)› c
      have hact := Act.intro htask (.finish c k r) trivial
      obtain ⟨w', halone, hfree, -⟩ := (h.act hact).exists_finish (k r) (World.tasks_after ..)
        (Or.inr hheld) (by simpa using (halong.2 r).2)
      exact ⟨w', .head ⟨_, hact⟩ halone, hfree⟩
    | ended =>
      rw [hran.not_holds_of_ended] at hholds
      cases hholds

/-! ## Schedules -/

/-- How the next step of a task goes: by itself, or by an answer of the outside world. -/
inductive Choice {κ : Type} (ρ : κ → Type) where
  | go
  | answer (r : ∀ c, ρ c)
  | panic

/-- The next step of a task, when the mutex lets it take it. -/
def World.exec (w : World σ ρ α) (i : ℕ) (choice : Choice ρ) : Option (World σ ρ α) :=
  match w.tasks i, choice with
  | some (.running (.ready a)), .go => some (w.after i (.returned a) .ended)
  -- a task cannot step while another one holds the lock
  | some (.running (.lock k)), .go =>
    if w.holder = none then some (w.after i .acquired (.running k)) else none
  | some (.running (.access f k)), .go =>
    if w.holder = some i then
      some (w.after i (.accessed w.value (f w.value)) (.running (k w.value)))
    else none
  | some (.running (.unlock k)), .go =>
    if w.holder = some i then some (w.after i .released (.running k)) else none
  | some (.running (.call c k)), .go => some (w.after i (.began c) (.awaiting c k))
  | some (.awaiting c k), .answer r => some (w.after i (.finished c (r c)) (.running (k (r c))))
  | some (.awaiting c _), .panic => some (w.after i (.panicked c) .ended)
  | _, _ => none

/-- A choice that can be taken is an event. -/
theorem act_of_exec {w w' : World σ ρ α} {i : ℕ} {choice : Choice ρ}
    (h : w.exec i choice = some w') : ∃ e, Act w i e w' := by
  unfold World.exec at h
  split at h
  case h_1 a htask => cases h; exact ⟨_, .intro htask (.ready a) trivial⟩
  case h_2 k htask =>
    obtain ⟨hfree, hw⟩ := Option.ite_none_right_eq_some.mp h
    cases hw
    exact ⟨_, .intro htask (.lock k) hfree⟩
  case h_3 f k htask =>
    obtain ⟨hheld, hw⟩ := Option.ite_none_right_eq_some.mp h
    cases hw
    exact ⟨_, .intro htask (.access f k _) ⟨hheld, rfl⟩⟩
  case h_4 k htask =>
    obtain ⟨hheld, hw⟩ := Option.ite_none_right_eq_some.mp h
    cases hw
    exact ⟨_, .intro htask (.unlock k) hheld⟩
  case h_5 c k htask => cases h; exact ⟨_, .intro htask (.call c k) trivial⟩
  case h_6 c k r htask => cases h; exact ⟨_, .intro htask (.finish c k (r c)) trivial⟩
  case h_7 c k htask => cases h; exact ⟨_, .intro htask (.panic c k) trivial⟩
  case h_8 => cases h

/-- A schedule: which task takes the next step, and how. -/
def World.execAll : World σ ρ α → List (ℕ × Choice ρ) → Option (World σ ρ α)
  | w, [] => some w
  | w, (i, choice) :: rest => (w.exec i choice).bind fun w' => w'.execAll rest

/-- A schedule adds to the log. -/
theorem mem_log_of_execAll {w w' : World σ ρ α} {schedule : List (ℕ × Choice ρ)}
    (h : w.execAll schedule = some w') {x : ℕ × Event σ ρ α} (hmem : x ∈ w.log) : x ∈ w'.log := by
  induction schedule generalizing w with
  | nil =>
    cases h
    exact hmem
  | cons y rest ih =>
    rw [World.execAll] at h
    obtain ⟨u, hexec, hrest⟩ := Option.bind_eq_some_iff.mp h
    obtain ⟨e, -, -, -⟩ := act_of_exec hexec
    exact ih hrest (List.mem_append_left _ hmem)

end Worlds

/-! ## Tasks that take the value -/

section Taking

variable {τ κ α : Type} {ρ : κ → Type}

/-- The events of `Future.takeAndCall`. -/
def Taking (call : τ → κ) (finish : ∀ x, ρ (call x) → α) (absent : α)
    (h : List (Event (Option τ) ρ α)) (e : Event (Option τ) ρ α) : Prop :=
  Disciplined h e ∧
    match e with
    | .acquired => h = []
    | .accessed _ after => h = [.acquired] ∧ after = none
    | .released => True
    | .began c => ∃ x, c = call x ∧ h = [.acquired, .accessed (some x) none, .released]
    | .finished c _ | .panicked c =>
      ∃ x, c = call x ∧ h = [.acquired, .accessed (some x) none, .released, .began c]
    | .returned a =>
      h = [.acquired, .accessed none none, .released] ∧ a = absent ∨
      ∃ x r, h = [.acquired, .accessed (some x) none, .released, .began (call x),
        .finished (call x) r] ∧ a = finish x r

/-- Such a task takes what is there, once, and only then calls. -/
theorem along_takeAndCall (call : τ → κ) (finish : ∀ x, ρ (call x) → α) (absent : α) :
    (Future.takeAndCall call finish absent).Along (Taking call finish absent) [] := by
  refine ⟨⟨rfl, rfl⟩, ?_⟩
  intro taken
  refine ⟨⟨rfl, rfl, rfl⟩, ⟨rfl, trivial⟩, ?_⟩
  cases taken with
  | none => exact ⟨rfl, Or.inl ⟨rfl, rfl⟩⟩
  | some x =>
    refine ⟨⟨trivial, x, rfl, rfl⟩, ⟨trivial, x, rfl, rfl⟩, ?_⟩
    intro r
    exact ⟨⟨trivial, x, rfl, rfl⟩, rfl, Or.inr ⟨x, r, rfl, rfl⟩⟩

end Taking

end AsyncMutex
