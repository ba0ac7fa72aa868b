import MicrosandboxRb.Lib.AsyncMutex

/-!
# One call at a time

Tasks that make one call each of an object of the outside world, some of them while they hold the
guard of a mutex. The object may be one that only answers rightly when its calls do not overlap. The
calls under the guard are linearizable: they are served one after the other, in the order in which
their tasks locked, and each task returns what its own call was answered.

## Main results

* `OneCall.along`: the events of one task;
* `Run.apart`: no call under the guard begins while another is in flight;
* `Run.order`: the calls are served in the order of their locks;
* `Run.linearized`: what the tasks see is a history of the object with one client.
-/

namespace AsyncMutex

variable {σ κ α : Type} {ρ : κ → Type}

/-- A task that makes one call, and what it makes of the answer. -/
structure OneCall {κ : Type} (ρ : κ → Type) (α : Type) where
  core : κ
  /-- Whether it makes the call while it holds the guard. -/
  guarded : Bool
  finish : ρ core → α

namespace OneCall

variable (m : OneCall ρ α)

/-- What the task does after the answer. -/
def rest (r : ρ m.core) : Future σ ρ α :=
  if m.guarded then .unlock (.ready (m.finish r)) else .ready (m.finish r)

/-- The calls of a method, under the guard or without it. -/
def future : Future σ ρ α :=
  if m.guarded then .lock (.call m.core m.rest) else .call m.core m.rest

/-- The events before the call. -/
def start : List (Event σ ρ α) := if m.guarded then [.acquired] else []

/-- The events up to the answer. -/
def answered (r : ρ m.core) : List (Event σ ρ α) :=
  m.start ++ [.began m.core] ++ [.finished m.core r]

/-- The events between the answer and the return. -/
def stop : List (Event σ ρ α) := if m.guarded then [.released] else []

/-- The events of the task so far, and where it stands. -/
inductive Stage : List (Event σ ρ α) → Task σ ρ α → Prop
  | start : Stage [] (.running m.future)
  | locked : m.guarded = true → Stage m.start (.running (.call m.core m.rest))
  | began : Stage (m.start ++ [.began m.core]) (.awaiting m.core m.rest)
  | answered (r : ρ m.core) : Stage (m.answered r) (.running (m.rest r))
  | released (r : ρ m.core) : m.guarded = true →
      Stage (m.answered r ++ m.stop) (.running (.ready (m.finish r)))
  | returned (r : ρ m.core) : Stage (m.answered r ++ m.stop ++ [.returned (m.finish r)]) .ended
  | panicked : Stage (m.start ++ [.began m.core] ++ [.panicked m.core]) .ended

variable {m}

/-- A step goes from one stage to the next. -/
theorem Stage.step {es : List (Event σ ρ α)} {t t' : Task σ ρ α} {e : Event σ ρ α}
    (h : m.Stage es t) (hstep : TaskStep t e t') : m.Stage (es ++ [e]) t' := by
  cases h with
  | start =>
    cases hguarded : m.guarded with
    | true =>
      have hfuture : (m.future : Future σ ρ α) = .lock (.call m.core m.rest) := by
        simp [future, hguarded]
      have hstart : [.acquired] = (m.start : List (Event σ ρ α)) := by simp [OneCall.start, hguarded]
      rw [hfuture] at hstep
      cases hstep
      rw [List.nil_append, hstart]
      exact .locked hguarded
    | false =>
      have hfuture : (m.future : Future σ ρ α) = .call m.core m.rest := by simp [future, hguarded]
      have hstart : [] = (m.start : List (Event σ ρ α)) := by simp [OneCall.start, hguarded]
      rw [hfuture] at hstep
      cases hstep
      have hbegan : m.start ++ [.began m.core] = ([] ++ [.began m.core] : List (Event σ ρ α)) := by
        rw [← hstart]
      exact hbegan ▸ Stage.began
  | locked =>
    cases hstep
    exact .began
  | began =>
    cases hstep with
    | finish _ _ r => exact .answered r
    | panic => exact .panicked
  | answered r =>
    cases hguarded : m.guarded with
    | true =>
      have hrest : (m.rest r : Future σ ρ α) = .unlock (.ready (m.finish r)) := by
        simp [rest, hguarded]
      have hstop : [.released] = (m.stop : List (Event σ ρ α)) := by simp [stop, hguarded]
      rw [hrest] at hstep
      cases hstep
      rw [hstop]
      exact .released r hguarded
    | false =>
      have hrest : (m.rest r : Future σ ρ α) = .ready (m.finish r) := by simp [rest, hguarded]
      have hstop : m.answered r = m.answered r ++ (m.stop : List (Event σ ρ α)) := by
        simp [stop, hguarded]
      rw [hrest] at hstep
      cases hstep
      rw [hstop]
      exact .returned r
  | released r =>
    cases hstep
    exact .returned r
  -- a task that has ended takes no step
  | returned | panicked => cases hstep

/-- Wherever a method has come, it stands at one of its stages. -/
theorem Stage.of_ran {es : List (Event σ ρ α)} {t : Task σ ρ α} (h : Ran m.future es t) :
    m.Stage es t := by
  induction h with
  | start => exact .start
  | step _ hstep ih => exact ih.step hstep

/-- A task that has returned or panicked has ended. -/
theorem Stage.eq_ended {es : List (Event σ ρ α)} {t : Task σ ρ α} (h : m.Stage es t)
    (hend : (∃ a, .returned a ∈ es) ∨ ∃ c, .panicked c ∈ es) : t = .ended := by
  have hstart : (∀ a, .returned a ∉ (m.start : List (Event σ ρ α))) ∧
      ∀ c, .panicked c ∉ (m.start : List (Event σ ρ α)) := by
    cases hguarded : m.guarded <;> simp [OneCall.start, hguarded]
  have hstop : (∀ a, .returned a ∉ (m.stop : List (Event σ ρ α))) ∧
      ∀ c, .panicked c ∉ (m.stop : List (Event σ ρ α)) := by
    cases hguarded : m.guarded <;> simp [OneCall.stop, hguarded]
  cases h with
  | returned | panicked => rfl
  | start => simp at hend
  | locked | began | answered | released => simp [OneCall.answered, hstart, hstop] at hend

variable (m) in
/-- What an event tells of the events before it. -/
def Does (h : List (Event σ ρ α)) : Event σ ρ α → Prop
  | .acquired => m.guarded = true ∧ h = []
  | .accessed _ _ => False
  | .began c => c = m.core ∧ h = m.start
  | .finished c _ | .panicked c => c = m.core ∧ h = m.start ++ [.began m.core]
  | .released => m.guarded = true ∧ ∃ r, h = m.answered r
  | .returned a => ∃ r, h = m.answered r ++ m.stop ∧ a = m.finish r

/-- Everything the task does, it does at its place. -/
theorem along : (m.future : Future σ ρ α).Along m.Does [] := by
  cases hguarded : m.guarded with
  | true =>
    -- the guard is held from before the call until after its answer
    have hstart : m.start = ([.acquired] : List (Event σ ρ α)) := by simp [start, hguarded]
    simp only [future, hguarded, if_true]
    refine ⟨⟨hguarded, rfl⟩, ⟨rfl, hstart.symm⟩, ⟨rfl, by rw [hstart]; rfl⟩, ?_⟩
    intro r
    have hanswered : ([] ++ [.acquired] ++ [.began m.core] ++ [.finished m.core r] :
        List (Event σ ρ α)) = m.answered r := by
      rw [answered, hstart, List.nil_append]
    refine ⟨⟨rfl, by rw [hstart]; rfl⟩, ?_⟩
    rw [hanswered, rest, if_pos hguarded]
    exact ⟨⟨hguarded, r, rfl⟩, r, by rw [stop, if_pos hguarded], rfl⟩
  | false =>
    have hstart : m.start = ([] : List (Event σ ρ α)) := by simp [start, hguarded]
    simp only [future, hguarded, Bool.false_eq_true, if_false]
    refine ⟨⟨rfl, hstart.symm⟩, ⟨rfl, by rw [hstart]⟩, ?_⟩
    intro r
    have hanswered : ([] ++ [.began m.core] ++ [.finished m.core r] : List (Event σ ρ α)) =
        m.answered r := by
      rw [answered, hstart]
    refine ⟨⟨rfl, by rw [hstart]⟩, ?_⟩
    rw [hanswered, rest, if_neg (by simp [hguarded])]
    exact ⟨r, by simp [stop, hguarded], rfl⟩

/-- A guarded method begins its call with the guard. -/
@[simp] theorem holds_start : holds (m.start : List (Event σ ρ α)) = m.guarded := by
  cases hguarded : m.guarded <;> simp [start, hguarded, holds, Event.heldAfter]

/-- It has the guard when it is answered. -/
@[simp] theorem holds_answered (r : ρ m.core) :
    holds (m.answered r : List (Event σ ρ α)) = m.guarded := by
  rw [answered, holds_concat, holds_concat, holds_start]
  rfl

/-- It has given the guard back when it ends. -/
@[simp] theorem holds_stop (r : ρ m.core) :
    holds (m.answered r ++ m.stop : List (Event σ ρ α)) = false := by
  cases hguarded : m.guarded with
  | true =>
    have hstop : (m.stop : List (Event σ ρ α)) = [.released] := by simp [stop, hguarded]
    rw [hstop, holds_concat]
    rfl
  | false => simp [stop, hguarded]

end OneCall

/-! ## Histories -/

/-- How a call ended. -/
inductive Outcome {κ : Type} (ρ : κ → Type) where
  | answered (c : κ) (r : ρ c)
  | panicked (c : κ)

/-- What an object may answer a call, after it has served these calls one by one. -/
abbrev Object {κ : Type} (ρ : κ → Type) := List (Outcome ρ) → ∀ c, ρ c → Prop

/-- A history of the object, oldest call first, with one client. -/
inductive Object.History (obj : Object ρ) : List (Outcome ρ) → Prop
  | nil : obj.History []
  | answered {past : List (Outcome ρ)} {c : κ} {r : ρ c} :
      obj.History past → obj past c r → obj.History (past ++ [.answered c r])
  | panicked {past : List (Outcome ρ)} {c : κ} :
      obj.History past → obj.History (past ++ [.panicked c])

section Logs

variable (m : ℕ → OneCall ρ α)

/-- The end of a call under the guard. -/
def servedBy : ℕ × Event σ ρ α → Option (ℕ × Outcome ρ)
  | (i, .finished c r) => if (m i).guarded then some (i, .answered c r) else none
  | (i, .panicked c) => if (m i).guarded then some (i, .panicked c) else none
  | _ => none

/-- The calls that were made under the guard and have ended, in the order of their ends. -/
def served (log : List (ℕ × Event σ ρ α)) : List (ℕ × Outcome ρ) := log.filterMap (servedBy m)

/-- The tasks that have locked, in the order of their locks. -/
def locked (log : List (ℕ × Event σ ρ α)) : List ℕ :=
  log.filterMap fun x => match x.2 with
    | .acquired => some x.1
    | _ => none

/-- The call of task `i` has begun and has not ended. -/
def InFlight (log : List (ℕ × Event σ ρ α)) (i : ℕ) : Prop :=
  ∃ es c, eventsOf i log = es ++ [.began c]

/-- No call under the guard was begun while another one was in flight. -/
def Apart (log : List (ℕ × Event σ ρ α)) : Prop :=
  ∀ before i c after, log = before ++ (i, .began c) :: after → (m i).guarded = true →
    ∀ j, (m j).guarded = true → ¬ InFlight before j

/-- The object answers the calls under the guard as it should, as long as they do not overlap. -/
def Keeps (obj : Object ρ) (log : List (ℕ × Event σ ρ α)) : Prop :=
  ∀ before i c r after, log = before ++ (i, .finished c r) :: after → (m i).guarded = true →
    Apart m before → obj ((served m before).map Prod.snd) c r

/-- The holder of the guard, until its call has ended. -/
def waiting (w : World σ ρ α) : List ℕ :=
  w.holder.toList.filter fun i => i ∉ (served m w.log).map Prod.fst

/-- A call is served for the task that makes it. -/
theorem fst_of_servedBy {x : ℕ × Event σ ρ α} {y : ℕ × Outcome ρ} (h : servedBy m x = some y) :
    y.1 = x.1 := by
  obtain ⟨i, e⟩ := x
  cases e with
  | finished | panicked =>
    obtain ⟨-, hy⟩ := Option.ite_none_right_eq_some.mp h
    cases hy
    rfl
  | acquired | accessed | released | began | returned => cases h

/-- One event serves one call at most. -/
@[simp] theorem served_concat (log : List (ℕ × Event σ ρ α)) (x : ℕ × Event σ ρ α) :
    served m (log ++ [x]) = served m log ++ (servedBy m x).toList := by
  rw [served, List.filterMap_append, served]
  cases h : servedBy m x <;> simp [h]

/-- One event locks once at most. -/
@[simp] theorem locked_concat (log : List (ℕ × Event σ ρ α)) (i : ℕ) (e : Event σ ρ α) :
    locked (log ++ [(i, e)]) = locked log ++ (match e with | .acquired => [i] | _ => []) := by
  rw [locked, List.filterMap_append, locked]
  cases e <;> rfl

/-- A task has locked if its log says so. -/
theorem mem_locked {log : List (ℕ × Event σ ρ α)} {i : ℕ} :
    i ∈ locked log ↔ .acquired ∈ eventsOf i log := by
  rw [mem_eventsOf, locked, List.mem_filterMap]
  constructor
  · rintro ⟨⟨j, e⟩, hmem, he⟩
    cases e <;> cases he
    exact hmem
  · intro hmem
    exact ⟨_, hmem, rfl⟩

/-- The tasks that were served are those whose call under the guard has ended. -/
theorem mem_served {log : List (ℕ × Event σ ρ α)} {i : ℕ} :
    i ∈ (served m log).map Prod.fst ↔ (m i).guarded = true ∧
      ((∃ c r, .finished c r ∈ eventsOf i log) ∨ ∃ c, .panicked c ∈ eventsOf i log) := by
  simp only [List.mem_map, served, List.mem_filterMap, mem_eventsOf]
  constructor
  · rintro ⟨⟨j, o⟩, ⟨⟨k, e⟩, hmem, he⟩, rfl⟩
    cases e with
    | finished c r =>
      obtain ⟨hguarded, hsome⟩ := Option.ite_none_right_eq_some.mp he
      cases hsome
      exact ⟨hguarded, Or.inl ⟨c, r, hmem⟩⟩
    | panicked c =>
      obtain ⟨hguarded, hsome⟩ := Option.ite_none_right_eq_some.mp he
      cases hsome
      exact ⟨hguarded, Or.inr ⟨c, hmem⟩⟩
    | acquired | accessed | released | began | returned => cases he
  · rintro ⟨hguarded, ⟨c, r, hmem⟩ | ⟨c, hmem⟩⟩
    · exact ⟨(i, .answered c r), ⟨_, hmem, if_pos hguarded⟩, rfl⟩
    · exact ⟨(i, .panicked c), ⟨_, hmem, if_pos hguarded⟩, rfl⟩

/-- The answers that are served are those of guarded calls. -/
theorem answered_mem_served {log : List (ℕ × Event σ ρ α)} {i : ℕ} {c : κ} {r : ρ c} :
    (i, .answered c r) ∈ served m log ↔
      (m i).guarded = true ∧ .finished c r ∈ eventsOf i log := by
  simp only [served, List.mem_filterMap, mem_eventsOf]
  constructor
  · rintro ⟨⟨j, e⟩, hmem, he⟩
    cases e with
    | finished c' r' =>
      obtain ⟨hguarded, hsome⟩ := Option.ite_none_right_eq_some.mp he
      cases hsome
      exact ⟨hguarded, hmem⟩
    | panicked c' =>
      obtain ⟨-, hsome⟩ := Option.ite_none_right_eq_some.mp he
      cases hsome
    | acquired | accessed | released | began | returned => cases he
  · rintro ⟨hguarded, hmem⟩
    exact ⟨_, hmem, if_pos hguarded⟩

end Logs

/-! ## Runs -/

/-- The steps of one task are no events of another. -/
theorem Alone.eventsOf_of_ne {w w' : World σ ρ α} {i j : ℕ} (h : Alone i w w') (hj : j ≠ i) :
    eventsOf j w'.log = eventsOf j w.log := by
  induction h with
  | refl => rfl
  | tail _ hact ih =>
    obtain ⟨e, -, -, -⟩ := hact
    rw [World.log_after, eventsOf_concat_of_ne (Ne.symm hj), ih]

namespace Run

variable {m : ℕ → OneCall ρ α} {v : σ} {w w' : World σ ρ α}

/-- What an event of a run tells of the events of its task before it. -/
theorem does (h : Run (fun i => (m i).future) v w) {i : ℕ} {e : Event σ ρ α} (hact : Act w i e w') :
    (m i).Does (eventsOf i w.log) e :=
  h.along_act hact OneCall.along

/-- Each event is one that its method does at this point. -/
theorem does_of_split (h : Run (fun i => (m i).future) v w)
    {before after : List (ℕ × Event σ ρ α)} {i : ℕ} {e : Event σ ρ α}
    (hlog : w.log = before ++ (i, e) :: after) : (m i).Does (eventsOf i before) e := by
  obtain ⟨u, u', hrun, rfl, hact⟩ := h.split hlog
  exact hrun.does hact

/-- What a task with a call in flight has done. -/
theorem eventsOf_of_inFlight (h : Run (fun i => (m i).future) v w) {i : ℕ}
    (hflight : InFlight w.log i) : eventsOf i w.log = (m i).start ++ [.began (m i).core] := by
  obtain ⟨es, c, hes⟩ := hflight
  obtain ⟨rfl, rfl⟩ := h.always (i := i) OneCall.along es (.began c) [] hes
  exact hes

/-- A task whose call under the guard is in flight holds the guard. -/
theorem holder_of_inFlight (h : Run (fun i => (m i).future) v w) {i : ℕ}
    (hguarded : (m i).guarded = true) (hflight : InFlight w.log i) : w.holder = some i := by
  rw [h.holder_iff, h.eventsOf_of_inFlight hflight, holds_concat]
  simpa [Event.heldAfter] using hguarded

/-- A call under the guard begins only when no other one is in flight. -/
theorem apart (h : Run (fun i => (m i).future) v w) : Apart m w.log := by
  intro before i c after hlog hguarded j hj hflight
  obtain ⟨u, u', hrun, rfl, hact⟩ := h.split hlog
  obtain ⟨-, hevents⟩ := hrun.does hact
  have hholds : holds (eventsOf i u.log) = true := by rw [hevents, OneCall.holds_start, hguarded]
  have hholder := hrun.holder_of_inFlight hj hflight
  obtain rfl : j = i := Option.some.inj (hholder.symm.trans ((hrun.holder_iff i).mpr hholds))
  rw [hrun.eventsOf_of_inFlight hflight] at hevents
  simp at hevents

/-- What the tasks have seen under the guard is a history of the object. -/
theorem history (h : Run (fun i => (m i).future) v w) {obj : Object ρ} (hobj : Keeps m obj w.log) :
    obj.History ((served m w.log).map Prod.snd) := by
  induction h with
  | init => exact .nil
  | spawn _ _ ih => exact ih hobj
  | @act w w' i e hrun hact ih =>
    obtain ⟨-, -, -⟩ := hact
    have hpast := ih fun before j c r after hlog =>
      hobj before j c r (after ++ [(i, e)]) (by simp [hlog])
    rw [World.log_after, served_concat, List.map_append]
    cases e with
    | finished c r =>
      by_cases hguarded : (m i).guarded = true
      · have hanswer := hobj w.log i c r [] rfl hguarded hrun.apart
        simpa [servedBy, hguarded] using hpast.answered hanswer
      · simpa [servedBy, hguarded] using hpast
    | panicked c =>
      by_cases hguarded : (m i).guarded = true
      · simpa [servedBy, hguarded] using hpast.panicked
      · simpa [servedBy, hguarded] using hpast
    | acquired | accessed | released | began | returned => simpa [servedBy] using hpast

/-- A task locks at most once. -/
theorem locked_nodup (h : Run (fun i => (m i).future) v w) : (locked w.log).Nodup := by
  induction h with
  | init => exact List.nodup_nil
  | spawn _ _ ih => exact ih
  | @act w w' i e hrun hact ih =>
    have hdoes := hrun.does hact
    obtain ⟨-, -, -⟩ := hact
    rw [World.log_after, locked_concat]
    cases e with
    | acquired =>
      have hnew : i ∉ locked w.log := by
        rw [mem_locked, hdoes.2]
        simp
      simpa [List.nodup_append] using ⟨ih, fun j hj hji => hnew (hji ▸ hj)⟩
    | accessed | released | began | finished | panicked | returned => simpa using ih

/-- A task that has not been answered is not served. -/
theorem not_served {i : ℕ} (hlast : eventsOf i w.log = (m i).start ∨
    eventsOf i w.log = (m i).start ++ [.began (m i).core]) :
    i ∉ (served m w.log).map Prod.fst := by
  have hends : (∀ c r, .finished c r ∉ eventsOf i w.log) ∧ ∀ c, .panicked c ∉ eventsOf i w.log := by
    cases hguarded : (m i).guarded <;> rcases hlast with hlast | hlast <;>
      simp [hlast, OneCall.start, hguarded]
  rw [mem_served]
  rintro ⟨-, ⟨c, r, hmem⟩ | ⟨c, hmem⟩⟩
  · exact hends.1 c r hmem
  · exact hends.2 c hmem

/-- Who waits depends on the holder and on who is served. -/
theorem waiting_congr (hholder : w'.holder = w.holder)
    (hserved : served m w'.log = served m w.log) : waiting m w' = waiting m w := by
  rw [waiting, waiting, hholder, hserved]

/-- A holder that is not served waits. -/
theorem waiting_of_holder {i : ℕ} (hholder : w.holder = some i)
    (hnot : i ∉ (served m w.log).map Prod.fst) : waiting m w = [i] := by
  rw [waiting, hholder]
  simpa using hnot

/-- A holder that is served does not wait. -/
theorem waiting_of_served {i : ℕ} (hholder : w.holder = some i)
    (hserved : i ∈ (served m w.log).map Prod.fst) : waiting m w = [] := by
  rw [waiting, hholder]
  simpa using hserved

/-- Nobody waits for a free guard. -/
theorem waiting_of_free (hfree : w.holder = none) : waiting m w = [] := by
  rw [waiting, hfree]
  rfl

/-- The calls under the guard are served in the order in which their tasks locked. -/
theorem order (h : Run (fun i => (m i).future) v w) :
    locked w.log = (served m w.log).map Prod.fst ++ waiting m w := by
  induction h with
  | init => rfl
  | spawn _ _ ih => exact ih
  | @act w w' i e hrun hact ih =>
    have hdoes := hrun.does hact
    have hallows := hact.allows
    have hheld := hrun.holder_iff i
    obtain @⟨t, t', -, -, -⟩ := hact
    cases e with
    | acquired =>
      -- one who acquires the lock was not served before
      have hnot : i ∉ (served m w.log).map Prod.fst := by
        rw [mem_served, hdoes.2]
        simp
      have hfree : w.holder = none := hallows
      rw [waiting_of_free hfree, List.append_nil] at ih
      -- The lock was free: nobody waited, and from now on `i` does.
      have hwaiting : waiting m (w.after i .acquired t') = [i] :=
        waiting_of_holder rfl (by simpa [servedBy] using hnot)
      rw [hwaiting]
      simp [servedBy, ih]
    | accessed => exact hdoes.elim
    | began c =>
      have hwaiting : waiting m (w.after i (.began c) t') = waiting m w :=
        waiting_congr rfl (by simp [servedBy])
      rw [hwaiting]
      simpa [servedBy] using ih
    | finished c r =>
      obtain ⟨rfl, hevents⟩ := hdoes
      by_cases hguarded : (m i).guarded = true
      · have hholder : w.holder = some i := by
          rw [hheld, hevents, holds_concat]
          simpa [Event.heldAfter] using hguarded
        rw [waiting_of_holder hholder (not_served (Or.inr hevents))] at ih
        -- It is served at this very event, in the place where it waited.
        have hwaiting : waiting m (w.after i (.finished (m i).core r) t') = [] :=
          waiting_of_served hholder (by simp [servedBy, hguarded])
        rw [hwaiting]
        simp [servedBy, hguarded, ih]
      · -- beside the lock nobody waits and nobody is served
        have hwaiting : waiting m (w.after i (.finished (m i).core r) t') = waiting m w :=
          waiting_congr rfl (by simp [servedBy, hguarded])
        rw [hwaiting]
        simpa [servedBy, hguarded] using ih
    | panicked c =>
      obtain ⟨rfl, hevents⟩ := hdoes
      have hholds : holds (eventsOf i w.log) = (m i).guarded := by
        rw [hevents, holds_concat]
        simp [Event.heldAfter]
      by_cases hguarded : (m i).guarded = true
      · have hholder : w.holder = some i := by rw [hheld, hholds, hguarded]
        rw [waiting_of_holder hholder (not_served (Or.inr hevents))] at ih
        -- a panic serves the call and gives the lock back
        have hwaiting : waiting m (w.after i (.panicked (m i).core) t') = [] :=
          waiting_of_free (by simp [Event.holderAfter, hholder])
        rw [hwaiting]
        simp [servedBy, hguarded, ih]
      · have hholder : w.holder ≠ some i := by
          rw [ne_eq, hheld, hholds]
          exact hguarded
        have hwaiting : waiting m (w.after i (.panicked (m i).core) t') = waiting m w :=
          waiting_congr (by simp [Event.holderAfter, hholder]) (by simp [servedBy, hguarded])
        rw [hwaiting]
        simpa [servedBy, hguarded] using ih
    | released =>
      obtain ⟨hguarded, r, hevents⟩ := hdoes
      -- the lock is released after the call was served
      have hserved : i ∈ (served m w.log).map Prod.fst := by
        rw [mem_served, hevents]
        exact ⟨hguarded, Or.inl ⟨_, r, by simp [OneCall.answered]⟩⟩
      have hholder : w.holder = some i := hallows
      rw [waiting_of_served hholder hserved, List.append_nil] at ih
      have hwaiting : waiting m (w.after i .released t') = [] :=
        waiting_of_free (by simp [Event.holderAfter, hholder])
      rw [hwaiting]
      simp [servedBy, ih]
    | returned a =>
      obtain ⟨r, hevents, -⟩ := hdoes
      have hholder : w.holder ≠ some i := by
        rw [ne_eq, hheld, hevents, OneCall.holds_stop]
        simp
      have hwaiting : waiting m (w.after i (.returned a) t') = waiting m w :=
        waiting_congr (by simp [Event.holderAfter, hholder]) (by simp [servedBy])
      rw [hwaiting]
      simpa [servedBy] using ih

/-- A task returns what its own call was answered. -/
theorem returned (h : Run (fun i => (m i).future) v w) {i : ℕ} {a : α}
    (hret : (i, .returned a) ∈ w.log) :
    ∃ r, .finished (m i).core r ∈ eventsOf i w.log ∧ a = (m i).finish r := by
  obtain ⟨before, after, hlog⟩ := List.append_of_mem hret
  obtain ⟨r, hevents, ha⟩ := h.does_of_split hlog
  refine ⟨r, ?_, ha⟩
  rw [hlog, eventsOf_append, hevents]
  simp [OneCall.answered]

/-- A task that returned before another one was started was served before it. -/
theorem realTime (h : Run (fun i => (m i).future) v w) {before after : List (ℕ × Event σ ρ α)}
    {i j : ℕ} {a : α} (hlog : w.log = before ++ (i, .returned a) :: after)
    (hi : (m i).guarded = true) (hj : eventsOf j before = []) :
    ∃ earlier later, served m w.log = earlier ++ later ∧
      i ∈ earlier.map Prod.fst ∧ j ∉ earlier.map Prod.fst := by
  obtain ⟨r, hevents, -⟩ := h.does_of_split hlog
  refine ⟨served m before, served m ((i, .returned a) :: after), ?_, ?_, ?_⟩
  · rw [hlog, served, List.filterMap_append]
    rfl
  · rw [mem_served, hevents]
    exact ⟨hi, Or.inl ⟨_, r, by simp [OneCall.answered]⟩⟩
  · rw [mem_served, hj]
    simp

/-- A task that can go on has neither returned nor panicked. -/
theorem not_ended (h : Run (fun i => (m i).future) v w) {i : ℕ} {e : Event σ ρ α}
    (hact : Act w i e w') :
    ¬ ((∃ a, .returned a ∈ eventsOf i w.log) ∨ ∃ c, .panicked c ∈ eventsOf i w.log) := by
  intro hend
  obtain @⟨t, t', htask, hstep, -⟩ := hact
  rw [(OneCall.Stage.of_ran ((h.ran i).2 t htask)).eq_ended hend] at hstep
  cases hstep

/-- The call of a task is answered at most once. -/
theorem answer_unique (h : Run (fun i => (m i).future) v w) {i : ℕ} {r r' : ρ (m i).core}
    (hr : .finished (m i).core r ∈ eventsOf i w.log)
    (hr' : .finished (m i).core r' ∈ eventsOf i w.log) : r = r' := by
  have halways := h.always (i := i) OneCall.along
  obtain ⟨before, after, hsplit⟩ := List.append_of_mem hr
  obtain ⟨before', after', hsplit'⟩ := List.append_of_mem hr'
  obtain ⟨-, hbefore⟩ := halways before _ after hsplit
  obtain ⟨-, hbefore'⟩ := halways before' _ after' hsplit'
  have htails : .finished (m i).core r :: after = .finished (m i).core r' :: after' := by
    refine @List.append_cancel_left _ before _ _ ?_
    rw [← hsplit, hsplit', hbefore, hbefore']
  cases htails
  rfl

/-- A task that is about to return can do so. -/
theorem exists_ready {i : ℕ} {a : α} (htask : w.tasks i = some (.running (.ready a))) :
    ∃ w', Alone i w w' ∧ (i, .returned a) ∈ w'.log :=
  ⟨_, .single ⟨_, .intro htask (.ready a) trivial⟩, by simp⟩

/-- A task that has its answer can return. It waits for no other task, for it holds the guard as
long as it has to give it back. -/
theorem exists_rest (h : Run (fun i => (m i).future) v w) {i : ℕ} {r : ρ (m i).core}
    (htask : w.tasks i = some (.running ((m i).rest r)))
    (hevents : eventsOf i w.log = (m i).answered r) :
    ∃ w', Alone i w w' ∧ (i, .returned ((m i).finish r)) ∈ w'.log := by
  cases hguarded : (m i).guarded with
  | true =>
    rw [OneCall.rest, if_pos hguarded] at htask
    have hholder : w.holder = some i := by
      rw [h.holder_iff, hevents, OneCall.holds_answered, hguarded]
    have hact := Act.intro htask (.unlock _) hholder
    obtain ⟨w', halone, hret⟩ := exists_ready (World.tasks_after w i .released _)
    exact ⟨w', .head ⟨_, hact⟩ halone, hret⟩
  | false =>
    rw [OneCall.rest, if_neg (by simp [hguarded])] at htask
    exact exists_ready htask

/-- An answer is not lost: the task it was given to can return it by itself. -/
theorem exists_returned (h : Run (fun i => (m i).future) v w) {i : ℕ} {r : ρ (m i).core}
    (hr : .finished (m i).core r ∈ eventsOf i w.log) :
    ∃ w', Alone i w w' ∧ (i, .returned ((m i).finish r)) ∈ w'.log := by
  cases htask : w.tasks i with
  | none =>
    rw [(h.ran i).1 htask] at hr
    cases hr
  | some t =>
    have hstage := OneCall.Stage.of_ran ((h.ran i).2 t htask)
    have hstart : ∀ r, .finished (m i).core r ∉ ((m i).start : List (Event σ ρ α)) := by
      intro r
      cases hguarded : (m i).guarded <;> simp [OneCall.start, hguarded]
    -- What is left to do depends on the stage that the task has reached.
    generalize hes : eventsOf i w.log = es at hstage hr
    cases hstage with
    | start => cases hr
    | locked | began | panicked => simp [hstart] at hr
    | answered r' =>
      obtain rfl : r = r' := by simpa [OneCall.answered, hstart] using hr
      exact h.exists_rest htask hes
    | released r' =>
      obtain rfl : r = r' := h.answer_unique (hes ▸ hr) (by simp [hes, OneCall.answered])
      exact exists_ready htask
    | returned r' =>
      obtain rfl : r = r' := h.answer_unique (hes ▸ hr) (by simp [hes, OneCall.answered])
      refine ⟨w, .refl, ?_⟩
      rw [← mem_eventsOf, hes]
      simp

/-- A task that does not lock can make its call and return, whoever holds the guard. -/
theorem exists_direct {i : ℕ} (hguarded : (m i).guarded = false)
    (htask : w.tasks i = some (.running (m i).future)) (r : ρ (m i).core) :
    ∃ w', Alone i w w' ∧ (i, .returned ((m i).finish r)) ∈ w'.log := by
  have hunguarded : ¬ (m i).guarded = true := by simp [hguarded]
  rw [OneCall.future, if_neg hunguarded] at htask
  have hbegin := Act.intro htask (.call _ _) trivial
  have hanswer := Act.intro (World.tasks_after w i (.began (m i).core) (.awaiting _ (m i).rest))
    (.finish _ _ r) trivial
  have htask' := World.tasks_after (w.after i (.began (m i).core) (.awaiting _ (m i).rest)) i
    (.finished (m i).core r) (.running ((m i).rest r))
  rw [OneCall.rest, if_neg hunguarded] at htask' hanswer
  obtain ⟨w', halone, hret⟩ := exists_ready htask'
  exact ⟨w', .head ⟨_, hbegin⟩ (.head ⟨_, hanswer⟩ halone), hret⟩

end Run

/-! ## Linearizability -/

/-- The calls that tasks make of an object, some of them under the guard. -/
structure Linearized (m : ℕ → OneCall ρ α) (obj : Object ρ) (w : World σ ρ α) : Prop where
  /-- No two calls under the guard overlap. -/
  apart : Apart m w.log
  /-- An object that answers one client rightly has answered the tasks as one client. -/
  history : Keeps m obj w.log → obj.History ((served m w.log).map Prod.snd)
  /-- The calls are served in the order of the locks, each once, and at most one is still to end. -/
  order : locked w.log = (served m w.log).map Prod.fst ++ waiting m w
  once : (locked w.log).Nodup
  /-- A task returns what its own call was answered. -/
  returned : ∀ i a, (m i).guarded = true → (i, .returned a) ∈ w.log →
    ∃ r, (i, .answered (m i).core r) ∈ served m w.log ∧ a = (m i).finish r
  /-- An answer is not lost: the task it was given to can return it by itself. -/
  kept : ∀ i r, (i, .answered (m i).core r) ∈ served m w.log →
    ∃ w', Alone i w w' ∧ (i, .returned ((m i).finish r)) ∈ w'.log
  /-- A task that returned before another one was started was served before it. -/
  realTime : ∀ before i a after j, w.log = before ++ (i, .returned a) :: after →
    (m i).guarded = true → eventsOf j before = [] →
    ∃ earlier later, served m w.log = earlier ++ later ∧
      i ∈ earlier.map Prod.fst ∧ j ∉ earlier.map Prod.fst

/-- Every run of tasks that make one call each is linearizable. -/
theorem Run.linearized {m : ℕ → OneCall ρ α} {v : σ} {w : World σ ρ α}
    (h : Run (fun i => (m i).future) v w) (obj : Object ρ) : Linearized m obj w where
  apart := h.apart
  history := h.history
  order := h.order
  once := h.locked_nodup
  returned i a hguarded hret := by
    obtain ⟨r, hmem, ha⟩ := h.returned hret
    exact ⟨r, (answered_mem_served m).mpr ⟨hguarded, hmem⟩, ha⟩
  kept i r hmem := h.exists_returned ((answered_mem_served m).mp hmem).2
  realTime _ _ _ _ _ hlog hi hj := h.realTime hlog hi hj

end AsyncMutex
