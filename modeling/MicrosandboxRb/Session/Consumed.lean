import MicrosandboxRb.Session.Spec

/-!
# Sessions are consumed once

Any number of threads call the methods of one handle, in every interleaving of their steps. Calls
end on their way in by interrupts and errors; futures go on in any order, and the core answers them
in any way, at any time.

## Main results

* `SessionClass.Reaches.open_or_taken`: the session is in place until a `close` takes it, once;
* `SessionClass.core_before_taken`: an operation uses the session only before that;
* `SessionClass.idle_when_taken`: nothing is in flight when it is taken;
* `SessionClass.Reaches.exists_close`: an open session can be closed;
* `sessions_consumed_once`: all of it, for the three classes.
-/

namespace MicrosandboxRb.Session

open AsyncMutex

namespace SessionClass

variable {Core : Type} {Reply : Core → Type} {Err Method E : Type}

/-- What the calls did, in order. -/
abbrev Log {Core : Type} (Reply : Core → Type) (Err : Type) := List (ℕ × SessionEvent Reply Err)

/-- Call `j` waits for an answer of the core. -/
def InFlight (log : Log Reply Err) (j : ℕ) : Prop := ∃ es c, eventsOf j log = es ++ [.began c]

/-- The session of a handle has been treated as its class promises, when call `i` was a call of
`method i`. -/
structure ConsumedOnce (C : SessionClass Reply Err Method) (method : ℕ → Method)
    (session : CoreSession) (s : State Reply Err E) : Prop where
  /-- Once the core's close has been called, nothing is called any more. -/
  closed_once : ∀ before i c after, s.world.log = before ++ (i, .began c) :: after →
    c.2 = C.close → ∀ j c', (j, .began c') ∉ after
  /-- Nothing is in flight when the session is taken, and afterwards only the call that took it
  calls the core, to close it. -/
  taken_alone : ∀ before i x after, s.world.log = before ++ (i, .accessed (some x) none) :: after →
    (∀ j, ¬ InFlight before j) ∧ ∀ j c, (j, .began c) ∈ after → j = i ∧ c = (session, C.close)
  /-- An operation that finds the session taken never calls the core, and raises the error of a
  closed session. -/
  closed_error : ∀ i, C.calls (method i) ≠ none → (i, .accessed none none) ∈ s.world.log →
    coreEvents (eventsOf i s.world.log) = [] ∧
      ∀ a, (i, .returned a) ∈ s.world.log → a = .error C.closed
  /-- An operation that returned has made each of its calls exactly once, with success. -/
  performed : ∀ i cs v, C.calls (method i) = some cs → (i, .returned (.ok v)) ∈ s.world.log →
    Completed session cs (coreEvents (eventsOf i s.world.log))
  /-- It has done so before the session was taken. -/
  performed_before_taken : ∀ before i x after,
    s.world.log = before ++ (i, .accessed (some x) none) :: after →
    ∀ j e, C.calls (method j) ≠ none → isCore e = true → (j, e) ∉ after
  /-- Operations use the session one after the other, in the order in which they locked it. -/
  lock_order : ∀ before j after, s.world.log = before ++ (j, .acquired) :: after →
    ∀ i e, C.calls (method i) ≠ none → isCore e = true →
      (i, .acquired) ∈ before → (i, e) ∉ after ∧ (j, e) ∉ before
  /-- A call that an interrupt ended has done nothing: without it, everything else could have
  happened just so. -/
  interrupted : ∀ i e, s.entry i = some (.failed (.interrupt e)) →
    (∀ e, (i, e) ∉ s.world.log) ∧
      Reaches C method session { s with entry := Function.update s.entry i none }
  /-- The session is in place unless a `close` that got past its interrupt checks has taken it. -/
  open_or_taken : s.world.value = some session ∨
    ∃ i, C.calls (method i) = none ∧ s.entry i = some .polled ∧
      (i, .accessed (some session) none) ∈ s.world.log
  /-- As long as it is in place, a later `close` can close it, if no other gets there first. -/
  closable : s.world.value = some session →
    ∀ i, s.entry i = none → C.calls (method i) = none →
    ∃ s' j, Relation.ReflTransGen (Step C method) s s' ∧
      (j = i ∨ C.calls (method j) = none ∧ s.entry j = some .polled) ∧
      (j, .began (session, C.close)) ∈ s'.world.log

/-! ## The world of a handle -/

section World

variable {C : SessionClass Reply Err Method} {method : ℕ → Method} {session : CoreSession}
  {w w' : World (Option CoreSession) (fun c : CoreSession × Core => Except Err (Reply c.2))
    (Except RubyError Value)}

/-- What the calls do to the session, from their futures alone. -/
abbrev Runs (C : SessionClass Reply Err Method) (method : ℕ → Method) (session : CoreSession) :=
  Run (fun i => C.future (method i)) (some session)

/-- The session has been taken. -/
def Taken (log : Log Reply Err) : Prop := ∃ i x, (i, .accessed (some x) none) ∈ log

/-- What was taken before or is taken now. -/
theorem taken_concat {log : Log Reply Err} {i : ℕ} {e : SessionEvent Reply Err} :
    Taken (log ++ [(i, e)]) ↔ Taken log ∨ ∃ x, e = .accessed (some x) none := by
  simp only [Taken, List.mem_append, List.mem_singleton, Prod.mk.injEq]
  constructor
  · rintro ⟨j, x, hmem | ⟨-, rfl⟩⟩
    · exact Or.inl ⟨j, x, hmem⟩
    · exact Or.inr ⟨x, rfl⟩
  · rintro (⟨j, x, hmem⟩ | ⟨x, rfl⟩)
    · exact ⟨j, x, Or.inl hmem⟩
    · exact ⟨i, x, Or.inr ⟨rfl, rfl⟩⟩

/-- A method with a list of calls. -/
theorem exists_calls {m : Method} (hm : C.calls m ≠ none) : ∃ cs, C.calls m = some cs :=
  Option.ne_none_iff_exists'.mp hm

/-- An access is the first thing a call does under the guard; only `close` changes what it finds. -/
theorem accessed_act (h : Runs C method session w) {i : ℕ} {v v' : Option CoreSession}
    (hact : Act w i (.accessed v v') w') :
    holds (eventsOf i w.log) = true ∧ w.value = v ∧ eventsOf i w.log = [.acquired] ∧
      v' = if C.calls (method i) = none then none else v := by
  have hallows := hact.allows
  refine ⟨(h.holder_iff i).mp hallows.1, hallows.2, ?_⟩
  cases hm : C.calls (method i) with
  | none => exact (h.along_act hact (along_closing hm)).2
  | some cs => exact (h.along_act hact (along_operation hm)).2

/-- The session that the handle was created with is in place until it is taken. -/
theorem value_eq (h : Runs C method session w) :
    (w.value = some session ∧ ¬ Taken w.log) ∨ (w.value = none ∧ Taken w.log) := by
  induction h with
  | init =>
    refine Or.inl ⟨rfl, ?_⟩
    rintro ⟨i, x, hmem⟩
    cases hmem
  | spawn _ _ ih => exact ih
  | @act w w' i e hrun hact ih =>
    cases e with
    | accessed v v' =>
      -- a close leaves nothing behind, an operation leaves what it found
      obtain ⟨-, hvalue, -, rfl⟩ := accessed_act hrun hact
      obtain ⟨-, -, -⟩ := hact
      simp only [World.value_after, Event.valueAfter, World.log_after, taken_concat,
        Event.accessed.injEq]
      by_cases hclose : C.calls (method i) = none
      · rcases ih with ⟨hopen, -⟩ | ⟨-, htaken⟩
        · exact Or.inr ⟨if_pos hclose, Or.inr ⟨session, hvalue.symm.trans hopen, if_pos hclose⟩⟩
        · exact Or.inr ⟨if_pos hclose, Or.inl htaken⟩
      · rw [if_neg hclose, ← hvalue]
        rcases ih with ⟨hopen, huntaken⟩ | ⟨hempty, htaken⟩
        · refine Or.inl ⟨hopen, ?_⟩
          rintro (htaken | ⟨x, -, hnone⟩)
          · exact huntaken htaken
          · rw [hopen] at hnone
            cases hnone
        · exact Or.inr ⟨hempty, Or.inl htaken⟩
    | _ =>
      obtain ⟨-, -, -⟩ := hact
      simpa [taken_concat, Event.valueAfter] using ih

/-- A session that is there was not taken. -/
theorem not_taken_of_value (h : Runs C method session w) {x : CoreSession}
    (hvalue : w.value = some x) : x = session ∧ ¬ Taken w.log := by
  rcases value_eq h with ⟨hopen, huntaken⟩ | ⟨hempty, -⟩
  · exact ⟨Option.some.inj (hvalue.symm.trans hopen), huntaken⟩
  · rw [hempty] at hvalue
    cases hvalue

/-- Only a `close` takes the session, and it finds it in place. -/
theorem took_act (h : Runs C method session w) {i : ℕ} {x : CoreSession}
    (hact : Act w i (.accessed (some x) none) w') :
    C.calls (method i) = none ∧ x = session ∧ ¬ Taken w.log ∧
      eventsOf i w.log = [.acquired] := by
  obtain ⟨-, hvalue, hevents, hafter⟩ := accessed_act h hact
  obtain ⟨hx, huntaken⟩ := not_taken_of_value h hvalue
  refine ⟨?_, hx, huntaken, hevents⟩
  by_contra hclose
  rw [if_neg hclose] at hafter
  cases hafter

/-- While an operation is at a call of the core it holds the guard, and the session is in place. -/
theorem core_act (h : Runs C method session w) {i : ℕ} {e : SessionEvent Reply Err}
    (hact : Act w i e w') (hop : C.calls (method i) ≠ none) (hcore : isCore e = true) :
    holds (eventsOf i w.log) = true ∧ view (eventsOf i w.log) = some (some session) ∧
      ¬ Taken w.log := by
  obtain ⟨cs, hm⟩ := exists_calls hop
  have hspec := (h.along_act hact (along_operation hm)).2
  have hview : ∃ x, view (eventsOf i w.log) = some (some x) := by
    cases e with
    | began c => exact ⟨c.1, hspec.2⟩
    | finished c r => exact ⟨c.1, hspec.2⟩
    | panicked c => exact ⟨c.1, hspec.2⟩
    | acquired | accessed | released | returned => cases hcore
  obtain ⟨x, hview⟩ := hview
  obtain ⟨hheld, hvalue⟩ := h.value_of_view hview
  obtain ⟨rfl, huntaken⟩ := not_taken_of_value h hvalue
  exact ⟨hheld, hview, huntaken⟩

/-- The core's close is called by the call that has taken the session, right after it has dropped
the guard. -/
theorem closing_act (h : Runs C method session w) {i : ℕ} {c : CoreSession × Core}
    (hact : Act w i (.began c) w') (hclose : C.calls (method i) = none) :
    c.2 = C.close ∧ eventsOf i w.log = [.acquired, .accessed (some c.1) none, .released] := by
  obtain ⟨x, rfl, hevents⟩ := (h.along_act hact (along_closing hclose)).2
  exact ⟨rfl, hevents⟩

/-! ## The log of a handle -/

section Log

variable {before after : Log Reply Err} {i j : ℕ} {e : SessionEvent Reply Err}

/-- The session is taken once. -/
theorem took_once (h : Runs C method session w) {x y : CoreSession}
    (hlog : w.log = before ++ (i, .accessed (some x) none) :: after) :
    (j, .accessed (some y) none) ∉ before ∧ (j, .accessed (some y) none) ∉ after := by
  have huntaken : ¬ Taken before := by
    obtain ⟨u, u', hrun, rfl, hact⟩ := h.split hlog
    exact (took_act hrun hact).2.2.1
  refine ⟨fun hmem => huntaken ⟨j, y, hmem⟩, ?_⟩
  intro hmem
  obtain ⟨mid, rest, rfl⟩ := List.append_of_mem hmem
  -- the second access would have found the session in place
  have hlog' : w.log = (before ++ (i, .accessed (some x) none) :: mid) ++
      (j, .accessed (some y) none) :: rest := by simpa using hlog
  obtain ⟨u, u', hrun, hbefore, hact⟩ := h.split hlog'
  refine (took_act hrun hact).2.2.1 ⟨i, x, ?_⟩
  simp [hbefore]

/-- An operation uses the session only before it is taken. -/
theorem core_before_taken (h : Runs C method session w) {x : CoreSession}
    (hlog : w.log = before ++ (i, .accessed (some x) none) :: after)
    (hop : C.calls (method j) ≠ none) (hcore : isCore e = true) : (j, e) ∉ after := by
  intro hmem
  obtain ⟨mid, rest, rfl⟩ := List.append_of_mem hmem
  have hlog' : w.log = (before ++ (i, .accessed (some x) none) :: mid) ++ (j, e) :: rest := by
    simpa using hlog
  obtain ⟨u, u', hrun, hbefore, hact⟩ := h.split hlog'
  refine (core_act hrun hact hop hcore).2.2 ⟨i, x, ?_⟩
  simp [hbefore]

/-- The call that closes the session is made by the call that has taken it. -/
theorem took_of_began (h : Runs C method session w) {c : CoreSession × Core}
    (hclose : C.calls (method i) = none) (hlog : w.log = before ++ (i, .began c) :: after) :
    c = (session, C.close) ∧ (i, .accessed (some session) none) ∈ before := by
  obtain ⟨u, u', hrun, rfl, hact⟩ := h.split hlog
  obtain ⟨hcall, hevents⟩ := closing_act hrun hact hclose
  have hmem : (i, .accessed (some c.1) none) ∈ u.log := by
    rw [← mem_eventsOf, hevents]
    simp
  -- what was taken is what the handle was created with
  obtain ⟨mid, rest, hsplit⟩ := List.append_of_mem hmem
  obtain ⟨t, t', hrun', -, hact'⟩ := hrun.split hsplit
  have hsession := (took_act hrun' hact').2.1
  rw [hsession] at hmem
  exact ⟨Prod.ext hsession hcall, hmem⟩

/-- After the session has been taken, only the call that took it calls the core, to close it. -/
theorem began_after_taken (h : Runs C method session w) {x : CoreSession} {c : CoreSession × Core}
    (hlog : w.log = before ++ (i, .accessed (some x) none) :: after)
    (hmem : (j, .began c) ∈ after) : j = i ∧ c = (session, C.close) := by
  have hclose : C.calls (method j) = none := by
    by_contra hop
    exact core_before_taken h hlog hop rfl hmem
  obtain ⟨mid, rest, rfl⟩ := List.append_of_mem hmem
  have hlog' : w.log = (before ++ (i, .accessed (some x) none) :: mid) ++ (j, .began c) :: rest := by
    simpa using hlog
  obtain ⟨hc, htook⟩ := took_of_began h hclose hlog'
  obtain ⟨hbefore, hafter⟩ := took_once (j := j) (y := session) h hlog
  refine ⟨?_, hc⟩
  rcases List.mem_append.mp htook with hmem | hmem
  · exact absurd hmem hbefore
  · rcases List.mem_cons.mp hmem with heq | hmem
    · exact congrArg Prod.fst heq
    · exact absurd (List.mem_append_left _ hmem) hafter

/-- Nothing is in flight when the session is taken. -/
theorem idle_when_taken (h : Runs C method session w) {x : CoreSession}
    (hlog : w.log = before ++ (i, .accessed (some x) none) :: after) : ¬ InFlight before j := by
  rintro ⟨es, c, hflight⟩
  obtain ⟨u, u', hrun, rfl, hact⟩ := h.split hlog
  obtain ⟨hclose, -, huntaken, hevents⟩ := took_act hrun hact
  have hheld := (accessed_act hrun hact).1
  cases hm : C.calls (method j) with
  | some cs =>
    -- an operation in flight holds the guard, so it would be the call that takes the session
    have hspec := hrun.always (along_operation hm) es (.began c) [] hflight
    have hview : view (eventsOf j u.log) = some (some c.1) := by
      rw [hflight, view_concat]
      exact hspec.2.2
    have hij := hrun.holder_unique (hrun.value_of_view hview).1 hheld
    rw [hij, hclose] at hm
    cases hm
  | none =>
    -- a `close` in flight would have taken it before
    obtain ⟨x, -, hes⟩ := (hrun.always (along_closing hm) es (.began c) [] hflight).2
    refine huntaken ⟨j, x, ?_⟩
    rw [← mem_eventsOf, hflight, hes]
    simp

/-- Once the core's close has been called, nothing is called any more. -/
theorem closed_once (h : Runs C method session w) {c c' : CoreSession × Core}
    (hlog : w.log = before ++ (i, .began c) :: after) (hc : c.2 = C.close) :
    (j, .began c') ∉ after := by
  intro hmem
  have hclose : C.calls (method i) = none := by
    cases hm : C.calls (method i) with
    | none => rfl
    | some cs =>
      -- an operation does not call the core's close
      obtain ⟨u, u', hrun, -, hact⟩ := h.split hlog
      have hmem := (hrun.along_act hact (along_operation hm)).2.1
      rw [hc] at hmem
      exact absurd hmem (C.close_not_mem _ _ hm)
  obtain ⟨-, htook⟩ := took_of_began h hclose hlog
  obtain ⟨first, mid, rfl⟩ := List.append_of_mem htook
  have hlog' : w.log = first ++ (i, .accessed (some session) none) ::
      (mid ++ (i, .began c) :: after) := by simpa using hlog
  obtain ⟨hji, -⟩ := began_after_taken (j := j) (c := c') h hlog'
    (List.mem_append_right _ (List.mem_cons_of_mem _ hmem))
  subst hji
  -- and the call that took it calls the core only once
  obtain ⟨mid', rest, rfl⟩ := List.append_of_mem hmem
  have hlog'' : w.log = (first ++ (j, .accessed (some session) none) :: mid ++
      (j, .began c) :: mid') ++ (j, .began c') :: rest := by simpa using hlog
  obtain ⟨u, u', hrun, hbefore, hact⟩ := h.split hlog''
  obtain ⟨-, hevents⟩ := closing_act hrun hact hclose
  have hbegan : .began c ∈ eventsOf j u.log := by
    rw [mem_eventsOf, hbefore]
    simp
  rw [hevents] at hbegan
  simp at hbegan

/-- A call accesses the session once. -/
theorem access_once (h : Runs C method session w) {v v' x x' : Option CoreSession}
    (hv : (i, .accessed v v') ∈ w.log) (hx : (i, .accessed x x') ∈ w.log) : v = x ∧ v' = x' := by
  have hhead : ∀ y y', (i, .accessed y y') ∈ w.log →
      ∃ rest, eventsOf i w.log = .acquired :: .accessed y y' :: rest := by
    intro y y' hmem
    obtain ⟨before, after, hlog⟩ := List.append_of_mem hmem
    obtain ⟨u, u', hrun, rfl, hact⟩ := h.split hlog
    refine ⟨eventsOf i after, ?_⟩
    rw [hlog, eventsOf_append, eventsOf_cons_self, (accessed_act hrun hact).2.2.1]
    rfl
  obtain ⟨rest, hrest⟩ := hhead v v' hv
  obtain ⟨rest', hrest'⟩ := hhead x x' hx
  rw [hrest, List.cons.injEq, List.cons.injEq, Event.accessed.injEq] at hrest'
  exact hrest'.2.1

/-- An operation that finds the session taken does not call the core, and raises. -/
theorem closed_error (h : Runs C method session w) (hop : C.calls (method i) ≠ none)
    (hfound : (i, .accessed none none) ∈ w.log) :
    coreEvents (eventsOf i w.log) = [] ∧
      ∀ a, (i, .returned a) ∈ w.log → a = .error C.closed := by
  refine ⟨?_, ?_⟩
  · rw [coreEvents, List.filter_eq_nil_iff]
    intro e hmem hcore
    rw [mem_eventsOf] at hmem
    obtain ⟨before, after, hlog⟩ := List.append_of_mem hmem
    obtain ⟨u, u', hrun, rfl, hact⟩ := h.split hlog
    obtain ⟨-, hview, -⟩ := core_act hrun hact hop hcore
    -- a call of the core is made on a session that was seen, but this one saw none
    obtain ⟨v, hv⟩ := exists_accessed_of_view hview
    have hmem' : (i, .accessed v (some session)) ∈ w.log := by
      rw [hlog]
      exact List.mem_append_left _ (mem_eventsOf.mp hv)
    cases (access_once h hfound hmem').2
  · intro a hmem
    obtain ⟨cs, hm⟩ := exists_calls hop
    obtain ⟨before, after, hlog⟩ := List.append_of_mem hmem
    obtain ⟨u, u', hrun, rfl, hact⟩ := h.split hlog
    rcases (hrun.along_act hact (along_operation hm)).2 with ⟨-, ha⟩ | ⟨x, hx, -⟩
    · exact ha
    · have hmem' : (i, .accessed (some x) (some x)) ∈ w.log := by
        rw [hlog]
        exact List.mem_append_left _ (mem_eventsOf.mp hx)
      cases (access_once h hfound hmem').1

/-- An operation that returned has made each of its calls exactly once, with success. -/
theorem performed (h : Runs C method session w) {cs : List Core} {v : Value}
    (hm : C.calls (method i) = some cs) (hret : (i, .returned (.ok v)) ∈ w.log) :
    Completed session cs (coreEvents (eventsOf i w.log)) := by
  obtain ⟨before, after, hlog⟩ := List.append_of_mem hret
  rw [h.eventsOf_of_returned hlog]
  obtain ⟨u, u', hrun, rfl, hact⟩ := h.split hlog
  rcases (hrun.along_act hact (along_operation hm)).2 with ⟨-, ha⟩ | ⟨x, hx, hdone⟩
  · cases ha
  · -- the session it found is the one that the handle was created with
    have hsession : x = session := by
      obtain ⟨first, rest, hsplit⟩ := List.append_of_mem (mem_eventsOf.mp hx)
      obtain ⟨t, t', hrun', -, hact'⟩ := hrun.split hsplit
      exact (not_taken_of_value hrun' (accessed_act hrun' hact').2.1).1
    have hcore : coreEvents (eventsOf i u.log ++ [.returned (.ok v)]) =
        coreEvents (eventsOf i u.log) := by simp [coreEvents, isCore]
    rw [hcore, ← hsession]
    exact hdone v rfl

/-- A call locks once, before it does anything else. -/
theorem acquired_act (h : Runs C method session w) (hact : Act w i .acquired w') :
    eventsOf i w.log = [] := by
  cases hm : C.calls (method i) with
  | none => exact (h.along_act hact (along_closing hm)).2
  | some cs => exact (h.along_act hact (along_operation hm)).2

/-- A call takes the lock first. -/
theorem always_acquired (h : Runs C method session w) (i : ℕ) :
    Always (fun es e => e = .acquired → es = []) (eventsOf i w.log) := by
  rintro es _ rest hsplit rfl
  cases hm : C.calls (method i) with
  | none => exact (h.always (along_closing hm) es _ rest hsplit).2
  | some cs => exact (h.always (along_operation hm) es _ rest hsplit).2

/-- Operations use the session one after the other, in the order in which they locked it. -/
theorem lock_order (h : Runs C method session w)
    (hlog : w.log = before ++ (j, .acquired) :: after) (hop : C.calls (method i) ≠ none)
    (hcore : isCore e = true) (hlocked : (i, .acquired) ∈ before) :
    (i, e) ∉ after ∧ (j, e) ∉ before := by
  obtain ⟨u, u', hrun, rfl, hact⟩ := h.split hlog
  refine ⟨?_, ?_⟩
  · intro hmem
    -- when `j` locks, `i` has dropped the guard for good
    have hdropped : holds (eventsOf i u.log) = false := by
      have hfree : u.holder = none := hact.allows
      rw [← Bool.not_eq_true, ← hrun.holder_iff i, hfree]
      simp
    obtain ⟨mid, rest, rfl⟩ := List.append_of_mem hmem
    have hlog' : w.log = (u.log ++ (j, .acquired) :: mid) ++ (i, e) :: rest := by simpa using hlog
    obtain ⟨t, t', hrun', hbefore, hact'⟩ := h.split hlog'
    have hheld := (core_act hrun' hact' hop hcore).1
    have halways := always_acquired hrun' i
    rw [hbefore, eventsOf_append] at hheld halways
    rw [holds_append_eq_false halways (mem_eventsOf.mpr hlocked) hdropped] at hheld
    cases hheld
  · intro hmem
    rw [← mem_eventsOf, acquired_act hrun hact] at hmem
    cases hmem

end Log

end World

/-! ## Closing an open session -/

section Closable

variable {C : SessionClass Reply Err Method} {method : ℕ → Method} {session : CoreSession}
  {s : State Reply Err E} {i : ℕ}
  {w w' : World (Option CoreSession) (fun c : CoreSession × Core => Except Err (Reply c.2))
    (Except RubyError Value)}

/-- An operation leaves the session where it is. -/
theorem value_of_alone {j : ℕ} (halone : Alone j w w') (h : Runs C method session w)
    (hop : C.calls (method j) ≠ none) : w'.value = w.value := by
  induction halone with
  | refl => rfl
  | tail halone hact ih =>
    obtain ⟨e, hact⟩ := hact
    have hrun := Alone.run halone h
    cases e with
    | accessed v v' =>
      obtain ⟨-, hvalue, -, rfl⟩ := accessed_act hrun hact
      obtain ⟨-, -, -⟩ := hact
      rw [World.value_after, ← ih, hvalue]
      exact if_neg hop
    | _ =>
      obtain ⟨-, -, -⟩ := hact
      exact ih

/-- A `close` that has the guard and finds the session goes on to the core's close. -/
theorem exists_began
    (htask : w.tasks i = some (.running (.access (fun _ => none) fun taken =>
      .unlock (closeTaken C.close C.finish taken))))
    (hheld : w.holder = some i) (hvalue : w.value = some session) :
    ∃ w', Alone i w w' ∧ (i, .began (session, C.close)) ∈ w'.log := by
  let w₁ := w.after i (.accessed (some session) none)
    (.running (.unlock (closeTaken C.close C.finish (some session))))
  let w₂ := w₁.after i .released (.running (closeTaken C.close C.finish (some session)))
  have htake : Act w i (.accessed (some session) none) w₁ :=
    .intro htask (.access _ _ (some session)) ⟨hheld, hvalue⟩
  have hdrop : Act w₁ i .released w₂ := .intro (World.tasks_after ..) (.unlock _) hheld
  have hcall : Act w₂ i (.began (session, C.close)) (w₂.after i (.began (session, C.close))
      (.awaiting (session, C.close) fun r => .ready (C.finish r))) :=
    .intro (World.tasks_after ..) (.call _ _) trivial
  refine ⟨_, .head ⟨_, htake⟩ (.head ⟨_, hdrop⟩ (.single ⟨_, hcall⟩)), ?_⟩
  exact List.mem_append_right _ List.mem_cons_self

/-- The holder of the guard, when the session is in place and the holder is a `close`, is about to
take the session. -/
theorem eventsOf_of_holder (h : Runs C method session w) (hheld : w.holder = some i)
    (hvalue : w.value = some session) (hclose : C.calls (method i) = none) :
    eventsOf i w.log = [.acquired] := by
  have hholds := (h.holder_iff i).mp hheld
  have halways := h.always (along_closing hclose)
  rcases List.eq_nil_or_concat (eventsOf i w.log) with hnil | ⟨es, e, hes⟩
  · rw [hnil] at hholds
    cases hholds
  · rw [List.concat_eq_append] at hes
    rw [hes] at hholds halways ⊢
    have hlast := (halways es e [] rfl).2
    rw [holds_concat] at hholds
    cases e with
    | acquired => rw [show es = [] from hlast, List.nil_append]
    | accessed v v' =>
      -- then the session would be gone
      have hview : view (eventsOf i w.log) = some none := by
        rw [hes, view_concat, hlast.2]
        rfl
      rw [(h.value_of_view hview).2] at hvalue
      cases hvalue
    | began c =>
      obtain ⟨x, -, hes⟩ := hlast
      rw [hes] at hholds
      cases hholds
    | finished c r =>
      obtain ⟨x, -, hes⟩ := hlast
      rw [hes] at hholds
      cases hholds
    | released | panicked | returned => cases hholds

/-- An open session can be closed, by a new call or by one that is on its way. -/
theorem Reaches.exists_close [Nonempty Err] (h : Reaches C method session s)
    (hvalue : s.world.value = some session) (hi : s.entry i = none)
    (hclose : C.calls (method i) = none) :
    ∃ s' j, Relation.ReflTransGen (Step C method) s s' ∧
      (j = i ∨ C.calls (method j) = none ∧ s.entry j = some .polled) ∧
      (j, .began (session, C.close)) ∈ s'.world.log := by
  -- once the guard is free, the new call closes the session
  have hnew : ∀ w', w'.value = some session → w'.holder = none →
      Relation.ReflTransGen (Step C method) s { s with world := w' } →
      ∃ s', Relation.ReflTransGen (Step C method) s s' ∧
        (i, .began (session, C.close)) ∈ s'.world.log := by
    intro w' hvalue' hfree hsteps
    let w₁ := w'.spawn i (C.future (method i))
    have htask : w₁.tasks i = some (.running (.lock (.access (fun _ => none) fun taken =>
        .unlock (closeTaken C.close C.finish taken)))) := by
      rw [← C.close_eq _ hclose]
      exact Function.update_self ..
    let w₂ := w₁.after i .acquired (.running (.access (fun _ => none) fun taken =>
      .unlock (closeTaken C.close C.finish taken)))
    -- it takes the guard, and then the session
    have hlock : Act w₁ i .acquired w₂ := .intro htask (.lock _) hfree
    obtain ⟨w'', halone, hbegan⟩ := exists_began (C := C) (w := w₂) (World.tasks_after ..)
      rfl hvalue'
    let entry := Function.update s.entry i (some .polled)
    have hclosing : Relation.ReflTransGen (Step C method) { world := w₁, entry }
        { world := w'', entry } :=
      .head (.act hlock) (Calls.steps_of_goes (Calls.goes_alone (s := { world := w₂, entry }) halone))
    exact ⟨_, hsteps.trans
      ((Calls.steps_enter (s := { s with world := w' }) hi).trans hclosing), hbegan⟩
  cases hholder : s.world.holder with
  | none =>
    obtain ⟨s', hsteps, hbegan⟩ := hnew s.world hvalue hholder .refl
    exact ⟨s', i, hsteps, Or.inl rfl, hbegan⟩
  | some j =>
    by_cases hj : C.calls (method j) = none
    · -- a `close` is about to take the session itself
      have hevents := eventsOf_of_holder h.run.1 hholder hvalue hj
      cases htask : s.world.tasks j with
      | none =>
        rw [(h.run.1.ran j).1 htask] at hevents
        cases hevents
      | some t =>
        have hran := (h.run.1.ran j).2 t htask
        rw [hevents, C.close_eq _ hj] at hran
        rw [hran.of_lock] at htask
        obtain ⟨w', halone, hbegan⟩ := exists_began htask hholder hvalue
        refine ⟨_, j, Calls.steps_of_goes (Calls.goes_alone halone), Or.inr ⟨hj, ?_⟩, hbegan⟩
        by_contra hpolled
        rw [h.run.2 j hpolled] at htask
        cases htask
    · -- the operation that holds the guard finishes first
      obtain ⟨cs, hm⟩ := exists_calls hj
      -- an operation gives the guard back, whatever the core answers
      have hdisciplined : (C.future (method j)).Along Disciplined [] :=
        (along_operation hm).mono fun h e hspec => hspec.1
      have : ∀ c : CoreSession × Core, Nonempty (Except Err (Reply c.2)) := by
        intro c
        obtain ⟨err⟩ := ‹Nonempty Err›
        exact ⟨.error err⟩
      obtain ⟨w', halone, hfree⟩ := h.run.1.exists_free hdisciplined hholder
      have hvalue' : w'.value = some session :=
        (value_of_alone halone h.run.1 hj).trans hvalue
      obtain ⟨s', hsteps, hbegan⟩ := hnew w' hvalue' hfree
        (Calls.steps_of_goes (Calls.goes_alone halone))
      exact ⟨s', i, hsteps, Or.inl rfl, hbegan⟩

end Closable

/-! ## The promise of a class -/

section Promise

variable {C : SessionClass Reply Err Method} {method : ℕ → Method} {session : CoreSession}
  {s s' : State Reply Err E}

/-- Only a `close` that got past its interrupt checks takes the session. -/
theorem Reaches.open_or_taken (h : Reaches C method session s) :
    s.world.value = some session ∨
      ∃ i, C.calls (method i) = none ∧ s.entry i = some .polled ∧
        (i, .accessed (some session) none) ∈ s.world.log := by
  rcases value_eq h.run.1 with ⟨hopen, -⟩ | ⟨-, i, x, htook⟩
  · exact Or.inl hopen
  · obtain ⟨before, after, hlog⟩ := List.append_of_mem htook
    obtain ⟨u, u', hrun, -, hact⟩ := h.run.1.split hlog
    obtain ⟨hclose, rfl, -, -⟩ := took_act hrun hact
    refine Or.inr ⟨i, hclose, ?_, htook⟩
    by_contra hpolled
    rw [← mem_eventsOf, h.eventsOf_eq_nil hpolled] at htook
    cases htook

/-- A session is consumed at most once in every state reached. -/
theorem Reaches.consumedOnce [Nonempty Err] (h : Reaches C method session s) :
    ConsumedOnce C method session s where
  closed_once _ _ _ _ hlog hc _ _ := SessionClass.closed_once h.run.1 hlog hc
  taken_alone _ _ _ _ hlog :=
    ⟨fun _ => idle_when_taken h.run.1 hlog, fun _ _ => began_after_taken h.run.1 hlog⟩
  closed_error _ hop hfound := SessionClass.closed_error h.run.1 hop hfound
  performed _ _ _ hm hret := SessionClass.performed h.run.1 hm hret
  performed_before_taken _ _ _ _ hlog _ _ hop hcore := core_before_taken h.run.1 hlog hop hcore
  lock_order _ _ _ hlog _ _ hop hcore hlocked :=
    SessionClass.lock_order h.run.1 hlog hop hcore hlocked
  interrupted i e hi := by
    have hpolled : s.entry i ≠ some .polled := by simp [hi]
    refine ⟨?_, h.erase hpolled⟩
    intro e' hmem
    rw [← mem_eventsOf, h.eventsOf_eq_nil hpolled] at hmem
    cases hmem
  open_or_taken := h.open_or_taken
  closable hvalue _ hi hclose := h.exists_close hvalue hi hclose

end Promise

end SessionClass

open SessionClass

/-- For `FsWriteSink`, `SshClient` and `SftpClient`, any number of calls of any methods on one
handle, every interleaving of their steps, every answer of the core, and every interrupt on the way
into a call: the session is consumed once. -/
theorem sessions_consumed_once (E : Type) (session : CoreSession) :
    (∀ method (s : State FsWriteSink.Core.Reply MicrosandboxError E),
      Reaches FsWriteSink.sessions method session s →
        ConsumedOnce FsWriteSink.sessions method session s) ∧
    (∀ method (s : State SshClient.Core.Reply MicrosandboxError E),
      Reaches SshClient.sessions method session s →
        ConsumedOnce SshClient.sessions method session s) ∧
    (∀ method (s : State SftpClient.Core.Reply String E),
      Reaches SftpClient.sessions method session s →
        ConsumedOnce SftpClient.sessions method session s) := by
  have : Nonempty MicrosandboxError := ⟨consumed⟩
  have : Nonempty String := ⟨""⟩
  exact ⟨fun _ _ h => h.consumedOnce, fun _ _ h => h.consumedOnce, fun _ _ h => h.consumedOnce⟩

/-- A chunk is written by one call and the sink closed by another. -/
theorem sessions_consumed_once_write_close :
    let method : ℕ → FsWriteSink.Methods := fun i => if i = 0 then .write [1] else .close
    ∃ s : State FsWriteSink.Core.Reply MicrosandboxError Unit,
      s.world.log = [(0, .acquired), (0, .accessed (some ⟨7⟩) (some ⟨7⟩)),
        (0, .began (⟨7⟩, .write [1])), (0, .finished (⟨7⟩, .write [1]) (.ok ())), (0, .released),
        (1, .acquired), (0, .returned (.ok .nil)), (1, .accessed (some ⟨7⟩) none), (1, .released),
        (1, .began (⟨7⟩, .close)), (1, .finished (⟨7⟩, .close) (.ok ())),
        (1, .returned (.ok .nil))] ∧
      ConsumedOnce FsWriteSink.sessions method ⟨7⟩ s := by
  intro method
  have hstart : Reaches (E := Unit) FsWriteSink.sessions method ⟨7⟩ (.init (some ⟨7⟩)) := .init
  let ok := FsWriteSink.answers (.ok ())
  have hreach := ((hstart.enter 0 rfl).enter 1 rfl).execAll
    [(0, .go), (0, .go), (0, .go), (0, .answer ok), (0, .go), (1, .go), (0, .go), (1, .go),
      (1, .go), (1, .go), (1, .answer ok), (1, .go)] rfl
  exact ⟨_, rfl, (sessions_consumed_once Unit ⟨7⟩).1 method _ hreach⟩

end MicrosandboxRb.Session
