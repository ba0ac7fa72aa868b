import MicrosandboxRb.Sandbox.PullSession

/-!
# What `PullSession#sandbox` memoizes

The native result can be taken once. A call that comes while another one waits for the create task
finds both memos unset and the join handle taken, and the error that this gives it is memoized like
a failure of the create.

## Main results

* `stableMemo_of_meets`: the memo is stable in every run in which no such error is memoized, or
  raised first;
* `not_stableMemo`: in a run of two calls the error is memoized, and a third call raises it after
  the sandbox has been returned.
-/

namespace MicrosandboxRb.PullSession

open AsyncMutex
open Nogvl (MAX_ENTRY_ATTEMPTS)

/-- Call `i` found the join handle taken. -/
def FoundTaken (s : State) (i : ℕ) : Prop := (i, .accessed none none) ∈ s.world.log

/-- The create failed, and `e` is its failure, as the call that awaited it has raised it. -/
def Failed (handle : JoinHandle) (s : State) (e : ErrorObject) : Prop :=
  ∃ r, (e.madeBy, .finished handle r) ∈ s.world.log ∧ joinedResult (some r) = .error e.error

/-- The create succeeded, and the call that awaited it has wrapped its sandbox. -/
def Booted (handle : JoinHandle) (s : State) (sandbox : SandboxObject) : Prop :=
  ∃ r, (sandbox.madeBy, .finished handle r) ∈ s.world.log ∧
    joinedResult (some r) = .ok sandbox.native

/-- The memo of a session is stable in the runs whose steps satisfy `C`. -/
structure StableMemo (C : State → ℕ → Prop) (handle : JoinHandle) : Prop where
  /-- The join handle is awaited at most once, and has been once a call has ended. -/
  awaited_once : ∀ s, Reaches C handle s → awaits s.world.log ≤ 1 ∧
    ∀ i c, s.calls i = some c → c.Ended → awaits s.world.log = 1
  /-- While a call has not ended, a call goes on. -/
  goes_on : ∀ s, Reaches C handle s → ∀ i c, s.calls i = some c → ¬ c.Ended →
    ∃ j s', s.calls j ≠ none ∧ Step s j s'
  /-- Once a call has returned, every call that starts afterwards returns the same object. -/
  same_sandbox : ∀ s s', Reaches C handle s → Steps C s s' →
    ∀ i sandbox, s.calls i = some (.returned sandbox) →
      ∀ j c, s.calls j = none → s'.calls j = some c → c.Ended → c = .returned sandbox
  /-- If the create failed, every call that starts after the first call has raised raises the same
  object. -/
  same_error : ∀ s s', Reaches C handle s → Steps C s s' → (∃ e, Failed handle s' e) →
    ∀ i e, s.calls i = some (.raised e) → (∀ k e', s.calls k = some (.raised e') → k = i) →
      ∀ j c, s.calls j = none → s'.calls j = some c → c.Ended → c = .raised e
  /-- Only the failure of the create is memoized. -/
  failed_of_failure : ∀ s, Reaches C handle s → ∀ e, s.vars.failure = some e → Failed handle s e

/-- A call that found the join handle taken does not memoize the error that this gave it, and raises
it only after another call has raised. -/
def Meets (s : State) (i : ℕ) : Prop :=
  FoundTaken s i →
    match s.calls i with
    | some (.rescued _) => s.vars.failure ≠ none
    | some (.reraise _) => ∃ k e, s.calls k = some (.raised e)
    | _ => True

section Calls

variable {s s' : State} {i j : ℕ} {c : Call}

/-- The call is where it was moved. -/
@[simp] theorem calls_move : (s.move i c).calls i = some c := Function.update_self ..

/-- The others stay. -/
theorem calls_move_of_ne (hne : j ≠ i) : (s.move i c).calls j = s.calls j :=
  Function.update_of_ne hne ..

/-- The session stays. -/
@[simp] theorem world_move : (s.move i c).world = s.world := rfl

/-- So do the variables. -/
@[simp] theorem vars_move : (s.move i c).vars = s.vars := rfl

/-- A step of one call leaves the others where they are. -/
theorem Step.calls_of_ne (h : Step s i s') (hne : j ≠ i) : s'.calls j = s.calls j := by
  cases h with
  | invoke | ruby | advance | poll | join => exact calls_move_of_ne hne
  | act => rfl

end Calls

/-! ## Calls go on -/

section Progress

variable {handle : JoinHandle} {s s' : State} {i j : ℕ}

/-- The positions on the way into a native call when nothing interrupts it. -/
def Settled : Entry Empty → Prop
  | .get | .ensureBackend | .check => True
  | .enter attempts => attempts < MAX_ENTRY_ATTEMPTS
  | .recheck attempts => attempts + 1 < MAX_ENTRY_ATTEMPTS
  | .polled | .failed _ => False

/-- A quiet answer leads to the poll or to another settled entry. -/
theorem settled_next {en en' : Entry Empty} {answer : Answer Empty} (hen : Settled en)
    (hquiet : Quiet en answer) (hnext : en.next answer = some en') :
    en' = .polled ∨ Settled en' := by
  cases answer with
  | got r =>
    obtain rfl : r = .ok () := hquiet
    obtain ⟨-, ⟨-, rfl⟩ | ⟨e, he, -⟩⟩ := Entry.next_got hnext
    · exact Or.inr trivial
    · cases he
  | ensured r =>
    obtain rfl : r = .ok () := hquiet
    obtain ⟨-, ⟨-, rfl⟩ | ⟨e, he, -⟩⟩ := Entry.next_ensured hnext
    · exact Or.inr trivial
    · cases he
  | checked r =>
    cases r with
    | error e => cases e
    | ok u =>
      cases en with
      | check =>
        cases hnext
        exact Or.inr (show 0 < MAX_ENTRY_ATTEMPTS by decide)
      | recheck attempts =>
        -- an attempt is left, so the check is followed by one more
        have hleft : attempts + 1 < MAX_ENTRY_ATTEMPTS := hen
        rw [Entry.next, if_neg (Nat.not_le.mpr hleft)] at hnext
        cases hnext
        exact Or.inr hleft
      | get | ensureBackend | enter | polled | failed => cases hnext
  | entered ran =>
    cases ran with
    | true =>
      obtain ⟨-, -, rfl⟩ := Entry.next_entered hnext
      exact Or.inl rfl
    | false =>
      obtain ⟨attempts, rfl, hleft⟩ := hquiet.resolve_left Bool.false_ne_true
      cases hnext
      exact Or.inr hleft

/-- There is always such an answer. -/
theorem exists_settled_next {en : Entry Empty} (hen : Settled en) :
    ∃ answer en', Quiet en answer ∧ en.next answer = some en' := by
  cases en with
  | get => exact ⟨.got (.ok ()), _, rfl, rfl⟩
  | ensureBackend => exact ⟨.ensured (.ok ()), _, rfl, rfl⟩
  | check => exact ⟨.checked (.ok ()), _, trivial, rfl⟩
  | enter attempts => exact ⟨.entered true, _, Or.inl rfl, rfl⟩
  | recheck attempts => exact ⟨.checked (.ok ()), _, trivial, if_neg (Nat.not_le.mpr hen)⟩
  | polled | failed => exact absurd hen id

/-- Where the future of call `i` stands, from where the call stands. -/
def Placed (s : State) (i : ℕ) : Option Call → Prop
  | none | some .checkFailure | some .checkSandbox => s.world.tasks i = none
  | some (.entering en) => s.world.tasks i = none ∧ Settled en
  | some .awaiting => s.world.tasks i ≠ none
  | _ => True

/-- What holds in every run. -/
structure Sound (handle : JoinHandle) (s : State) : Prop where
  runs : Runs handle s.world
  not_panicked : ∀ i c, (i, .panicked c) ∉ s.world.log
  placed : ∀ i, Placed s i (s.calls i)

/-- Where a call is depends on its own task only. -/
theorem Placed.congr {c : Option Call} (h : Placed s i c)
    (htasks : s'.world.tasks i = none ↔ s.world.tasks i = none) : Placed s' i c := by
  rcases c with _ | c
  · exact htasks.mpr h
  · cases c with
    | checkFailure | checkSandbox => exact htasks.mpr h
    | entering en => exact ⟨htasks.mpr h.1, h.2⟩
    | awaiting => exact fun hnone => h (htasks.mp hnone)
    | wrap | store | returning | rescued | memoize | reraise | returned | raised => trivial

/-- An event adds no task and removes none but its own. -/
theorem tasks_act {w w' : ResultWorld} {e : ResultEvent} (h : Act w i e w') :
    w'.tasks j = none ↔ w.tasks j = none := by
  obtain ⟨htask, -, -⟩ := h
  by_cases hij : j = i
  · subst hij
    simp [htask]
  · rw [World.tasks_after_of_ne _ _ _ _ hij]

/-- It holds before the first call. -/
theorem sound_init : Sound handle (.init handle) where
  runs := .init
  not_panicked := by simp [State.init, World.init]
  placed _ := rfl

/-- Every step keeps it. -/
theorem Sound.step (h : Sound handle s) (hstep : Step s i s') : Sound handle s' := by
  -- it is enough to place the call that takes the step
  have hmove : ∀ {c : Call} {vars : Ivars}, Placed s i (some c) →
      Sound handle { s.move i c with vars } := by
    intro c vars hplaced
    refine ⟨h.runs, h.not_panicked, ?_⟩
    intro j
    by_cases hij : j = i
    · subst hij
      have hplaced' : Placed { s.move j c with vars } j (some c) := hplaced.congr Iff.rfl
      simpa using hplaced'
    · have hcalls : ({ s.move i c with vars } : State).calls j = s.calls j := calls_move_of_ne hij
      rw [hcalls]
      exact (h.placed j).congr Iff.rfl
  have hplaced := h.placed i
  cases hstep with
  | invoke hnew =>
    rw [hnew] at hplaced
    exact hmove hplaced
  | @ruby c c' vars hc hnext =>
    rw [hc] at hplaced
    refine hmove ?_
    -- a Ruby step moves the call and touches no task
    cases c with
    | checkFailure =>
      cases hfailure : s.vars.failure <;> simp [Call.next, hfailure] at hnext
      · obtain ⟨rfl, -⟩ := hnext
        exact hplaced
      · obtain ⟨rfl, -⟩ := hnext
        trivial
    | checkSandbox =>
      cases hsandbox : s.vars.sandbox <;> simp [Call.next, hsandbox] at hnext
      · obtain ⟨rfl, -⟩ := hnext
        exact ⟨hplaced, trivial⟩
      · obtain ⟨rfl, -⟩ := hnext
        trivial
    | rescued e => cases hfailure : s.vars.failure <;> simp [Call.next, hfailure] at hnext <;>
        (obtain ⟨rfl, -⟩ := hnext; trivial)
    | wrap | store | returning | memoize | reraise => cases hnext; trivial
    | entering | awaiting | returned | raised => cases hnext
  | advance hc hnext hquiet hne =>
    rw [hc] at hplaced
    exact hmove ⟨hplaced.1, (settled_next hplaced.2 hquiet hnext).resolve_left hne⟩
  | join hc hmem =>
    refine hmove ?_
    rename_i r
    cases r <;> trivial
  | poll hc hnext hquiet =>
    rw [hc] at hplaced
    refine ⟨h.runs.spawn hplaced.1, h.not_panicked, ?_⟩
    intro j
    by_cases hij : j = i
    · subst hij
      simp [Placed, State.move, World.spawn]
    · simp only [State.move, Function.update_of_ne hij]
      refine (h.placed j).congr ?_
      simp [World.spawn, Function.update_of_ne hij]
  | @act e w hact hpanic =>
    refine ⟨h.runs.act hact, ?_, fun j => (h.placed j).congr (tasks_act hact)⟩
    intro j c hmem
    obtain ⟨-, -, -⟩ := hact
    rcases List.mem_append.mp hmem with hmem | hmem
    · exact h.not_panicked j c hmem
    · simp only [List.mem_singleton, Prod.mk.injEq] at hmem
      exact hpanic c hmem.2.symm

/-- A future that was awaited is answered. -/
theorem act_finished {w : ResultWorld} {c : JoinHandle}
    {k : Joined → ResultFuture (Except RubyError CoreSandbox)}
    (htask : w.tasks i = some (.awaiting c k)) (r : Joined) :
    Act w i (.finished c r) (w.after i (.finished c r) (.running (k r))) :=
  .intro htask (@TaskStep.finish _ _ _ (fun _ => Joined) c k r) trivial

/-- A task that can panic can also be answered. -/
theorem exists_act_not_panicked {w w' : ResultWorld} {e : ResultEvent} (h : Act w i e w') :
    ∃ e' w'', Act w i e' w'' ∧ ∀ c, e' ≠ .panicked c := by
  by_cases hpanic : ∃ c, e = .panicked c
  · obtain ⟨c, rfl⟩ := hpanic
    obtain ⟨htask, hstep, -⟩ := h
    cases hstep with
    | panic c k => exact ⟨_, _, act_finished htask default, by simp⟩
  · exact ⟨e, w', h, fun c he => hpanic ⟨c, he⟩⟩

/-- What a task does alone is an event or nothing. -/
theorem exists_act_of_alone {w w' : ResultWorld} (halone : Alone i w w') (hne : w ≠ w') :
    ∃ e w'', Act w i e w'' := by
  obtain rfl | ⟨w'', ⟨e, hact⟩, -⟩ := Relation.ReflTransGen.cases_head halone
  · exact absurd rfl hne
  · exact ⟨e, w'', hact⟩

/-- While a native call has not returned, its future or the one that holds the guard can go on. -/
theorem Sound.exists_act (h : Sound handle s) {t : Task _ _ _} (htask : s.world.tasks i = some t)
    (hlive : ∀ r, (i, .returned r) ∉ s.world.log) : ∃ j e w, Act s.world j e w := by
  have hran := (h.runs.ran i).2 t htask
  have hdisciplined : result.Along Disciplined [] := along_result.mono fun _ _ hspec => hspec.1
  cases t with
  | awaiting c k => exact ⟨i, _, _, act_finished htask default⟩
  | ended =>
    rcases hran.returned_or_panicked with ⟨r, hmem⟩ | ⟨c, hmem⟩
    · exact absurd (mem_eventsOf.mp hmem) (hlive r)
    · exact absurd (mem_eventsOf.mp hmem) (h.not_panicked i c)
  | running f =>
    cases hholder : s.world.holder with
    | none =>
      -- while the lock is free, the task can run to its end
      obtain ⟨w, halone, -, hended⟩ :=
        h.runs.exists_finish f htask (Or.inl hholder) (hran.always hdisciplined).2
      obtain ⟨e, w', hact⟩ := exists_act_of_alone halone (by
        rintro rfl
        rw [htask] at hended
        cases hended)
      exact ⟨i, e, w', hact⟩
    | some j =>
      -- the holder can run until it lets the lock go
      obtain ⟨w, halone, hfree⟩ := h.runs.exists_free hdisciplined hholder
      obtain ⟨e, w', hact⟩ := exists_act_of_alone halone (by
        rintro rfl
        rw [hholder] at hfree
        cases hfree)
      exact ⟨j, e, w', hact⟩

/-- As long as a call is live, some step is possible. -/
theorem Sound.exists_step (h : Sound handle s) {c : Call} (hc : s.calls i = some c)
    (hlive : ¬ c.Ended) : ∃ j s', s.calls j ≠ none ∧ Step s j s' := by
  have hplaced := h.placed i
  rw [hc] at hplaced
  have hstarted : s.calls i ≠ none := by simp [hc]
  cases c with
  | checkFailure =>
    cases hfailure : s.vars.failure with
    | none => exact ⟨i, _, hstarted, .ruby hc (by rw [Call.next, hfailure])⟩
    | some e => exact ⟨i, _, hstarted, .ruby hc (by rw [Call.next, hfailure])⟩
  | checkSandbox =>
    cases hsandbox : s.vars.sandbox with
    | none => exact ⟨i, _, hstarted, .ruby hc (by rw [Call.next, hsandbox])⟩
    | some sandbox => exact ⟨i, _, hstarted, .ruby hc (by rw [Call.next, hsandbox])⟩
  | rescued e =>
    cases hfailure : s.vars.failure with
    | none => exact ⟨i, _, hstarted, .ruby hc (by rw [Call.next, hfailure])⟩
    | some e => exact ⟨i, _, hstarted, .ruby hc (by rw [Call.next, hfailure])⟩
  | wrap | store | returning | memoize | reraise => exact ⟨i, _, hstarted, .ruby hc rfl⟩
  | entering en =>
    obtain ⟨answer, en', hquiet, hnext⟩ := exists_settled_next hplaced.2
    by_cases hpolled : en' = .polled
    · subst hpolled
      exact ⟨i, _, hstarted, .poll hc hnext hquiet⟩
    · exact ⟨i, _, hstarted, .advance hc hnext hquiet hpolled⟩
  | awaiting =>
    -- a call that waits goes on when its future has returned; until then some future can act
    by_cases hreturned : ∃ r, (i, .returned r) ∈ s.world.log
    · obtain ⟨r, hmem⟩ := hreturned
      exact ⟨i, _, hstarted, .join hc hmem⟩
    · obtain ⟨t, htask⟩ := Option.ne_none_iff_exists'.mp hplaced
      obtain ⟨j, e, w, hact⟩ := h.exists_act htask fun r hmem => hreturned ⟨r, hmem⟩
      obtain ⟨e', w', hact', hpanic⟩ := exists_act_not_panicked hact
      refine ⟨j, _, ?_, .act hact' hpanic⟩
      intro hnone
      -- a call that has not started has no future
      have hidle := h.placed j
      rw [hnone, Placed] at hidle
      obtain ⟨hrunning, -, -⟩ := hact'
      rw [hrunning] at hidle
      cases hidle
  | returned | raised => exact absurd trivial hlive

end Progress

/-! ## The memo -/

section Memo

variable {handle : JoinHandle} {s s' : State} {i j : ℕ}

/-- What call `i` has to do with the memo, from where it stands. -/
def Honest (handle : JoinHandle) (s : State) (i : ℕ) : Option Call → Prop
  | some (.wrap native) => Booted handle s ⟨native, i⟩
  | some (.store sandbox) => Booted handle s sandbox
  | some (.returning sandbox) | some (.returned sandbox) => s.vars.sandbox = some sandbox
  | some (.rescued e) =>
    s.vars.failure = some e ∨ e.madeBy = i ∧ (Failed handle s e ∨ FoundTaken s i)
  | some (.memoize e) => Failed handle s e
  | some (.reraise e) => s.vars.failure = some e ∨ FoundTaken s i ∧ s.vars.failure ≠ none
  | some (.raised e) => s.vars.failure = some e ∨
    s.vars.failure ≠ none ∧ ∃ k e', k ≠ i ∧ s.calls k = some (.raised e')
  | _ => True

/-- What holds in the runs whose steps satisfy `Meets`. -/
structure Stable (handle : JoinHandle) (s : State) : Prop extends Sound handle s where
  failure : ∀ e, s.vars.failure = some e → Failed handle s e
  sandbox : ∀ sandbox, s.vars.sandbox = some sandbox → Booted handle s sandbox
  honest : ∀ i, Honest handle s i (s.calls i)

/-- What a step keeps. -/
structure Extends (s s' : State) : Prop where
  log : ∀ x ∈ s.world.log, x ∈ s'.world.log
  failure : ∀ e, s.vars.failure = some e → s'.vars.failure = some e
  sandbox : ∀ sandbox, s.vars.sandbox = some sandbox → s'.vars.sandbox = some sandbox
  raised : ∀ k e, s.calls k = some (.raised e) → s'.calls k = some (.raised e)

/-- A failure that was seen stays seen. -/
theorem Failed.mono {e : ErrorObject} (h : Failed handle s e) (hext : Extends s s') :
    Failed handle s' e := by
  obtain ⟨r, hmem, hr⟩ := h
  exact ⟨r, hext.log _ hmem, hr⟩

/-- So does a sandbox. -/
theorem Booted.mono {sandbox : SandboxObject} (h : Booted handle s sandbox) (hext : Extends s s') :
    Booted handle s' sandbox := by
  obtain ⟨r, hmem, hr⟩ := h
  exact ⟨r, hext.log _ hmem, hr⟩

/-- The create fails with one exception object. -/
theorem Failed.unique (hruns : Runs handle s.world) {e e' : ErrorObject} (h : Failed handle s e)
    (h' : Failed handle s e') : e' = e := by
  obtain ⟨r, hmem, hr⟩ := h
  obtain ⟨r', hmem', hr'⟩ := h'
  obtain ⟨hmade, rfl⟩ := hruns.finished_unique hmem hmem'
  have herror : e'.error = e.error := Except.error.inj (hr'.symm.trans hr)
  cases e
  cases e'
  simp_all

/-- The create succeeds with one wrapper. -/
theorem Booted.unique (hruns : Runs handle s.world) {sandbox sandbox' : SandboxObject}
    (h : Booted handle s sandbox) (h' : Booted handle s sandbox') : sandbox' = sandbox := by
  obtain ⟨r, hmem, hr⟩ := h
  obtain ⟨r', hmem', hr'⟩ := h'
  obtain ⟨hmade, rfl⟩ := hruns.finished_unique hmem hmem'
  have hnative : sandbox'.native = sandbox.native := Except.ok.inj (hr'.symm.trans hr)
  cases sandbox
  cases sandbox'
  simp_all

/-- A create that failed has no sandbox. -/
theorem Failed.not_booted (hruns : Runs handle s.world) {e : ErrorObject} {sandbox : SandboxObject}
    (h : Failed handle s e) : ¬ Booted handle s sandbox := by
  rintro ⟨r', hmem', hr'⟩
  obtain ⟨r, hmem, hr⟩ := h
  obtain ⟨-, rfl⟩ := hruns.finished_unique hmem hmem'
  rw [hr] at hr'
  cases hr'

/-- What a call returned stays true. -/
theorem Honest.mono {c : Option Call} (h : Honest handle s i c) (hext : Extends s s') :
    Honest handle s' i c := by
  -- what is memoized stays
  have hset : s.vars.failure ≠ none → s'.vars.failure ≠ none := by
    intro hfailure
    obtain ⟨e, he⟩ := Option.ne_none_iff_exists'.mp hfailure
    simp [hext.failure e he]
  rcases c with _ | c
  · trivial
  · cases c with
    | checkFailure | checkSandbox | entering | awaiting => trivial
    | wrap | store => exact Booted.mono h hext
    | returning | returned => exact hext.sandbox _ h
    | memoize => exact Failed.mono h hext
    | rescued e =>
      rcases h with hmemo | ⟨hmade, hfailed | hfound⟩
      · exact Or.inl (hext.failure _ hmemo)
      · exact Or.inr ⟨hmade, Or.inl (hfailed.mono hext)⟩
      · exact Or.inr ⟨hmade, Or.inr (hext.log _ hfound)⟩
    | reraise e =>
      rcases h with hmemo | ⟨hfound, hfailure⟩
      · exact Or.inl (hext.failure _ hmemo)
      · exact Or.inr ⟨hext.log _ hfound, hset hfailure⟩
    | raised e =>
      rcases h with hmemo | ⟨hfailure, k, e', hne, hraised⟩
      · exact Or.inl (hext.failure _ hmemo)
      · exact Or.inr ⟨hset hfailure, k, e', hne, hext.raised k e' hraised⟩

/-- A call that has raised stays there. -/
theorem Step.raised (hstep : Step s i s') {k : ℕ} {e : ErrorObject}
    (hraised : s.calls k = some (.raised e)) : s'.calls k = some (.raised e) := by
  by_cases hki : k = i
  · subst hki
    cases hstep with
    | invoke hc | advance hc | poll hc | join hc =>
      rw [hraised] at hc
      cases hc
    | ruby hc hnext =>
      rw [hraised] at hc
      cases hc
      cases hnext
    | act => exact hraised
  · rw [hstep.calls_of_ne hki, hraised]

/-- How the memo changes. -/
theorem next_vars {c c' : Call} {vars vars' : Ivars} (hnext : c.next i vars = some (c', vars')) :
    vars' = vars ∨ (∃ sandbox, c = .store sandbox ∧ vars' = { vars with sandbox := some sandbox }) ∨
      ∃ e, c = .memoize e ∧ vars' = { vars with failure := some e } := by
  cases c with
  | checkFailure | rescued => cases hfailure : vars.failure <;> simp_all [Call.next]
  | checkSandbox => cases hsandbox : vars.sandbox <;> simp_all [Call.next]
  | store sandbox =>
    cases hnext
    exact Or.inr (Or.inl ⟨sandbox, rfl, rfl⟩)
  | memoize e =>
    cases hnext
    exact Or.inr (Or.inr ⟨e, rfl, rfl⟩)
  | wrap | returning | reraise =>
    cases hnext
    exact Or.inl rfl
  | entering | awaiting | returned | raised => cases hnext

/-- A memo that is set does not change: there is one outcome of the create. -/
theorem Stable.extends (h : Stable handle s) (hstep : Step s i s') : Extends s s' := by
  have hraised : ∀ k e, s.calls k = some (.raised e) → s'.calls k = some (.raised e) :=
    fun k e => hstep.raised
  have hhonest := h.honest i
  cases hstep with
  | invoke | advance | poll | join => exact ⟨fun _ => id, fun _ => id, fun _ => id, hraised⟩
  | act hact =>
    refine ⟨?_, fun _ => id, fun _ => id, hraised⟩
    intro x hmem
    obtain ⟨-, -, -⟩ := hact
    exact List.mem_append_left _ hmem
  | ruby hc hnext =>
    rw [hc] at hhonest
    obtain rfl | ⟨sandbox, rfl, rfl⟩ | ⟨e, rfl, rfl⟩ := next_vars hnext
    · exact ⟨fun _ => id, fun _ => id, fun _ => id, hraised⟩
    · refine ⟨fun _ => id, fun _ => id, ?_, hraised⟩
      intro sandbox' hmemo
      rw [(h.sandbox _ hmemo).unique h.runs hhonest]
    · refine ⟨fun _ => id, ?_, fun _ => id, hraised⟩
      intro e' hmemo
      rw [(h.failure _ hmemo).unique h.runs hhonest]

/-- The stronger invariant holds before the first call. -/
theorem stable_init : Stable handle (.init handle) where
  toSound := sound_init
  failure := by simp [State.init]
  sandbox := by simp [State.init]
  honest _ := trivial

/-- The step of a call that a step of Ruby moves. -/
theorem honest_next (h : Stable handle s) (hmeets : Meets s i) {c c' : Call} {vars : Ivars}
    (hc : s.calls i = some c) (hnext : c.next i s.vars = some (c', vars)) :
    Honest handle { s.move i c' with vars } i (some c') := by
  have hhonest := h.honest i
  have hext := h.extends (.ruby hc hnext)
  rw [hc] at hhonest
  cases c with
  | checkFailure =>
    cases hfailure : s.vars.failure with
    | none =>
      simp only [Call.next, hfailure, Option.some.injEq, Prod.mk.injEq] at hnext
      obtain ⟨rfl, -⟩ := hnext
      trivial
    | some e =>
      simp only [Call.next, hfailure, Option.some.injEq, Prod.mk.injEq] at hnext
      obtain ⟨rfl, rfl⟩ := hnext
      -- an error that is memoized before is raised again as it is
      exact Or.inl hfailure
  | checkSandbox =>
    cases hsandbox : s.vars.sandbox with
    | none =>
      simp only [Call.next, hsandbox, Option.some.injEq, Prod.mk.injEq] at hnext
      obtain ⟨rfl, -⟩ := hnext
      trivial
    | some sandbox =>
      simp only [Call.next, hsandbox, Option.some.injEq, Prod.mk.injEq] at hnext
      obtain ⟨rfl, rfl⟩ := hnext
      -- a sandbox that is memoized is returned as it is
      exact hsandbox
  | wrap native =>
    cases hnext
    -- the sandbox is wrapped once the create has booted
    exact Booted.mono hhonest hext
  | store sandbox =>
    cases hnext
    rfl
  | returning sandbox =>
    cases hnext
    exact hhonest
  | rescued e =>
    cases hfailure : s.vars.failure with
    | none =>
      simp only [Call.next, hfailure, Option.some.injEq, Prod.mk.injEq] at hnext
      obtain ⟨rfl, -⟩ := hnext
      rcases hhonest with hmemo | ⟨-, hfailed | hfound⟩
      · rw [hfailure] at hmemo
        cases hmemo
      · exact Failed.mono hfailed hext
      · -- the condition keeps the error of a taken handle out
        have hmet := hmeets hfound
        rw [hc] at hmet
        exact absurd hfailure hmet
    | some e' =>
      simp only [Call.next, hfailure, Option.some.injEq, Prod.mk.injEq] at hnext
      obtain ⟨rfl, rfl⟩ := hnext
      rcases hhonest with hmemo | ⟨-, hfailed | hfound⟩
      · exact Or.inl hmemo
      · -- the create fails once, so both errors are the one it failed with
        rw [(h.failure e' hfailure).unique h.runs hfailed]
        exact Or.inl hfailure
      · exact Or.inr ⟨hfound, by simp [hfailure]⟩
  | memoize e =>
    cases hnext
    exact Or.inl rfl
  | reraise e =>
    cases hnext
    -- an error that is raised without being memoized: another call has failed before
    rcases hhonest with hmemo | ⟨hfound, hfailure⟩
    · exact Or.inl hmemo
    · have hmet := hmeets hfound
      rw [hc] at hmet
      obtain ⟨k, e', hraised⟩ := hmet
      refine Or.inr ⟨hfailure, k, e', ?_, hext.raised k e' hraised⟩
      rintro rfl
      rw [hc] at hraised
      cases hraised
  | entering | awaiting | returned | raised => cases hnext

/-- A step that meets the condition keeps it. -/
theorem Stable.step (h : Stable handle s) (hmeets : Meets s i) (hstep : Step s i s') :
    Stable handle s' := by
  have hext := h.extends hstep
  have hsound := h.toSound.step hstep
  have hhonest := h.honest i
  -- the other calls stay where they are
  have hothers : Honest handle s' i (s'.calls i) → ∀ j, Honest handle s' j (s'.calls j) := by
    intro hi j
    by_cases hij : j = i
    · rw [hij]
      exact hi
    · rw [hstep.calls_of_ne hij]
      exact (h.honest j).mono hext
  -- the memo holds what it held
  have hmemo : s'.vars = s.vars → (∀ e, s'.vars.failure = some e → Failed handle s' e) ∧
      ∀ sandbox, s'.vars.sandbox = some sandbox → Booted handle s' sandbox := by
    intro hvars
    rw [hvars]
    exact ⟨fun e he => (h.failure e he).mono hext,
      fun sandbox hs => (h.sandbox sandbox hs).mono hext⟩
  cases hstep with
  | invoke hnew => exact ⟨hsound, (hmemo rfl).1, (hmemo rfl).2, hothers (by simp [Honest])⟩
  | advance => exact ⟨hsound, (hmemo rfl).1, (hmemo rfl).2, hothers (by simp [Honest])⟩
  | poll =>
    refine ⟨hsound, (hmemo rfl).1, (hmemo rfl).2, hothers ?_⟩
    simp [State.move, Honest]
  | act => exact ⟨hsound, (hmemo rfl).1, (hmemo rfl).2, hothers (hhonest.mono hext)⟩
  | join hc hmem =>
    refine ⟨hsound, (hmemo rfl).1, (hmemo rfl).2, hothers ?_⟩
    rw [calls_move]
    obtain ⟨hfound, rfl⟩ | ⟨r, hfinished, rfl⟩ := h.runs.returned_cases hmem
    · exact Or.inr ⟨rfl, Or.inr hfound⟩
    · -- the create has finished, with a sandbox or with an error
      cases hr : joinedResult (some r) with
      | ok native => exact ⟨r, hfinished, hr⟩
      | error error => exact Or.inr ⟨rfl, Or.inl ⟨r, hfinished, hr⟩⟩
  | @ruby c c' vars hc hnext =>
    have hi := honest_next h hmeets hc hnext
    rw [hc] at hhonest
    refine ⟨hsound, ?_, ?_, hothers (by simpa using hi)⟩
    · -- the memo changes in two places of the method only
      intro e he
      obtain rfl | ⟨sandbox, rfl, rfl⟩ | ⟨e', rfl, rfl⟩ := next_vars hnext
      · exact (h.failure e he).mono hext
      · exact (h.failure e he).mono hext
      · obtain rfl := Option.some.inj he
        exact Failed.mono hhonest hext
    · intro sandbox hs
      obtain rfl | ⟨sandbox', rfl, rfl⟩ | ⟨e', rfl, rfl⟩ := next_vars hnext
      · exact (h.sandbox sandbox hs).mono hext
      · obtain rfl := Option.some.inj hs
        exact Booted.mono hhonest hext
      · exact (h.sandbox sandbox hs).mono hext

/-- So does a run of such steps. -/
theorem Stable.steps (h : Stable handle s) (hsteps : Steps Meets s s') : Stable handle s' := by
  induction hsteps with
  | refl => exact h
  | tail _ hstep ih =>
    obtain ⟨i, hmeets, hstep⟩ := hstep
    exact ih.step hmeets hstep

/-! ## Later calls -/

/-- A call that starts when the sandbox is memoized returns it. -/
def Late (sandbox : SandboxObject) : Option Call → Prop
  | none | some .checkFailure | some .checkSandbox => True
  | some (.returning sandbox') | some (.returned sandbox') => sandbox' = sandbox
  | _ => False

/-- A call that came later returns the sandbox of the memo. -/
theorem late_step (h : Stable handle s) {sandbox : SandboxObject}
    (hmemo : s.vars.sandbox = some sandbox) (hstep : Step s i s')
    (hlate : Late sandbox (s.calls j)) : Late sandbox (s'.calls j) := by
  by_cases hij : j = i
  · subst hij
    -- a sandbox and a failure are never memoized both
    have hfailure : s.vars.failure = none := by
      rw [Option.eq_none_iff_forall_not_mem]
      intro e he
      exact (h.failure e he).not_booted h.runs (h.sandbox sandbox hmemo)
    cases hstep with
    | invoke => simp [Late]
    | act => exact hlate
    | advance hc | poll hc | join hc => simp [hc, Late] at hlate
    | @ruby c c' vars hc hnext =>
      rw [hc] at hlate
      cases c with
      | checkFailure =>
        simp only [Call.next, hfailure, Option.some.injEq, Prod.mk.injEq] at hnext
        obtain ⟨rfl, -⟩ := hnext
        simp [Late]
      | checkSandbox =>
        simp only [Call.next, hmemo, Option.some.injEq, Prod.mk.injEq] at hnext
        obtain ⟨rfl, -⟩ := hnext
        simp [Late]
      | returning sandbox' =>
        cases hnext
        simpa [Late] using hlate
      | returned => cases hnext
      | _ => exact absurd hlate (by simp [Late])
  · rw [hstep.calls_of_ne hij]
    exact hlate

/-- It does so along a run of such steps. -/
theorem late_steps (h : Stable handle s) {sandbox : SandboxObject}
    (hmemo : s.vars.sandbox = some sandbox) (hsteps : Steps Meets s s')
    (hlate : Late sandbox (s.calls j)) :
    s'.vars.sandbox = some sandbox ∧ Late sandbox (s'.calls j) := by
  induction hsteps with
  | refl => exact ⟨hmemo, hlate⟩
  | tail hsteps hstep ih =>
    obtain ⟨i, -, hstep⟩ := hstep
    have hstable := h.steps hsteps
    exact ⟨(hstable.extends hstep).sandbox _ ih.1, late_step hstable ih.1 hstep ih.2⟩

/-- A call that starts when the failure is memoized raises it. -/
def LateFailure (e : ErrorObject) : Option Call → Prop
  | none | some .checkFailure => True
  | some (.rescued e') | some (.reraise e') | some (.raised e') => e' = e
  | _ => False

/-- A call that came later raises the error of the memo. -/
theorem lateFailure_step {e : ErrorObject} (hmemo : s.vars.failure = some e) (hstep : Step s i s')
    (hlate : LateFailure e (s.calls j)) : LateFailure e (s'.calls j) := by
  by_cases hij : j = i
  · subst hij
    cases hstep with
    | invoke => simp [LateFailure]
    | act => exact hlate
    | advance hc | poll hc | join hc => simp [hc, LateFailure] at hlate
    | @ruby c c' vars hc hnext =>
      rw [hc] at hlate
      cases c with
      | checkFailure =>
        simp only [Call.next, hmemo, Option.some.injEq, Prod.mk.injEq] at hnext
        obtain ⟨rfl, -⟩ := hnext
        simp [LateFailure]
      -- a failure of its own does not replace the one that is memoized
      | rescued e' =>
        simp only [Call.next, hmemo, Option.some.injEq, Prod.mk.injEq] at hnext
        obtain ⟨rfl, -⟩ := hnext
        simpa [LateFailure] using hlate
      | reraise e' =>
        cases hnext
        simpa [LateFailure] using hlate
      | raised => cases hnext
      | _ => exact absurd hlate (by simp [LateFailure])
  · rw [hstep.calls_of_ne hij]
    exact hlate

/-- It does so along a run. -/
theorem lateFailure_steps (h : Stable handle s) {e : ErrorObject}
    (hmemo : s.vars.failure = some e) (hsteps : Steps Meets s s')
    (hlate : LateFailure e (s.calls j)) :
    s'.vars.failure = some e ∧ LateFailure e (s'.calls j) := by
  induction hsteps with
  | refl => exact ⟨hmemo, hlate⟩
  | tail hsteps hstep ih =>
    obtain ⟨i, -, hstep⟩ := hstep
    have hstable := h.steps hsteps
    exact ⟨(hstable.extends hstep).failure _ ih.1, lateFailure_step ih.1 hstep ih.2⟩

/-- A call that has ended leaves the outcome of the create behind. -/
theorem Stable.finished_of_ended (h : Stable handle s) {c : Call} (hc : s.calls i = some c)
    (hended : c.Ended) : ∃ k r, (k, .finished handle r) ∈ s.world.log := by
  have hhonest := h.honest i
  rw [hc] at hhonest
  cases c with
  | returned sandbox =>
    obtain ⟨r, hmem, -⟩ := h.sandbox _ hhonest
    exact ⟨_, r, hmem⟩
  | raised e =>
    have hset : s.vars.failure ≠ none := by
      rcases hhonest with hmemo | ⟨hset, -⟩
      · simp [hmemo]
      · exact hset
    obtain ⟨e', hmemo⟩ := Option.ne_none_iff_exists'.mp hset
    obtain ⟨r, hmem, -⟩ := h.failure e' hmemo
    exact ⟨_, r, hmem⟩
  | _ => exact hended.elim

end Memo

/-- For any number of threads that call `PullSession#sandbox` on one session, any number of times,
in every interleaving, and any outcome of the create: the memo is stable in every run in which no
call that found the join handle taken memoizes its error, or raises it before another call has
raised. -/
theorem stableMemo_of_meets (handle : JoinHandle) : StableMemo Meets handle where
  awaited_once s h := by
    have hstable := stable_init.steps h
    refine ⟨hstable.runs.awaits_le_one, ?_⟩
    intro i c hc hended
    obtain ⟨k, r, hmem⟩ := hstable.finished_of_ended hc hended
    exact hstable.runs.awaits_eq_one hmem
  goes_on s h i c hc hlive := (stable_init.steps h).exists_step hc hlive
  same_sandbox s s' h hsteps i sandbox hreturned j c hnew hc hended := by
    have hstable := stable_init.steps h
    have hmemo := hstable.honest i
    rw [hreturned] at hmemo
    -- the call that comes later finds the memo set
    have hlate := (late_steps hstable hmemo hsteps (j := j) (by rw [hnew]; trivial)).2
    rw [hc] at hlate
    cases c with
    | returned sandbox' => exact congrArg Call.returned hlate
    | raised => exact hlate.elim
    | _ => exact hended.elim
  same_error s s' h hsteps _ i e hraised hfirst j c hnew hc hended := by
    have hstable := stable_init.steps h
    have hhonest := hstable.honest i
    rw [hraised] at hhonest
    -- the first error that was raised is the one in the memo
    have hmemo : s.vars.failure = some e := by
      rcases hhonest with hmemo | ⟨-, k, e', hne, hraised'⟩
      · exact hmemo
      · exact absurd (hfirst k e' hraised') hne
    have hlate := (lateFailure_steps hstable hmemo hsteps (j := j) (by rw [hnew]; trivial)).2
    rw [hc] at hlate
    cases c with
    | raised e' => exact congrArg Call.raised hlate
    | returned => exact hlate.elim
    | _ => exact hended.elim
  failed_of_failure s h e he := (stable_init.steps h).failure e he

/-! ## Two calls at once -/

section Sample

variable {s : State} {i : ℕ} {w : ResultWorld}

/-- No condition. -/
abbrev Free : State → ℕ → Prop := fun _ _ => True

/-- Call `i` goes on in Ruby while no other call takes a step. -/
def RubySteps (i : ℕ) : Call × Ivars → Call × Ivars → Prop :=
  Relation.ReflTransGen fun x y => x.1.next i x.2 = some y

/-- A thread that runs alone takes its Ruby steps. -/
theorem steps_ruby {c : Call} {y : Call × Ivars} (hc : s.calls i = some c)
    (hsteps : RubySteps i (c, s.vars) y) : Steps Free s { s.move i y.1 with vars := y.2 } := by
  induction hsteps with
  | refl =>
    have hsame : s.move i c = s := by
      rw [State.move, ← hc, Function.update_eq_self]
    show Steps Free s (s.move i c)
    rw [hsame]
    exact .refl
  | @tail x y _ hnext ih =>
    have hstep := Step.ruby (s := { s.move i x.1 with vars := x.2 }) calls_move hnext
    have hmove : ({ s.move i x.1 with vars := x.2 } : State).move i y.1 =
        { s.move i y.1 with vars := x.2 } := by
      simp [State.move]
    rw [hmove] at hstep
    exact ih.tail ⟨i, trivial, hstep⟩

/-- A call that finds both memos unset goes on to the native call. -/
theorem steps_enter (hi : s.calls i = none) (hfailure : s.vars.failure = none)
    (hsandbox : s.vars.sandbox = none) :
    Steps Free s { s.move i .awaiting with world := s.world.spawn i result } := by
  have hmove : ∀ {c c' : Call}, (s.move i c).move i c' = s.move i c' := by
    intro c c'
    simp [State.move]
  -- a step of Ruby code, then one of the entry of `block_on`
  have hruby : ∀ (c c' : Call), c.next i s.vars = some (c', s.vars) →
      Steps Free (s.move i c) (s.move i c') := by
    intro c c' hnext
    have hstep := Step.ruby (s := s.move i c) calls_move hnext
    rw [hmove] at hstep
    exact .single ⟨i, trivial, hstep⟩
  have hadvance : ∀ (answer : Answer Empty) {en en' : Entry Empty}, en.next answer = some en' →
      Quiet en answer → en' ≠ .polled →
      Steps Free (s.move i (.entering en)) (s.move i (.entering en')) := by
    intro answer en en' hnext hquiet hne
    have hstep := Step.advance (s := s.move i (.entering en)) calls_move hnext hquiet hne
    rw [hmove] at hstep
    exact .single ⟨i, trivial, hstep⟩
  have hnext : Entry.next (.enter 0) (.entered true) = some (.polled : Entry Empty) := rfl
  have hpoll := Step.poll (s := s.move i (.entering (.enter 0))) calls_move hnext (Or.inl rfl)
  rw [hmove] at hpoll
  refine .head ⟨i, trivial, .invoke hi⟩ ((hruby .checkFailure .checkSandbox ?_).trans ?_)
  · rw [Call.next, hfailure]
  refine (hruby .checkSandbox (.entering .get) ?_).trans ?_
  · rw [Call.next, hsandbox]
  refine (hadvance (.got (.ok ())) rfl rfl (by simp)).trans ?_
  refine (hadvance (.ensured (.ok ())) rfl rfl (by simp)).trans ?_
  refine (hadvance (.checked (.ok ())) rfl trivial (by simp)).trans ?_
  exact .single ⟨i, trivial, hpoll⟩

/-- A schedule of the native calls in which nothing panics. -/
theorem steps_execAll (schedule : List (ℕ × Choice fun _ : JoinHandle => Joined))
    (hw : s.world.execAll schedule = some w) (hpanic : ∀ i c, (i, .panicked c) ∉ w.log) :
    Steps Free s { s with world := w } := by
  induction schedule generalizing s with
  | nil =>
    cases hw
    exact .refl
  | cons x rest ih =>
    rw [World.execAll] at hw
    obtain ⟨u, hexec, hrest⟩ := Option.bind_eq_some_iff.mp hw
    obtain ⟨e, hact⟩ := act_of_exec hexec
    have hnot : ∀ c, e ≠ .panicked c := by
      rintro c rfl
      refine hpanic x.1 c (mem_log_of_execAll hrest ?_)
      obtain ⟨-, -, -⟩ := hact
      simp
    exact .head ⟨x.1, trivial, .act hact hnot⟩ (ih (s := { s with world := u }) hrest)

/-- Call 0 takes the join handle and awaits it; call 1 finds it taken; then the create succeeds. -/
def overlap : Log :=
  [(0, .acquired), (0, .accessed (some ⟨7⟩) none), (0, .released), (0, .began ⟨7⟩),
    (1, .acquired), (1, .accessed none none), (1, .released),
    (1, .returned (joinedResult none)), (0, .finished ⟨7⟩ (.ok (.ok ⟨3⟩))),
    (0, .returned (.ok ⟨3⟩))]

/-- The error of call 1. -/
def alreadyTaken : ErrorObject := ⟨.baseError "pull session result already taken", 1⟩

/-- Two calls can both be awaiting the session. -/
theorem steps_overlap : ∃ s, Reaches Free ⟨7⟩ s ∧ s.world.log = overlap ∧
    s.calls = Function.update (Function.update (fun _ => none) 0 (some .awaiting)) 1
      (some .awaiting) ∧ s.vars = ⟨none, none⟩ := by
  refine ⟨_, ((steps_enter (i := 0) rfl rfl rfl).trans (steps_enter (i := 1) rfl rfl rfl)).trans
    (steps_execAll [(0, .go), (0, .go), (0, .go), (0, .go), (1, .go), (1, .go), (1, .go), (1, .go),
      (0, .answer fun _ => .ok (.ok ⟨3⟩)), (0, .go)] rfl ?_), rfl, rfl, rfl⟩
  intro i c hmem
  have hlog : (i, .panicked c) ∈ overlap := hmem
  simp [overlap] at hlog

/-- Call `i` returns from its native call and goes on to its end. -/
theorem steps_join {r : Except RubyError CoreSandbox} {y : Call × Ivars}
    (hc : s.calls i = some .awaiting) (hmem : (i, .returned r) ∈ s.world.log)
    (hsteps : RubySteps i (.joined i r, s.vars) y) :
    Steps Free s { s.move i y.1 with vars := y.2 } := by
  have hruby := steps_ruby (s := s.move i (.joined i r)) calls_move hsteps
  have hmove : (s.move i (.joined i r)).move i y.1 = s.move i y.1 := by simp [State.move]
  rw [hmove] at hruby
  exact .head ⟨i, trivial, .join hc hmem⟩ hruby

/-- The error of call 1 is memoized before call 0 has returned the sandbox. -/
theorem exists_poisoned : ∃ s, Reaches Free ⟨7⟩ s ∧ s.calls 0 = some (.returned ⟨⟨3⟩, 0⟩) ∧
    s.calls 1 = some (.raised alreadyTaken) ∧ s.calls 2 = none ∧
    s.vars = ⟨some alreadyTaken, some ⟨⟨3⟩, 0⟩⟩ := by
  obtain ⟨s, hreach, hlog, hcalls, hvars⟩ := steps_overlap
  have hraise := steps_join (s := s) (i := 1) (r := joinedResult none)
    (y := (.raised alreadyTaken, ⟨some alreadyTaken, none⟩)) (by simp [hcalls])
    (by simp [hlog, overlap]) (hvars ▸ .head rfl (.head rfl (.single rfl)))
  have hreturn := steps_join (i := 0) (r := .ok ⟨3⟩)
    (s := { s.move 1 (.raised alreadyTaken) with vars := ⟨some alreadyTaken, none⟩ })
    (y := (.returned ⟨⟨3⟩, 0⟩, ⟨some alreadyTaken, some ⟨⟨3⟩, 0⟩⟩))
    (by simp [State.move, hcalls]) (by simp [hlog, overlap])
    (.head rfl (.head rfl (.single rfl)))
  exact ⟨_, (hreach.trans hraise).trans hreturn, by simp [State.move], by simp [State.move],
    by simp [State.move, hcalls], rfl⟩

/-- The memo is not stable in every run: call 2 starts after call 0 has returned the sandbox, and
raises the error of call 1, which is not a failure of the create. -/
theorem not_stableMemo : ¬ StableMemo Free ⟨7⟩ := by
  intro hstable
  obtain ⟨s, hreach, hreturned, -, hnew, hvars⟩ := exists_poisoned
  have hraise := steps_ruby (s := s.move 2 .checkFailure) (i := 2)
    (y := (.raised alreadyTaken, s.vars)) calls_move
    (.head (b := (.rescued alreadyTaken, s.vars)) (by simp [Call.next, hvars])
      (.head (b := (.reraise alreadyTaken, s.vars)) (by simp [Call.next, hvars]) (.single rfl)))
  have hlater := hstable.same_sandbox s _ hreach (.head ⟨2, trivial, .invoke hnew⟩ hraise) 0 _
    hreturned 2 (.raised alreadyTaken) hnew (by simp [State.move]) trivial
  cases hlater

end Sample

end MicrosandboxRb.PullSession
