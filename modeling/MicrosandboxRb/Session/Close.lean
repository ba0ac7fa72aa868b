import MicrosandboxRb.Session.Consumed

/-!
# What the answer of `close` means

`close` takes the session before it closes it, and finds nothing to do when another call has taken
it. Its answer therefore speaks for the core's close only in the call that took the session.

## Main results

* `fsWriteSink_close_answers`: what `nil` means for each call of `FsWriteSink#close`;
* `exists_nil_unfinished`: a call that comes second returns `nil` while the core's close of the first
  is still running, and after it has failed.
-/

namespace MicrosandboxRb.Session

open AsyncMutex

namespace SessionClass

variable {Core : Type} {Reply : Core → Type} {Err Method : Type}
  {C : SessionClass Reply Err Method} {method : ℕ → Method} {session : CoreSession}
  {w w' : World (Option CoreSession) (fun c : CoreSession × Core => Except Err (Reply c.2))
    (Except RubyError Value)}
  {before after : Log Reply Err} {i j : ℕ}

/-- A `close` returns after it has found the session taken, or with what it makes of the answer of
the core. -/
theorem returned_of_close (h : Runs C method session w) (hclose : C.calls (method i) = none)
    {a : Except RubyError Value} (hlog : w.log = before ++ (i, .returned a) :: after) :
    (eventsOf i before = [.acquired, .accessed none none, .released] ∧ a = .ok .nil) ∨
      ∃ r, eventsOf i before = [.acquired, .accessed (some session) none, .released,
        .began (session, C.close), .finished (session, C.close) r] ∧ a = C.finish r := by
  obtain ⟨u, u', hrun, rfl, hact⟩ := h.split hlog
  rcases (hrun.along_act hact (along_closing hclose)).2 with hfound | ⟨x, r, hevents, ha⟩
  · exact Or.inl hfound
  · have htook : (i, .accessed (some x) none) ∈ u.log := by
      rw [← mem_eventsOf, hevents]
      simp
    obtain ⟨first, rest, hsplit⟩ := List.append_of_mem htook
    obtain ⟨t, t', hrun', -, hact'⟩ := hrun.split hsplit
    obtain rfl := (took_act hrun' hact').2.1
    exact Or.inr ⟨r, hevents, ha⟩

/-- Only the call that has taken the session hears from the core's close. -/
theorem took_of_finished (h : Runs C method session w)
    {r : Except Err (Reply C.close)} (hmem : (i, .finished (session, C.close) r) ∈ w.log) :
    (i, .accessed (some session) none) ∈ w.log := by
  obtain ⟨before, after, hlog⟩ := List.append_of_mem hmem
  obtain ⟨u, u', hrun, rfl, hact⟩ := h.split hlog
  have hevents : (i, .accessed (some session) none) ∈ u.log := by
    cases hm : C.calls (method i) with
    | none =>
      obtain ⟨x, hx, hes⟩ := (hrun.along_act hact (along_closing hm)).2
      obtain rfl : session = x := congrArg Prod.fst hx
      rw [← mem_eventsOf, hes]
      simp
    | some cs =>
      exact absurd ((hrun.along_act hact (along_operation hm)).2).1 (C.close_not_mem _ _ hm)
  rw [hlog]
  exact List.mem_append_left _ hevents

/-- When a `close` returns, some call has taken the session. -/
theorem taken_of_returned (h : Runs C method session w) (hclose : C.calls (method i) = none)
    {a : Except RubyError Value} (hlog : w.log = before ++ (i, .returned a) :: after) :
    ∃ j, (j, .accessed (some session) none) ∈ before := by
  have hfound : ∃ v, (i, .accessed v none) ∈ before := by
    rcases returned_of_close h hclose hlog with ⟨hevents, -⟩ | ⟨r, hevents, -⟩
    · refine ⟨none, ?_⟩
      rw [← mem_eventsOf, hevents]
      simp
    · refine ⟨some session, ?_⟩
      rw [← mem_eventsOf, hevents]
      simp
  -- the close has looked, so the session was taken by it or before it
  obtain ⟨v, hmem⟩ := hfound
  obtain ⟨u, u', hrun, rfl, -⟩ := h.split hlog
  obtain ⟨first, rest, hsplit⟩ := List.append_of_mem hmem
  obtain ⟨t, t', hrun', rfl, hact⟩ := hrun.split hsplit
  rcases value_eq hrun' with ⟨hopen, -⟩ | ⟨-, j, x, htook⟩
  · -- this call takes it
    have hvalue := (accessed_act hrun' hact).2.1
    rw [hopen] at hvalue
    rw [← hvalue] at hmem
    exact ⟨i, hmem⟩
  · obtain ⟨first', rest', hsplit'⟩ := List.append_of_mem htook
    obtain ⟨p, p', hrun'', -, hact''⟩ := hrun'.split hsplit'
    obtain rfl := (took_act hrun'' hact'').2.1
    refine ⟨j, ?_⟩
    rw [hsplit]
    exact List.mem_append_left _ htook

/-- At most one call takes the session. -/
theorem eq_of_took (h : Runs C method session w) {x y : CoreSession}
    (hi : (i, .accessed (some x) none) ∈ w.log) (hj : (j, .accessed (some y) none) ∈ w.log) :
    j = i := by
  obtain ⟨before, after, hlog⟩ := List.append_of_mem hi
  obtain ⟨hbefore, hafter⟩ := took_once (j := j) (y := y) h hlog
  rw [hlog] at hj
  rcases List.mem_append.mp hj with hmem | hmem
  · exact absurd hmem hbefore
  · rcases List.mem_cons.mp hmem with heq | hmem
    · exact congrArg Prod.fst heq
    · exact absurd hmem hafter

/-- What a `close` that has taken the session makes of the answer of the core. -/
theorem answer_of_took (h : Runs C method session w) (hclose : C.calls (method i) = none)
    {a : Except RubyError Value} (hlog : w.log = before ++ (i, .returned a) :: after)
    (htook : (i, .accessed (some session) none) ∈ w.log) :
    ∃ r, a = C.finish r ∧ ∀ r', (i, .finished (session, C.close) r') ∈ w.log ↔ r' = r := by
  have hevents := h.eventsOf_of_returned hlog
  rcases returned_of_close h hclose hlog with ⟨hfound, -⟩ | ⟨r, hfound, ha⟩
  · rw [← mem_eventsOf, hevents, hfound] at htook
    simp at htook
  · refine ⟨r, ha, ?_⟩
    intro r'
    rw [← mem_eventsOf, hevents, hfound]
    simp

end SessionClass

open SessionClass

/-- The core's close of a sink has completed successfully. -/
def Finished (session : CoreSession) (log : Log FsWriteSink.Core.Reply MicrosandboxError) : Prop :=
  ∃ k, (k, .finished (session, .close) (.ok ())) ∈ log

/-- For every interleaving of any number of calls of `write` and `close` on one sink, and every
outcome of the core's close: when a call `i` of `close` returns `nil`, exactly one call `j` of
`close` has taken the sink, and the core's close has completed successfully if and only if it has
done so in call `j`. It has when `i` itself is that call, and when `j` has returned `nil` before;
`j` returns `nil` exactly when the core's close in it succeeds. -/
theorem fsWriteSink_close_answers {E : Type} (session : CoreSession)
    (method : ℕ → FsWriteSink.Methods) (s : State FsWriteSink.Core.Reply MicrosandboxError E)
    (h : Reaches FsWriteSink.sessions method session s) (i : ℕ) (v : Value)
    (before after : Log FsWriteSink.Core.Reply MicrosandboxError) (hclose : method i = .close)
    (hlog : s.world.log = before ++ (i, .returned (.ok v)) :: after) :
    ∃ j, method j = .close ∧
      (∀ k, (∃ x, (k, .accessed (some x) none) ∈ before) ↔ k = j) ∧
      (Finished session before ↔ (j, .finished (session, .close) (.ok ())) ∈ before) ∧
      (j = i → Finished session before) ∧
      (∀ v', (j, .returned (.ok v')) ∈ before → Finished session before) ∧
      ∀ a, (j, .returned a) ∈ s.world.log →
        ((∃ v', a = .ok v') ↔ (j, .finished (session, .close) (.ok ())) ∈ s.world.log) := by
  have hrun := h.run.1
  -- the methods without a list of calls are the `close`s
  have hcalls : ∀ m, FsWriteSink.sessions.calls m = none ↔ m = .close := by
    intro m
    cases m <;> simp [FsWriteSink.sessions]
  obtain ⟨u, u', hrunu, rfl, hact⟩ := hrun.split hlog
  obtain ⟨j, htook⟩ := taken_of_returned hrun ((hcalls _).mpr hclose) hlog
  -- the call that took the sink is a `close`
  have hj : method j = .close := by
    obtain ⟨first, rest, hsplit⟩ := List.append_of_mem htook
    obtain ⟨t, t', hrun', -, hact'⟩ := hrunu.split hsplit
    exact (hcalls _).mp (took_act hrun' hact').1
  -- its answer is the answer of the core
  have hanswer : ∀ {w : World _ _ _} {a first rest}, Runs FsWriteSink.sessions method session w →
      w.log = first ++ (j, .returned a) :: rest → (j, .accessed (some session) none) ∈ w.log →
      ((∃ v', a = .ok v') ↔ (j, .finished (session, .close) (.ok ())) ∈ w.log) := by
    intro w a first rest hw hsplit hmem
    obtain ⟨r, rfl, hfinished⟩ := answer_of_took hw ((hcalls _).mpr hj) hsplit hmem
    have hok := (hfinished (.ok ())).trans eq_comm
    refine (FsWriteSink.sessions.finish_ok r).trans ⟨?_, ?_⟩
    · rintro ⟨v', rfl⟩
      exact hok.mpr rfl
    · intro hmem'
      exact ⟨_, hok.mp hmem'⟩
  -- only the call that took the sink can have finished it
  have hfinished : Finished session u.log ↔
      (j, .finished (session, .close) (.ok ())) ∈ u.log := by
    constructor
    · rintro ⟨k, hmem⟩
      obtain rfl := eq_of_took hrunu htook (took_of_finished (C := FsWriteSink.sessions) hrunu hmem)
      exact hmem
    · intro hmem
      exact ⟨j, hmem⟩
  refine ⟨j, hj, ?_, hfinished, ?_, ?_, ?_⟩
  · intro k
    constructor
    · rintro ⟨x, hmem⟩
      exact eq_of_took hrunu htook hmem
    · rintro rfl
      exact ⟨session, htook⟩
  · rintro rfl
    have htook' : (j, .accessed (some session) none) ∈ s.world.log := by
      rw [hlog]
      exact List.mem_append_left _ htook
    have hmem := (hanswer hrun hlog htook').mp ⟨v, rfl⟩
    -- nothing of the call comes after its return
    rw [← mem_eventsOf, hrun.eventsOf_of_returned hlog] at hmem
    refine hfinished.mpr (mem_eventsOf.mp ?_)
    simpa using hmem
  · intro v' hmem
    obtain ⟨first, rest, hsplit⟩ := List.append_of_mem hmem
    exact hfinished.mpr ((hanswer hrunu hsplit htook).mp ⟨v', rfl⟩)
  · intro a hmem
    obtain ⟨first, rest, hsplit⟩ := List.append_of_mem hmem
    refine hanswer hrun hsplit ?_
    rw [hlog]
    exact List.mem_append_left _ htook

section Sample

/-- An error of the core. -/
def brokenPipe : MicrosandboxError := .other "IoError" "broken pipe"

/-- What the calls on a sink did, in order. -/
abbrev SinkLog := Log FsWriteSink.Core.Reply MicrosandboxError

/-- Call 0 takes the sink, and the core's close begins. -/
def startsClosing : SinkLog :=
  [(0, .acquired), (0, .accessed (some ⟨7⟩) none), (0, .released), (0, .began (⟨7⟩, .close))]

/-- The core's close fails, and call 0 raises. -/
def failsClosing : SinkLog :=
  [(0, .finished (⟨7⟩, .close) (.error brokenPipe)), (0, .returned (.error (.toRuby brokenPipe)))]

/-- Call 1 finds the sink taken. -/
def findsTaken : SinkLog := [(1, .acquired), (1, .accessed none none), (1, .released)]

/-- Calls 0 and 1 both close the sink. -/
theorem reaches_two_closes : Reaches (E := Unit) FsWriteSink.sessions (fun _ => .close) ⟨7⟩
    { world := ((World.init (some ⟨7⟩)).spawn 0 FsWriteSink.close).spawn 1 FsWriteSink.close
      entry := Function.update (Function.update (fun _ => none) 0 (some .polled)) 1
        (some .polled) } :=
  (Calls.Reaches.init.enter 0 rfl).enter 1 rfl

/-- Call 1 closes after call 0 has failed. -/
theorem exists_retry : ∃ s : State FsWriteSink.Core.Reply MicrosandboxError Unit,
    Reaches FsWriteSink.sessions (fun _ => .close) ⟨7⟩ s ∧
      s.world.log = startsClosing ++ failsClosing ++ findsTaken ++ [(1, .returned (.ok .nil))] :=
  ⟨_, reaches_two_closes.execAll
    [(0, .go), (0, .go), (0, .go), (0, .go),
      (0, .answer (FsWriteSink.answers (.error brokenPipe))), (0, .go),
      (1, .go), (1, .go), (1, .go), (1, .go)] rfl, rfl⟩

/-- Call 1 closes while the core's close in call 0 is running. -/
theorem exists_concurrent : ∃ s : State FsWriteSink.Core.Reply MicrosandboxError Unit,
    Reaches FsWriteSink.sessions (fun _ => .close) ⟨7⟩ s ∧
      s.world.log = startsClosing ++ findsTaken ++ [(1, .returned (.ok .nil))] :=
  ⟨_, reaches_two_closes.execAll
    [(0, .go), (0, .go), (0, .go), (0, .go), (1, .go), (1, .go), (1, .go), (1, .go)] rfl, rfl⟩

/-- The retry of a failed close returns `nil`; the sink had been taken by the call that failed. -/
theorem fsWriteSink_close_answers_retry :
    ∃ s : State FsWriteSink.Core.Reply MicrosandboxError Unit,
      s.world.log = startsClosing ++ failsClosing ++ findsTaken ++ [(1, .returned (.ok .nil))] ∧
      ∃ j, (∀ k, (∃ x, (k, .accessed (some x) none) ∈ startsClosing ++ failsClosing ++ findsTaken)
          ↔ k = j) ∧
        (Finished ⟨7⟩ (startsClosing ++ failsClosing ++ findsTaken) ↔
          (j, .finished (⟨7⟩, .close) (.ok ())) ∈ startsClosing ++ failsClosing ++ findsTaken) := by
  obtain ⟨s, hreach, hlog⟩ := exists_retry
  obtain ⟨j, -, htook, hfinished, -⟩ :=
    fsWriteSink_close_answers ⟨7⟩ _ s hreach 1 .nil _ [] rfl hlog
  exact ⟨s, hlog, j, htook, hfinished⟩

/-- A close that failed has not finished. -/
theorem not_finished_retry :
    ¬ Finished ⟨7⟩ (startsClosing ++ failsClosing ++ findsTaken ++ [(1, .returned (.ok .nil))]) := by
  rintro ⟨k, hmem⟩
  simp [startsClosing, failsClosing, findsTaken] at hmem

/-- Nor has one that is still at it. -/
theorem not_finished_concurrent :
    ¬ Finished ⟨7⟩ (startsClosing ++ findsTaken ++ [(1, .returned (.ok .nil))]) := by
  rintro ⟨k, hmem⟩
  simp [startsClosing, findsTaken] at hmem

/-- A `close` returns `nil` after the core's close has failed in another call, and while it is still
running in another call. In neither run has the core's close completed successfully. -/
theorem exists_nil_unfinished :
    (∃ s : State FsWriteSink.Core.Reply MicrosandboxError Unit,
      Reaches FsWriteSink.sessions (fun _ => .close) ⟨7⟩ s ∧
        s.world.log = startsClosing ++ failsClosing ++ findsTaken ++ [(1, .returned (.ok .nil))] ∧
        ¬ Finished ⟨7⟩ s.world.log) ∧
    ∃ s : State FsWriteSink.Core.Reply MicrosandboxError Unit,
      Reaches FsWriteSink.sessions (fun _ => .close) ⟨7⟩ s ∧
        s.world.log = startsClosing ++ findsTaken ++ [(1, .returned (.ok .nil))] ∧
        ¬ Finished ⟨7⟩ s.world.log := by
  obtain ⟨s, hreach, hlog⟩ := exists_retry
  obtain ⟨s', hreach', hlog'⟩ := exists_concurrent
  exact ⟨⟨s, hreach, hlog, hlog ▸ not_finished_retry⟩,
    ⟨s', hreach', hlog', hlog' ▸ not_finished_concurrent⟩⟩

end Sample

end MicrosandboxRb.Session
