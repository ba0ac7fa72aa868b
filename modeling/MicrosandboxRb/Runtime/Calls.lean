import MicrosandboxRb.Lib.AsyncMutex
import MicrosandboxRb.Runtime.BlockOn

/-!
# Native calls on one handle

Any number of threads make native calls on one handle. Each call passes the checks on its way into
`block_on` and is then a task over the mutex of the handle; interrupts and errors end calls on the
way in, and the core answers the tasks in any way, at any time.

## Main results

* `Reaches.run`: what the tasks do is a run of their futures;
* `Reaches.erase`: a call that was ended on its way in has no effect on anything else;
* `steps_enter`, `goes_alone`: a call can get in, and a task can go on.
-/

namespace MicrosandboxRb.Calls

open AsyncMutex

variable {σ κ E : Type} {ρ : κ → Type} {Value : Type}

/-- The mutex of a handle with the tasks over it, and where call number `i` stands before its future
is polled. -/
structure State (σ : Type) {κ : Type} (ρ : κ → Type) (Value E : Type) where
  world : World σ ρ (Except RubyError Value)
  entry : ℕ → Option (Entry E)

/-- Before the first call. -/
def State.init (v : σ) : State σ ρ Value E where
  world := .init v
  entry _ := none

/-- The steps of any number of threads. Call number `i` hands `F i` to `block_on`. -/
inductive Step (F : ℕ → Future σ ρ (Except RubyError Value)) (s : State σ ρ Value E) :
    State σ ρ Value E → Prop
  /-- A thread makes a call. -/
  | invoke (i : ℕ) : s.entry i = none →
      Step F s { s with entry := Function.update s.entry i (some .get) }
  /-- A call takes a step on its way in, or is ended there. -/
  | advance {i : ℕ} {en en' : Entry E} {answer : Answer E} : s.entry i = some en →
      en.next answer = some en' → en' ≠ .polled →
      Step F s { s with entry := Function.update s.entry i (some en') }
  /-- The future of a call is polled for the first time. -/
  | poll {i : ℕ} {en : Entry E} {answer : Answer E} : s.entry i = some en →
      en.next answer = some .polled →
      Step F s { world := s.world.spawn i (F i), entry := Function.update s.entry i (some .polled) }
  /-- A future goes on. -/
  | act {i : ℕ} {e : Event σ ρ (Except RubyError Value)} {w : World σ ρ (Except RubyError Value)} :
      Act s.world i e w → Step F s { s with world := w }

/-- The states that the calls reach. -/
inductive Reaches (F : ℕ → Future σ ρ (Except RubyError Value)) (v : σ) :
    State σ ρ Value E → Prop
  | init : Reaches F v (.init v)
  | step {s s' : State σ ρ Value E} : Reaches F v s → Step F s s' → Reaches F v s'

variable {F : ℕ → Future σ ρ (Except RubyError Value)} {v : σ} {s s' : State σ ρ Value E} {i : ℕ}

/-- A position on the way in is left for good once the future is polled. -/
theorem entry_ne_polled {en en' : Entry E} {answer : Answer E} (h : en.next answer = some en') :
    en ≠ .polled := by
  rintro rfl
  cases h

namespace Reaches

/-- The tasks run their futures, and only calls that have been polled are tasks. -/
theorem run (h : Reaches F v s) :
    Run F v s.world ∧ ∀ i, s.entry i ≠ some .polled → s.world.tasks i = none := by
  induction h with
  | init => exact ⟨.init, fun _ _ => rfl⟩
  | @step s s' _ hstep ih =>
    obtain ⟨hrun, htasks⟩ := ih
    cases hstep with
    | invoke j hnew =>
      refine ⟨hrun, ?_⟩
      intro i hi
      by_cases hij : i = j
      · subst hij
        exact htasks i (by simp [hnew])
      · exact htasks i (by simpa [Function.update_of_ne hij] using hi)
    | @advance j en en' answer hen hnext _ =>
      refine ⟨hrun, ?_⟩
      intro i hi
      by_cases hij : i = j
      · subst hij
        exact htasks i (by simpa [hen] using entry_ne_polled hnext)
      · exact htasks i (by simpa [Function.update_of_ne hij] using hi)
    | @poll j en answer hen hnext =>
      -- the task of the call starts when it is polled first
      have hnew : s.world.tasks j = none := htasks j (by simpa [hen] using entry_ne_polled hnext)
      refine ⟨hrun.spawn hnew, ?_⟩
      intro i hi
      by_cases hij : i = j
      · subst hij
        simp at hi
      · simp only [World.spawn, Function.update_of_ne hij]
        exact htasks i (by simpa [Function.update_of_ne hij] using hi)
    | @act j e w hact =>
      refine ⟨hrun.act hact, ?_⟩
      intro i hi
      obtain ⟨htask, -, -⟩ := hact
      by_cases hij : i = j
      · subst hij
        rw [htasks i hi] at htask
        cases htask
      · rw [World.tasks_after_of_ne _ _ _ _ hij]
        exact htasks i hi

/-- A call that has not been polled has done nothing. -/
theorem eventsOf_eq_nil (h : Reaches F v s) (hi : s.entry i ≠ some .polled) :
    eventsOf i s.world.log = [] :=
  (h.run.1.ran i).1 (h.run.2 i hi)

/-- Without a call that has not been polled, everything else could have happened just so. -/
theorem erase (h : Reaches F v s) (hi : s.entry i ≠ some .polled) :
    Reaches F v { s with entry := Function.update s.entry i none } := by
  induction h with
  | init =>
    have hnone : Function.update (State.init v : State σ ρ Value E).entry i none =
        (State.init v : State σ ρ Value E).entry := Function.update_eq_self i _
    rw [hnone]
    exact .init
  | @step s s' _ hstep ih =>
    cases hstep with
    | invoke j hnew =>
      -- the steps of the call itself are left out, the others stay as they are
      by_cases hij : j = i
      · subst hij
        simpa using ih (by simp [hnew])
      · rw [Function.update_comm hij]
        refine (ih (by simpa [Function.update_of_ne (Ne.symm hij)] using hi)).step (.invoke j ?_)
        simpa [Function.update_of_ne hij] using hnew
    | @advance j en en' answer hen hnext hne =>
      by_cases hij : j = i
      · subst hij
        simp only [Function.update_idem]
        exact ih (by simpa [hen] using entry_ne_polled hnext)
      · rw [Function.update_comm hij]
        refine (ih (by simpa [Function.update_of_ne (Ne.symm hij)] using hi)).step
          (.advance ?_ hnext hne)
        simpa [Function.update_of_ne hij] using hen
    | @poll j en answer hen hnext =>
      have hij : j ≠ i := by
        rintro rfl
        simp at hi
      rw [Function.update_comm hij]
      refine (ih (by simpa [Function.update_of_ne (Ne.symm hij)] using hi)).step (.poll ?_ hnext)
      simpa [Function.update_of_ne hij] using hen
    | act hact => exact (ih hi).step (.act hact)

/-- A run goes on from a reachable state. -/
theorem steps (h : Reaches F v s) (hsteps : Relation.ReflTransGen (Step F) s s') :
    Reaches F v s' := by
  induction hsteps with
  | refl => exact h
  | tail _ hstep ih => exact ih.step hstep

end Reaches

/-- A step that makes no call. -/
def Goes (F : ℕ → Future σ ρ (Except RubyError Value)) (s s' : State σ ρ Value E) : Prop :=
  Step F s s' ∧ ∀ i, s.entry i = none → s'.entry i = none

/-- A call that has been made gets in when nothing is pending. -/
theorem goes_poll (hi : s.entry i = some .get) :
    Relation.ReflTransGen (Goes F) s
      { world := s.world.spawn i (F i), entry := Function.update s.entry i (some .polled) } := by
  have hentry : ∀ (en : Entry E) j, s.entry j = none →
      Function.update s.entry i (some en) j = none := by
    intro en j hj
    rw [Function.update_of_ne]
    · exact hj
    · rintro rfl
      simp [hi] at hj
  -- each step of the entry gets the answer that lets it go on
  have hadvance : ∀ (answer : Answer E) {en en' : Entry E}, en.next answer = some en' →
      en' ≠ .polled →
      Goes F { s with entry := Function.update s.entry i (some en) }
        { s with entry := Function.update s.entry i (some en') } := by
    intro answer en en' hnext hne
    have hstep : Step F { s with entry := Function.update s.entry i (some en) } _ :=
      .advance (Function.update_self ..) hnext hne
    refine ⟨by simpa only [Function.update_idem] using hstep, ?_⟩
    intro j hj
    by_cases hji : j = i
    · subst hji
      simp at hj
    · simpa only [Function.update_of_ne hji] using hj
  have hpoll : Step F { s with entry := Function.update s.entry i (some (.enter 0)) } _ :=
    .poll (Function.update_self ..) (show Entry.next _ (.entered true) = some .polled from rfl)
  have hstart : { s with entry := Function.update s.entry i (some .get) } = s := by
    rw [← hi, Function.update_eq_self]
  simp only [Function.update_idem] at hpoll
  rw [← hstart]
  refine .head (hadvance (.got (.ok ())) rfl (by simp)) ?_
  refine .head (hadvance (.ensured (.ok ())) rfl (by simp)) ?_
  refine .head (hadvance (.checked (.ok ())) rfl (by simp)) (.single ⟨?_, ?_⟩)
  · simpa only [Function.update_idem] using hpoll
  · intro j hj
    by_cases hji : j = i
    · subst hji
      simp at hj
    · simpa only [Function.update_of_ne hji] using hj

/-- A new call gets in when nothing is pending. -/
theorem steps_enter (hi : s.entry i = none) :
    Relation.ReflTransGen (Step F) s
      { world := s.world.spawn i (F i), entry := Function.update s.entry i (some .polled) } := by
  have hrest := goes_poll (F := F)
    (s := { s with entry := Function.update s.entry i (some .get) }) (Function.update_self ..)
  simp only [Function.update_idem] at hrest
  exact .head (.invoke i hi) (Relation.ReflTransGen.mono (fun _ _ hgoes => hgoes.1) _ _ hrest)

/-- The steps of one task. -/
theorem goes_alone {w : World σ ρ (Except RubyError Value)} (halone : Alone i s.world w) :
    Relation.ReflTransGen (Goes F) s { s with world := w } := by
  induction halone with
  | refl => exact .refl
  | tail _ hact ih =>
    obtain ⟨e, hact⟩ := hact
    exact ih.tail ⟨.act hact, fun _ => id⟩

/-- The steps of a schedule. -/
theorem goes_execAll (schedule : List (ℕ × Choice ρ)) {w : World σ ρ (Except RubyError Value)}
    (hw : s.world.execAll schedule = some w) :
    Relation.ReflTransGen (Goes F) s { s with world := w } := by
  induction schedule generalizing s with
  | nil =>
    cases hw
    exact .refl
  | cons x rest ih =>
    rw [World.execAll] at hw
    obtain ⟨w', hexec, hrest⟩ := Option.bind_eq_some_iff.mp hw
    obtain ⟨e, hact⟩ := act_of_exec hexec
    exact .head ⟨.act hact, fun _ => id⟩ (ih (s := { s with world := w' }) hrest)

/-- A step that makes no call is a step. -/
theorem steps_of_goes (h : Relation.ReflTransGen (Goes F) s s') :
    Relation.ReflTransGen (Step F) s s' :=
  Relation.ReflTransGen.mono (fun _ _ hgoes => hgoes.1) _ _ h

namespace Reaches

/-- A call that gets in. -/
theorem enter (h : Reaches F v s) (i : ℕ) (hi : s.entry i = none) :
    Reaches F v
      { world := s.world.spawn i (F i), entry := Function.update s.entry i (some .polled) } :=
  h.steps (steps_enter hi)

/-- Tasks that go on by a schedule. -/
theorem execAll (h : Reaches F v s) (schedule : List (ℕ × Choice ρ))
    {w : World σ ρ (Except RubyError Value)} (hw : s.world.execAll schedule = some w) :
    Reaches F v { s with world := w } :=
  h.steps (steps_of_goes (goes_execAll schedule hw))

end Reaches

end MicrosandboxRb.Calls
