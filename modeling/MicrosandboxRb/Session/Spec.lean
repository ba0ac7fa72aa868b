import MicrosandboxRb.Session.Model

/-!
# What the methods of a session do

Every event of an operation and of `close`, from what the call did before it.

## Main results

* `SessionClass.along_operation`: an operation accesses the session once, leaves it where it is, and
  makes its calls while it holds the guard and the session is there;
* `SessionClass.along_closing`: `close` takes what is there, and only then closes it.
-/

namespace MicrosandboxRb.Session

open AsyncMutex

section Core

variable {Core : Type} {Reply : Core → Type} {Err : Type}

/-- What a call on a session does. -/
abbrev SessionEvent {Core : Type} (Reply : Core → Type) (Err : Type) :=
  Event (Option CoreSession) (fun c : CoreSession × Core => Except Err (Reply c.2))
    (Except RubyError Value)

/-- Whether the event belongs to a call of the core. -/
def isCore : SessionEvent Reply Err → Bool
  | .began _ | .finished _ _ | .panicked _ => true
  | .acquired | .accessed _ _ | .released | .returned _ => false

/-- The calls of the core among the events. -/
def coreEvents (es : List (SessionEvent Reply Err)) : List (SessionEvent Reply Err) :=
  es.filter isCore

/-- The events of these calls on the session, each made once, in this order, and each answered with
success. -/
inductive Completed (session : CoreSession) : List Core → List (SessionEvent Reply Err) → Prop
  | nil : Completed session [] []
  | concat {cs : List Core} {es : List (SessionEvent Reply Err)} {c : Core} (v : Reply c) :
      Completed session cs es →
      Completed session (cs ++ [c]) (es ++ [.began (session, c), .finished (session, c) (.ok v)])

end Core

namespace SessionClass

variable {Core : Type} {Reply : Core → Type} {Err Method : Type}
  (C : SessionClass Reply Err Method)

/-- The events of an operation that makes the calls `cs`. -/
def Operation (cs : List Core) (h : List (SessionEvent Reply Err)) (e : SessionEvent Reply Err) :
    Prop :=
  Disciplined h e ∧
    match e with
    | .acquired => h = []
    | .accessed before after => h = [.acquired] ∧ after = before
    | .released => True
    | .began c | .finished c _ | .panicked c => c.2 ∈ cs ∧ view h = some (some c.1)
    | .returned a =>
      .accessed none none ∈ h ∧ a = .error C.closed ∨
      ∃ session, .accessed (some session) (some session) ∈ h ∧
        ∀ v, a = .ok v → Completed session cs (coreEvents h)

/-- The events of `close`. -/
def Closing : List (SessionEvent Reply Err) → SessionEvent Reply Err → Prop :=
  Taking (fun session => (session, C.close)) (fun _ => C.finish) (.ok .nil)

variable {C}

/-- The calls under the guard. The induction is on the calls that are left; those made so far are
complete. -/
theorem along_performs {session : CoreSession} {cs done left : List Core}
    {f : SessionFuture Reply Err (Except RubyError Value)} (hf : Performs session left f)
    {h : List (SessionEvent Reply Err)} (hcs : done ++ left = cs) (hheld : holds h = true)
    (hview : view h = some (some session)) (hfound : .accessed (some session) (some session) ∈ h)
    (hdone : Completed session done (coreEvents h)) :
    (f >>= fun a => Future.unlock (Future.ready a)).Along (C.Operation cs) h := by
  induction hf generalizing done h with
  | done a =>
    refine ⟨⟨hheld, trivial⟩, ?_⟩
    refine ⟨disciplined_returned_of_released h a,
      Or.inr ⟨session, List.mem_append_left _ hfound, ?_⟩⟩
    intro v _
    rw [List.append_nil] at hcs
    simpa [coreEvents, isCore, hcs] using hdone
  | @call c left k _ herror ih =>
    have hmem : c ∈ cs := by simp [← hcs]
    refine ⟨⟨trivial, hmem, hview⟩, ⟨trivial, hmem, by simpa [Event.viewAfter] using hview⟩, ?_⟩
    intro r
    refine ⟨⟨trivial, hmem, by simpa [Event.viewAfter] using hview⟩, ?_⟩
    have hheld' : holds (h ++ [.began (session, c)] ++ [.finished (session, c) r]) = true := by
      simpa only [holds_concat, Event.heldAfter] using hheld
    cases r with
    | ok v =>
      refine @ih v (done ++ [c]) _ (by simpa using hcs) hheld'
        (by simpa only [view_concat, Event.viewAfter] using hview) (by simp [hfound]) ?_
      have hcore : coreEvents (h ++ [.began (session, c)] ++ [.finished (session, c) (.ok v)]) =
          coreEvents h ++ [.began (session, c), .finished (session, c) (.ok v)] := by
        simp [coreEvents, isCore]
      rw [hcore]
      exact .concat v hdone
    | error e =>
      -- `?` returns at once
      obtain ⟨err, hk⟩ := herror e
      simp only [hk]
      refine ⟨⟨hheld', trivial⟩, disciplined_returned_of_released _ _,
        Or.inr ⟨session, by simp [hfound], ?_⟩⟩
      rintro v ⟨⟩

/-- Every event of an operation. -/
theorem along_operation {m : Method} {cs : List Core} (hm : C.calls m = some cs) :
    (C.future m).Along (C.Operation cs) [] := by
  obtain ⟨body, hfuture, hbody⟩ := C.operation_eq m cs hm
  rw [hfuture]
  refine ⟨⟨rfl, rfl⟩, ?_⟩
  intro taken
  refine ⟨⟨rfl, rfl, rfl⟩, ?_⟩
  cases taken with
  | none =>
    refine ⟨⟨rfl, trivial⟩, rfl, Or.inl ⟨?_, rfl⟩⟩
    simp
  | some session =>
    exact along_performs (hbody session) (List.nil_append cs) rfl rfl (by simp) .nil

/-- Every event of `close`. -/
theorem along_closing {m : Method} (hm : C.calls m = none) :
    (C.future m).Along C.Closing [] := by
  rw [C.close_eq m hm]
  exact along_takeAndCall _ _ _

end SessionClass

end MicrosandboxRb.Session
