import Mathlib

/-!
# Computations with a state and errors

`EStateM` keeps the state that was reached when an error is raised. `EStateM.attempt` runs a
computation and returns its error as a value, `EStateM.Result.state` reads the final state of either
outcome, and `EStateM.Result.isOk` tells the outcomes apart.

Hoare triples over `EStateM` are those of `Std.Do`, with a postcondition for a return and one for an
error. `EStateM.triple_iff` reads such a triple as a statement about runs.

## Main results

* `EStateM.triple_ensure`: a cleanup sees the state of either outcome;
* `EStateM.triple_forM`: an invariant of every step is one of the loop;
* `EStateM.Keeps.bind` and `Keeps.foldlM`: what every part keeps, the whole keeps;
* `EStateM.Looks.bind` and `Looks.forM`: what a computation that only looks returns.
-/

namespace EStateM

open Std.Do

variable {ε ε' σ α β : Type}

/-- The final state of a run, whether it returned or raised. -/
def Result.state : Result ε σ α → σ
  | .ok _ s => s
  | .error _ s => s

@[simp] theorem Result.state_ok (a : α) (s : σ) : (Result.ok a s : Result ε σ α).state = s := rfl

@[simp] theorem Result.state_error (e : ε) (s : σ) :
    (Result.error e s : Result ε σ α).state = s := rfl

/-- Whether a run returned. -/
def Result.isOk : Result ε σ α → Bool
  | .ok _ _ => true
  | .error _ _ => false

/-- A result that is one. -/
theorem Result.exists_ok_of_isOk {r : Result ε σ α} (h : r.isOk = true) : ∃ a s, r = .ok a s := by
  cases r with
  | ok a s => exact ⟨a, s, rfl⟩
  | error e s => cases h

/-- A result that is an exception. -/
theorem Result.exists_error_of_isOk_eq_false {r : Result ε σ α} (h : r.isOk = false) :
    ∃ e s, r = .error e s := by
  cases r with
  | ok a s => cases h
  | error e s => exact ⟨e, s, rfl⟩

/-- Run a computation and return its outcome. The state it reached is kept either way. -/
def attempt (x : EStateM ε σ α) : EStateM ε' σ (Except ε α) := fun s =>
  match x s with
  | .ok a s => .ok (.ok a) s
  | .error e s => .ok (.error e) s

/-- An attempt keeps the exception as its result. -/
@[simp] theorem run_attempt (x : EStateM ε σ α) (s : σ) :
    (attempt x : EStateM ε' σ (Except ε α)).run s =
      match x.run s with
      | .ok a s => .ok (.ok a) s
      | .error e s => .ok (.error e) s := rfl

/-- Return the value of `r` or raise its error. -/
def ofExcept (r : Except ε α) : EStateM ε σ α :=
  match r with
  | .ok a => pure a
  | .error e => throw e

@[simp] theorem run_ofExcept_ok (a : α) (s : σ) :
    (ofExcept (.ok a) : EStateM ε σ α).run s = .ok a s := rfl

@[simp] theorem run_ofExcept_error (e : ε) (s : σ) :
    (ofExcept (.error e) : EStateM ε σ α).run s = .error e s := rfl

/-- An exception ends the program. -/
theorem ofExcept_error_bind (e : ε) (f : α → EStateM ε σ β) :
    ofExcept (.error e) >>= f = throw e := rfl

/-- A result goes on. -/
theorem ofExcept_ok_bind (a : α) (f : α → EStateM ε σ β) : ofExcept (.ok a) >>= f = f a := rfl

/-- What is only computed leaves the state alone. -/
theorem run_ofExcept_eq_ok_iff {r : Except ε α} {a : α} {s s' : σ} :
    (ofExcept r).run s = .ok a s' ↔ r = .ok a ∧ s = s' := by
  cases r with
  | ok b => simp
  | error e => simp

/-- A run of two steps that returns has two steps that return. -/
theorem run_bind_eq_ok_iff {x : EStateM ε σ α} {f : α → EStateM ε σ β} {s s' : σ} {b : β} :
    (x >>= f).run s = .ok b s' ↔
      ∃ a s₁, x.run s = .ok a s₁ ∧ (f a).run s₁ = .ok b s' := by
  rw [run_bind]
  cases x.run s with
  | ok a s₁ => simp
  | error e s₁ => simp

/-- Run `cleanup` after `x`, whether `x` returned or raised. An error of `cleanup` replaces the
outcome of `x`. -/
def ensure (x : EStateM ε σ α) (cleanup : EStateM ε σ Unit) : EStateM ε σ α := fun s =>
  match x s with
  | .ok a s =>
    match cleanup s with
    | .ok _ s => .ok a s
    | .error e s => .error e s
  | .error e s =>
    match cleanup s with
    | .ok _ s => .error e s
    -- an exception of the cleanup takes the place of the one on its way
    | .error e' s => .error e' s

/-- A body that returns, and its cleanup. -/
theorem run_ensure_of_ok {x : EStateM ε σ α} {cleanup : EStateM ε σ Unit} {s s₁ s₂ : σ} {a : α}
    (hx : x.run s = .ok a s₁) (hcleanup : cleanup.run s₁ = .ok () s₂) :
    (ensure x cleanup).run s = .ok a s₂ := by
  rw [EStateM.run] at hx hcleanup
  rw [EStateM.run, ensure, hx]
  simp only [hcleanup]

/-- A body that raises, and its cleanup. -/
theorem run_ensure_of_error {x : EStateM ε σ α} {cleanup : EStateM ε σ Unit} {s s₁ s₂ : σ} {e : ε}
    (hx : x.run s = .error e s₁) (hcleanup : cleanup.run s₁ = .ok () s₂) :
    (ensure x cleanup).run s = .error e s₂ := by
  rw [EStateM.run] at hx hcleanup
  rw [EStateM.run, ensure, hx]
  simp only [hcleanup]

/-! ### Triples -/

section Triples

variable {P : σ → Prop} {Q : α → σ → Prop} {E : ε → σ → Prop}

/-- A triple with an exceptional postcondition, over all states. -/
theorem triple_iff {x : EStateM ε σ α} :
    ⦃fun s => ⌜P s⌝⦄ x ⦃post⟨fun a s => ⌜Q a s⌝, fun e s => ⌜E e s⌝⟩⦄ ↔
      ∀ s, P s → match x.run s with
        | .ok a s' => Q a s'
        | .error e s' => E e s' := by
  rw [Triple.iff]
  refine forall₂_congr fun s hs => ?_
  simp only [wp, PredTrans.apply]
  cases x.run s <;> rfl

/-- A triple says less with weaker postconditions. -/
theorem triple_conseq {x : EStateM ε σ α} {Q' : α → σ → Prop} {E' : ε → σ → Prop}
    (h : ⦃fun s => ⌜P s⌝⦄ x ⦃post⟨fun a s => ⌜Q a s⌝, fun e s => ⌜E e s⌝⟩⦄)
    (hok : ∀ a s, Q a s → Q' a s) (herror : ∀ e s, E e s → E' e s) :
    ⦃fun s => ⌜P s⌝⦄ x ⦃post⟨fun a s => ⌜Q' a s⌝, fun e s => ⌜E' e s⌝⟩⦄ := by
  rw [triple_iff] at h ⊢
  intro s hs
  specialize h s hs
  split at h
  next => exact hok _ _ h
  next => exact herror _ _ h

/-- Returning. -/
theorem triple_pure {a : α} (h : ∀ s, P s → Q a s) :
    ⦃fun s => ⌜P s⌝⦄ (pure a : EStateM ε σ α) ⦃post⟨fun a s => ⌜Q a s⌝, fun e s => ⌜E e s⌝⟩⦄ :=
  triple_iff.mpr h

/-- Raising. -/
theorem triple_throw {e : ε} (h : ∀ s, P s → E e s) :
    ⦃fun s => ⌜P s⌝⦄ (throw e : EStateM ε σ α) ⦃post⟨fun a s => ⌜Q a s⌝, fun e s => ⌜E e s⌝⟩⦄ :=
  triple_iff.mpr h

/-- One step after another, when a failure of either means the same. -/
theorem triple_bind {x : EStateM ε σ α} {f : α → EStateM ε σ β} {R : β → σ → Prop}
    (hx : ⦃fun s => ⌜P s⌝⦄ x ⦃post⟨fun a s => ⌜Q a s⌝, fun e s => ⌜E e s⌝⟩⦄)
    (hf : ∀ a, ⦃fun s => ⌜Q a s⌝⦄ f a ⦃post⟨fun b s => ⌜R b s⌝, fun e s => ⌜E e s⌝⟩⦄) :
    ⦃fun s => ⌜P s⌝⦄ (x >>= f) ⦃post⟨fun b s => ⌜R b s⌝, fun e s => ⌜E e s⌝⟩⦄ :=
  Triple.bind x f hx hf

/-- An attempt does not raise. -/
theorem triple_attempt {x : EStateM ε σ α} (E' : ε' → σ → Prop)
    (h : ⦃fun s => ⌜P s⌝⦄ x ⦃post⟨fun a s => ⌜Q a s⌝, fun e s => ⌜E e s⌝⟩⦄) :
    ⦃fun s => ⌜P s⌝⦄ (attempt x : EStateM ε' σ (Except ε α))
    ⦃post⟨fun r s => ⌜(∃ a, r = .ok a ∧ Q a s) ∨ ∃ e, r = .error e ∧ E e s⌝,
      fun e s => ⌜E' e s⌝⟩⦄ := by
  rw [triple_iff] at h ⊢
  intro s hs
  specialize h s hs
  rw [run_attempt]
  cases hx : x.run s with
  | ok a s' =>
    rw [hx] at h
    exact Or.inl ⟨a, rfl, h⟩
  | error e s' =>
    rw [hx] at h
    exact Or.inr ⟨e, rfl, h⟩

/-- A cleanup that does not raise sees the state of either outcome. -/
theorem triple_ensure {x : EStateM ε σ α} {cleanup : EStateM ε σ Unit} {Q' : α → σ → Prop}
    {E' : ε → σ → Prop}
    (hx : ⦃fun s => ⌜P s⌝⦄ x ⦃post⟨fun a s => ⌜Q a s⌝, fun e s => ⌜E e s⌝⟩⦄)
    (hok : ∀ a, ⦃fun s => ⌜Q a s⌝⦄ cleanup ⦃post⟨fun _ s => ⌜Q' a s⌝, fun _ _ => ⌜False⌝⟩⦄)
    (herror : ∀ e, ⦃fun s => ⌜E e s⌝⦄ cleanup ⦃post⟨fun _ s => ⌜E' e s⌝, fun _ _ => ⌜False⌝⟩⦄) :
    ⦃fun s => ⌜P s⌝⦄ ensure x cleanup ⦃post⟨fun a s => ⌜Q' a s⌝, fun e s => ⌜E' e s⌝⟩⦄ := by
  simp only [triple_iff] at hx hok herror ⊢
  intro s hs
  specialize hx s hs
  rw [EStateM.run, ensure]
  rw [EStateM.run] at hx
  -- the cleanup runs on either outcome, and does not raise
  rcases hxs : x s with ⟨a, s'⟩ | ⟨e, s'⟩ <;> rw [hxs] at hx
  · have hclean := hok a s' hx
    rw [EStateM.run] at hclean
    rcases hcs : cleanup s' with ⟨u, s''⟩ | ⟨e, s''⟩ <;> rw [hcs] at hclean
    · simp only [hcs]
      exact hclean
    · exact hclean.elim
  · have hclean := herror e s' hx
    rw [EStateM.run] at hclean
    rcases hcs : cleanup s' with ⟨u, s''⟩ | ⟨e', s''⟩ <;> rw [hcs] at hclean
    · simp only [hcs]
      exact hclean
    · exact hclean.elim

/-- What every step keeps, the loop keeps. -/
theorem triple_forM {f : α → EStateM ε σ PUnit} (xs : List α) {E : ε → σ → Prop}
    (h : ∀ x ∈ xs, ⦃fun s => ⌜P s⌝⦄ f x ⦃post⟨fun _ s => ⌜P s⌝, fun e s => ⌜E e s⌝⟩⦄) :
    ⦃fun s => ⌜P s⌝⦄ xs.forM f ⦃post⟨fun _ s => ⌜P s⌝, fun e s => ⌜E e s⌝⟩⦄ := by
  induction xs with
  | nil => exact Triple.pure _ fun s hs => hs
  | cons x xs ih =>
    show ⦃fun s => ⌜P s⌝⦄ (f x >>= fun _ => xs.forM f)
      ⦃post⟨fun _ s => ⌜P s⌝, fun e s => ⌜E e s⌝⟩⦄
    apply Triple.bind _ _ (h x List.mem_cons_self)
    intro _
    exact ih fun y hy => h y (List.mem_cons_of_mem x hy)

end Triples

/-! ### Invariants -/

section Keeps

variable {I : σ → Prop}

/-- `x` keeps `I`, whether it returns or raises. -/
def Keeps (I : σ → Prop) (x : EStateM ε σ α) : Prop :=
  ⦃fun s => ⌜I s⌝⦄ x ⦃post⟨fun _ s => ⌜I s⌝, fun _ s => ⌜I s⌝⟩⦄

/-- An invariant is kept whether the program raises or not. -/
theorem keeps_iff {x : EStateM ε σ α} : Keeps I x ↔ ∀ s, I s → I (x.run s).state := by
  rw [Keeps, triple_iff]
  refine forall₂_congr fun s _ => ?_
  cases x.run s <;> rfl

/-- What is kept holds in the final state of a run. -/
theorem Keeps.state {x : EStateM ε σ α} (h : Keeps I x) {s : σ} (hs : I s) : I (x.run s).state :=
  keeps_iff.mp h s hs

/-- Returning keeps every invariant. -/
theorem keeps_pure (a : α) : Keeps I (pure a : EStateM ε σ α) := triple_pure fun _ => id

/-- So does raising. -/
theorem keeps_throw (e : ε) : Keeps I (throw e : EStateM ε σ α) := triple_throw fun _ => id

/-- So does computing. -/
theorem keeps_ofExcept (r : Except ε α) : Keeps I (ofExcept r : EStateM ε σ α) := by
  cases r with
  | ok a => exact keeps_pure a
  | error e => exact keeps_throw e

/-- A sequence keeps what its parts keep. -/
theorem Keeps.bind {x : EStateM ε σ α} {f : α → EStateM ε σ β} (hx : Keeps I x)
    (hf : ∀ a, Keeps I (f a)) : Keeps I (x >>= f) := triple_bind hx hf

/-- An attempt keeps what its body keeps. -/
theorem Keeps.attempt {x : EStateM ε σ α} (hx : Keeps I x) :
    Keeps I (attempt x : EStateM ε' σ (Except ε α)) := by
  refine triple_conseq (triple_attempt (fun _ => I) hx) ?_ fun _ _ => id
  rintro _ s (⟨-, -, hs⟩ | ⟨-, -, hs⟩) <;> exact hs

/-- A loop keeps what its body keeps. -/
theorem Keeps.forM {f : α → EStateM ε σ PUnit} (xs : List α) (hf : ∀ x, Keeps I (f x)) :
    Keeps I (xs.forM f) := triple_forM xs fun x _ => hf x

/-- So does a fold. -/
theorem Keeps.foldlM {f : β → α → EStateM ε σ β} (xs : List α) (hf : ∀ b x, Keeps I (f b x))
    (b : β) : Keeps I (xs.foldlM f b) := by
  induction xs generalizing b with
  | nil => exact keeps_pure b
  | cons x xs ih =>
    rw [List.foldlM_cons]
    exact (hf b x).bind ih

end Keeps

/-! ### Computations that only look -/

section Looks

variable {τ : Type} {view : σ → τ} {quiet : σ → Prop} {R : τ → α → Prop}

/-- `x` only looks at the part `view` of the state. It returns `a` only where `R` allows it. In a
`quiet` state, where nothing fails by itself, it returns what `R` allows, and the state stays quiet. -/
structure Looks (view : σ → τ) (quiet : σ → Prop) (x : EStateM ε σ α) (R : τ → α → Prop) : Prop where
  returns : ∀ s a s', x.run s = .ok a s' → R (view s) a ∧ view s' = view s
  total : ∀ s a, quiet s → R (view s) a →
    ∃ s', x.run s = .ok a s' ∧ view s' = view s ∧ quiet s'

/-- The relation may be stated otherwise. -/
theorem Looks.congr {x : EStateM ε σ α} {R' : τ → α → Prop} (h : Looks view quiet x R)
    (hR : ∀ t a, R t a ↔ R' t a) : Looks view quiet x R' := by
  obtain rfl : R = R' := funext₂ fun t a => propext (hR t a)
  exact h

/-- Returning looks at nothing. -/
theorem looks_pure (a : α) : Looks view quiet (pure a : EStateM ε σ α) fun _ b => b = a where
  returns := by
    rintro s b s' hrun
    cases hrun
    exact ⟨rfl, rfl⟩
  total := by
    rintro s b hs rfl
    exact ⟨s, rfl, rfl, hs⟩

/-- Nor does computing. -/
theorem looks_ofExcept (r : Except ε α) :
    Looks view quiet (ofExcept r : EStateM ε σ α) fun _ a => r = .ok a where
  returns := by
    intro s a s' hrun
    cases r with
    | error e => cases hrun
    | ok b =>
      cases hrun
      exact ⟨rfl, rfl⟩
  total := by
    rintro s a hs rfl
    exact ⟨s, rfl, rfl, hs⟩

/-- A computation that raises unless `c` holds. -/
theorem Looks.guard {x : EStateM ε σ α} (h : Looks view quiet x R) (c : Prop) [Decidable c] (e : ε) :
    Looks view quiet (if c then x else throw e) fun t a => c ∧ R t a := by
  by_cases hc : c
  · rw [if_pos hc]
    exact h.congr fun t a => (and_iff_right hc).symm
  · rw [if_neg hc]
    constructor
    · intro s a s' hrun
      cases hrun
    · intro s a hs hR
      exact absurd hR.1 hc

/-- A sequence sees what its parts see. -/
theorem Looks.bind {x : EStateM ε σ α} {f : α → EStateM ε σ β} {S : α → τ → β → Prop}
    (hx : Looks view quiet x R) (hf : ∀ a, Looks view quiet (f a) (S a)) :
    Looks view quiet (x >>= f) fun t b => ∃ a, R t a ∧ S a t b where
  returns := by
    intro s b s' hrun
    rw [run_bind] at hrun
    cases hxs : x.run s with
    | error e s₁ =>
      rw [hxs] at hrun
      cases hrun
    | ok a s₁ =>
      rw [hxs] at hrun
      -- the first part has left the view as it was, so both look at the same
      obtain ⟨hR, hview⟩ := hx.returns s a s₁ hxs
      obtain ⟨hS, hview'⟩ := (hf a).returns s₁ b s' hrun
      rw [hview] at hS hview'
      exact ⟨⟨a, hR, hS⟩, hview'⟩
  total := by
    rintro s b hs ⟨a, hR, hS⟩
    obtain ⟨s₁, hxs, hview, hs₁⟩ := hx.total s a hs hR
    rw [← hview] at hS
    obtain ⟨s', hfs, hview', hs'⟩ := (hf a).total s₁ b hs₁ hS
    refine ⟨s', ?_, hview'.trans hview, hs'⟩
    rw [run_bind, hxs]
    exact hfs

/-- A loop of checks returns where every check does. -/
theorem Looks.forM {f : β → EStateM ε σ PUnit} {P : β → τ → Prop} (xs : List β)
    (hf : ∀ b, Looks view quiet (f b) fun t _ => P b t) :
    Looks view quiet (xs.forM f) fun t _ => ∀ b ∈ xs, P b t := by
  induction xs with
  | nil => exact (looks_pure PUnit.unit).congr fun t a => by simp
  | cons b xs ih =>
    show Looks view quiet (f b >>= fun _ => xs.forM f) _
    exact ((hf b).bind fun _ => ih).congr fun t a => by simp

end Looks

end EStateM
