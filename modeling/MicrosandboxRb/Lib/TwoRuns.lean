import Mathlib.Data.List.Forall2

/-!
# Two runs of a computation

Two runs of computations that may fail, on inputs that are related. The runs agree when both fail
with one error or both return, with results that are related again. Some errors of the first run may
be set aside: then nothing is said of the second.

## Main definitions

* `AgreeUnless bad r x y`: the runs `x` and `y` agree, up to the relation `r` on results, unless `x`
  fails with an error that is `bad`;
* `Agree r x y`: they agree without exception.

## Main results

* `AgreeUnless.bind`, `agree_mapM`, `agree_foldlM`: runs that agree step by step agree.
-/

namespace TwoRuns

variable {ε α β γ δ : Type} {bad : ε → Prop} {r : α → β → Prop} {s : γ → δ → Prop}

/-- Both runs return results that are related, or both fail alike. The first one may also fail with
an exception that is `bad`. -/
inductive AgreeUnless (bad : ε → Prop) (r : α → β → Prop) : Except ε α → Except ε β → Prop
  | ok {a : α} {b : β} (h : r a b) : AgreeUnless bad r (.ok a) (.ok b)
  | error (e : ε) : AgreeUnless bad r (.error e) (.error e)
  | refused {e : ε} (h : bad e) (y : Except ε β) : AgreeUnless bad r (.error e) y

/-- Both runs return results that are related, or both fail alike. -/
abbrev Agree (r : α → β → Prop) (x : Except ε α) (y : Except ε β) : Prop :=
  AgreeUnless (fun _ => False) r x y

namespace AgreeUnless

/-- A run agrees with itself. -/
theorem refl {r : α → α → Prop} (hr : ∀ a, r a a) (x : Except ε α) : AgreeUnless bad r x x := by
  cases x with
  | error e => exact .error e
  | ok a => exact .ok (hr a)

/-- Less may be asked of the results. -/
theorem mono {bad' : ε → Prop} {r' : α → β → Prop} {x : Except ε α} {y : Except ε β}
    (h : AgreeUnless bad r x y) (hbad : ∀ e, bad e → bad' e) (hr : ∀ a b, r a b → r' a b) :
    AgreeUnless bad' r' x y := by
  cases h with
  | error e => exact .error e
  | ok hab => exact .ok (hr _ _ hab)
  | refused h y => exact .refused (hbad _ h) y

/-- A sequence agrees if its parts do. -/
theorem bind {x : Except ε α} {y : Except ε β} {f : α → Except ε γ} {g : β → Except ε δ}
    (h : AgreeUnless bad r x y) (hfg : ∀ a b, r a b → AgreeUnless bad s (f a) (g b)) :
    AgreeUnless bad s (x >>= f) (y >>= g) := by
  cases h with
  | error e => exact .error e
  | ok hab => exact hfg _ _ hab
  | refused h y => exact .refused h _

/-- A first step that is the same in both runs. -/
theorem bind_same {x : Except ε α} {f : α → Except ε γ} {g : α → Except ε δ}
    (h : ∀ a, AgreeUnless bad s (f a) (g a)) : AgreeUnless bad s (x >>= f) (x >>= g) := by
  cases x with
  | error e => exact .error e
  | ok a => exact h a

/-- A map of results that are related. -/
theorem map {x : Except ε α} {y : Except ε β} {f : α → γ} {g : β → δ} (h : AgreeUnless bad r x y)
    (hfg : ∀ a b, r a b → s (f a) (g b)) : AgreeUnless bad s (x.map f) (y.map g) := by
  cases h with
  | error e => exact .error e
  | ok hab => exact .ok (hfg _ _ hab)
  | refused h y => exact .refused h _

/-- What the first run returns stands for something that the second returns. -/
theorem exists_of_ok {x : Except ε α} {y : Except ε β} (h : AgreeUnless bad r x y) {a : α}
    (hx : x = .ok a) : ∃ b, y = .ok b ∧ r a b := by
  subst hx
  cases h with
  | ok hab => exact ⟨_, rfl, hab⟩

end AgreeUnless

/-- If the second run returns, so does the first. -/
theorem Agree.exists_of_ok_right {x : Except ε α} {y : Except ε β} (h : Agree r x y) {b : β}
    (hy : y = .ok b) : ∃ a, x = .ok a ∧ r a b := by
  subst hy
  cases h with
  | ok hab => exact ⟨_, rfl, hab⟩
  | refused h => exact h.elim

/-- The runs fail alike. -/
theorem Agree.eq_error_iff {x : Except ε α} {y : Except ε β} (h : Agree r x y) {e : ε} :
    x = .error e ↔ y = .error e := by
  cases h with
  | ok hab => exact ⟨nofun, nofun⟩
  | error e' =>
    exact ⟨fun h => congrArg _ (Except.error.inj h), fun h => congrArg _ (Except.error.inj h)⟩
  | refused h => exact h.elim

/-- Runs that agree up to equality are equal. -/
theorem Agree.eq {x y : Except ε α} (h : Agree Eq x y) : x = y := by
  cases h with
  | error e => rfl
  | ok hab => rw [hab]
  | refused h => exact h.elim

/-- Lists agree element by element. -/
theorem agree_mapM {f : α → Except ε γ} {g : β → Except ε δ} {xs : List α} {ys : List β}
    (h : List.Forall₂ (fun x y => AgreeUnless bad s (f x) (g y)) xs ys) :
    AgreeUnless bad (List.Forall₂ s) (xs.mapM f) (ys.mapM g) := by
  induction h with
  | nil => exact .ok .nil
  | cons hstep _ ih =>
    rw [List.mapM_cons, List.mapM_cons]
    exact hstep.bind fun _ _ hcd => ih.bind fun _ _ hrest => .ok (.cons hcd hrest)

/-- Steps on a state, each of which keeps the states related. -/
theorem agree_foldlM {f : α → γ → Except ε α} {g : β → δ → Except ε β} {xs : List γ} {ys : List δ}
    (h : List.Forall₂ (fun x y => ∀ a b, r a b → AgreeUnless bad r (f a x) (g b y)) xs ys) {a : α}
    {b : β} (hab : r a b) : AgreeUnless bad r (xs.foldlM f a) (ys.foldlM g b) := by
  induction h generalizing a b with
  | nil => exact .ok hab
  | cons hstep _ ih =>
    rw [List.foldlM_cons, List.foldlM_cons]
    exact (hstep a b hab).bind fun _ _ h => ih h

end TwoRuns
