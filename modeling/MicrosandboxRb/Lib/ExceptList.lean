import Mathlib.Data.List.Forall2

/-!
# Successful computations with errors

What the success of a sequence of fallible steps says about each step, for `Except` and for lists of
steps.
-/

namespace Except

variable {ε α β γ : Type}

theorem ok_bind (a : α) (f : α → Except ε β) : (.ok a >>= f : Except ε β) = f a := rfl

/-- Binding after a map. -/
theorem map_bind (x : Except ε α) (g : α → β) (f : β → Except ε γ) :
    x.map g >>= f = x >>= fun a => f (g a) := by
  cases x <;> rfl

/-- A sequence succeeds if both of its parts do. -/
theorem bind_eq_ok_iff {x : Except ε α} {f : α → Except ε β} {b : β} :
    x >>= f = .ok b ↔ ∃ a, x = .ok a ∧ f a = .ok b := by
  cases x with
  | error e => exact ⟨fun h => (by cases h), fun ⟨_, h, _⟩ => (by cases h)⟩
  | ok a => exact ⟨fun h => ⟨a, rfl, h⟩, fun ⟨_, h, hf⟩ => by cases h; exact hf⟩

/-- A sequence fails with its first part or with its second. -/
theorem bind_eq_error_iff {x : Except ε α} {f : α → Except ε β} {e : ε} :
    x >>= f = .error e ↔ x = .error e ∨ ∃ a, x = .ok a ∧ f a = .error e := by
  cases x with
  | error e' =>
    constructor
    · intro h
      exact Or.inl (congrArg Except.error (error.inj h))
    · rintro (h | ⟨a, h, -⟩)
      · rw [h]
        rfl
      · cases h
  | ok a =>
    constructor
    · intro h
      exact Or.inr ⟨a, rfl, h⟩
    · rintro (h | ⟨a', h, hf⟩)
      · cases h
      · rw [ok.inj h]
        exact hf

/-- A guard that is passed. -/
theorem guard_eq_ok_iff {c : Prop} [Decidable c] {e : ε} {x : Except ε α} {a : α} :
    (if c then throw e else x) = .ok a ↔ ¬c ∧ x = .ok a := by
  by_cases hc : c
  · rw [if_pos hc]
    constructor
    · intro h
      cases h
    · intro h
      exact absurd hc h.1
  · rw [if_neg hc, and_iff_right hc]

/-- A map succeeds if its argument does. -/
theorem map_eq_ok_iff {x : Except ε α} {f : α → β} {b : β} :
    x.map f = .ok b ↔ ∃ a, x = .ok a ∧ f a = b := by
  cases x with
  | error e => exact ⟨fun h => (by cases h), fun ⟨_, h, _⟩ => (by cases h)⟩
  | ok a => exact ⟨fun h => ⟨a, rfl, ok.inj h⟩, fun ⟨_, h, hf⟩ => by cases h; rw [← hf]; rfl⟩

/-- A result without its error. -/
theorem toOption_eq_some_iff {x : Except ε α} {a : α} : x.toOption = some a ↔ x = .ok a := by
  cases x with
  | error e => exact ⟨fun h => (by cases h), fun h => (by cases h)⟩
  | ok a' => exact ⟨fun h => by rw [Option.some.inj h], fun h => by rw [ok.inj h]; rfl⟩

/-- A list of steps succeeds when every step does. -/
theorem mapM_eq_ok_iff {f : α → Except ε β} {xs : List α} {ys : List β} :
    xs.mapM f = .ok ys ↔ List.Forall₂ (fun x y => f x = .ok y) xs ys := by
  induction xs generalizing ys with
  | nil =>
    rw [List.mapM_nil, List.forall₂_nil_left_iff]
    exact ⟨fun h => (ok.inj h).symm, fun h => by rw [h]; rfl⟩
  | cons x xs ih =>
    rw [List.mapM_cons, bind_eq_ok_iff, List.forall₂_cons_left_iff]
    refine exists_congr fun y => ?_
    rw [bind_eq_ok_iff]
    constructor
    · rintro ⟨hy, ys', hys', hcons⟩
      exact ⟨ys', hy, ih.mp hys', (ok.inj hcons).symm⟩
    · rintro ⟨ys', hy, hys', rfl⟩
      exact ⟨hy, ys', ih.mpr hys', rfl⟩

/-- Two lists of steps that agree step by step. -/
theorem mapM_congr_forall₂ {γ : Type} {f : α → Except ε γ} {g : β → Except ε γ} {xs : List α}
    {ys : List β} (h : List.Forall₂ (fun x y => f x = g y) xs ys) : xs.mapM f = ys.mapM g := by
  induction h with
  | nil => rfl
  | cons hstep _ ih => rw [List.mapM_cons, List.mapM_cons, hstep, ih]

/-- Every element of a list that succeeds does. -/
theorem exists_of_mapM_eq_ok {f : α → Except ε β} {xs : List α} {ys : List β} {x : α}
    (h : xs.mapM f = .ok ys) (hx : x ∈ xs) : ∃ y ∈ ys, f x = .ok y := by
  have hsteps := mapM_eq_ok_iff.mp h
  clear h
  induction hsteps with
  | nil => cases hx
  | cons hstep _ ih =>
    rcases List.mem_cons.mp hx with rfl | hx
    · exact ⟨_, List.mem_cons_self, hstep⟩
    · obtain ⟨y, hy, hfx⟩ := ih hx
      exact ⟨y, List.mem_cons_of_mem _ hy, hfx⟩

/-- A list succeeds if every element does. -/
theorem exists_mapM_eq_ok_iff {f : α → Except ε β} {xs : List α} :
    (∃ ys, xs.mapM f = .ok ys) ↔ ∀ x ∈ xs, ∃ y, f x = .ok y := by
  constructor
  · rintro ⟨ys, h⟩ x hx
    obtain ⟨y, -, hy⟩ := exists_of_mapM_eq_ok h hx
    exact ⟨y, hy⟩
  · intro h
    induction xs with
    | nil => exact ⟨[], rfl⟩
    | cons x xs ih =>
      obtain ⟨hx, hxs⟩ := List.forall_mem_cons.mp h
      obtain ⟨y, hy⟩ := hx
      obtain ⟨ys, hys⟩ := ih hxs
      exact ⟨y :: ys, mapM_eq_ok_iff.mpr (.cons hy (mapM_eq_ok_iff.mp hys))⟩

/-- Two lists of steps, one on the results of the other. -/
theorem forall₂_of_mapM_of_mapM {γ : Type} {f : α → Except ε β} {g : β → Except ε γ}
    {R : α → γ → Prop} (hR : ∀ x y z, f x = .ok y → g y = .ok z → R x z) {xs : List α}
    {ys : List β} {zs : List γ} (h : xs.mapM f = .ok ys) (h' : ys.mapM g = .ok zs) :
    List.Forall₂ R xs zs := by
  have hfirst := mapM_eq_ok_iff.mp h
  have hsecond := mapM_eq_ok_iff.mp h'
  clear h h'
  induction hfirst generalizing zs with
  | nil =>
    cases hsecond
    exact .nil
  | cons hxy _ ih =>
    obtain _ | ⟨hyz, hrest⟩ := hsecond
    exact .cons (hR _ _ _ hxy hyz) (ih hrest)

/-- The error of a list of steps is the error of one of them. -/
theorem exists_of_mapM_eq_error {f : α → Except ε β} {xs : List α} {e : ε}
    (h : xs.mapM f = .error e) : ∃ x ∈ xs, f x = .error e := by
  induction xs with
  | nil => cases h
  | cons x xs ih =>
    rw [List.mapM_cons] at h
    cases hx : f x with
    | error e' =>
      rw [hx] at h
      cases h
      exact ⟨x, List.mem_cons_self, hx⟩
    | ok y =>
      rw [hx, ok_bind] at h
      cases hxs : xs.mapM f with
      | error e' =>
        rw [hxs] at h
        cases h
        obtain ⟨x', hmem, hx'⟩ := ih hxs
        exact ⟨x', List.mem_cons_of_mem x hmem, hx'⟩
      | ok ys =>
        rw [hxs] at h
        cases h

end Except

namespace Option

variable {α β : Type}

/-- A list of options is there if every element is. -/
theorem mapM_eq_some_iff {f : α → Option β} {xs : List α} {ys : List β} :
    xs.mapM f = some ys ↔ List.Forall₂ (fun x y => f x = some y) xs ys := by
  induction xs generalizing ys with
  | nil =>
    rw [List.mapM_nil, List.forall₂_nil_left_iff]
    exact ⟨fun h => (some.inj h).symm, fun h => by rw [h]; rfl⟩
  | cons x xs ih =>
    rw [List.mapM_cons, Option.bind_eq_bind, Option.bind_eq_some_iff, List.forall₂_cons_left_iff]
    refine exists_congr fun y => ?_
    rw [Option.bind_eq_bind, Option.bind_eq_some_iff]
    constructor
    · rintro ⟨hy, ys', hys', hcons⟩
      exact ⟨ys', hy, ih.mp hys', (some.inj hcons).symm⟩
    · rintro ⟨ys', hy, hys', rfl⟩
      exact ⟨hy, ys', ih.mpr hys', rfl⟩

end Option

section Compose

variable {ε ε' α β γ : Type}

/-- A list that succeeds does so without its errors. -/
theorem List.mapM_toOption_of_mapM_eq_ok {f : α → Except ε β} {xs : List α} {ys : List β}
    (h : xs.mapM f = .ok ys) : xs.mapM (fun x => (f x).toOption) = some ys := by
  rw [Option.mapM_eq_some_iff]
  rw [Except.mapM_eq_ok_iff] at h
  exact h.imp fun x y hxy => Except.toOption_eq_some_iff.mpr hxy

end Compose
