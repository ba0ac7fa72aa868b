import Mathlib.Init

/-!
# First-match evaluation

A list of rules decides an input by its first rule that applies, and a default decides the inputs to
which no rule applies.

## Main results

* `firstMatch_append`: a list appended to another one is the default of that one;
* `firstMatch_of_forall_action_eq`: a list whose rules all have one action decides by whether any of
  them applies.
-/

variable {ρ φ α : Type}

/-- The action of the first of `rules` that applies to `x`, or `dflt` if none does. -/
def firstMatch (applies : ρ → φ → Bool) (action : ρ → α) (rules : List ρ) (x : φ) (dflt : α) : α :=
  match rules.find? (applies · x) with
  | some r => action r
  | none => dflt

section FirstMatch

variable {applies : ρ → φ → Bool} {action : ρ → α} {x : φ} {dflt : α}

@[simp] theorem firstMatch_nil : firstMatch applies action [] x dflt = dflt := rfl

/-- Later rules are the default of earlier ones. -/
theorem firstMatch_append (rules rules' : List ρ) :
    firstMatch applies action (rules ++ rules') x dflt =
      firstMatch applies action rules x (firstMatch applies action rules' x dflt) := by
  rw [firstMatch, firstMatch, List.find?_append]
  cases rules.find? (applies · x) with
  | none => rfl
  | some r => rfl

/-- Rules with one action give it if any of them applies. -/
theorem firstMatch_of_forall_action_eq {rules : List ρ} {a : α}
    (h : ∀ r ∈ rules, action r = a) :
    firstMatch applies action rules x dflt =
      if ∃ r ∈ rules, applies r x = true then a else dflt := by
  rw [firstMatch]
  cases hfind : rules.find? (applies · x) with
  | none =>
    rw [List.find?_eq_none] at hfind
    rw [if_neg]
    rintro ⟨r, hmem, happ⟩
    exact hfind r hmem happ
  | some r =>
    have hmem : r ∈ rules := List.mem_of_find?_eq_some hfind
    have happ : applies r x = true := by simpa using List.find?_some hfind
    rw [if_pos ⟨r, hmem, happ⟩]
    exact h r hmem

end FirstMatch
