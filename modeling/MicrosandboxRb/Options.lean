import MicrosandboxRb.Conv

/-!
# Reading the options of a caller

The helpers of the option builders (`sandbox.rb`) that read one key of a Hash given by a caller,
where a key may be a Symbol or a String.
-/

namespace MicrosandboxRb

open Ruby

variable {ω : Type}

/-- A Hash of options with String keys, as the native layer receives it. -/
abbrev Opts (ω : Type) := AssocMap String (Value ω)

/-- The value under a Symbol. -/
def symKey (key : String) (e : Value ω × Value ω) : Option (Value ω) :=
  match e.1 with
  | .sym s => if s = key then some e.2 else none
  | _ => none

/-- `spec[:key]`, unless the Symbol is not a key. -/
def atSym (spec : Entries ω) (key : String) : Option (Value ω) := spec.findSome? (symKey key)

/-- `spec["key"]`, unless the String is not a key. -/
def atStr (spec : Entries ω) (key : String) : Option (Value ω) := spec.findSome? (Conv.strKey key)

/-- The value under a Symbol or, where the Symbol is not a key, under the String. -/
def fetchOpt (spec : Entries ω) (sym : String) : Value ω :=
  match atSym spec sym with
  | some v => v
  | none => (atStr spec sym).getD .nil

/-- `spec[:key] || spec["key"]`. -/
def either (spec : Entries ω) (key : String) : Value ω :=
  let v := (atSym spec key).getD .nil
  if v.truthy then v else (atStr spec key).getD .nil

/-- Whether a call raises an `ArgumentError`. -/
def RaisesArgumentError {α : Type} (x : Except Exception α) : Prop :=
  ∃ message, x = .error (.argumentError message)

/-- Whether every error of a call is an `ArgumentError`. -/
def OnlyArgumentErrors {α : Type} (x : Except Exception α) : Prop :=
  ∀ e, x = .error e → ∃ message, e = .argumentError message

section OnlyArgumentErrors

variable {α β : Type}

/-- What succeeds raises nothing. -/
theorem onlyArgumentErrors_ok (a : α) : OnlyArgumentErrors (.ok a) := fun _ h => by cases h

/-- An `ArgumentError` is one. -/
theorem onlyArgumentErrors_argumentError (message : String) :
    OnlyArgumentErrors (.error (.argumentError message) : Except Exception α) :=
  fun _ h => ⟨message, (Except.error.inj h).symm⟩

/-- A sequence raises what its steps raise. -/
theorem OnlyArgumentErrors.bind {x : Except Exception α} {f : α → Except Exception β}
    (hx : OnlyArgumentErrors x) (hf : ∀ a, OnlyArgumentErrors (f a)) :
    OnlyArgumentErrors (x >>= f) := by
  cases x with
  | error e => exact fun e' h => hx e' (congrArg Except.error (Except.error.inj h))
  | ok a => exact hf a

/-- What is computed from the result does not raise. -/
theorem OnlyArgumentErrors.map {x : Except Exception α} (hx : OnlyArgumentErrors x) (f : α → β) :
    OnlyArgumentErrors (x.map f) := by
  cases x with
  | error e => exact fun e' h => hx e' (congrArg Except.error (Except.error.inj h))
  | ok a => exact onlyArgumentErrors_ok _

/-- A call that cannot return raises. -/
theorem OnlyArgumentErrors.raises {x : Except Exception α} (hx : OnlyArgumentErrors x)
    (hne : ∀ a, x ≠ .ok a) : RaisesArgumentError x := by
  cases x with
  | error e =>
    obtain ⟨message, rfl⟩ := hx e rfl
    exact ⟨message, rfl⟩
  | ok a => exact absurd rfl (hne a)

end OnlyArgumentErrors

/-! ## Hashes with String keys -/

/-- A wire form has no Symbol keys. -/
theorem atSym_strEntries (m : Opts ω) (key : String) : atSym (strEntries m) key = none := by
  rw [atSym, List.findSome?_eq_none_iff]
  intro e he
  obtain ⟨e', -, rfl⟩ := List.mem_map.mp he
  rfl

/-- So an option is fetched from it under its String key. -/
@[simp] theorem fetchOpt_strEntries (m : Opts ω) (key : String) :
    fetchOpt (strEntries m) key = index m key := by
  rw [fetchOpt, atSym_strEntries]
  exact congrArg (Option.getD · .nil) (Conv.findSome?_strKey m key)

end MicrosandboxRb
