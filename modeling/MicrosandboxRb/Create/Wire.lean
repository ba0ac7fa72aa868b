import MicrosandboxRb.Create.Mount
import MicrosandboxRb.Options

/-!
# Options on the wire

What the option builders put under a key (`sandbox.rb`), and what the readers of the native layer
then make of it (`conv.rs`).
-/

namespace MicrosandboxRb

open Ruby Conv Native AList

variable {ω : Type}

/-! ## What is written -/

/-- `out[key] = true if given`. -/
def setFlag (out : Opts ω) (key : String) (given : Bool) : Opts ω :=
  if given then out.insert key (.bool true) else out

/-- A flag writes its own key. -/
theorem adds_setFlag (out : Opts ω) (key : String) (given : Bool) :
    Adds (atKey key (if given then some (.bool true) else none)) out (setFlag out key given) := by
  cases given with
  | false =>
    intro k
    simp [setFlag, atKey]
  | true => exact adds_insert out key _

/-- What is forwarded of an optional value. -/
def unlessNil (v : Value ω) (forwarded : Value ω) : Option (Value ω) :=
  if v.isNil then none else some forwarded

/-- `value ? true : false`, unless the value is `nil`. -/
def boolUnlessNil (v : Value ω) : Option (Value ω) := unlessNil v (.bool v.truthy)

/-- Several keys, from the first to the last. -/
theorem adds_foldl_insertSome (keys : List String) (f : String → Option (Value ω)) (out : Opts ω) :
    Adds (fun key => if key ∈ keys then f key else none) out
      (keys.foldl (fun out key => insertSome out key (f key)) out) := by
  induction keys generalizing out with
  | nil =>
    intro key
    simp
  | cons k keys ih =>
    intro key
    rw [List.foldl_cons, (adds_insertSome out k (f k)).trans (ih _) key]
    by_cases hk : key = k
    · subst hk
      by_cases hmem : key ∈ keys <;> simp [atKey, hmem]
    · simp [atKey, hk]

section Given

variable [Methods ω]

/-- `Integer(v)`, where it is given. -/
def integerIf [Numeric ω] (v : Value ω) : Option (Value ω) :=
  if v.truthy then (integer v).toOption.map .int else none

/-- `Array(spec[key] || spec["key"]).map(&:to_s)`. -/
def strings (spec : Entries ω) (key : String) : List String := (either spec key).array.map Value.toS

end Given

/-- A truth value, unless it is left out. -/
def boolIf (v : Value ω) : Option Bool := if v.isNil then none else some v.truthy

/-! ## What is read -/

section Read

variable {m : Opts ω} {key : String} {v : Value ω}

/-- What a key reads as, where it was written with an optional value. -/
theorem opt_eq_ok_some_iff {α : Type} {tryConvert : Value ω → Except Exception α}
    {written : Option (Value ω)} (hlookup : m.lookup key = written)
    (hnil : ∀ w ∈ written, w.isNil = false) {o : Option α}
    (h : opt tryConvert (strEntries m) key = .ok o) (a : α) :
    o = some a ↔ ∃ w, written = some w ∧ tryConvert w = .ok a := by
  cases written with
  | none =>
    rw [opt_eq_none hlookup] at h
    obtain rfl := Except.ok.inj h
    simp
  | some w =>
    rw [opt, get_strEntries, hlookup, Option.filter_some, hnil w rfl] at h
    obtain ⟨b, hb, rfl⟩ := Except.map_eq_ok_iff.mp h
    rw [Option.some_inj]
    constructor
    · rintro rfl
      exact ⟨w, rfl, hb⟩
    · rintro ⟨_, hw, ha⟩
      obtain rfl := Option.some.inj hw
      exact Except.ok.inj (hb.symm.trans ha)

/-- A text that may be left out is read back and parsed. -/
theorem optParsed_strIf [Methods ω] {α : Type} {parse : String → Except Exception α}
    (hlookup : m.lookup key = strIf v) {o : Option α}
    (h : optParsed parse (strEntries m) key = .ok o) (a : α) :
    o = some a ↔ v.truthy = true ∧ parse v.toS = .ok a := by
  rw [optParsed, optString_strIf hlookup, Except.ok_bind, textIf] at h
  by_cases htruthy : v.truthy = true
  · rw [if_pos htruthy] at h
    obtain ⟨b, hb, rfl⟩ := Except.map_eq_ok_iff.mp h
    rw [hb]
    simp [htruthy]
  · rw [if_neg htruthy] at h
    obtain rfl := Except.ok.inj h
    simp [htruthy]

/-- A flag is read back. -/
theorem optBool_setFlag {given : Bool}
    (hlookup : m.lookup key = if given then some (.bool true) else none) :
    optBool (strEntries m) key = .ok given := by
  have hopt : opt tryBool (strEntries m) key = .ok (if given then some true else none) := by
    cases given with
    | false => exact opt_eq_none hlookup
    | true => exact opt_eq_some hlookup rfl rfl
  rw [optBool, hopt]
  cases given <;> rfl

/-- A toggle is read back, an explicit `false` included. -/
theorem opt_boolUnlessNil (hlookup : m.lookup key = boolUnlessNil v) :
    opt tryBool (strEntries m) key = .ok (boolIf v) := by
  rw [boolUnlessNil, unlessNil] at hlookup
  rw [boolIf]
  by_cases hnil : v.isNil = true
  · rw [if_pos hnil] at hlookup ⊢
    exact opt_eq_none hlookup
  · rw [if_neg hnil] at hlookup ⊢
    exact opt_eq_some hlookup rfl rfl

end Read

end MicrosandboxRb
