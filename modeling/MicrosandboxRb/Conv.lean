import Mathlib.Algebra.Ring.Int.Defs
import Mathlib.Algebra.Ring.Nat
import Mathlib.Tactic.Zify
import MicrosandboxRb.Lib.ExceptList
import MicrosandboxRb.Lib.RubyNumeric

/-!
# Reading Ruby options

The helpers that read a Hash with String keys into Rust values (`conv.rs`). A key whose value is
`nil` reads as an absent one, and a value of another class than the expected one raises.
-/

namespace MicrosandboxRb.Conv

open Ruby

variable {ω : Type}

/-- A Hash with String keys, as the native layer receives it. -/
abbrev RHash (ω : Type) := Entries ω

/-- The value under a String key. -/
def strKey (key : String) (e : Value ω × Value ω) : Option (Value ω) :=
  match e.1 with
  | .str s => if s = key then some e.2 else none
  | _ => none

/-- Fetch a non-nil value for `key`, if present. -/
def get (hash : RHash ω) (key : String) : Option (Value ω) :=
  (hash.findSome? (strKey key)).filter fun v => !v.isNil

/-- `String::try_convert`. -/
def tryString : Value ω → Except Exception String
  | .str s => .ok s
  | _ => .error (.typeError "String")

/-- `RArray::try_convert`. -/
def tryArray : Value ω → Except Exception (List (Value ω))
  | .arr xs => .ok xs
  | _ => .error (.typeError "Array")

/-- `RHash::try_convert`. -/
def tryHash : Value ω → Except Exception (RHash ω)
  | .hash es => .ok es
  | _ => .error (.typeError "Hash")

/-- `None` if the key is absent or nil, else the converted value. -/
def opt {α : Type} (tryConvert : Value ω → Except Exception α) (hash : RHash ω) (key : String) :
    Except Exception (Option α) :=
  match get hash key with
  | some v => (tryConvert v).map some
  | none => .ok none

/-- An optional String. -/
def optString (hash : RHash ω) (key : String) : Except Exception (Option String) :=
  opt tryString hash key

/-- Array of strings. Empty if absent. -/
def optStringVec (hash : RHash ω) (key : String) : Except Exception (List String) :=
  match get hash key with
  | some v => do (← tryArray v).mapM tryString
  | none => .ok []

/-- Array of Hashes. Empty if absent. -/
def optHashVec (hash : RHash ω) (key : String) : Except Exception (List (RHash ω)) :=
  match get hash key with
  | some v => do (← tryArray v).mapM tryHash
  | none => .ok []

/-- `bool::try_convert`: whether the value is truthy. -/
def tryBool (v : Value ω) : Except Exception Bool := .ok v.truthy

/-- A flag, which is off if it is absent. -/
def optBool (hash : RHash ω) (key : String) : Except Exception Bool :=
  (opt tryBool hash key).map fun b => b.getD false

/-- `Vec<T>::try_convert`. -/
def tryVec {α : Type} (tryConvert : Value ω → Except Exception α) (v : Value ω) :
    Except Exception (List α) := do
  (← tryArray v).mapM tryConvert

/-- `HashMap<K, V>::try_convert`. A `HashMap` does not keep the order of the entries. -/
def tryHashMap {κ ν : Type} (tryKey : Value ω → Except Exception κ)
    (tryValue : Value ω → Except Exception ν) (v : Value ω) : Except Exception (List (κ × ν)) := do
  (← tryHash v).mapM fun e => do return (← tryKey e.1, ← tryValue e.2)

/-- String→String map. Empty if absent. -/
def optStringMap (hash : RHash ω) (key : String) : Except Exception (List (String × String)) :=
  match get hash key with
  | some v => tryHashMap tryString tryString v
  | none => .ok []

section Numeric

variable [Numeric ω]

/-- The conversion into an unsigned integer of so many bits. The text of the error is the
converter's. -/
def tryUnsigned (bits : ℕ) (v : Value ω) : Except Exception ℕ := do
  let n ←
    match v with
    | .int n => .ok n
    | .obj o => Numeric.toInt o
    | _ => .error (.typeError "Integer")
  if 0 ≤ n ∧ n < 2 ^ bits then return n.toNat
  else throw (.custom "RangeError" s!"{n} is out of range for u{bits}")

/-- `u8::try_convert`. -/
def tryU8 (v : Value ω) : Except Exception UInt8 := (tryUnsigned 8 v).map UInt8.ofNat

/-- `u16::try_convert`. -/
def tryU16 (v : Value ω) : Except Exception UInt16 := (tryUnsigned 16 v).map UInt16.ofNat

/-- `u32::try_convert`. -/
def tryU32 (v : Value ω) : Except Exception UInt32 := (tryUnsigned 32 v).map UInt32.ofNat

/-- `u64::try_convert`. -/
def tryU64 (v : Value ω) : Except Exception UInt64 := (tryUnsigned 64 v).map UInt64.ofNat

/-- `ofNat` and `toNat` make `α` the type of the unsigned integers of so many bits. -/
structure IsUnsigned {α : Type} (bits : ℕ) (ofNat : ℕ → α) (toNat : α → ℕ) : Prop where
  ofNat_toNat : ∀ u, ofNat (toNat u) = u
  toNat_ofNat : ∀ n < 2 ^ bits, toNat (ofNat n) = n
  toNat_lt : ∀ u, toNat u < 2 ^ bits

/-- `UInt8` has 8 bits. -/
theorem isUnsigned_u8 : IsUnsigned 8 UInt8.ofNat UInt8.toNat :=
  ⟨fun _ => UInt8.ofNat_toNat, fun _ h => UInt8.toNat_ofNat_of_lt' h, UInt8.toNat_lt⟩

/-- `UInt32` has 32 bits. -/
theorem isUnsigned_u32 : IsUnsigned 32 UInt32.ofNat UInt32.toNat :=
  ⟨fun _ => UInt32.ofNat_toNat, fun _ h => UInt32.toNat_ofNat_of_lt' h, UInt32.toNat_lt⟩

/-- `UInt64` has 64 bits. -/
theorem isUnsigned_u64 : IsUnsigned 64 UInt64.ofNat UInt64.toNat :=
  ⟨fun _ => UInt64.ofNat_toNat, fun _ h => UInt64.toNat_ofNat_of_lt' h, UInt64.toNat_lt⟩

section IsUnsigned

variable {α : Type} {bits : ℕ} {ofNat : ℕ → α} {toNat : α → ℕ} {n : ℤ}

/-- An Integer is read as the unsigned integer of the same value, if it is in range. -/
theorem IsUnsigned.try_int_eq_ok_iff (h : IsUnsigned bits ofNat toNat) {u : α} :
    (tryUnsigned bits (.int n : Value ω)).map ofNat = .ok u ↔ n = toNat u := by
  have hlt : (toNat u : ℤ) < 2 ^ bits := by exact_mod_cast h.toNat_lt u
  rw [Except.map_eq_ok_iff, tryUnsigned, Except.ok_bind]
  dsimp only
  by_cases hn : 0 ≤ n ∧ n < 2 ^ bits
  · rw [if_pos hn]
    have hmod : toNat (ofNat n.toNat) = n.toNat := by
      refine h.toNat_ofNat _ ?_
      have hrange := hn.2
      zify
      rwa [Int.toNat_of_nonneg hn.1]
    constructor
    · rintro ⟨k, hk, rfl⟩
      obtain rfl := Except.ok.inj hk
      rw [hmod, Int.toNat_of_nonneg hn.1]
    · rintro rfl
      exact ⟨toNat u, rfl, h.ofNat_toNat u⟩
  · -- out of range the conversion raises, and no `u` is such an integer
    rw [if_neg hn]
    constructor
    · rintro ⟨k, hk, -⟩
      cases hk
    · rintro rfl
      exact absurd ⟨Int.natCast_nonneg _, hlt⟩ hn

/-- The integers that are read. -/
theorem IsUnsigned.exists_toNat_eq_iff (h : IsUnsigned bits ofNat toNat) :
    (∃ u, (toNat u : ℤ) = n) ↔ 0 ≤ n ∧ n < 2 ^ bits := by
  constructor
  · rintro ⟨u, rfl⟩
    exact ⟨Int.natCast_nonneg _, by exact_mod_cast h.toNat_lt u⟩
  · rintro ⟨hle, hlt⟩
    refine ⟨ofNat n.toNat, ?_⟩
    rw [h.toNat_ofNat, Int.toNat_of_nonneg hle]
    zify
    rwa [Int.toNat_of_nonneg hle]

end IsUnsigned

/-- An Integer is read as the `u32` that it is. -/
theorem tryU32_int_eq_ok_iff {n : ℤ} {u : UInt32} :
    tryU32 (.int n : Value ω) = .ok u ↔ n = u.toNat := isUnsigned_u32.try_int_eq_ok_iff

/-- An Integer is read as the `u64` that it is. -/
theorem tryU64_int_eq_ok_iff {n : ℤ} {u : UInt64} :
    tryU64 (.int n : Value ω) = .ok u ↔ n = u.toNat := isUnsigned_u64.try_int_eq_ok_iff

/-- An optional `u8`. -/
def optU8 (hash : RHash ω) (key : String) : Except Exception (Option UInt8) := opt tryU8 hash key

/-- An optional `u32`. -/
def optU32 (hash : RHash ω) (key : String) : Except Exception (Option UInt32) :=
  opt tryU32 hash key

/-- `u16`→`u16` port map. Empty if absent. -/
def optPortMap (hash : RHash ω) (key : String) : Except Exception (List (UInt16 × UInt16)) :=
  match get hash key with
  | some v => tryHashMap tryU16 tryU16 v
  | none => .ok []

end Numeric

/-! ## Hashes that the Ruby layer builds -/

/-- A String key is found under its own text. -/
theorem strKey_str_self (key : String) (v : Value ω) : strKey key (.str key, v) = some v :=
  if_pos rfl

/-- And under no other. -/
theorem strKey_str_ne {key s : String} (h : s ≠ key) (v : Value ω) :
    strKey key (.str s, v) = none :=
  if_neg h

/-- A Hash that the Ruby layer builds has one entry for each key. -/
theorem findSome?_strKey (m : AssocMap String (Value ω)) (key : String) :
    (strEntries m).findSome? (strKey key) = m.lookup key := by
  obtain ⟨entries, hnodup⟩ := m
  change (entries.map _).findSome? (strKey key) = entries.dlookup key
  induction entries with
  | nil => rfl
  | cons e es ih =>
    obtain ⟨k, v⟩ := e
    rw [List.map_cons, List.findSome?_cons]
    by_cases hk : k = key
    · subst hk
      rw [List.dlookup_cons_eq, strKey_str_self]
    · rw [strKey_str_ne hk, List.dlookup_cons_ne _ _ (Ne.symm hk)]
      -- no later entry has the same key, so the first one found is the only one
      exact ih (List.nodupKeys_of_nodupKeys_cons hnodup)

/-- A key that holds `nil` reads as an absent one. -/
theorem get_strEntries (m : AssocMap String (Value ω)) (key : String) :
    get (strEntries m) key = (m.lookup key).filter fun v => !v.isNil := by
  rw [get, findSome?_strKey]

section StrEntries

variable {m : AssocMap String (Value ω)} {key : String}

/-- What is absent is read as nothing. -/
theorem opt_eq_none {α : Type} {tryConvert : Value ω → Except Exception α}
    (h : m.lookup key = none) : opt tryConvert (strEntries m) key = .ok none := by
  rw [opt, get_strEntries, h]
  rfl

/-- What is present is converted. -/
theorem opt_eq_some {α : Type} {tryConvert : Value ω → Except Exception α} {v : Value ω} {a : α}
    (h : m.lookup key = some v) (hnil : v.isNil = false) (hv : tryConvert v = .ok a) :
    opt tryConvert (strEntries m) key = .ok (some a) := by
  rw [opt, get_strEntries, h, Option.filter_some, hnil]
  change (tryConvert v).map some = .ok (some a)
  rw [hv]
  rfl

/-- What a key reads as depends only on what it holds. -/
theorem opt_congr {α : Type} {tryConvert : Value ω → Except Exception α}
    {m' : AssocMap String (Value ω)} {key' : String} (h : m.lookup key = m'.lookup key') :
    opt tryConvert (strEntries m) key = opt tryConvert (strEntries m') key' := by
  rw [opt, opt, get_strEntries, get_strEntries, h]

/-- A list is read off its own key alone. -/
theorem optStringVec_congr {m' : AssocMap String (Value ω)} {key' : String}
    (h : m.lookup key = m'.lookup key') :
    optStringVec (strEntries m) key = optStringVec (strEntries m') key' := by
  rw [optStringVec, optStringVec, get_strEntries, get_strEntries, h]

/-- An absent list is empty. -/
theorem optStringVec_eq_nil (h : m.lookup key = none) :
    optStringVec (strEntries m) key = .ok [] := by
  rw [optStringVec, get_strEntries, h]
  rfl

/-- Strings are read as they are. -/
theorem mapM_tryString_map_str (ss : List String) :
    (ss.map fun s => (Value.str s : Value ω)).mapM tryString = .ok ss := by
  induction ss with
  | nil => rfl
  | cons s ss ih =>
    rw [List.map_cons, List.mapM_cons, ih]
    rfl

/-- An Array of Strings is read as their list. -/
theorem optStringVec_map_str {ss : List String} (h : m.lookup key = some (.arr (ss.map .str))) :
    optStringVec (strEntries m) key = .ok ss := by
  rw [optStringVec, get_strEntries, h]
  exact mapM_tryString_map_str ss

/-- A list reads back as it was written, whether it was left out or not. -/
theorem optStringVec_strsUnlessEmpty {ss : List String} (h : m.lookup key = strsUnlessEmpty ss) :
    optStringVec (strEntries m) key = .ok ss := by
  rw [strsUnlessEmpty] at h
  cases ss with
  | nil => exact optStringVec_eq_nil h
  | cons s ss =>
    rw [optStringVec, get_strEntries, h]
    exact mapM_tryString_map_str (s :: ss)

/-- Hashes are read as they are. -/
theorem mapM_tryHash_map_strHash (ms : List (AssocMap String (Value ω))) :
    (ms.map strHash).mapM tryHash = .ok (ms.map strEntries) := by
  induction ms with
  | nil => rfl
  | cons m ms ih =>
    rw [List.map_cons, List.mapM_cons, ih]
    rfl

/-- An absent list of Hashes is empty. -/
theorem optHashVec_eq_nil (h : m.lookup key = none) : optHashVec (strEntries m) key = .ok [] := by
  rw [optHashVec, get_strEntries, h]
  rfl

/-- An Array of Hashes is read as their list. -/
theorem optHashVec_map_strHash {ms : List (AssocMap String (Value ω))}
    (h : m.lookup key = some (.arr (ms.map strHash))) :
    optHashVec (strEntries m) key = .ok (ms.map strEntries) := by
  rw [optHashVec, get_strEntries, h]
  exact mapM_tryHash_map_strHash ms

/-- An optional String reads back as it was written. -/
theorem optString_map_str {s : Option String}
    (h : m.lookup key = s.map .str) : optString (strEntries m) key = .ok s := by
  cases s with
  | none => exact opt_eq_none h
  | some s => exact opt_eq_some h rfl rfl

/-- A text that may be left out is read back. -/
theorem optString_strIf [Methods ω] {v : Value ω} (h : m.lookup key = strIf v) :
    optString (strEntries m) key = .ok (textIf v) :=
  optString_map_str (h.trans (strIf_eq_map_textIf v))

/-- The rules of a Hash that leaves out an empty list. -/
theorem optHashVec_unlessEmpty {outs : List (AssocMap String (Value ω))}
    (h : m.lookup key = if outs.isEmpty then none else some (.arr (outs.map strHash))) :
    optHashVec (strEntries m) key = .ok (outs.map strEntries) := by
  cases outs with
  | nil => exact optHashVec_eq_nil h
  | cons out outs => exact optHashVec_map_strHash h

/-- A list of Hashes is read off its own key alone. -/
theorem optHashVec_congr {m' : AssocMap String (Value ω)} (h : m.lookup key = m'.lookup key) :
    optHashVec (strEntries m) key = optHashVec (strEntries m') key := by
  rw [optHashVec, optHashVec, get_strEntries, get_strEntries, h]

end StrEntries

end MicrosandboxRb.Conv
