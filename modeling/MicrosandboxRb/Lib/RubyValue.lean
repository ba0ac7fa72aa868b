import MicrosandboxRb.Lib.AssocMap

/-!
# Ruby values

The values a Ruby method receives, with the conversions of `Kernel` and `Hash` that normalizers of
keyword arguments use: `to_s`, `to_sym`, `Array()`, `compact`, `flatten`, `transform_keys` and
`merge`. Other objects are values of a type `ω`, whose methods are given by `Ruby.Methods`. A String
is its text: every String here is valid UTF-8, and a binary one is outside this model.

A Hash given by a caller is the list of its entries, in insertion order. A Hash whose keys are all
Symbols or all Strings, as `transform_keys` builds it, is an `AssocMap`.

## Main results

* `lookup_transformKeys`: `transform_keys` keeps the last of the entries whose keys become equal;
* `lookup_merge`: `merge` prefers the entries of its argument.
-/

namespace Ruby

/-- An exception, with what its message is made of. -/
inductive Exception where
  | argumentError (message : String)
  /-- The receiver has no method of this name. -/
  | noMethodError (method : String)
  /-- There is no implicit conversion into this class. -/
  | typeError (into : String)
  /-- An exception of a class that is not built in. -/
  | custom (className message : String)
deriving DecidableEq, Repr

/-- A value, as far as its class is built in. -/
inductive Value (ω : Type) where
  | nil
  | bool (b : Bool)
  | int (n : ℤ)
  | str (s : String)
  | sym (s : String)
  | arr (xs : List (Value ω))
  | hash (es : List (Value ω × Value ω))
  | obj (o : ω)

/-- The entries of a Hash. -/
abbrev Entries (ω : Type) := List (Value ω × Value ω)

/-- The methods of the objects in `ω`, and the format of `inspect`, which depends on the version of
Ruby. -/
class Methods (ω : Type) where
  toS : ω → String
  -- the name, for an object that has `to_sym`
  toSym : ω → Option String
  -- `Array(o)`: what `to_ary` or `to_a` returns, or else the object alone
  toA : ω → List (Value ω)
  className : ω → String
  inspect : Value ω → String

/-- Objects of one class, without methods of their own. -/
instance : Methods Unit where
  toS _ := "#<Object>"
  toSym _ := none
  toA o := [.obj o]
  className _ := "Object"
  inspect _ := "…"

variable {ω : Type}

/-- `String#downcase` on the ASCII letters. The only other character whose lower case is an ASCII
letter is the Kelvin sign, with the lower case `k`. -/
def downcase (s : String) : String := String.ofList (s.toList.map Char.toLower)

/-- `downcase` is idempotent. -/
theorem downcase_downcase (s : String) : downcase (downcase s) = downcase s := by
  have hchar : ∀ c : Char, c.toLower.toLower = c.toLower := by
    intro c
    unfold Char.toLower
    grind
  rw [downcase, downcase, String.toList_ofList, List.map_map]
  congr 2
  funext c
  exact hchar c

namespace Value

/-- Whether a condition holds of the value. -/
def truthy : Value ω → Bool
  | .nil => false
  | .bool b => b
  | _ => true

/-- `v.nil?`. -/
def isNil : Value ω → Bool
  | .nil => true
  | _ => false

/-- `v.is_a?(Hash)`. -/
def isHash : Value ω → Bool
  | .hash _ => true
  | _ => false

/-- A Hash has entries. -/
theorem eq_hash_of_isHash {v : Value ω} (h : v.isHash = true) : ∃ es, v = .hash es := by
  cases v with
  | hash es => exact ⟨es, rfl⟩
  | nil | bool | int | str | sym | arr | obj => cases h

/-- `nil` is not true. -/
theorem truthy_eq_false_of_isNil {v : Value ω} (h : v.isNil = true) : v.truthy = false := by
  cases v with
  | nil => rfl
  | _ => cases h

mutual

/-- `[v].flatten`. -/
def flatten : Value ω → List (Value ω)
  | .arr xs => flattenList xs
  | v => [v]

/-- `Array#flatten`. -/
def flattenList : List (Value ω) → List (Value ω)
  | [] => []
  | v :: vs => v.flatten ++ flattenList vs

end

section Methods

variable [Methods ω]

/-- `v.to_s`. -/
def toS : Value ω → String
  | .nil => ""
  | .bool b => toString b
  | .int n => toString n
  | .str s => s
  | .sym s => s
  | .obj o => Methods.toS o
  | v => Methods.inspect v

/-- `v.inspect`. -/
def inspect (v : Value ω) : String := Methods.inspect v

/-- `v.class`. -/
def className : Value ω → String
  | .nil => "NilClass"
  | .bool b => if b then "TrueClass" else "FalseClass"
  | .int _ => "Integer"
  | .str _ => "String"
  | .sym _ => "Symbol"
  | .arr _ => "Array"
  | .hash _ => "Hash"
  | .obj o => Methods.className o

/-- The name of the Symbol that `to_sym` returns, if the value has that method. -/
def toSym? : Value ω → Option String
  | .str s => some s
  | .sym s => some s
  | .obj o => Methods.toSym o
  | _ => none

/-- `Kernel#Array`. -/
def array : Value ω → List (Value ω)
  | .nil => []
  | .arr xs => xs
  | .hash es => es.map fun e => .arr [e.1, e.2]
  | .obj o => Methods.toA o
  | v => [v]

@[simp] theorem toS_str (s : String) : (Value.str s : Value ω).toS = s := rfl

@[simp] theorem toS_sym (s : String) : (Value.sym s : Value ω).toS = s := rfl

@[simp] theorem array_nil : (Value.nil : Value ω).array = [] := rfl

@[simp] theorem array_arr (xs : List (Value ω)) : (Value.arr xs).array = xs := rfl

/-- Strings are their own texts. -/
@[simp] theorem map_toS_map_str (ss : List String) :
    (ss.map fun s => (Value.str s : Value ω)).map toS = ss := by
  rw [List.map_map]
  exact List.map_id ss

end Methods

/-- `Array#compact`. -/
def compact (vs : List (Value ω)) : List (Value ω) := vs.filter fun v => !v.isNil

/-- `compact` drops the `nil`s. -/
theorem mem_compact {vs : List (Value ω)} {v : Value ω} :
    v ∈ compact vs ↔ v ∈ vs ∧ v.isNil = false := by
  rw [compact, List.mem_filter, Bool.not_eq_true']

/-- Something is left if not all are `nil`. -/
theorem compact_ne_nil_iff {vs : List (Value ω)} :
    compact vs ≠ [] ↔ ∃ v ∈ vs, v.isNil = false := by
  constructor
  · intro h
    obtain ⟨v, hv⟩ := List.exists_mem_of_ne_nil _ h
    exact ⟨v, mem_compact.mp hv⟩
  · rintro ⟨v, hv⟩
    exact List.ne_nil_of_mem (mem_compact.mpr hv)

end Value

/-! ## Hashes -/

/-- The value of the last entry whose key satisfies `p`. -/
def lastValue (p : Value ω → Bool) : Entries ω → Option (Value ω)
  | [] => none
  | e :: es => (lastValue p es).or (if p e.1 then some e.2 else none)

/-- `Hash#transform_keys`, for a block that never raises. -/
def transformKeys (f : Value ω → String) (es : Entries ω) : AssocMap String (Value ω) :=
  es.foldl (fun m e => m.insert (f e.1) e.2) ∅

/-- Insertions overwrite what was there, and the last one counts. -/
theorem lookup_foldl_insert (f : Value ω → String) (es : Entries ω) (m : AssocMap String (Value ω))
    (k : String) :
    (es.foldl (fun m e => m.insert (f e.1) e.2) m).lookup k =
      (lastValue (fun v => f v == k) es).or (m.lookup k) := by
  induction es generalizing m with
  | nil => rfl
  | cons e es ih =>
    rw [List.foldl_cons, ih, lastValue, Option.or_assoc]
    congr 1
    by_cases hk : f e.1 = k
    · rw [← hk, AList.lookup_insert]
      simp
    · rw [AList.lookup_insert_ne (Ne.symm hk)]
      simp [hk]

/-- Of the entries whose keys become equal, `transform_keys` keeps the last. -/
theorem lookup_transformKeys (f : Value ω → String) (es : Entries ω) (k : String) :
    (transformKeys f es).lookup k = lastValue (fun v => f v == k) es := by
  rw [transformKeys, lookup_foldl_insert, AList.lookup_empty, Option.or_none]

section Symbols

variable [Methods ω]

/-- The value given under the Symbol or the String `name`: the last one, if there are several. -/
def given (es : Entries ω) (name : String) : Option (Value ω) :=
  lastValue (fun v => v.toSym? == some name) es

/-- Add an entry under the Symbol of its key. -/
def insertToSym (m : AssocMap String (Value ω)) (e : Value ω × Value ω) :
    Except Exception (AssocMap String (Value ω)) :=
  match e.1.toSym? with
  | some name => .ok (m.insert name e.2)
  | none => .error (.noMethodError "to_sym")

/-- `hash.transform_keys(&:to_sym)`. -/
def transformKeysToSym (es : Entries ω) : Except Exception (AssocMap String (Value ω)) :=
  es.foldlM insertToSym ∅

/-- So they do where a key may be refused. -/
theorem lookup_foldlM_insertToSym {es : Entries ω} {m m' : AssocMap String (Value ω)}
    (h : es.foldlM insertToSym m = .ok m') (k : String) :
    m'.lookup k = (given es k).or (m.lookup k) := by
  induction es generalizing m with
  | nil =>
    obtain rfl : m = m' := Except.ok.inj h
    rfl
  | cons e es ih =>
    rw [List.foldlM_cons, insertToSym] at h
    cases hname : e.1.toSym? with
    | none => rw [hname] at h; cases h
    | some name =>
      rw [hname] at h
      rw [ih h, given, given, lastValue, Option.or_assoc]
      congr 1
      by_cases hk : name = k
      · rw [← hk, AList.lookup_insert]
        simp [hname]
      · rw [AList.lookup_insert_ne (Ne.symm hk)]
        simp [hname, hk]

/-- With its keys as Symbols, a Hash gives what was given under a name. -/
theorem lookup_transformKeysToSym {es : Entries ω} {m : AssocMap String (Value ω)}
    (h : transformKeysToSym es = .ok m) (k : String) : m.lookup k = given es k := by
  rw [lookup_foldlM_insertToSym h k, AList.lookup_empty, Option.or_none]

end Symbols

/-- `Hash#merge`. -/
def merge (m m' : AssocMap String (Value ω)) : AssocMap String (Value ω) := m' ∪ m

/-- `merge` prefers the entries of its argument. -/
@[simp] theorem lookup_merge (m m' : AssocMap String (Value ω)) (k : String) :
    (merge m m').lookup k = (m'.lookup k).or (m.lookup k) := by
  rw [merge]
  by_cases hk : k ∈ m'
  · obtain ⟨v, hv⟩ := Option.isSome_iff_exists.mp (AList.lookup_isSome.mpr hk)
    rw [AList.lookup_union_left hk, hv, Option.some_or]
  · rw [AList.lookup_union_right hk, AList.lookup_eq_none.mpr hk, Option.none_or]

/-- `Hash#[]`. -/
def index (m : AssocMap String (Value ω)) (k : String) : Value ω := (m.lookup k).getD .nil

/-- A key that is there has a value. -/
theorem lookup_eq_some_index {m : AssocMap String (Value ω)} {k : String} (h : k ∈ m) :
    m.lookup k = some (index m k) := by
  obtain ⟨v, hv⟩ := Option.isSome_iff_exists.mp (AList.lookup_isSome.mpr h)
  rw [index, hv, Option.getD_some]

/-- Set a key unless the value is absent: `h[k] = v if …`. -/
def insertSome (m : AssocMap String (Value ω)) (k : String) (v : Option (Value ω)) :
    AssocMap String (Value ω) :=
  match v with
  | some v => m.insert k v
  | none => m

/-- A value that is left out does not overwrite. -/
@[simp] theorem lookup_insertSome_self (m : AssocMap String (Value ω)) (k : String)
    (v : Option (Value ω)) : (insertSome m k v).lookup k = v.or (m.lookup k) := by
  cases v with
  | none => rw [insertSome, Option.none_or]
  | some v => rw [insertSome, AList.lookup_insert, Option.some_or]

/-- An insertion leaves the other keys alone. -/
theorem lookup_insertSome_ne (m : AssocMap String (Value ω)) {k k' : String} (hk : k' ≠ k)
    (v : Option (Value ω)) : (insertSome m k v).lookup k' = m.lookup k' := by
  cases v with
  | none => rfl
  | some v => exact AList.lookup_insert_ne hk

/-- A value that may be left out adds its key if it is there. -/
theorem adds_insertSome (m : AssocMap String (Value ω)) (k : String) (v : Option (Value ω)) :
    AList.Adds (AList.atKey k v) m (insertSome m k v) := by
  cases v with
  | none =>
    intro k'
    simp [insertSome, AList.atKey]
  | some v => exact AList.adds_insert m k v

/-- The entries of a Hash with String keys. -/
def strEntries (m : AssocMap String (Value ω)) : Entries ω := m.entries.map fun e => (.str e.1, e.2)

/-- A Hash with String keys, as a value. -/
def strHash (m : AssocMap String (Value ω)) : Value ω := .hash (strEntries m)

section Strings

variable [Methods ω]

/-- The last value whose key prints as `key`. -/
def last (es : Entries ω) (key : String) : Option (Value ω) :=
  lastValue (fun v => v.toS == key) es

/-- With its keys as Strings, a Hash gives the last of the entries under a name. -/
theorem lookup_transformKeys_toS (es : Entries ω) (key : String) :
    (transformKeys Value.toS es).lookup key = last es key :=
  lookup_transformKeys Value.toS es key

/-- A Hash with String keys holds one value for a key. -/
@[simp] theorem last_strEntries (m : AssocMap String (Value ω)) (key : String) :
    last (strEntries m) key = m.lookup key := by
  obtain ⟨entries, hnodup⟩ := m
  change lastValue _ (entries.map _) = entries.dlookup key
  induction entries with
  | nil => rfl
  | cons e es ih =>
    obtain ⟨k, v⟩ := e
    have htail := ih (List.nodupKeys_of_nodupKeys_cons hnodup)
    rw [List.map_cons, lastValue, htail]
    by_cases hk : k = key
    · subst hk
      have hnone : List.dlookup k es = none :=
        List.dlookup_eq_none.mpr (List.notMem_keys_of_nodupKeys_cons hnodup)
      rw [List.dlookup_cons_eq, hnone, Option.none_or, Value.toS_str, beq_self_eq_true, if_pos rfl]
    · rw [List.dlookup_cons_ne _ _ (Ne.symm hk), Value.toS_str, if_neg (by simpa using hk),
        Option.or_none]

/-- `v.to_s if v`. -/
def strIf (v : Value ω) : Option (Value ω) := if v.truthy then some (.str v.toS) else none

/-- The text of a value, where it is given. -/
def textIf (v : Value ω) : Option String := if v.truthy then some v.toS else none

/-- A text that may be left out, as a value. -/
theorem strIf_eq_map_textIf (v : Value ω) : strIf v = (textIf v).map .str := by
  unfold strIf textIf
  split <;> rfl

/-- `v.to_s unless v.nil?`. -/
def strUnlessNil (v : Value ω) : Option (Value ω) := if v.isNil then none else some (.str v.toS)

/-- The Strings as an Array, unless there are none. -/
def strsUnlessEmpty (ss : List String) : Option (Value ω) :=
  if ss.isEmpty then none else some (.arr (ss.map .str))

end Strings

end Ruby
