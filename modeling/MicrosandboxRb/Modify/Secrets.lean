import Mathlib.Data.String.Basic
import MicrosandboxRb.Error
import MicrosandboxRb.Lib.ExceptList
import MicrosandboxRb.Lib.RustStr
import MicrosandboxRb.Lib.SortBy
import MicrosandboxRb.Options

/-!
# Secrets of a modification

The `secrets:` option of `modify`, a Hash of `name => spec`: the normalization to an array of specs
sorted by name (`sandbox.rb`), and the native parser of that array (`sandbox.rs`).

## Main definitions

* `normalizeModifySecret`, `normalizeModifySecrets`: the normalization;
* `parseModifySecrets`: the native parser;
* `ModifySecret`: a spec with at most one source.

## Main results

* `modify_secrets_canonical`: the order of the entries does not matter, and the array that is
  returned names every secret once and is read back spec by spec.
-/

namespace MicrosandboxRb.Modify

open Ruby Conv

variable {ω : Type}

/-! ## The Ruby layer -/

section Normalize

variable [Methods ω]

/-- The sources of a secret, with their keys. -/
def sources (spec : Entries ω) : List (String × Value ω) :=
  [("env", fetchOpt spec "env"), ("value", fetchOpt spec "value"),
    ("store", fetchOpt spec "store")]

/-- The sources that are not `nil`. -/
def present (spec : Entries ω) : List (String × Value ω) :=
  (sources spec).filter fun e => !e.2.isNil

/-- `String#inspect`, as `inspect` of the value. -/
def inspectStr (ω : Type) [Methods ω] (s : String) : String := (Value.str s : Value ω).inspect

/-- `normalize_modify_secret`: one entry of `secrets:`, reduced to its wire form. -/
def normalizeModifySecret (name spec : Value ω) : Except Exception (Opts ω) := do
  -- `nil` stands for a Hash without entries
  let spec := if spec.truthy then spec else .hash []
  match spec with
  | .hash spec =>
    if 1 < (present spec).length then
      let keys := " and ".intercalate ((present spec).map fun e => inspectStr ω e.1)
      throw (.argumentError
        s!"secret {inspectStr ω name.toS}: {keys} are mutually exclusive; set at most one")
    let out : Opts ω := AList.insert "name" (.str name.toS) ∅
    let out := insertSome out "env" (strIf (fetchOpt spec "env"))
    let out := insertSome out "value" (strIf (fetchOpt spec "value"))
    let out := insertSome out "store" (strIf (fetchOpt spec "store"))
    let out := insertSome out "placeholder" (strIf (fetchOpt spec "placeholder"))
    let hosts := either spec "allowed_hosts"
    return if hosts.truthy then
      out.insert "allowed_hosts" (.arr ((hosts.array.map Value.toS).map .str)) else out
  | _ =>
    throw (.argumentError (s!"secret {inspectStr ω name.toS}: spec must be a Hash " ++
      s!"(e.g. \x7b value: ... \x7d or \x7b env: ... \x7d), got {spec.className}"))

/-- `h["name"]`, which is a String. -/
def nameOf (h : Opts ω) : String := (index h "name").toS

/-- `normalize_modify_secrets`: every entry, in the order of their names. -/
def normalizeModifySecrets (secrets : Value ω) : Except Exception (List (Opts ω)) :=
  match secrets with
  | .hash entries => do
    let specs ← entries.mapM fun e => normalizeModifySecret e.1 e.2
    let out := specs.sortBy nameOf
    -- the first group of `group_by` with a second member
    match out.find? fun h => 1 < (out.map nameOf).count (nameOf h) with
    | some dup =>
      throw (.argumentError (s!"secrets: duplicate entries for {inspectStr ω (nameOf dup)} " ++
        "(a Symbol and a String key stringify to the same name)"))
    | none => return out
  | _ => throw (.argumentError
      s!"secrets: must be a Hash of \x7b name => spec \x7d (got {secrets.className})")

end Normalize

/-! ## The native layer -/

/-- Where the native side finds the value of a secret. -/
inductive SecretSource where
  | env (var : String)
  | store (reference : String)
deriving DecidableEq, Repr

/-- The change of one secret, as the core receives it. -/
structure SecretModificationPatch where
  name : String
  source : Option SecretSource
  value : String
  placeholder : Option String
  allowedHosts : List String
deriving DecidableEq, Repr

/-- One iteration of the loop of `parse_modify_secrets`. -/
def parseModifySecret (h : RHash ω) : Except Exception SecretModificationPatch := do
  let name ←
    match ← optString h "name" with
    | some name => .ok name
    | none => .error (baseError "secret modification spec requires :name")
  let env ← optString h "env"
  let store ← optString h "store"
  let value ← optString h "value"
  let source ←
    match env, store with
    | some var, none => .ok (some (.env var))
    | none, some reference => .ok (some (.store reference))
    | none, none => .ok none
    | some _, some _ => .error (baseError
        s!"secret {RustStr.debug name}: \"env\" and \"store\" are mutually exclusive")
  return {
    name
    source
    value := value.getD ""
    placeholder := ← optString h "placeholder"
    allowedHosts := ← optStringVec h "allowed_hosts" }

/-- `parse_modify_secrets`, in the order of the list. -/
def parseModifySecrets (opts : RHash ω) : Except Exception (List SecretModificationPatch) := do
  (← optHashVec opts "secrets").mapM parseModifySecret

/-! ## Specs with at most one source -/

/-- A secret as its spec describes it, with at most one source. -/
structure ModifySecret where
  name : String
  env : Option String
  value : Option String
  store : Option String
  placeholder : Option String
  allowedHosts : Option (List String)
  exclusive : env.isSome.toNat + value.isSome.toNat + store.isSome.toNat ≤ 1

namespace ModifySecret

/-- The Hash that stands for a secret on the wire. -/
def wire (s : ModifySecret) : Opts ω :=
  let out : Opts ω := AList.insert "name" (.str s.name) ∅
  let out := insertSome out "env" (s.env.map .str)
  let out := insertSome out "value" (s.value.map .str)
  let out := insertSome out "store" (s.store.map .str)
  let out := insertSome out "placeholder" (s.placeholder.map .str)
  insertSome out "allowed_hosts" (s.allowedHosts.map fun hosts => .arr (hosts.map .str))

/-- The source of a secret, other than a raw value. -/
def source (s : ModifySecret) : Option SecretSource :=
  (s.env.map .env).or (s.store.map .store)

/-- What the core is told about a secret. -/
def patch (s : ModifySecret) : SecretModificationPatch where
  name := s.name
  source := s.source
  value := s.value.getD ""
  placeholder := s.placeholder
  allowedHosts := s.allowedHosts.getD []

/-- A specification has at most one place for its value. -/
theorem source_eq_none_or_value_eq_none (s : ModifySecret) : s.source = none ∨ s.value = none := by
  obtain ⟨name, env, value, store, placeholder, allowedHosts, exclusive⟩ := s
  cases value with
  | none => exact Or.inr rfl
  | some v =>
    left
    simp only [Option.isSome_some, Bool.toNat_true] at exclusive
    cases env with
    | some var =>
      simp only [Option.isSome_some, Bool.toNat_true] at exclusive
      omega
    | none =>
      cases store with
      | some reference =>
        simp only [Option.isSome_some, Bool.toNat_true] at exclusive
        omega
      | none => rfl

/-- A source is a variable or a stored secret, not both. -/
theorem env_eq_none_or_store_eq_none (s : ModifySecret) : s.env = none ∨ s.store = none := by
  obtain ⟨name, env, value, store, placeholder, allowedHosts, exclusive⟩ := s
  cases env with
  | none => exact Or.inl rfl
  | some var =>
    cases store with
    | none => exact Or.inr rfl
    | some reference =>
      simp only [Option.isSome_some, Bool.toNat_true] at exclusive
      omega

section Lookup

variable (s : ModifySecret)

/-- The wire form holds the name. -/
theorem lookup_wire_name : (s.wire : Opts ω).lookup "name" = some (.str s.name) := by
  simp (disch := decide) [wire, lookup_insertSome_ne, AList.lookup_singleton]

/-- A variable is under `env`. -/
theorem lookup_wire_env : (s.wire : Opts ω).lookup "env" = s.env.map .str := by
  simp (disch := decide) [wire, lookup_insertSome_ne, AList.lookup_singleton]

/-- A value is under `value`. -/
theorem lookup_wire_value : (s.wire : Opts ω).lookup "value" = s.value.map .str := by
  simp (disch := decide) [wire, lookup_insertSome_ne, AList.lookup_singleton]

/-- A stored secret is under `store`. -/
theorem lookup_wire_store : (s.wire : Opts ω).lookup "store" = s.store.map .str := by
  simp (disch := decide) [wire, lookup_insertSome_ne, AList.lookup_singleton]

/-- The placeholder has a key of its own. -/
theorem lookup_wire_placeholder :
    (s.wire : Opts ω).lookup "placeholder" = s.placeholder.map .str := by
  simp (disch := decide) [wire, lookup_insertSome_ne, AList.lookup_singleton]

/-- The allowed hosts are a list of Strings. -/
theorem lookup_wire_allowedHosts :
    (s.wire : Opts ω).lookup "allowed_hosts" =
      s.allowedHosts.map fun hosts => .arr (hosts.map .str) := by
  simp (disch := decide) [wire, lookup_insertSome_ne, AList.lookup_singleton]

/-- The native parser reads a secret back. -/
theorem parseModifySecret_wire :
    parseModifySecret (strEntries (s.wire : Opts ω)) = .ok s.patch := by
  have hname := optString_map_str (s := some s.name) (s.lookup_wire_name (ω := ω))
  have henv := optString_map_str (s.lookup_wire_env (ω := ω))
  have hstore := optString_map_str (s.lookup_wire_store (ω := ω))
  have hvalue := optString_map_str (s.lookup_wire_value (ω := ω))
  have hplaceholder := optString_map_str (s.lookup_wire_placeholder (ω := ω))
  have hhosts : optStringVec (strEntries (s.wire : Opts ω)) "allowed_hosts" =
      .ok (s.allowedHosts.getD []) := by
    have hlookup := s.lookup_wire_allowedHosts (ω := ω)
    cases hs : s.allowedHosts with
    | none =>
      rw [hs] at hlookup
      exact optStringVec_eq_nil hlookup
    | some hosts =>
      rw [hs] at hlookup
      exact optStringVec_map_str hlookup
  unfold parseModifySecret patch source
  rw [hname, henv, hstore, hvalue, hplaceholder, hhosts]
  -- a secret has at most one of the two sources
  rcases s.env_eq_none_or_store_eq_none with h | h
  · rw [h]
    cases s.store with
    | none => rfl
    | some reference => rfl
  · rw [h]
    cases s.env with
    | none => rfl
    | some var => rfl

end Lookup

end ModifySecret

/-! ## The normalization of a spec -/

section Spec

variable [Methods ω]

/-- A text was given where it is written. -/
theorem isSome_textIf_le (v : Value ω) : (textIf v).isSome.toNat ≤ (!v.isNil).toNat := by
  cases v with
  | nil => exact le_rfl
  | _ => exact Bool.toNat_le _

omit [Methods ω] in
/-- The settings present, counted one by one. -/
theorem length_present (spec : Entries ω) :
    (present spec).length = (!(fetchOpt spec "env").isNil).toNat +
      (!(fetchOpt spec "value").isNil).toNat + (!(fetchOpt spec "store").isNil).toNat := by
  rw [present, ← List.countP_eq_length_filter, sources]
  have hone (b : Bool) : (if b = true then 1 else 0) = b.toNat := by
    cases b with
    | false => rfl
    | true => rfl
  simp only [List.countP_cons, List.countP_nil, hone]
  omega

/-- The settings that a spec stands for. No spec at all stands for none. -/
def settings? (spec : Value ω) : Option (Entries ω) :=
  match spec with
  | .nil | .bool false => some []
  | .hash spec => some spec
  | _ => none

/-- The secret that an accepted spec describes. -/
def ModifySecret.ofSpec (name : Value ω) (spec : Entries ω) (h : (present spec).length ≤ 1) :
    ModifySecret where
  name := name.toS
  env := textIf (fetchOpt spec "env")
  value := textIf (fetchOpt spec "value")
  store := textIf (fetchOpt spec "store")
  placeholder := textIf (fetchOpt spec "placeholder")
  allowedHosts :=
    let hosts := either spec "allowed_hosts"
    if hosts.truthy then some (hosts.array.map Value.toS) else none
  exclusive := by
    rw [length_present] at h
    have henv := isSome_textIf_le (fetchOpt spec "env")
    have hvalue := isSome_textIf_le (fetchOpt spec "value")
    have hstore := isSome_textIf_le (fetchOpt spec "store")
    omega

/-- A Hash with at most one source is normalized to its wire form. -/
theorem normalizeModifySecret_hash (name : Value ω) {spec : Entries ω}
    (h : (present spec).length ≤ 1) :
    normalizeModifySecret name (.hash spec) = .ok (ModifySecret.ofSpec name spec h).wire := by
  have htruthy : (Value.hash spec).truthy = true := rfl
  unfold normalizeModifySecret ModifySecret.wire ModifySecret.ofSpec
  simp only [htruthy, if_true, if_neg (Nat.not_lt.mpr h), strIf_eq_map_textIf]
  by_cases hhosts : (either spec "allowed_hosts").truthy = true
  · rw [if_pos hhosts, if_pos hhosts]
    rfl
  · rw [if_neg hhosts, if_neg hhosts]
    rfl

/-- Whether a spec is a Hash, or none at all, with at most one source. -/
def Accepted (spec : Value ω) : Prop :=
  ∃ settings, settings? spec = some settings ∧ (present settings).length ≤ 1

/-- A secret that is described by the entry of a Hash. -/
def Describes (e : Value ω × Value ω) (s : ModifySecret) : Prop :=
  ∃ settings, settings? e.2 = some settings ∧
    ∃ h, s = ModifySecret.ofSpec e.1 settings h

/-- A specification is read as the Hash of its settings. -/
theorem normalizeModifySecret_eq {name spec : Value ω} {settings : Entries ω}
    (hsettings : settings? spec = some settings) :
    normalizeModifySecret name spec = normalizeModifySecret name (.hash settings) := by
  unfold settings? at hsettings
  split at hsettings
  · obtain rfl := Option.some.inj hsettings
    rfl
  · obtain rfl := Option.some.inj hsettings
    rfl
  · obtain rfl := Option.some.inj hsettings
    rfl
  · cases hsettings

/-- Every error is an `ArgumentError`, and stands for a spec that is not accepted. -/
theorem normalizeModifySecret_of_accepted {e : Value ω × Value ω} (h : Accepted e.2) :
    ∃ s : ModifySecret, Describes e s ∧ normalizeModifySecret e.1 e.2 = .ok s.wire := by
  obtain ⟨settings, hsettings, hpresent⟩ := h
  refine ⟨ModifySecret.ofSpec e.1 settings hpresent, ⟨settings, hsettings, hpresent, rfl⟩, ?_⟩
  rw [normalizeModifySecret_eq hsettings, normalizeModifySecret_hash]

/-- A specification that is not accepted raises `ArgumentError`. -/
theorem raises_normalizeModifySecret {name spec : Value ω} (h : ¬Accepted spec) :
    RaisesArgumentError (normalizeModifySecret name spec) := by
  cases hsettings : settings? spec with
  | none =>
    -- a spec that is no Hash is not `nil` or `false` either, which stand for an empty one
    have htruthy : spec.truthy = true := by
      unfold settings? at hsettings
      split at hsettings
      · cases hsettings
      · cases hsettings
      · cases hsettings
      · rename_i hnil hfalse _
        cases spec with
        | nil => exact absurd rfl hnil
        | bool b =>
          cases b with
          | false => exact absurd rfl hfalse
          | true => rfl
        | _ => rfl
    unfold normalizeModifySecret
    simp only [htruthy, if_true]
    split
    · cases hsettings
    · exact ⟨_, rfl⟩
  | some settings =>
    rw [normalizeModifySecret_eq hsettings]
    -- a Hash is refused for naming more than one of the three
    have hlen : 1 < (present settings).length := by
      by_contra hle
      exact h ⟨settings, hsettings, Nat.not_lt.mp hle⟩
    have htruthy : (Value.hash settings).truthy = true := rfl
    unfold normalizeModifySecret
    simp only [htruthy, if_true, if_pos hlen]
    exact ⟨_, rfl⟩

/-! ## The order of the entries -/

/-- What makes a Hash of secrets malformed or ambiguous. -/
def Rejected (entries : Entries ω) : Prop :=
  (∃ e ∈ entries, settings? e.2 = none) ∨
    (∃ e ∈ entries, ∃ settings, settings? e.2 = some settings ∧ 1 < (present settings).length) ∨
    ¬(entries.map fun e => e.1.toS).Nodup

omit [Methods ω] in
/-- It is no Hash, or names several sources. -/
theorem not_accepted_iff {spec : Value ω} :
    ¬Accepted spec ↔ settings? spec = none ∨
      ∃ settings, settings? spec = some settings ∧ 1 < (present settings).length := by
  unfold Accepted
  cases settings? spec with
  | none => simp
  | some settings => simp

/-- A list is rejected for one of its entries or for a repeated name. -/
theorem rejected_iff {entries : Entries ω} :
    Rejected entries ↔
      (∃ e ∈ entries, ¬Accepted e.2) ∨ ¬(entries.map fun e => e.1.toS).Nodup := by
  simp only [Rejected, not_accepted_iff, and_or_left, exists_or, or_assoc]

/-- The order does not matter for that. -/
theorem rejected_perm {entries entries' : Entries ω} (hperm : entries.Perm entries') :
    Rejected entries ↔ Rejected entries' := by
  rw [rejected_iff, rejected_iff, (hperm.map _).nodup_iff]
  simp only [hperm.mem_iff]

/-- The name read from a wire form. -/
theorem nameOf_wire (s : ModifySecret) : nameOf (s.wire : Opts ω) = s.name := by
  rw [nameOf, index, s.lookup_wire_name]
  rfl

/-- A secret is named by the key of its entry. -/
theorem Describes.name_eq {e : Value ω × Value ω} {s : ModifySecret} (h : Describes e s) :
    s.name = e.1.toS := by
  obtain ⟨settings, -, hpresent, rfl⟩ := h
  rfl

/-- An entry describes one secret only. -/
theorem describes_rightUnique : Relator.RightUnique (Describes (ω := ω)) := by
  rintro e s s' ⟨settings, hsettings, hpresent, rfl⟩ ⟨settings', hsettings', hpresent', rfl⟩
  obtain rfl := Option.some.inj (hsettings.symm.trans hsettings')
  rfl

/-- The names are the keys, one by one. -/
theorem map_name_of_describes {entries : Entries ω} {specs : List ModifySecret}
    (h : List.Forall₂ Describes entries specs) :
    specs.map ModifySecret.name = entries.map fun e => e.1.toS := by
  induction h with
  | nil => rfl
  | cons hd _ ih => rw [List.map_cons, List.map_cons, hd.name_eq, ih]

/-- And the names of the wire forms. -/
theorem map_nameOf_wire (specs : List ModifySecret) :
    (specs.map (ModifySecret.wire (ω := ω))).map nameOf = specs.map ModifySecret.name := by
  rw [List.map_map]
  exact List.map_congr_left fun s _ => nameOf_wire s

/-- The specs of a Hash without a malformed one. -/
theorem exists_specs {entries : Entries ω} (h : ∀ e ∈ entries, Accepted e.2) :
    ∃ specs : List ModifySecret, List.Forall₂ Describes entries specs ∧
      entries.mapM (fun e => normalizeModifySecret e.1 e.2) = .ok (specs.map ModifySecret.wire) := by
  induction entries with
  | nil => exact ⟨[], .nil, rfl⟩
  | cons e entries ih =>
    obtain ⟨s, hs, hwire⟩ := normalizeModifySecret_of_accepted (h e List.mem_cons_self)
    obtain ⟨specs, hspecs, hmapM⟩ := ih fun e' he' => h e' (List.mem_cons_of_mem e he')
    refine ⟨s :: specs, .cons hs hspecs, ?_⟩
    rw [List.mapM_cons, hwire, hmapM]
    rfl

/-- The search for two entries of one name. -/
theorem find?_dup_eq_none_iff {out : List (Opts ω)} :
    (out.find? fun h => 1 < (out.map nameOf).count (nameOf h)) = none ↔ (out.map nameOf).Nodup := by
  rw [List.find?_eq_none, List.nodup_iff_count_le_one]
  constructor
  · intro h name
    by_cases hmem : name ∈ out.map nameOf
    · obtain ⟨x, hx, rfl⟩ := List.mem_map.mp hmem
      exact Nat.not_lt.mp fun hlt => h x hx (decide_eq_true hlt)
    · rw [List.count_eq_zero_of_not_mem hmem]
      exact Nat.zero_le _
  · intro h x _ hlt
    exact absurd (of_decide_eq_true hlt) (Nat.not_lt.mpr (h _))

/-- The array of accepted specs with distinct names. -/
theorem normalizeModifySecrets_of_nodup {entries : Entries ω} {outs : List (Opts ω)}
    (hmapM : entries.mapM (fun e => normalizeModifySecret e.1 e.2) = .ok outs)
    (hnodup : (outs.map nameOf).Nodup) :
    normalizeModifySecrets (.hash entries) = .ok (outs.sortBy nameOf) := by
  have hfind := find?_dup_eq_none_iff.mpr (List.nodup_map_sortBy.mpr hnodup)
  rw [normalizeModifySecrets, hmapM, Except.ok_bind]
  dsimp only
  rw [hfind]
  rfl

/-- A list with such an entry raises `ArgumentError`. -/
theorem raises_normalizeModifySecrets {entries : Entries ω} (h : Rejected entries) :
    RaisesArgumentError (normalizeModifySecrets (.hash entries)) := by
  rw [normalizeModifySecrets]
  cases hmapM : entries.mapM (fun e => normalizeModifySecret e.1 e.2) with
  | error err =>
    -- the first spec that raises decides the message
    obtain ⟨e, -, herr⟩ := Except.exists_of_mapM_eq_error hmapM
    have hraises : RaisesArgumentError (normalizeModifySecret e.1 e.2) := by
      apply raises_normalizeModifySecret
      intro haccepted
      obtain ⟨s, -, hok⟩ := normalizeModifySecret_of_accepted haccepted
      rw [hok] at herr
      cases herr
    obtain ⟨message, hmessage⟩ := hraises
    rw [hmessage] at herr
    exact ⟨message, congrArg Except.error (Except.error.inj herr).symm⟩
  | ok outs =>
    -- all specs are accepted, so two of them share a name
    have haccepted : ∀ e ∈ entries, Accepted e.2 := by
      intro e he
      by_contra hnot
      obtain ⟨message, hmessage⟩ : RaisesArgumentError (normalizeModifySecret e.1 e.2) :=
        raises_normalizeModifySecret hnot
      obtain ⟨out, -, hout⟩ := Except.exists_of_mapM_eq_ok hmapM he
      rw [hmessage] at hout
      cases hout
    obtain ⟨specs, hspecs, hwires⟩ := exists_specs haccepted
    obtain rfl : specs.map ModifySecret.wire = outs :=
      Except.ok.inj (hwires.symm.trans hmapM)
    have hdup : ¬((specs.map ModifySecret.wire).map (nameOf (ω := ω))).Nodup := by
      rw [map_nameOf_wire, map_name_of_describes hspecs]
      rcases rejected_iff.mp h with ⟨e, he, hnot⟩ | hdup
      · exact absurd (haccepted e he) hnot
      · exact hdup
    rw [Except.ok_bind]
    dsimp only
    split
    · exact ⟨_, rfl⟩
    · rename_i hfind
      exact absurd (List.nodup_map_sortBy.mp (find?_dup_eq_none_iff.mp hfind)) hdup

/-- The array of a Hash that is not rejected. -/
theorem exists_normalizeModifySecrets {entries : Entries ω} (h : ¬Rejected entries) :
    ∃ specs : List ModifySecret, List.Forall₂ Describes entries specs ∧
      (specs.map ModifySecret.name).Nodup ∧
      normalizeModifySecrets (.hash entries) =
        .ok ((specs.sortBy ModifySecret.name).map ModifySecret.wire) := by
  rw [rejected_iff, not_or, not_not] at h
  obtain ⟨haccepted, hnames⟩ := h
  push Not at haccepted
  obtain ⟨specs, hspecs, hmapM⟩ := exists_specs haccepted
  have hnodup : (specs.map ModifySecret.name).Nodup := by rwa [map_name_of_describes hspecs]
  refine ⟨specs, hspecs, hnodup, ?_⟩
  rw [← List.sortBy_map nameOf_wire]
  apply normalizeModifySecrets_of_nodup hmapM
  rwa [map_nameOf_wire]

omit [Methods ω] in
/-- The array of secrets is read back secret by secret. -/
theorem parseModifySecrets_map_wire {opts : Opts ω} {secrets : List ModifySecret}
    (h : opts.lookup "secrets" = some (.arr ((secrets.map ModifySecret.wire).map strHash))) :
    parseModifySecrets (strEntries opts) = .ok (secrets.map ModifySecret.patch) := by
  rw [parseModifySecrets, optHashVec_map_strHash h, Except.ok_bind, Except.mapM_eq_ok_iff]
  simp only [List.forall₂_map_left_iff, List.forall₂_map_right_iff, List.forall₂_same]
  exact fun s _ => s.parseModifySecret_wire

/-- The entries of a Hash, in two orders, are rejected in both or normalized to one array. Its
secrets have increasing names, each describes one entry, and none has two sources when it reaches
the core. -/
theorem modify_secrets_canonical {entries entries' : Entries ω} (hperm : entries.Perm entries') :
    (Rejected entries ∧ RaisesArgumentError (normalizeModifySecrets (.hash entries)) ∧
      RaisesArgumentError (normalizeModifySecrets (.hash entries'))) ∨
    (¬Rejected entries ∧ ∃ secrets : List ModifySecret,
      normalizeModifySecrets (.hash entries) = .ok (secrets.map ModifySecret.wire) ∧
      normalizeModifySecrets (.hash entries') = .ok (secrets.map ModifySecret.wire) ∧
      secrets.length = entries.length ∧
      secrets.Pairwise (fun s s' => s.name < s'.name) ∧
      (∃ specs, List.Forall₂ Describes entries specs ∧ secrets.Perm specs) ∧
      (∀ s ∈ secrets, s.patch.source = none ∨ s.patch.value = "") ∧
      ∀ opts : Opts ω,
        opts.lookup "secrets" = some (.arr ((secrets.map ModifySecret.wire).map strHash)) →
        parseModifySecrets (strEntries opts) = .ok (secrets.map ModifySecret.patch)) := by
  by_cases h : Rejected entries
  · exact Or.inl ⟨h, raises_normalizeModifySecrets h,
      raises_normalizeModifySecrets ((rejected_perm hperm).mp h)⟩
  right
  obtain ⟨specs, hspecs, hnodup, heq⟩ := exists_normalizeModifySecrets h
  obtain ⟨specs', hspecs', -, heq'⟩ :=
    exists_normalizeModifySecrets (mt (rejected_perm hperm).mpr h)
  -- the specs of the permuted list are the permuted specs
  obtain ⟨specs'', hspecs'', hspecsPerm⟩ := List.perm_comp_forall₂ hperm.symm hspecs
  obtain rfl : specs'' = specs' := List.right_unique_forall₂' describes_rightUnique hspecs'' hspecs'
  -- without repeated names, sorting forgets the order
  have hsame := List.sortBy_eq_of_perm hnodup hspecsPerm.symm
  have hsorted := List.sortBy_perm ModifySecret.name specs
  refine ⟨h, specs.sortBy ModifySecret.name, heq, ?_, ?_, List.pairwise_lt_sortBy hnodup,
    ⟨specs, hspecs, hsorted⟩, ?_, fun opts => parseModifySecrets_map_wire⟩
  · rw [heq', ← hsame]
  · rw [hsorted.length_eq, hspecs.length_eq]
  · intro s _
    rcases s.source_eq_none_or_value_eq_none with hsource | hvalue
    · exact Or.inl hsource
    · right
      rw [ModifySecret.patch, hvalue]
      rfl

end Spec

/-- A Symbol and a String key in either order, one of them without a spec. -/
theorem modify_secrets_canonical_two :
    ∃ secrets : List ModifySecret,
      normalizeModifySecrets (ω := Unit)
          (.hash [(.sym "TOKEN", .hash [(.sym "value", .str "t")]), (.str "API_KEY", .nil)]) =
        .ok (secrets.map ModifySecret.wire) ∧
      normalizeModifySecrets (ω := Unit)
          (.hash [(.str "API_KEY", .nil), (.sym "TOKEN", .hash [(.sym "value", .str "t")])]) =
        .ok (secrets.map ModifySecret.wire) ∧
      secrets.length = 2 := by
  have hnot : ¬Rejected (ω := Unit)
      [(.sym "TOKEN", .hash [(.sym "value", .str "t")]), (.str "API_KEY", .nil)] := by
    rw [rejected_iff]
    rintro (⟨e, he, hnot⟩ | hdup)
    · simp only [List.mem_cons, List.not_mem_nil, or_false] at he
      rcases he with rfl | rfl
      · exact hnot ⟨_, rfl, by decide⟩
      · exact hnot ⟨_, rfl, by decide⟩
    · exact hdup (by decide)
  rcases modify_secrets_canonical (ω := Unit) (List.Perm.swap (.str "API_KEY", .nil)
    (.sym "TOKEN", .hash [(.sym "value", .str "t")]) []) with
    ⟨h, -⟩ | ⟨-, secrets, heq, heq', hlength, -⟩
  · exact absurd h hnot
  · exact ⟨secrets, heq, heq', hlength⟩

end MicrosandboxRb.Modify
