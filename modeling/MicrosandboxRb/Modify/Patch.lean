import Mathlib.Data.Prod.Lex
import MicrosandboxRb.Create.Arrival

/-!
# What a modification asks for

The keyword arguments of `modify`, through `build_modify_opts` (`sandbox.rb`) and `run_modify`
(`sandbox.rs`), to the patch that the core is given.

## Main definitions

* `runModify`: the native layer, up to the call of the core;
* `AsAsked`: a call of the core that has in it what the keyword arguments say.

## Main results

* `modify_told_as_asked`: an accepted modification reaches the core as it was asked for, unless a
  number in it does not fit.
-/

namespace MicrosandboxRb.Modify

open Ruby Conv Create Writers AList

variable {ω : Type}

/-! ## The native layer -/

/-- What a modification changes. -/
structure SandboxModificationPatch where
  cpus : Option UInt8
  maxCpus : Option UInt8
  memoryMib : Option UInt32
  maxMemoryMib : Option UInt32
  rootDiskSizeMib : Option UInt32
  env : List (String × String)
  envRemove : List String
  labels : List (String × String)
  labelsRemove : List String
  workdir : Option String
  secrets : List SecretModificationPatch
  secretsRemove : List String
deriving DecidableEq, Repr

/-- When a modification takes effect. -/
inductive Policy where
  | noRestart
  | nextStart
  | restart
deriving DecidableEq, Repr

/-- The Symbol or String a caller names the policy by. -/
def Policy.name : Policy → String
  | .noRestart => "no_restart"
  | .nextStart => "next_start"
  | .restart => "restart"

/-- What the core is asked for: a plan, or to carry it out. -/
structure ModifyCall where
  patch : SandboxModificationPatch
  policy : Policy
  dryRun : Bool
deriving DecidableEq, Repr

/-- `Vec<(String, String)>::sort`. -/
def sortPairs (pairs : List (String × String)) : List (String × String) := pairs.sortBy toLex

section Native

variable [Numeric ω]

/-- The patch, with the pairs in an order that does not depend on the Hash. -/
def buildModifyPatch (opts : RHash ω) : Except Exception SandboxModificationPatch := do
  let env ← optStringMap opts "env"
  let labels ← optStringMap opts "labels"
  return {
    cpus := ← optU8 opts "cpus"
    maxCpus := ← optU8 opts "max_cpus"
    memoryMib := ← optU32 opts "memory"
    maxMemoryMib := ← optU32 opts "max_memory"
    rootDiskSizeMib := ← optU32 opts "root_disk_size"
    -- the source sorts the pairs, as a `HashMap` gives them in any order
    env := sortPairs env
    envRemove := ← optStringVec opts "remove_env"
    labels := sortPairs labels
    labelsRemove := ← optStringVec opts "remove_labels"
    workdir := ← optString opts "workdir"
    secrets := ← parseModifySecrets opts
    secretsRemove := ← optStringVec opts "remove_secrets" }

/-- `apply_modify_policy`, which names the policies it knows in its error. -/
def applyModifyPolicy (policy : String) : Except Exception Policy :=
  match policy with
  | "no_restart" => .ok .noRestart
  | "next_start" => .ok .nextStart
  | "restart" => .ok .restart
  | other => .error (baseError (s!"unknown policy {RustStr.debug other}; " ++
      "expected \"no_restart\", \"next_start\", or \"restart\""))

/-- `run_modify`, up to the call of the core. -/
def runModify (opts : RHash ω) : Except Exception ModifyCall := do
  let patch ← buildModifyPatch opts
  let policy ← optString opts "policy"
  let dryRun ← optBool opts "dry_run"
  let policy ← applyModifyPolicy (policy.getD "no_restart")
  return { patch, policy, dryRun }

/-- What the native layer has read when it calls the core. -/
structure ReadsAs (opts : RHash ω) (call : ModifyCall) : Prop where
  cpus : optU8 opts "cpus" = .ok call.patch.cpus
  maxCpus : optU8 opts "max_cpus" = .ok call.patch.maxCpus
  memory : optU32 opts "memory" = .ok call.patch.memoryMib
  maxMemory : optU32 opts "max_memory" = .ok call.patch.maxMemoryMib
  rootDiskSize : optU32 opts "root_disk_size" = .ok call.patch.rootDiskSizeMib
  env : ∃ pairs, optStringMap opts "env" = .ok pairs ∧ call.patch.env = sortPairs pairs
  removeEnv : optStringVec opts "remove_env" = .ok call.patch.envRemove
  labels : ∃ pairs, optStringMap opts "labels" = .ok pairs ∧ call.patch.labels = sortPairs pairs
  removeLabels : optStringVec opts "remove_labels" = .ok call.patch.labelsRemove
  workdir : optString opts "workdir" = .ok call.patch.workdir
  secrets : parseModifySecrets opts = .ok call.patch.secrets
  removeSecrets : optStringVec opts "remove_secrets" = .ok call.patch.secretsRemove
  policy : ∃ name, optString opts "policy" = .ok name ∧
    applyModifyPolicy (name.getD "no_restart") = .ok call.policy
  dryRun : optBool opts "dry_run" = .ok call.dryRun

end Native

/-! ## What is asked for -/

section Asked

variable [Methods ω]

/-- The integer that an argument gives. -/
def number [Numeric ω] (v : Value ω) : Option ℤ := if v.truthy then (integer v).toOption else none

/-- The texts that an argument gives. -/
def texts (v : Value ω) : List String := if v.truthy then v.array.map Value.toS else []

/-- The pairs that an argument gives. Of the keys that print alike the last one counts. -/
def Names [CallerObjects ω] (v : Value ω) (name value : String) : Prop :=
  v.truthy = true ∧ ∃ es, toH? v = some (.ok es) ∧ ∃ x, last es name = some x ∧ x.toS = value

/-- The pairs of an argument, by increasing names. -/
structure Lists [CallerObjects ω] (v : Value ω) (pairs : List (String × String)) : Prop where
  sorted : pairs.Pairwise fun p q => p.1 < q.1
  mem_iff (name value : String) : (name, value) ∈ pairs ↔ Names v name value

/-- The secrets of an argument, by increasing names, each as one entry describes it. -/
structure ListsSecrets (v : Value ω) (patches : List SecretModificationPatch) : Prop where
  sorted : patches.Pairwise fun p q => p.name < q.name
  described : (v.truthy = false ∧ patches = []) ∨
    ∃ entries specs, v = .hash entries ∧ List.Forall₂ Describes entries specs ∧
      patches.Perm (specs.map ModifySecret.patch)

/-- A call of the core that says what the keyword arguments say. -/
structure AsAsked [Numeric ω] [CallerObjects ω] (args : ModifyArgs ω) (call : ModifyCall) :
    Prop where
  cpus : call.patch.cpus.map (fun n => (n.toNat : ℤ)) = number args.cpus
  maxCpus : call.patch.maxCpus.map (fun n => (n.toNat : ℤ)) = number args.maxCpus
  memory : call.patch.memoryMib.map (fun n => (n.toNat : ℤ)) = number args.memory
  maxMemory : call.patch.maxMemoryMib.map (fun n => (n.toNat : ℤ)) = number args.maxMemory
  rootDiskSize :
    call.patch.rootDiskSizeMib.map (fun n => (n.toNat : ℤ)) = number args.rootDiskSize
  env : Lists args.env call.patch.env
  removeEnv : call.patch.envRemove = texts args.removeEnv
  labels : Lists args.labels call.patch.labels
  removeLabels : call.patch.labelsRemove = texts args.removeLabels
  workdir : call.patch.workdir = textIf args.workdir
  secrets : ListsSecrets args.secrets call.patch.secrets
  removeSecrets : call.patch.secretsRemove = texts args.removeSecrets
  policy : call.policy.name = if args.policy.isNil then "no_restart" else args.policy.toS
  dryRun : call.dryRun = args.dryRun.truthy

/-- A number, where one is given, has so many bits. -/
def Fits [Numeric ω] (bits : ℕ) (v : Value ω) : Prop := ∀ n ∈ number v, 0 ≤ n ∧ n < 2 ^ bits

/-- The numbers of a modification fit the fields of the patch. -/
structure NumbersFit [Numeric ω] (args : ModifyArgs ω) : Prop where
  cpus : Fits 8 args.cpus
  maxCpus : Fits 8 args.maxCpus
  memory : Fits 32 args.memory
  maxMemory : Fits 32 args.maxMemory
  rootDiskSize : Fits 32 args.rootDiskSize

end Asked

/-! ## Reading what was written -/

section Read

variable {writers : List (Writer Exception String (Value ω))} {m : Opts ω} {key : String}

/-- A key one line writes holds what that line computed. -/
theorem lookup_of_mem_putWriter (hnodup : (writers.flatMap Writer.keys).Nodup)
    (h : run writers ∅ = .ok m) {value : Except Exception (Option (Value ω))}
    (hmem : putWriter key value ∈ writers) : value = .ok (m.lookup key) := by
  obtain ⟨w, hw, hm⟩ := exists_alone_of_run hnodup h _ hmem
  obtain ⟨o, ho, rfl⟩ := Except.map_eq_ok_iff.mp hw
  rw [hm key (List.mem_singleton.mpr rfl), adds_insertSome ∅ key o key, atKey, if_pos rfl,
    AList.lookup_empty, Option.or_none]
  exact ho

/-- A flag is written as `true` or left out. -/
theorem lookup_of_mem_flagWriter (hnodup : (writers.flatMap Writer.keys).Nodup)
    (h : run writers ∅ = .ok m) {given : Bool} (hmem : flagWriter key given ∈ writers) :
    m.lookup key = if given then some (.bool true) else none := by
  obtain ⟨w, hw, hm⟩ := exists_alone_of_run hnodup h _ hmem
  obtain rfl := Except.ok.inj hw
  rw [hm key (List.mem_singleton.mpr rfl), adds_setFlag ∅ key given key, atKey, if_pos rfl,
    AList.lookup_empty, Option.or_none]

end Read

section Numbers

variable [Methods ω] [Numeric ω] {m : Opts ω} {key : String} {v : Value ω}

/-- An Integer option holds the number given. -/
theorem lookup_number (h : whenGiven v toInt = .ok (m.lookup key)) :
    m.lookup key = (number v).map .int := by
  unfold whenGiven at h
  unfold number
  split at h
  · next htruthy =>
    obtain ⟨w, hw, hlookup⟩ := Except.map_eq_ok_iff.mp h
    obtain ⟨n, hn, rfl⟩ := Except.map_eq_ok_iff.mp hw
    rw [if_pos htruthy, hn, ← hlookup]
    rfl
  · next htruthy =>
    rw [if_neg htruthy, ← Except.ok.inj h]
    rfl

/-- The number that a key reads as is the one that was written there. -/
theorem opt_number_eq_ok_iff {α : Type} {bits : ℕ} {ofNat : ℕ → α} {toNat : α → ℕ}
    (hunsigned : IsUnsigned bits ofNat toNat) (hlookup : m.lookup key = (number v).map .int)
    {o : Option α} :
    opt (fun v => (tryUnsigned bits v).map ofNat) (strEntries m) key = .ok o ↔
      o.map (fun u => (toNat u : ℤ)) = number v := by
  cases hn : number v with
  | none =>
    rw [hn] at hlookup
    rw [opt_eq_none hlookup, Option.map_eq_none_iff, Except.ok.injEq, eq_comm]
  | some n =>
    rw [hn] at hlookup
    rw [opt, get_strEntries, hlookup]
    change ((tryUnsigned bits (.int n)).map ofNat).map some = .ok o ↔ _
    rw [Except.map_eq_ok_iff, Option.map_eq_some_iff]
    constructor
    · rintro ⟨u, hu, rfl⟩
      exact ⟨u, rfl, (hunsigned.try_int_eq_ok_iff.mp hu).symm⟩
    · rintro ⟨u, rfl, hu⟩
      exact ⟨u, hunsigned.try_int_eq_ok_iff.mpr hu.symm, rfl⟩

end Numbers

section Texts

variable [Methods ω] {m : Opts ω} {key : String} {v : Value ω}

/-- An option that lists texts is read back as those texts. -/
theorem optStringVec_texts (h : whenGiven v (fun v => .ok (strArray v)) = .ok (m.lookup key)) :
    optStringVec (strEntries m) key = .ok (texts v) := by
  unfold whenGiven at h
  unfold texts
  split at h
  · next htruthy =>
    rw [if_pos htruthy]
    exact optStringVec_map_str (Except.ok.inj h).symm
  · next htruthy =>
    rw [if_neg htruthy]
    exact optStringVec_eq_nil (Except.ok.inj h).symm

/-- An option written unless falsy is read back as its text. -/
theorem optString_textIf (h : whenGiven v toStr = .ok (m.lookup key)) :
    optString (strEntries m) key = .ok (textIf v) := by
  have hstr : whenGiven v toStr = .ok (strIf v) := by
    unfold whenGiven strIf
    split
    · rfl
    · rfl
  exact optString_strIf (Except.ok.inj (h.symm.trans hstr))

end Texts

/-! ### Pairs -/

section Pairs

/-- The last value of mapped entries is the mapped last value. -/
theorem lastValue_map (p : Value ω → Bool) (f : Value ω → Value ω) (es : Entries ω) :
    lastValue p (es.map fun e => (e.1, f e.2)) = (lastValue p es).map f := by
  induction es with
  | nil => rfl
  | cons e es ih =>
    rw [List.map_cons, lastValue, lastValue, ih]
    by_cases hp : p e.1 = true
    · rw [if_pos hp, if_pos hp]
      cases lastValue p es <;> rfl
    · rw [if_neg hp, if_neg hp, Option.or_none, Option.or_none]

/-- A Hash of Strings converts entry by entry. -/
theorem tryHashMap_strHash {names : Opts ω}
    (h : ∀ e ∈ names.entries, ∃ s, e.2 = .str s) [Methods ω] :
    tryHashMap tryString tryString (strHash names) =
      .ok (names.entries.map fun e => (e.1, e.2.toS)) := by
  unfold tryHashMap
  rw [strHash, tryHash, Except.ok_bind, strEntries, Except.mapM_eq_ok_iff]
  simp only [List.forall₂_map_left_iff, List.forall₂_map_right_iff, List.forall₂_same]
  intro e he
  obtain ⟨s, hs⟩ := h e he
  rw [hs]
  rfl

/-- Sorted pairs with distinct keys ascend strictly. -/
theorem pairwise_sortPairs {pairs : List (String × String)} (h : (pairs.map Prod.fst).Nodup) :
    (sortPairs pairs).Pairwise fun p q => p.1 < q.1 := by
  have hperm : (sortPairs pairs).Perm pairs := List.sortBy_perm toLex pairs
  have hne : (sortPairs pairs).Pairwise fun p q => p.1 ≠ q.1 :=
    List.pairwise_map.mp ((hperm.map Prod.fst).nodup_iff.mpr h)
  refine (hne.and (List.pairwise_sortBy toLex pairs)).imp ?_
  rintro p q ⟨hne, hle⟩
  exact (Prod.Lex.le_iff.mp hle).resolve_right fun h => hne h.1

section Entries

variable [Methods ω]

/-- The names of a wire form are distinct. -/
theorem nodup_fst_entries (names : Opts ω) :
    ((names.entries.map fun e => (e.1, e.2.toS)).map Prod.fst).Nodup := by
  rw [List.map_map]
  exact names.nodupKeys

variable {names : Opts ω} {es : Entries ω}

/-- The values of a stringified Hash are Strings. -/
theorem exists_str_of_mem
    (hnames : ∀ name, names.lookup name = (last es name).map fun x => .str x.toS) :
    ∀ e ∈ names.entries, ∃ s, e.2 = .str s := by
  intro e he
  have hvalue := AList.mem_lookup_iff.mpr he
  rw [hnames e.1, Option.mem_def, Option.map_eq_some_iff] at hvalue
  obtain ⟨x, -, hx⟩ := hvalue
  exact ⟨x.toS, hx.symm⟩

/-- An entry of the stringified Hash is the last one the caller gave that name. -/
theorem mem_entries_iff
    (hnames : ∀ name, names.lookup name = (last es name).map fun x => .str x.toS)
    {name value : String} : (name, value) ∈ names.entries.map (fun e => (e.1, e.2.toS)) ↔
      ∃ x, last es name = some x ∧ x.toS = value := by
  rw [List.mem_map]
  constructor
  · rintro ⟨e, he, heq⟩
    obtain ⟨rfl, rfl⟩ := Prod.mk.inj heq
    have hlookup := AList.mem_lookup_iff.mpr he
    rw [hnames e.1, Option.mem_def, Option.map_eq_some_iff] at hlookup
    obtain ⟨x, hx, hvalue⟩ := hlookup
    exact ⟨x, hx, by rw [← hvalue, Value.toS_str]⟩
  · rintro ⟨x, hx, rfl⟩
    have hlookup : names.lookup name = some (.str x.toS) := by rw [hnames, hx]; rfl
    exact ⟨⟨name, .str x.toS⟩, AList.mem_lookup_iff.mp hlookup, rfl⟩

end Entries

variable [Methods ω] [CallerObjects ω] {m : Opts ω} {key : String} {v : Value ω}

/-- What `stringify` accepts converts with `to_h`, and the last value of a name counts. -/
theorem exists_of_stringify {names : Opts ω} (h : stringify v = .ok names) :
    ∃ es, toH? v = some (.ok es) ∧
      ∀ name, names.lookup name = (last es name).map fun x => .str x.toS := by
  unfold stringify at h
  dsimp only at h
  split at h
  · cases h
  · next es hes =>
    refine ⟨es, hes, fun name => ?_⟩
    rw [← Except.ok.inj h, lookup_transformKeys_toS]
    exact lastValue_map _ (fun x => .str x.toS) es
  · cases h
  · cases h

/-- The sorted pairs list what the caller gave. -/
theorem lists_sortPairs {names : Opts ω} (htruthy : v.truthy = true) {es : Entries ω}
    (hes : toH? v = some (.ok es))
    (hnames : ∀ name, names.lookup name = (last es name).map fun x => .str x.toS) :
    Lists v (sortPairs (names.entries.map fun e => (e.1, e.2.toS))) := by
  refine ⟨pairwise_sortPairs (nodup_fst_entries names), fun name value => ?_⟩
  rw [sortPairs, List.mem_sortBy, mem_entries_iff hnames]
  constructor
  · exact fun hx => ⟨htruthy, es, hes, hx⟩
  · rintro ⟨-, es', hes', hx⟩
    obtain rfl : es = es' := by rw [hes] at hes'; exact Except.ok.inj (Option.some.inj hes')
    exact hx

/-- An option of names and values reads back as pairs the caller listed. -/
theorem exists_optStringMap
    (h : whenGiven v (fun v => (stringify v).map strHash) = .ok (m.lookup key)) :
    ∃ pairs, optStringMap (strEntries m) key = .ok pairs ∧ Lists v (sortPairs pairs) := by
  unfold whenGiven at h
  split at h
  · next htruthy =>
    obtain ⟨w, hw, hlookup⟩ := Except.map_eq_ok_iff.mp h
    obtain ⟨names, hnames, rfl⟩ := Except.map_eq_ok_iff.mp hw
    obtain ⟨es, hes, hlast⟩ := exists_of_stringify hnames
    refine ⟨_, ?_, lists_sortPairs htruthy hes hlast⟩
    rw [optStringMap, get_strEntries, ← hlookup]
    exact tryHashMap_strHash (exists_str_of_mem hlast)
  · next htruthy =>
    refine ⟨[], ?_, pairwise_sortPairs List.nodup_nil, fun name value => ?_⟩
    -- An absent argument has no pairs, and writes no key.
    · rw [optStringMap, get_strEntries, ← Except.ok.inj h]
      rfl
    · rw [sortPairs, List.mem_sortBy]
      exact ⟨fun hmem => absurd hmem List.not_mem_nil, fun hnames => absurd hnames.1 htruthy⟩

end Pairs

/-! ### Secrets and the policy -/

section Secrets

variable [Methods ω] {m : Opts ω} {v : Value ω}

/-- The secrets are read back as the caller listed them. -/
theorem exists_parseModifySecrets
    (h : whenGiven v (fun v =>
      (normalizeModifySecrets v).map fun specs => .arr (specs.map strHash)) =
        .ok (m.lookup "secrets")) :
    ∃ patches, parseModifySecrets (strEntries m) = .ok patches ∧ ListsSecrets v patches := by
  unfold whenGiven at h
  split at h
  · obtain ⟨w, hw, hlookup⟩ := Except.map_eq_ok_iff.mp h
    obtain ⟨outs, houts, rfl⟩ := Except.map_eq_ok_iff.mp hw
    cases v with
    | hash entries =>
      have haccepted : ¬Rejected entries := by
        intro hrejected
        obtain ⟨message, hmessage⟩ := raises_normalizeModifySecrets hrejected
        rw [hmessage] at houts
        cases houts
      -- Both layers are known on wire forms: one writes them, the other reads them back.
      obtain ⟨specs, hspecs, hnodup, heq⟩ := exists_normalizeModifySecrets haccepted
      obtain rfl := Except.ok.inj (houts.symm.trans heq)
      refine ⟨_, parseModifySecrets_map_wire hlookup.symm, ?_, .inr ⟨entries, specs, rfl, hspecs,
        (List.sortBy_perm ModifySecret.name specs).map ModifySecret.patch⟩⟩
      exact List.pairwise_map.mpr (List.pairwise_lt_sortBy hnodup)
    | _ => cases houts
  · next htruthy =>
    refine ⟨[], ?_, .nil, .inl ⟨Bool.eq_false_of_not_eq_true htruthy, rfl⟩⟩
    rw [parseModifySecrets, optHashVec_eq_nil (Except.ok.inj h).symm]
    rfl

/-- The policy written is one the native side knows, `no_restart` unless given. -/
theorem exists_policy (h : (normalizeModifyPolicy v).map some = .ok (m.lookup "policy")) :
    ∃ policy : Policy, optString (strEntries m) "policy" = .ok (some policy.name) ∧
      policy.name = if v.isNil then "no_restart" else v.toS := by
  obtain ⟨w, hw, hlookup⟩ := Except.map_eq_ok_iff.mp h
  have hread (policy : Policy) (hw : w = .str policy.name) :
      optString (strEntries m) "policy" = .ok (some policy.name) :=
    optString_map_str (s := some policy.name) (by rw [← hlookup, hw]; rfl)
  unfold normalizeModifyPolicy at hw
  split at hw
  · next hnil =>
    exact ⟨.noRestart, hread _ (Except.ok.inj hw).symm, (if_pos hnil).symm⟩
  · next hnil =>
    rw [if_neg hnil]
    split at hw
    · next hname =>
      have hw := (Except.ok.inj hw).symm
      simp only [List.mem_cons, List.not_mem_nil, or_false] at hname
      rcases hname with hname | hname | hname
      · exact ⟨.noRestart, hread .noRestart (by rw [hw, hname]; rfl), hname.symm⟩
      · exact ⟨.nextStart, hread .nextStart (by rw [hw, hname]; rfl), hname.symm⟩
      · exact ⟨.restart, hread .restart (by rw [hw, hname]; rfl), hname.symm⟩
    · cases hw

/-- The name of a policy reads back as the policy. -/
theorem applyModifyPolicy_name (policy : Policy) : applyModifyPolicy policy.name = .ok policy := by
  cases policy <;> rfl

end Secrets

/-! ## From the arguments to the core -/

section Main

variable [Methods ω] [Numeric ω] [CallerObjects ω]

/-- The lines of `build_modify_opts`, with the keys that they write. -/
def modifyWriters (args : ModifyArgs ω) : List (Writer Exception String (Value ω)) :=
  [putWriter "cpus" (whenGiven args.cpus toInt),
    putWriter "max_cpus" (whenGiven args.maxCpus toInt),
    putWriter "memory" (whenGiven args.memory toInt),
    putWriter "max_memory" (whenGiven args.maxMemory toInt),
    putWriter "root_disk_size" (whenGiven args.rootDiskSize toInt),
    putWriter "env" (whenGiven args.env fun v => (stringify v).map strHash),
    putWriter "remove_env" (whenGiven args.removeEnv fun v => .ok (strArray v)),
    putWriter "labels" (whenGiven args.labels fun v => (stringify v).map strHash),
    putWriter "remove_labels" (whenGiven args.removeLabels fun v => .ok (strArray v)),
    putWriter "workdir" (whenGiven args.workdir toStr),
    putWriter "secrets" (whenGiven args.secrets fun v =>
      (normalizeModifySecrets v).map fun specs => .arr (specs.map strHash)),
    putWriter "remove_secrets" (whenGiven args.removeSecrets fun v => .ok (strArray v)),
    putWriter "policy" ((normalizeModifyPolicy args.policy).map some),
    flagWriter "dry_run" args.dryRun.truthy]

/-- The writers build the options of `build_modify_opts`. -/
theorem run_modifyWriters (args : ModifyArgs ω) :
    run (modifyWriters args) ∅ = buildModifyOpts args := by
  rw [buildModifyOpts, runSteps, run]
  change _ = ((modifyWriters args).map Writer.step).foldlM _ _
  rw [List.foldlM_map]

/-- No key is written twice. -/
theorem nodup_modifyWriters (args : ModifyArgs ω) :
    ((modifyWriters args).flatMap Writer.keys).Nodup := by
  change List.Nodup ["cpus", "max_cpus", "memory", "max_memory", "root_disk_size", "env",
    "remove_env", "labels", "remove_labels", "workdir", "secrets", "remove_secrets", "policy",
    "dry_run"]
  decide

omit [CallerObjects ω] in
/-- A number that fits is one that is read. -/
theorem exists_map_eq_number_iff {α : Type} {bits : ℕ} {ofNat : ℕ → α} {toNat : α → ℕ}
    (hunsigned : IsUnsigned bits ofNat toNat) (v : Value ω) :
    (∃ o : Option α, o.map (fun u => (toNat u : ℤ)) = number v) ↔ Fits bits v := by
  unfold Fits
  cases number v with
  | none => exact ⟨fun _ => nofun, fun _ => ⟨none, rfl⟩⟩
  | some n =>
    constructor
    · rintro ⟨o, ho⟩ n' hn'
      obtain rfl := Option.some.inj hn'
      obtain ⟨u, -, hu⟩ := Option.map_eq_some_iff.mp ho
      exact hunsigned.exists_toNat_eq_iff.mp ⟨u, hu⟩
    · intro h
      obtain ⟨u, hu⟩ := hunsigned.exists_toNat_eq_iff.mpr (h n rfl)
      exact ⟨some u, congrArg some hu⟩

omit [Methods ω] [CallerObjects ω] in
/-- The native call succeeds with the patch it reads. -/
theorem runModify_eq_ok_iff {opts : RHash ω} {call : ModifyCall} :
    runModify opts = .ok call ↔ ReadsAs opts call := by
  unfold runModify buildModifyPatch
  -- field by field: nothing depends on what was read before
  simp only [Except.bind_eq_ok_iff]
  constructor
  · rintro ⟨patch, ⟨env, henv, labels, hlabels, cpus, hcpus, maxCpus, hmaxCpus, memory, hmemory,
      maxMemory, hmaxMemory, disk, hdisk, removeEnv, hremoveEnv, removeLabels, hremoveLabels,
      workdir, hworkdir, secrets, hsecrets, removeSecrets, hremoveSecrets, hpatch⟩,
      name, hname, dryRun, hdryRun, policy, hpolicy, hcall⟩
    obtain rfl := Except.ok.inj hpatch
    obtain rfl := Except.ok.inj hcall
    exact ⟨hcpus, hmaxCpus, hmemory, hmaxMemory, hdisk, ⟨env, henv, rfl⟩, hremoveEnv,
      ⟨labels, hlabels, rfl⟩, hremoveLabels, hworkdir, hsecrets, hremoveSecrets,
      ⟨name, hname, hpolicy⟩, hdryRun⟩
  · intro hreads
    obtain ⟨⟨cpus, maxCpus, memory, maxMemory, disk, env, removeEnv, labels, removeLabels, workdir,
      secrets, removeSecrets⟩, policy, dryRun⟩ := call
    obtain ⟨env', henv, rfl⟩ := hreads.env
    obtain ⟨labels', hlabels, rfl⟩ := hreads.labels
    obtain ⟨name, hname, hpolicy⟩ := hreads.policy
    exact ⟨_, ⟨env', henv, labels', hlabels, cpus, hreads.cpus, maxCpus, hreads.maxCpus, memory,
      hreads.memory, maxMemory, hreads.maxMemory, disk, hreads.rootDiskSize, removeEnv,
      hreads.removeEnv, removeLabels, hreads.removeLabels, workdir, hreads.workdir, secrets,
      hreads.secrets, removeSecrets, hreads.removeSecrets, rfl⟩,
      name, hname, dryRun, hreads.dryRun, policy, hpolicy, rfl⟩

/-- What the options of an accepted modification hold, and what they read as. -/
structure Written (args : ModifyArgs ω) (opts : Opts ω) : Prop where
  cpus : opts.lookup "cpus" = (number args.cpus).map .int
  maxCpus : opts.lookup "max_cpus" = (number args.maxCpus).map .int
  memory : opts.lookup "memory" = (number args.memory).map .int
  maxMemory : opts.lookup "max_memory" = (number args.maxMemory).map .int
  rootDiskSize : opts.lookup "root_disk_size" = (number args.rootDiskSize).map .int
  env : ∃ pairs, optStringMap (strEntries opts) "env" = .ok pairs ∧
    Lists args.env (sortPairs pairs)
  removeEnv : optStringVec (strEntries opts) "remove_env" = .ok (texts args.removeEnv)
  labels : ∃ pairs, optStringMap (strEntries opts) "labels" = .ok pairs ∧
    Lists args.labels (sortPairs pairs)
  removeLabels : optStringVec (strEntries opts) "remove_labels" = .ok (texts args.removeLabels)
  workdir : optString (strEntries opts) "workdir" = .ok (textIf args.workdir)
  secrets : ∃ patches, parseModifySecrets (strEntries opts) = .ok patches ∧
    ListsSecrets args.secrets patches
  removeSecrets : optStringVec (strEntries opts) "remove_secrets" = .ok (texts args.removeSecrets)
  policy : ∃ policy : Policy, optString (strEntries opts) "policy" = .ok (some policy.name) ∧
    policy.name = if args.policy.isNil then "no_restart" else args.policy.toS
  dryRun : optBool (strEntries opts) "dry_run" = .ok args.dryRun.truthy

/-- What an accepted call has written under every key. -/
theorem written_of_buildModifyOpts {args : ModifyArgs ω} {opts : Opts ω}
    (h : buildModifyOpts args = .ok opts) : Written args opts := by
  have hnodup := nodup_modifyWriters args
  have hrun : run (modifyWriters args) ∅ = .ok opts := (run_modifyWriters args).trans h
  have hput {key : String} {value : Except Exception (Option (Value ω))}
      (hmem : putWriter key value ∈ modifyWriters args) : value = .ok (opts.lookup key) :=
    lookup_of_mem_putWriter hnodup hrun hmem
  exact {
    cpus := lookup_number (hput (by simp [modifyWriters]))
    maxCpus := lookup_number (hput (by simp [modifyWriters]))
    memory := lookup_number (hput (by simp [modifyWriters]))
    maxMemory := lookup_number (hput (by simp [modifyWriters]))
    rootDiskSize := lookup_number (hput (by simp [modifyWriters]))
    env := exists_optStringMap (hput (by simp [modifyWriters]))
    removeEnv := optStringVec_texts (hput (by simp [modifyWriters]))
    labels := exists_optStringMap (hput (by simp [modifyWriters]))
    removeLabels := optStringVec_texts (hput (by simp [modifyWriters]))
    workdir := optString_textIf (hput (by simp [modifyWriters]))
    secrets := exists_parseModifySecrets (hput (by simp [modifyWriters]))
    removeSecrets := optStringVec_texts (hput (by simp [modifyWriters]))
    policy := exists_policy (hput (by simp [modifyWriters]))
    dryRun :=
      optBool_setFlag (lookup_of_mem_flagWriter hnodup hrun (by simp [modifyWriters])) }

namespace Written

variable {args : ModifyArgs ω} {opts : Opts ω}

/-- A patch read from what was written asks for what the caller asked. -/
theorem asAsked (hw : Written args opts) {call : ModifyCall}
    (hreads : ReadsAs (strEntries opts) call) : AsAsked args call where
  cpus := (opt_number_eq_ok_iff isUnsigned_u8 hw.cpus).mp hreads.cpus
  maxCpus := (opt_number_eq_ok_iff isUnsigned_u8 hw.maxCpus).mp hreads.maxCpus
  memory := (opt_number_eq_ok_iff isUnsigned_u32 hw.memory).mp hreads.memory
  maxMemory := (opt_number_eq_ok_iff isUnsigned_u32 hw.maxMemory).mp hreads.maxMemory
  rootDiskSize := (opt_number_eq_ok_iff isUnsigned_u32 hw.rootDiskSize).mp hreads.rootDiskSize
  env := by
    obtain ⟨pairs, hpairs, heq⟩ := hreads.env
    obtain ⟨pairs', hpairs', hlists⟩ := hw.env
    obtain rfl := Except.ok.inj (hpairs.symm.trans hpairs')
    rwa [heq]
  removeEnv := Except.ok.inj (hreads.removeEnv.symm.trans hw.removeEnv)
  labels := by
    obtain ⟨pairs, hpairs, heq⟩ := hreads.labels
    obtain ⟨pairs', hpairs', hlists⟩ := hw.labels
    obtain rfl := Except.ok.inj (hpairs.symm.trans hpairs')
    rwa [heq]
  removeLabels := Except.ok.inj (hreads.removeLabels.symm.trans hw.removeLabels)
  workdir := Except.ok.inj (hreads.workdir.symm.trans hw.workdir)
  secrets := by
    obtain ⟨patches, hpatches, hlists⟩ := hw.secrets
    rwa [Except.ok.inj (hreads.secrets.symm.trans hpatches)]
  removeSecrets := Except.ok.inj (hreads.removeSecrets.symm.trans hw.removeSecrets)
  policy := by
    obtain ⟨name, hname, hpolicy⟩ := hreads.policy
    obtain ⟨policy, hpolicy', hasked⟩ := hw.policy
    obtain rfl := Except.ok.inj (hname.symm.trans hpolicy')
    obtain rfl := Except.ok.inj ((applyModifyPolicy_name policy).symm.trans hpolicy)
    exact hasked
  dryRun := Except.ok.inj (hreads.dryRun.symm.trans hw.dryRun)

/-- There is a patch to read exactly if the numbers fit their types. -/
theorem exists_readsAs_iff (hw : Written args opts) :
    (∃ call, ReadsAs (strEntries opts) call) ↔ NumbersFit args := by
  have hu8 := exists_map_eq_number_iff (ω := ω) isUnsigned_u8
  have hu32 := exists_map_eq_number_iff (ω := ω) isUnsigned_u32
  constructor
  · rintro ⟨call, hreads⟩
    have hasked := hw.asAsked hreads
    exact ⟨(hu8 _).mp ⟨_, hasked.cpus⟩, (hu8 _).mp ⟨_, hasked.maxCpus⟩,
      (hu32 _).mp ⟨_, hasked.memory⟩, (hu32 _).mp ⟨_, hasked.maxMemory⟩,
      (hu32 _).mp ⟨_, hasked.rootDiskSize⟩⟩
  · intro hfit
    -- only the numbers can be refused, the rest is in the form that is read
    obtain ⟨cpus, hcpus⟩ := (hu8 _).mpr hfit.cpus
    obtain ⟨maxCpus, hmaxCpus⟩ := (hu8 _).mpr hfit.maxCpus
    obtain ⟨memory, hmemory⟩ := (hu32 _).mpr hfit.memory
    obtain ⟨maxMemory, hmaxMemory⟩ := (hu32 _).mpr hfit.maxMemory
    obtain ⟨disk, hdisk⟩ := (hu32 _).mpr hfit.rootDiskSize
    obtain ⟨env, henv, -⟩ := hw.env
    obtain ⟨labels, hlabels, -⟩ := hw.labels
    obtain ⟨secrets, hsecrets, -⟩ := hw.secrets
    obtain ⟨policy, hpolicy, -⟩ := hw.policy
    exact ⟨⟨⟨cpus, maxCpus, memory, maxMemory, disk, sortPairs env, texts args.removeEnv,
      sortPairs labels, texts args.removeLabels, textIf args.workdir, secrets,
      texts args.removeSecrets⟩, policy, args.dryRun.truthy⟩,
      (opt_number_eq_ok_iff isUnsigned_u8 hw.cpus).mpr hcpus,
      (opt_number_eq_ok_iff isUnsigned_u8 hw.maxCpus).mpr hmaxCpus,
      (opt_number_eq_ok_iff isUnsigned_u32 hw.memory).mpr hmemory,
      (opt_number_eq_ok_iff isUnsigned_u32 hw.maxMemory).mpr hmaxMemory,
      (opt_number_eq_ok_iff isUnsigned_u32 hw.rootDiskSize).mpr hdisk, ⟨env, henv, rfl⟩, hw.removeEnv,
      ⟨labels, hlabels, rfl⟩, hw.removeLabels, hw.workdir, hsecrets, hw.removeSecrets,
      ⟨_, hpolicy, applyModifyPolicy_name policy⟩, hw.dryRun⟩

end Written

/-- An accepted modification is carried to the core as it was asked for, if its numbers fit the
fields of the patch, and raises an error otherwise. -/
theorem modify_told_as_asked {args : ModifyArgs ω} {opts : Opts ω}
    (h : buildModifyOpts args = .ok opts) :
    ((∃ call, runModify (strEntries opts) = .ok call) ↔ NumbersFit args) ∧
      ∀ call, runModify (strEntries opts) = .ok call → AsAsked args call := by
  have hw := written_of_buildModifyOpts h
  simp only [runModify_eq_ok_iff]
  exact ⟨hw.exists_readsAs_iff, fun call => hw.asAsked⟩

end Main

/-- A call with a number, two spellings of a name and a policy. -/
def resizeArgs : ModifyArgs Unit where
  cpus := .int 4
  env := .hash [(.sym "PATH", .str "/bin"), (.str "HOME", .str "/root")]
  policy := .sym "restart"

/-- That call passes both builders. -/
theorem modify_told_as_asked_resize :
    ∃ opts call, buildModifyOpts resizeArgs = .ok opts ∧
      runModify (strEntries opts) = .ok call ∧ AsAsked resizeArgs call := by
  have hopts : buildModifyOpts resizeArgs = .ok _ := rfl
  obtain ⟨hcall, hasked⟩ := modify_told_as_asked hopts
  have hfits : Fits 8 resizeArgs.cpus := by
    intro n hn
    obtain rfl : 4 = n := Option.some.inj hn
    decide
  obtain ⟨call, hrun⟩ := hcall.mpr ⟨hfits, nofun, nofun, nofun, nofun⟩
  exact ⟨_, call, hopts, hrun, hasked call hrun⟩

end MicrosandboxRb.Modify
