import MicrosandboxRb.Create.Wire
import MicrosandboxRb.Proxy.Model

/-!
# Secrets of a create call

The `secrets:` and `on_secret_violation:` options: the normalization (`sandbox.rb`), the native
parsers (`parse_secret` and `parse_violation_spec`, `sandbox.rs`), and the calls on the core's
builders.

## Main definitions

* `normalizeSecrets`, `normalizeViolation`: the normalization;
* `buildSecrets`, `buildViolation`: the native layer, down to the calls;
* `SecretAccepted`, `secretMeant`: which specs are taken, and what they mean.

## Main results

* `secrets_passed_on`: a list of specs is taken if and only if each of them is well formed, and the
  native layer then refuses none of them and makes exactly the calls that they mean.
-/

namespace MicrosandboxRb.Secrets

open Ruby Conv Native

variable {ω : Type}

/-! ## The Ruby layer -/

/-- What `String#strip` removes at both ends. -/
def isBlank (c : Char) : Bool := c == '\x00' || isSpace c

/-- `String#strip`. -/
def strip (s : String) : String :=
  String.ofList ((s.toList.dropWhile isBlank).reverse.dropWhile isBlank).reverse

/-- `s.strip.downcase.tr("-", "_")`, as far as the result is ASCII. -/
def actionText (s : String) : String :=
  String.ofList ((Proxy.protocolText (strip s)).toList.map fun c => if c = '-' then '_' else c)

/-- `VIOLATION_ACTIONS`. -/
def actions : List String := ["block", "block_and_log", "block_and_terminate"]

/-- The toggles of a secret, which may be switched off. -/
def toggles : List String :=
  ["require_tls", "inject_headers", "inject_basic_auth", "inject_query", "inject_body"]

section Normalize

variable [Methods ω]

/-- The message for an action that is not one. -/
def unknownViolationMessage (spec : Value ω) : String :=
  s!"unknown on_violation {spec.inspect} (expected block, " ++
    "block_and_log/block-and-log, block_and_terminate/block-and-terminate, " ++
    "passthrough, or a Hash with :passthrough_hosts/:passthrough_host_patterns/" ++
    ":passthrough_all_hosts)"

/-- Map a block-variant action onto its canonical spelling. -/
def normalizeViolationAction (spec : Value ω) : Except Exception String :=
  let action := actionText spec.toS
  if action ∈ actions then .ok action else .error (.argumentError (unknownViolationMessage spec))

/-- The Hash of a passthrough action, with what is not empty. -/
def passthroughHash (hosts patterns : List String) (all : Bool) : Opts ω :=
  let out : Opts ω := insertSome ∅ "passthrough_hosts" (strsUnlessEmpty hosts)
  let out := insertSome out "passthrough_host_patterns" (strsUnlessEmpty patterns)
  setFlag out "passthrough_all_hosts" all

/-- The Hash of `on_violation:`, which has to pass something through. -/
def normalizePassthrough (spec : Entries ω) : Except Exception (Opts ω) :=
  let hosts := strings spec "passthrough_hosts"
  let patterns := strings spec "passthrough_host_patterns"
  let all := (either spec "passthrough_all_hosts").truthy
  if hosts.isEmpty && patterns.isEmpty && !all then
    .error (.argumentError ("passthrough on_violation needs at least one of :passthrough_hosts, " ++
      ":passthrough_host_patterns, or :passthrough_all_hosts (use \"block\" " ++
      "if blocking is the intent)"))
  else .ok (passthroughHash hosts patterns all)

/-- Normalize `on_violation:` and `on_secret_violation:`. -/
def normalizeViolation (spec : Value ω) : Except Exception (Value ω) :=
  match spec with
  | .str s | .sym s =>
    if actionText s = "passthrough" then
      .ok (strHash (AList.singleton "passthrough_all_hosts" (.bool true)))
    else (normalizeViolationAction spec).map .str
  | .hash es => (normalizePassthrough es).map strHash
  | spec =>
    .error (.argumentError s!"on_violation must be a String or a Hash (got {spec.inspect})")

/-- `spec.keys.inspect`. -/
def inspectKeys (spec : Entries ω) : String := (Value.arr (spec.map Prod.fst)).inspect

/-- The hosts of a secret, with the one of `host:` at the end. -/
def hostsOf (spec : Entries ω) : List String :=
  strings spec "hosts" ++
    (if (either spec "host").truthy then [(either spec "host").toS] else [])

/-- The action of `on_violation:`, where it is given. -/
def violationOf (spec : Entries ω) : Except Exception (Option (Value ω)) :=
  let ov := either spec "on_violation"
  if ov.truthy then (normalizeViolation ov).map some else .ok none

/-- The Hash of a secret. Each toggle honors an explicit `false`. -/
def secretHash (spec : Entries ω) (ov : Option (Value ω)) : Opts ω :=
  let out : Opts ω := AList.insert "env" (.str (either spec "env").toS) ∅
  let out := out.insert "value" (.str (either spec "value").toS)
  let out := insertSome out "hosts" (strsUnlessEmpty (hostsOf spec))
  let out := insertSome out "host_patterns" (strsUnlessEmpty (strings spec "host_patterns"))
  let out := insertSome out "placeholder" (strIf (either spec "placeholder"))
  let out := toggles.foldl (fun out key =>
    insertSome out key (boolUnlessNil (fetchOpt spec key))) out
  insertSome out "on_violation" ov

/-- `normalize_secret`. The messages name keys, and never a value. -/
def normalizeSecret (spec : Entries ω) : Except Exception (Opts ω) :=
  if !((either spec "env").truthy && (either spec "value").truthy) then
    .error (.argumentError s!"secret spec needs :env and :value (got keys: {inspectKeys spec})")
  else if (hostsOf spec).isEmpty && (strings spec "host_patterns").isEmpty then
    .error (.argumentError ("secret spec needs :host, :hosts, or :host_patterns " ++
      s!"(got keys: {inspectKeys spec})"))
  else (violationOf spec).map (secretHash spec)

/-- Whether a Hash has the key `env`, as a Symbol or as a String. -/
def hasEnv (spec : Entries ω) : Bool := (atSym spec "env").isSome || (atStr spec "env").isSome

/-- The specs, where a bare one stands for a list of one. -/
def secretSpecs (secrets : Value ω) : Except Exception (List (Value ω)) :=
  match secrets with
  | .hash es =>
    if hasEnv es then .ok [.hash es]
    else
      .error (.argumentError
        ("secrets: takes an Array of Hashes like \x7b env:, value:, host: \x7d at create time; " ++
          "the \x7b \"NAME\" => \x7b ... \x7d \x7d form belongs to #modify"))
  | secrets => .ok secrets.array

/-- One element of `secrets:`. -/
def normalizeSecretSpec (spec : Value ω) : Except Exception (Opts ω) :=
  match spec with
  | .hash es => normalizeSecret es
  | spec => .error (.argumentError s!"secret spec must be a Hash (got {spec.className})")

/-- `normalize_secrets`. -/
def normalizeSecrets (secrets : Value ω) : Except Exception (List (Opts ω)) := do
  (← secretSpecs secrets).mapM normalizeSecretSpec

end Normalize

/-! ## The native layer -/

/-- A secret-leak response. -/
inductive ViolationSpec where
  | block
  | blockAndLog
  | blockAndTerminate
  | passthrough (hosts patterns : List String) (all : Bool)
deriving DecidableEq, Repr

/-- A method of the core's `ViolationActionBuilder`. -/
inductive ViolationCall where
  | block
  | blockAndLog
  | blockAndTerminate
  | passthroughHost (host : String)
  | passthroughHostPattern (pattern : String)
  | passthroughAllHosts (all : Bool)
deriving DecidableEq, Repr

/-- The calls on the builder of an action. -/
def ViolationSpec.apply : ViolationSpec → List ViolationCall
  | .block => [.block]
  | .blockAndLog => [.blockAndLog]
  | .blockAndTerminate => [.blockAndTerminate]
  | .passthrough hosts patterns all =>
    hosts.map .passthroughHost ++ patterns.map .passthroughHostPattern ++
      (if all then [.passthroughAllHosts true] else [])

/-- The action that a String stands for. -/
def violationFromStr (s : String) : Except Exception ViolationSpec :=
  match s with
  | "block" => .ok .block
  | "block_and_log" => .ok .blockAndLog
  | "block_and_terminate" => .ok .blockAndTerminate
  | other =>
    .error (baseError (s!"unknown on_violation {RustStr.debug other} (expected " ++
      "block/block_and_log/block_and_terminate, or a Hash with :passthrough_hosts/" ++
      ":passthrough_host_patterns/:passthrough_all_hosts)"))

/-- `parse_violation_spec`: the name of an action, or a Hash of what passes through. -/
def parseViolationSpec (v : Value ω) : Except Exception ViolationSpec :=
  match tryString v with
  | .ok s => violationFromStr s
  | .error _ =>
    match tryHash v with
    | .error _ => .error (baseError "on_violation must be a String or a Hash")
    | .ok h => do
      let hosts ← optStringVec h "passthrough_hosts"
      let patterns ← optStringVec h "passthrough_host_patterns"
      let all ← optBool h "passthrough_all_hosts"
      return .passthrough hosts patterns all

/-- What is read of one secret. -/
structure SecretSpec where
  env : String
  value : String
  hosts : List String
  hostPatterns : List String
  placeholder : Option String
  requireTls : Option Bool
  injectHeaders : Option Bool
  injectBasicAuth : Option Bool
  injectQuery : Option Bool
  injectBody : Option Bool
  onViolation : Option ViolationSpec
deriving DecidableEq, Repr

/-- Read a string that has to be there. -/
def secretStr (h : RHash ω) (key : String) : Except Exception String := do
  match ← optString h key with
  | some s => return s
  | none => throw (baseError s!"secret requires :{key}")

/-- `conv::opt::<Value>`. -/
def optValue (h : RHash ω) (key : String) : Except Exception (Option (Value ω)) := opt .ok h key

/-- `opt::<Value>(..)?.map(parse_violation_spec).transpose()?`. -/
def optViolation (h : RHash ω) (key : String) : Except Exception (Option ViolationSpec) := do
  match ← optValue h key with
  | some v => (parseViolationSpec v).map some
  | none => return none

/-- `parse_secret`. -/
def parseSecret (h : RHash ω) : Except Exception SecretSpec := do
  let env ← secretStr h "env"
  let value ← secretStr h "value"
  let hosts ← optStringVec h "hosts"
  let hostPatterns ← optStringVec h "host_patterns"
  -- a secret without hosts is refused before the rest is read
  if hosts.isEmpty && hostPatterns.isEmpty then
    throw (baseError
      "secret requires at least one allowed host (:host, :hosts, or :host_patterns)")
  let onViolation ← optViolation h "on_violation"
  let placeholder ← optString h "placeholder"
  let requireTls ← opt tryBool h "require_tls"
  let injectHeaders ← opt tryBool h "inject_headers"
  let injectBasicAuth ← opt tryBool h "inject_basic_auth"
  let injectQuery ← opt tryBool h "inject_query"
  let injectBody ← opt tryBool h "inject_body"
  return { env, value, hosts, hostPatterns, placeholder, requireTls, injectHeaders,
           injectBasicAuth, injectQuery, injectBody, onViolation }

/-- A method of the core's `SecretBuilder`. -/
inductive SecretCall where
  | env (var : String)
  | value (value : String)
  | allowHost (host : String)
  | allowHostPattern (pattern : String)
  | placeholder (placeholder : String)
  | requireTlsIdentity (enabled : Bool)
  | injectHeaders (enabled : Bool)
  | injectBasicAuth (enabled : Bool)
  | injectQuery (enabled : Bool)
  | injectBody (enabled : Bool)
  | onViolation (action : List ViolationCall)
deriving DecidableEq, Repr

/-- The calls on the `SecretBuilder`. -/
def SecretSpec.apply (spec : SecretSpec) : List SecretCall :=
  [.env spec.env, .value spec.value] ++ spec.hosts.map .allowHost ++
    spec.hostPatterns.map .allowHostPattern ++ (spec.placeholder.map .placeholder).toList ++
    (spec.requireTls.map .requireTlsIdentity).toList ++
    (spec.injectHeaders.map .injectHeaders).toList ++
    (spec.injectBasicAuth.map .injectBasicAuth).toList ++
    (spec.injectQuery.map .injectQuery).toList ++ (spec.injectBody.map .injectBody).toList ++
    (spec.onViolation.map fun action => .onViolation action.apply).toList

/-- The secrets of `build_builder`: the calls on the builder of each. -/
def buildSecrets (opts : RHash ω) : Except Exception (List (List SecretCall)) := do
  (← optHashVec opts "secrets").mapM fun h => (parseSecret h).map SecretSpec.apply

/-- The sandbox-level action of `build_builder`. -/
def buildViolation (opts : RHash ω) : Except Exception (Option (List ViolationCall)) :=
  (optViolation opts "on_secret_violation").map fun spec => spec.map ViolationSpec.apply

/-! ## What a spec means -/

section Meaning

variable [Methods ω]

/-- The action that a text stands for. -/
def actionMeant (s : String) : Option ViolationSpec :=
  match actionText s with
  | "passthrough" => some (.passthrough [] [] true)
  | "block" => some .block
  | "block_and_log" => some .blockAndLog
  | "block_and_terminate" => some .blockAndTerminate
  | _ => none

/-- Whether a Hash lets anything through. -/
def passesAnything (spec : Entries ω) : Bool :=
  !(strings spec "passthrough_hosts").isEmpty || !(strings spec "passthrough_host_patterns").isEmpty ||
    (either spec "passthrough_all_hosts").truthy

/-- The action that a value stands for, if it stands for one. -/
def violationMeant : Value ω → Option ViolationSpec
  | .str s | .sym s => actionMeant s
  | .hash spec =>
    if passesAnything spec then
      some (.passthrough (strings spec "passthrough_hosts") (strings spec "passthrough_host_patterns")
        (either spec "passthrough_all_hosts").truthy)
    else none
  | _ => none

/-- A spec that is taken: with a variable and a value, a host at least, and no action that is not
one. -/
structure SecretAccepted (spec : Entries ω) : Prop where
  env : (either spec "env").truthy = true
  value : (either spec "value").truthy = true
  hosts : strings spec "hosts" ≠ [] ∨ (either spec "host").truthy = true ∨
    strings spec "host_patterns" ≠ []
  onViolation : (either spec "on_violation").truthy = true →
    (violationMeant (either spec "on_violation")).isSome = true

/-- What the core is to be told about a secret. Its hosts are those of `hosts:`, and then the one of
`host:`. A toggle is left alone unless it is given, and `false` is given. -/
def secretMeant (spec : Entries ω) : SecretSpec where
  env := (either spec "env").toS
  value := (either spec "value").toS
  hosts := strings spec "hosts" ++ (textIf (either spec "host")).toList
  hostPatterns := strings spec "host_patterns"
  placeholder := textIf (either spec "placeholder")
  requireTls := boolIf (fetchOpt spec "require_tls")
  injectHeaders := boolIf (fetchOpt spec "inject_headers")
  injectBasicAuth := boolIf (fetchOpt spec "inject_basic_auth")
  injectQuery := boolIf (fetchOpt spec "inject_query")
  injectBody := boolIf (fetchOpt spec "inject_body")
  onViolation :=
    if (either spec "on_violation").truthy then violationMeant (either spec "on_violation") else none

/-- The specs that an option stands for: a bare one, which has the key `env`, or a list of them. -/
inductive SpecsOf : Value ω → List (Entries ω) → Prop
  | bare {spec : Entries ω} (env : hasEnv spec = true) : SpecsOf (.hash spec) [spec]
  | list {secrets : Value ω} {specs : List (Entries ω)} (notHash : secrets.isHash = false)
    (eq : secrets.array = specs.map .hash) : SpecsOf secrets specs

/-! ## Actions -/

/-- A value that reads as the action meant, or an error where there is none. -/
inductive Conveys (x : Except Exception (Value ω)) : Option ViolationSpec → Prop
  | taken {spec : ViolationSpec} (w : Value ω) (eq : x = .ok w) (notNil : w.isNil = false)
    (read : parseViolationSpec w = .ok spec) : Conveys x (some spec)
  | refused (ne : ∀ w, x ≠ .ok w) : Conveys x none

omit [Methods ω] in
/-- A value that was taken reads as the action meant. -/
theorem Conveys.of_ok {x : Except Exception (Value ω)} {meant : Option ViolationSpec} {w : Value ω}
    (h : Conveys x meant) (hx : x = .ok w) :
    w.isNil = false ∧ ∃ spec, meant = some spec ∧ parseViolationSpec w = .ok spec := by
  cases h with
  | refused ne => exact absurd hx (ne w)
  | taken w' hw' hnil hread =>
    obtain rfl := Except.ok.inj (hx.symm.trans hw')
    exact ⟨hnil, _, rfl, hread⟩

omit [Methods ω] in
/-- A value with a meaning is taken. -/
theorem Conveys.exists_ok {x : Except Exception (Value ω)} {meant : Option ViolationSpec}
    (h : Conveys x meant) (hsome : meant.isSome = true) : ∃ w, x = .ok w := by
  cases h with
  | refused => cases hsome
  | taken w hw => exact ⟨w, hw⟩

/-- A text, whatever its case and its blanks. -/
theorem conveys_text {v : Value ω} {s : String} (hv : v.toS = s) :
    Conveys (ω := ω) (if actionText s = "passthrough" then
        .ok (strHash (AList.singleton "passthrough_all_hosts" (.bool true)))
      else (normalizeViolationAction v).map .str) (actionMeant s) := by
  unfold actionMeant normalizeViolationAction
  rw [hv]
  generalize actionText s = action
  by_cases hpassthrough : action = "passthrough"
  · subst hpassthrough
    exact .taken _ (if_pos rfl) rfl rfl
  by_cases hblock : action = "block"
  · subst hblock
    exact .taken _ rfl rfl rfl
  by_cases hlog : action = "block_and_log"
  · subst hlog
    exact .taken _ rfl rfl rfl
  by_cases hterminate : action = "block_and_terminate"
  · subst hterminate
    exact .taken _ rfl rfl rfl
  have hunknown : action ∉ actions := by
    simp [actions, hblock, hlog, hterminate]
  simp only [hpassthrough, hunknown, if_false]
  exact .refused fun w h => by cases h

omit [Methods ω] in
/-- A Hash is read key by key. -/
theorem parseViolationSpec_hash (h : RHash ω) :
    parseViolationSpec (.hash h) = (do
      let hosts ← optStringVec h "passthrough_hosts"
      let patterns ← optStringVec h "passthrough_host_patterns"
      let all ← optBool h "passthrough_all_hosts"
      return .passthrough hosts patterns all) :=
  rfl

omit [Methods ω] in
/-- The Hash that the Ruby layer writes is read back. -/
theorem parseViolationSpec_passthroughHash (hosts patterns : List String) (all : Bool) :
    parseViolationSpec (strHash (passthroughHash hosts patterns all : Opts ω)) =
      .ok (.passthrough hosts patterns all) := by
  have hadds : AList.Adds _ ∅ (passthroughHash hosts patterns all : Opts ω) :=
    ((adds_insertSome _ "passthrough_hosts" (strsUnlessEmpty hosts)).trans
      (adds_insertSome _ "passthrough_host_patterns" (strsUnlessEmpty patterns))).trans
        (adds_setFlag _ "passthrough_all_hosts" all)
  have hhosts := hadds "passthrough_hosts"
  have hpatterns := hadds "passthrough_host_patterns"
  have hall := hadds "passthrough_all_hosts"
  simp [AList.atKey] at hhosts hpatterns hall
  rw [strHash, parseViolationSpec_hash, optStringVec_strsUnlessEmpty hhosts,
    optStringVec_strsUnlessEmpty hpatterns, optBool_setFlag hall]
  rfl

/-- A Hash that lets something through, or is refused. -/
theorem conveys_passthrough (spec : Entries ω) :
    Conveys ((normalizePassthrough spec).map strHash) (violationMeant (.hash spec)) := by
  rw [violationMeant, normalizePassthrough, passesAnything]
  generalize strings spec "passthrough_hosts" = hosts
  generalize strings spec "passthrough_host_patterns" = patterns
  generalize (either spec "passthrough_all_hosts").truthy = all
  by_cases hnone : (hosts.isEmpty && patterns.isEmpty && !all) = true
  · simp only [Bool.and_eq_true, Bool.not_eq_true'] at hnone
    obtain ⟨⟨hhosts, hpatterns⟩, rfl⟩ := hnone
    rw [hhosts, hpatterns]
    exact .refused fun w h => by cases h
  · have hsome : (!hosts.isEmpty || !patterns.isEmpty || all) = true := by
      rw [← Bool.not_not all, ← Bool.not_and, ← Bool.not_and, Bool.not_eq_true', Bool.eq_false_iff]
      exact hnone
    rw [if_neg hnone, if_pos hsome]
    exact .taken _ rfl rfl (parseViolationSpec_passthroughHash hosts patterns all)

/-- Every value is taken for the action meant, or refused. -/
theorem conveys_normalizeViolation (v : Value ω) :
    Conveys (normalizeViolation v) (violationMeant v) := by
  cases v with
  | str s =>
    rw [normalizeViolation, violationMeant]
    exact conveys_text rfl
  | sym s =>
    rw [normalizeViolation, violationMeant]
    exact conveys_text rfl
  | hash spec => exact conveys_passthrough spec
  | nil | bool | int | arr | obj => exact .refused fun w h => by cases h

/-! ## Secrets -/

/-- The host of `host:` comes after those of `hosts:`. -/
theorem hostsOf_eq_append (spec : Entries ω) :
    hostsOf spec = strings spec "hosts" ++ (textIf (either spec "host")).toList := by
  unfold hostsOf textIf
  split <;> rfl

/-- A secret names a host if it does so under one of three keys. -/
theorem exists_host_iff (spec : Entries ω) :
    hostsOf spec ≠ [] ∨ strings spec "host_patterns" ≠ [] ↔
      strings spec "hosts" ≠ [] ∨ (either spec "host").truthy = true ∨
        strings spec "host_patterns" ≠ [] := by
  rw [← or_assoc]
  refine or_congr_left ?_
  unfold hostsOf
  by_cases hhost : (either spec "host").truthy = true
  · simp [hhost]
  · simp [hhost]

/-- What each key of the Hash of a secret holds. -/
structure Written (spec : Entries ω) (ov : Option (Value ω)) (m : Opts ω) : Prop where
  env : m.lookup "env" = some (.str (either spec "env").toS)
  value : m.lookup "value" = some (.str (either spec "value").toS)
  hosts : m.lookup "hosts" = strsUnlessEmpty (hostsOf spec)
  hostPatterns : m.lookup "host_patterns" = strsUnlessEmpty (strings spec "host_patterns")
  placeholder : m.lookup "placeholder" = strIf (either spec "placeholder")
  toggle : ∀ key ∈ toggles, m.lookup key = boolUnlessNil (fetchOpt spec key)
  onViolation : m.lookup "on_violation" = ov

/-- What `normalize_secret` writes. -/
theorem written_secretHash (spec : Entries ω) (ov : Option (Value ω)) :
    Written spec ov (secretHash spec ov) := by
  have hadds : AList.Adds _ ∅ (secretHash spec ov) :=
    ((((((AList.adds_insert _ "env" _).trans (AList.adds_insert _ "value" _)).trans
      (adds_insertSome _ "hosts" _)).trans (adds_insertSome _ "host_patterns" _)).trans
      (adds_insertSome _ "placeholder" _)).trans
      (adds_foldl_insertSome toggles (fun key => boolUnlessNil (fetchOpt spec key)) _)).trans
      (adds_insertSome _ "on_violation" _)
  constructor
  case toggle =>
    intro key hkey
    rw [hadds]
    simp only [toggles, List.mem_cons, List.not_mem_nil, or_false] at hkey
    rcases hkey with rfl | rfl | rfl | rfl | rfl <;> simp [AList.atKey, toggles]
  all_goals
    rw [hadds]
    simp [AList.atKey, toggles]

/-- When a secret is taken, and as what. -/
theorem normalizeSecret_eq_ok_iff {spec : Entries ω} {m : Opts ω} :
    normalizeSecret spec = .ok m ↔
      ((either spec "env").truthy = true ∧ (either spec "value").truthy = true) ∧
        (hostsOf spec ≠ [] ∨ strings spec "host_patterns" ≠ []) ∧
        ∃ ov, violationOf spec = .ok ov ∧ secretHash spec ov = m := by
  have hhosts : ((hostsOf spec).isEmpty && (strings spec "host_patterns").isEmpty) = true ↔
      ¬(hostsOf spec ≠ [] ∨ strings spec "host_patterns" ≠ []) := by
    rw [Bool.and_eq_true, List.isEmpty_iff, List.isEmpty_iff, not_or, not_not, not_not]
  unfold normalizeSecret
  by_cases hgiven : ((either spec "env").truthy && (either spec "value").truthy) = true
  · by_cases hnone : ((hostsOf spec).isEmpty && (strings spec "host_patterns").isEmpty) = true
    · rw [hgiven, if_neg (by simp), if_pos hnone]
      exact iff_of_false (fun h => by cases h) (fun h => hhosts.mp hnone h.2.1)
    · rw [hgiven, if_neg (by simp), if_neg hnone, Except.map_eq_ok_iff,
        and_iff_right (by simpa using hgiven), and_iff_right (not_not.mp (mt hhosts.mpr hnone))]
  · rw [Bool.eq_false_iff.mpr hgiven, if_pos (by simp)]
    exact iff_of_false (fun h => by cases h) (fun h => hgiven (by simpa using h.1))

/-- Where there is an action at all, it has to mean something. -/
def ActionAccepted (spec : Entries ω) : Prop :=
  (either spec "on_violation").truthy = true →
    (violationMeant (either spec "on_violation")).isSome = true

omit [Methods ω] in
/-- A key that holds an action reads as what the action means. -/
theorem optViolation_eq {m : Opts ω} {key : String} {w : Value ω} {meant : ViolationSpec}
    (hlookup : m.lookup key = some w) (hnil : w.isNil = false)
    (hread : parseViolationSpec w = .ok meant) :
    optViolation (strEntries m) key = .ok (some meant) := by
  rw [optViolation, optValue, opt_eq_some hlookup hnil rfl, Except.ok_bind]
  dsimp only
  rw [hread]
  rfl

/-- The action of a secret: none, or one that reads as it is meant. -/
theorem violationOf_eq_ok {spec : Entries ω} {ov : Option (Value ω)}
    (h : violationOf spec = .ok ov) :
    ActionAccepted spec ∧ ∀ m : Opts ω, m.lookup "on_violation" = ov →
      optViolation (strEntries m) "on_violation" = .ok (secretMeant spec).onViolation := by
  unfold violationOf at h
  by_cases htruthy : (either spec "on_violation").truthy = true
  · rw [if_pos htruthy] at h
    obtain ⟨w, hw, rfl⟩ := Except.map_eq_ok_iff.mp h
    obtain ⟨hnil, action, hmeant, hread⟩ := (conveys_normalizeViolation _).of_ok hw
    have hspec : (secretMeant spec).onViolation = some action := (if_pos htruthy).trans hmeant
    rw [ActionAccepted, hmeant, hspec]
    exact ⟨fun _ => rfl, fun m hlookup => optViolation_eq hlookup hnil hread⟩
  · rw [if_neg htruthy] at h
    obtain rfl := Except.ok.inj h
    have hmeant : (secretMeant spec).onViolation = none := if_neg htruthy
    rw [hmeant]
    refine ⟨fun hgiven => absurd hgiven htruthy, ?_⟩
    intro m hlookup
    rw [optViolation, optValue, opt_eq_none hlookup]
    rfl

/-- An action with a meaning is normalized. -/
theorem exists_violationOf {spec : Entries ω} (h : ActionAccepted spec) :
    ∃ ov, violationOf spec = .ok ov := by
  unfold violationOf
  by_cases htruthy : (either spec "on_violation").truthy = true
  · rw [if_pos htruthy]
    obtain ⟨w, hw⟩ := (conveys_normalizeViolation _).exists_ok (h htruthy)
    rw [hw]
    exact ⟨_, rfl⟩
  · rw [if_neg htruthy]
    exact ⟨_, rfl⟩

/-- The native layer refuses no Hash of the Ruby layer, and reads what is meant. -/
theorem parseSecret_secretHash {spec : Entries ω} {ov : Option (Value ω)}
    (hhosts : hostsOf spec ≠ [] ∨ strings spec "host_patterns" ≠ [])
    (hov : violationOf spec = .ok ov) :
    parseSecret (strEntries (secretHash spec ov)) = .ok (secretMeant spec) := by
  have hwritten := written_secretHash spec ov
  have htext : ∀ {key s}, (secretHash spec ov).lookup key = some (.str s) →
      secretStr (strEntries (secretHash spec ov)) key = .ok s := by
    intro key s hlookup
    rw [secretStr, optString_map_str (s := some s) hlookup]
    rfl
  -- the Ruby layer has refused a secret without hosts
  have hnone : ((hostsOf spec).isEmpty && (strings spec "host_patterns").isEmpty) = false := by
    rw [Bool.and_eq_false_iff, List.isEmpty_eq_false_iff, List.isEmpty_eq_false_iff]
    exact hhosts
  rw [parseSecret, htext hwritten.env, Except.ok_bind, htext hwritten.value, Except.ok_bind,
    optStringVec_strsUnlessEmpty hwritten.hosts, Except.ok_bind,
    optStringVec_strsUnlessEmpty hwritten.hostPatterns, Except.ok_bind, hnone,
    (violationOf_eq_ok hov).2 _ hwritten.onViolation, optString_strIf hwritten.placeholder,
    opt_boolUnlessNil (hwritten.toggle "require_tls" (by decide)),
    opt_boolUnlessNil (hwritten.toggle "inject_headers" (by decide)),
    opt_boolUnlessNil (hwritten.toggle "inject_basic_auth" (by decide)),
    opt_boolUnlessNil (hwritten.toggle "inject_query" (by decide)),
    opt_boolUnlessNil (hwritten.toggle "inject_body" (by decide)), secretMeant,
    ← hostsOf_eq_append]
  rfl

/-- A spec that is taken is accepted, and read back as it is meant. -/
theorem normalizeSecretSpec_eq_ok {v : Value ω} {m : Opts ω}
    (h : normalizeSecretSpec v = .ok m) :
    ∃ spec, v = .hash spec ∧ SecretAccepted spec ∧
      (parseSecret (strEntries m)).map SecretSpec.apply = .ok (secretMeant spec).apply := by
  cases v with
  | hash spec =>
    obtain ⟨⟨henv, hvalue⟩, hhosts, ov, hov, rfl⟩ := normalizeSecret_eq_ok_iff.mp h
    refine ⟨spec, rfl,
      ⟨henv, hvalue, (exists_host_iff spec).mp hhosts, (violationOf_eq_ok hov).1⟩, ?_⟩
    rw [parseSecret_secretHash hhosts hov]
    rfl
  | nil | bool | int | str | sym | arr | obj => cases h

/-- An accepted spec is taken. -/
theorem exists_normalizeSecretSpec {spec : Entries ω} (h : SecretAccepted spec) :
    ∃ m, normalizeSecretSpec (.hash spec) = .ok m := by
  obtain ⟨ov, hov⟩ := exists_violationOf h.onViolation
  exact ⟨_, normalizeSecret_eq_ok_iff.mpr
    ⟨⟨h.env, h.value⟩, (exists_host_iff spec).mpr h.hosts, ov, hov, rfl⟩⟩

/-- The specs are those that the Ruby layer finds. -/
theorem specsOf_iff {secrets : Value ω} {specs : List (Entries ω)} :
    SpecsOf secrets specs ↔ secretSpecs secrets = .ok (specs.map .hash) := by
  constructor
  · rintro (⟨henv⟩ | ⟨hnot, heq⟩)
    · rw [secretSpecs, if_pos henv]
      rfl
    · rw [← heq]
      cases secrets with
      | hash => cases hnot
      | nil | bool | int | str | sym | arr | obj => rfl
  · intro h
    cases secrets with
    | hash spec =>
      by_cases henv : hasEnv spec = true
      · simp only [secretSpecs, henv, if_true] at h
        have hlist := Except.ok.inj h
        cases specs with
        | nil => cases hlist
        | cons spec' rest =>
          -- A bare spec stands for the list of it alone.
          obtain ⟨hhead, htail⟩ := List.cons.inj hlist
          obtain rfl := Value.hash.inj hhead
          obtain rfl := List.map_eq_nil_iff.mp htail.symm
          exact .bare henv
      · simp only [secretSpecs, henv] at h
        cases h
    | nil | bool | int | str | sym | arr | obj => exact .list rfl (Except.ok.inj h)

omit [Methods ω] in
/-- Values that are all Hashes. -/
theorem exists_specs {P : Entries ω → Prop} {values : List (Value ω)}
    (h : ∀ v ∈ values, ∃ spec, v = .hash spec ∧ P spec) :
    ∃ specs : List (Entries ω), values = specs.map .hash ∧ ∀ spec ∈ specs, P spec := by
  induction values with
  | nil => exact ⟨[], rfl, by simp⟩
  | cons v values ih =>
    obtain ⟨⟨spec, rfl, hspec⟩, hrest⟩ := List.forall_mem_cons.mp h
    obtain ⟨specs, rfl, hspecs⟩ := ih hrest
    exact ⟨spec :: specs, rfl, List.forall_mem_cons.mpr ⟨hspec, hspecs⟩⟩

/-- The secrets that are taken are those whose specs are well formed, and the native layer, which
refuses none of them, makes exactly the calls that they mean. -/
theorem secrets_passed_on (secrets : Value ω) :
    ((∃ outs, normalizeSecrets secrets = .ok outs) ↔
      ∃ specs, SpecsOf secrets specs ∧ ∀ spec ∈ specs, SecretAccepted spec) ∧
    (∀ outs specs, normalizeSecrets secrets = .ok outs → SpecsOf secrets specs →
      ∀ opts : Opts ω, opts.lookup "secrets" = some (.arr (outs.map strHash)) →
        buildSecrets (strEntries opts) =
          .ok (specs.map fun spec => (secretMeant spec).apply)) ∧
    ∀ v : Value ω, ((∃ w, normalizeViolation v = .ok w) ↔ (violationMeant v).isSome = true) ∧
      ∀ w, normalizeViolation v = .ok w →
        ∀ opts : Opts ω, opts.lookup "on_secret_violation" = some w →
          buildViolation (strEntries opts) = .ok ((violationMeant v).map ViolationSpec.apply) := by
  refine ⟨⟨?_, ?_⟩, ?_, fun v => ⟨⟨?_, (conveys_normalizeViolation v).exists_ok⟩, ?_⟩⟩
  -- What has been normalized was a list of Hashes, each of them acceptable.
  · rintro ⟨outs, h⟩
    obtain ⟨values, hvalues, houts⟩ := Except.bind_eq_ok_iff.mp h
    have hall : ∀ v ∈ values, ∃ spec, v = .hash spec ∧ SecretAccepted spec := by
      intro v hv
      obtain ⟨m, -, hm⟩ := Except.exists_of_mapM_eq_ok houts hv
      obtain ⟨spec, rfl, haccepted, -⟩ := normalizeSecretSpec_eq_ok hm
      exact ⟨spec, rfl, haccepted⟩
    obtain ⟨specs, rfl, haccepted⟩ := exists_specs hall
    exact ⟨specs, specsOf_iff.mpr hvalues, haccepted⟩
  · -- Conversely, a list of acceptable Hashes is normalized one by one.
    rintro ⟨specs, hspecs, haccepted⟩
    have hmap : ∃ outs, (specs.map Value.hash).mapM normalizeSecretSpec = .ok outs := by
      rw [Except.exists_mapM_eq_ok_iff]
      intro v hv
      obtain ⟨spec, hspec, rfl⟩ := List.mem_map.mp hv
      exact exists_normalizeSecretSpec (haccepted spec hspec)
    obtain ⟨outs, houts⟩ := hmap
    exact ⟨outs, Except.bind_eq_ok_iff.mpr ⟨_, specsOf_iff.mp hspecs, houts⟩⟩
  · intro outs specs h hspecs opts hlookup
    obtain ⟨values, hvalues, houts⟩ := Except.bind_eq_ok_iff.mp h
    obtain rfl := Except.ok.inj (hvalues.symm.trans (specsOf_iff.mp hspecs))
    rw [buildSecrets, optHashVec_map_strHash hlookup, Except.ok_bind, List.mapM_map,
      Except.mapM_eq_ok_iff, List.forall₂_map_right_iff]
    -- Spec by spec, the native layer reads back what the spec means.
    refine (List.forall₂_map_left_iff.mp (Except.mapM_eq_ok_iff.mp houts)).flip.imp ?_
    intro m spec hm
    obtain ⟨spec', hspec', -, hread⟩ := normalizeSecretSpec_eq_ok hm
    obtain rfl := Value.hash.inj hspec'
    exact hread
  · rintro ⟨w, hw⟩
    obtain ⟨-, action, hmeant, -⟩ := (conveys_normalizeViolation v).of_ok hw
    rw [hmeant]
    rfl
  · intro w hw opts hlookup
    obtain ⟨hnil, action, hmeant, hread⟩ := (conveys_normalizeViolation v).of_ok hw
    rw [buildViolation, optViolation_eq hlookup hnil hread, hmeant]
    rfl

end Meaning

/-- A secret with a toggle that is switched off and an action in another spelling. -/
def tokenSecret : Entries Unit :=
  [(.sym "env", .str "TOKEN"), (.str "value", .str "s3cr3t"), (.sym "host", .str "api.example.com"),
    (.sym "inject_query", .bool false), (.sym "on_violation", .str " Block-And-Log ")]

/-- A secret for one host, with its calls. -/
theorem secrets_passed_on_token :
    ∃ outs, normalizeSecrets (.arr [.hash tokenSecret]) = .ok outs ∧
      buildSecrets (strEntries (AList.singleton "secrets" (.arr (outs.map strHash)) : Opts Unit)) =
        .ok [[.env "TOKEN", .value "s3cr3t", .allowHost "api.example.com", .injectQuery false,
          .onViolation [.blockAndLog]]] := by
  obtain ⟨-, hcalls, -⟩ := secrets_passed_on (ω := Unit) (.arr [.hash tokenSecret])
  exact ⟨_, rfl, hcalls _ [tokenSecret] rfl (.list rfl rfl) _ rfl⟩

end MicrosandboxRb.Secrets
