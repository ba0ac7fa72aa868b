import MicrosandboxRb.Lib.RubyValue

/-!
# Network policies: the Ruby layer

The factories for destinations, rules and policies, and the normalization of the `network:` argument
into the Hash that the native layer reads (`network.rb`, and `apply_network_opts` in `sandbox.rb`).

## Main definitions

* `Rule.build`: the rule Hash behind `Rule.allow` and `Rule.deny`;
* `normalizeRule`: the wire form of a rule Hash;
* `NetworkPolicy.coerce`: the wire form of a `network:` argument;
* `applyNetworkOpts`: the option under which the wire form travels.
-/

namespace MicrosandboxRb.Network

open Ruby

variable {ω : Type}

/-- A normalized Hash with String keys. -/
abbrev Wire (ω : Type) := AssocMap String (Value ω)

section Normalize

variable [Methods ω]

/-! ## Destinations -/

namespace Destination

/-- A destination with a kind and a value. -/
def typed (kind value : String) : Value ω :=
  .hash [(.str "destination_kind", .str kind), (.str "destination", .str value)]

/-- `Destination.any`. -/
def any : Value ω := .hash [(.str "destination_kind", .str "any")]

/-- `Destination.ip`. -/
def ip (value : Value ω) : Value ω := typed "ip" value.toS

/-- `Destination.cidr`. -/
def cidr (value : Value ω) : Value ω := typed "cidr" value.toS

/-- `Destination.domain`. -/
def domain (value : Value ω) : Value ω := typed "domain" value.toS

/-- `Destination.domain_suffix`. -/
def domainSuffix (value : Value ω) : Value ω := typed "domain_suffix" value.toS

/-- `value.to_s.tr("_", "-")` under the kind `group`. -/
def group (value : Value ω) : Value ω :=
  typed "group" (String.ofList (value.toS.toList.map fun c => if c = '_' then '-' else c))

end Destination

/-! ## Rules -/

namespace Rule

/-- The keyword arguments of `Rule.allow` and `Rule.deny`. -/
structure Args (ω : Type) where
  destination : Value ω := .nil
  direction : Value ω := .sym "egress"
  protocol : Value ω := .nil
  protocols : Value ω := .nil
  port : Value ω := .nil
  ports : Value ω := .nil

/-- `normalize_destination`: a text, a Hash or nothing. -/
def normalizeDestination (dest : Value ω) : Except Exception (Wire ω) :=
  match dest with
  | .nil => .ok ∅
  | .hash es => .ok (transformKeys Value.toS es)
  | .str s => .ok (AList.singleton "destination" (.str s))
  | .sym s => .ok (AList.singleton "destination" (.str s))
  | dest => .error (.argumentError ("invalid rule destination: " ++ dest.inspect))

/-- `(Array(plural) + Array(singular)).compact.map(&:to_s)`. -/
def strList (plural singular : Value ω) : List String :=
  (Value.compact (plural.array ++ singular.array)).map Value.toS

/-- `Rule.build`, which the constructors of rules share. -/
def build (action : String) (args : Args ω) : Except Exception (Wire ω) := do
  let rule : Wire ω := AList.insert "direction" (.str args.direction.toS)
    (AList.singleton "action" (.str action))
  let dest ← normalizeDestination args.destination
  let rule := merge rule dest
  let rule := insertSome rule "protocols" (strsUnlessEmpty (strList args.protocols args.protocol))
  return insertSome rule "ports" (strsUnlessEmpty (strList args.ports args.port))

/-- `Rule.allow`. -/
def allow (args : Args ω) : Except Exception (Wire ω) := build "allow" args

/-- `Rule.deny`. -/
def deny (args : Args ω) : Except Exception (Wire ω) := build "deny" args

/-- Plain DNS to the sandbox gateway. -/
def dns (action : String) : Value ω :=
  .hash [(.str "action", .str action), (.str "direction", .str "egress"),
    (.str "destination_kind", .str "group"), (.str "destination", .str "host"),
    (.str "protocols", .arr [.str "udp", .str "tcp"]), (.str "ports", .arr [.str "53"])]

/-- `Rule.allow_dns`. -/
def allowDns : Value ω := dns "allow"

/-- `Rule.deny_dns`. -/
def denyDns : Value ω := dns "deny"

end Rule

/-- Resolve a rule's destination onto the wire Hash `out`. -/
def normalizeRuleDestination (sym out : Wire ω) : Wire ω :=
  match sym.lookup "destination_kind" with
  -- a kind beside the destination is taken as it is
  | some kind =>
    insertSome (out.insert "destination_kind" (.str kind.toS)) "destination"
      (strUnlessNil (index sym "destination"))
  | none =>
    match index sym "destination" with
    | .hash es =>
      let dest := transformKeys Value.toS es
      let out := insertSome out "destination_kind" (strIf (index dest "destination_kind"))
      insertSome out "destination" ((dest.lookup "destination").map fun v => .str v.toS)
    | v => insertSome out "destination" (strUnlessNil v)

/-- Canonicalize a rule Hash, built by `Rule` or written by hand, into the shape the native parser
reads. -/
def normalizeRule (rule : Value ω) : Except Exception (Wire ω) :=
  match rule with
  | .hash es =>
    let sym := transformKeys Value.toS es
    let out := insertSome ∅ "action" (strIf (index sym "action"))
    let out := insertSome out "direction" (strIf (index sym "direction"))
    let out := normalizeRuleDestination sym out
    let protos := Rule.strList (index sym "protocols") (index sym "protocol")
    let out := insertSome out "protocols" (strsUnlessEmpty protos)
    let ports := Rule.strList (index sym "ports") (index sym "port")
    .ok (insertSome out "ports" (strsUnlessEmpty ports))
  | rule =>
    .error (.argumentError ("rule must be a Hash (use Microsandbox::Rule.allow/deny): " ++
      rule.inspect))

/-! ## Policies -/

namespace NetworkPolicy

/-- Composable profile names. -/
def PROFILES : List String := ["public", "private", "host"]

/-- Canonical preset names under every accepted alias. -/
def PRESET_ALIASES : List (String × String) :=
  [("none", "none"), ("disabled", "none"), ("disable", "none"), ("airgapped", "none"),
    ("all", "allow_all"), ("allow_all", "allow_all"), ("allow-all", "allow_all")]

/-- Removed preset names, with the profiles that replace them. -/
def REMOVED_PRESETS : List (String × String) :=
  [("public_only", "network: [:public] (or NetworkPolicy.from_profiles(:public); " ++
      "this is still the default policy)"),
    ("public-only", "network: [:public]"),
    ("non_local", "network: [:public, :private] " ++
      "(or NetworkPolicy.from_profiles(:public, :private))"),
    ("non-local", "network: [:public, :private]"),
    ("nonlocal", "network: [:public, :private]")]

/-- `canonical_preset`, which points a removed preset at its replacement. -/
def canonicalPreset (name : Value ω) : Except Exception String :=
  let key := downcase name.toS
  -- a name that was removed is refused with the one that replaces it
  match REMOVED_PRESETS.lookup key with
  | some replacement =>
    .error (.argumentError ("the " ++ name.inspect ++
      " network preset was removed in runtime v0.6.7; use " ++ replacement))
  | none =>
    match PRESET_ALIASES.lookup key with
    | some preset => .ok preset
    | none =>
      .error (.argumentError ("unknown network preset " ++ name.inspect ++
        " (expected none/allow_all, or profiles :public/:private/:host)"))

/-- `action_str`. -/
def actionStr (action : Value ω) : Except Exception String :=
  match downcase action.toS with
  | "allow" => .ok "allow"
  | "deny" => .ok "deny"
  | _ =>
    .error (.argumentError ("network action must be :allow or :deny (got " ++ action.inspect ++ ")"))

/-- `action_str(v)` as a wire value, unless the key is left out. -/
def actionUnless (skip : Bool) (v : Value ω) : Except Exception (Option (Value ω)) :=
  if skip then .ok none else (actionStr v).map fun s => some (.str s)

/-- `normalize_profile`. -/
def normalizeProfile (p : Value ω) : Except Exception String :=
  let key := downcase p.toS
  if key ∈ PROFILES then .ok key
  else
    match REMOVED_PRESETS.lookup key with
    | some replacement =>
      .error (.argumentError (p.inspect ++
        " is a removed v0.6.6 network preset, not a profile; use " ++ replacement))
    | none =>
      .error (.argumentError ("unknown network profile " ++ p.inspect ++
        " (expected :public/:private/:host)"))

/-- `normalize_profiles`: nested lists are flattened first. -/
def normalizeProfiles (profiles : Value ω) : Except Exception (List String) :=
  (Value.flattenList profiles.array).mapM normalizeProfile

/-- Append the two deny lists to a wire Hash, omitting empty lists. -/
def addDenyLists (h : Wire ω) (denyDomains denyDomainSuffixes : Value ω) : Wire ω :=
  let h := insertSome h "deny_domains" (strsUnlessEmpty (denyDomains.array.map Value.toS))
  insertSome h "deny_domain_suffixes" (strsUnlessEmpty (denyDomainSuffixes.array.map Value.toS))

/-- The keyword arguments of `NetworkPolicy.custom`. -/
structure CustomArgs (ω : Type) where
  defaultEgress : Value ω := .sym "deny"
  defaultIngress : Value ω := .sym "allow"
  rules : Value ω := .arr []
  denyDomains : Value ω := .arr []
  denyDomainSuffixes : Value ω := .arr []

/-- `NetworkPolicy.custom`. -/
def custom (args : CustomArgs ω) : Except Exception (Wire ω) := do
  let h := insertSome ∅ "default_egress"
    (← actionUnless args.defaultEgress.isNil args.defaultEgress)
  let h := insertSome h "default_ingress"
    (← actionUnless args.defaultIngress.isNil args.defaultIngress)
  let rules ← args.rules.array.mapM normalizeRule
  let h := h.insert "rules" (.arr (rules.map strHash))
  return addDenyLists h args.denyDomains args.denyDomainSuffixes

/-- `NetworkPolicy.from_profiles`. -/
def fromProfiles (profiles : List (Value ω)) : Except Exception (Wire ω) := do
  let list ← normalizeProfiles (.arr profiles)
  if list.isEmpty then custom {} else .ok (AList.singleton "profiles" (.arr (list.map .str)))

/-- `NetworkPolicy.preset`. -/
def preset (name : Value ω) : Except Exception (Wire ω) := do
  return AList.singleton "preset" (.str (← canonicalPreset name))

/-- A policy object, as the call that builds it. The object keeps the wire Hash it was built with.
An argument of `custom` that is left out has its default. -/
inductive Call (ω : Type) where
  | fromProfiles (profiles : List (Value ω))
  | preset (name : Value ω)
  | custom (args : CustomArgs ω)

/-- `NetworkPolicy.none`. -/
def none : Call ω := .preset (.str "none")

/-- `NetworkPolicy.allow_all`. -/
def allowAll : Call ω := .preset (.str "allow_all")

/-- `to_h` of the policy that the call builds. -/
def Call.toH : Call ω → Except Exception (Wire ω)
  | .fromProfiles profiles => NetworkPolicy.fromProfiles profiles
  | .preset name => NetworkPolicy.preset name
  | .custom args => NetworkPolicy.custom args

/-- A name is one profile, a terminal preset, or `default`, which is the profile `public`. -/
def coerceName (name : Value ω) : Except Exception (Wire ω) :=
  let key := downcase name.toS
  if key ∈ PROFILES then .ok (AList.singleton "profiles" (.arr [.str key]))
  else if key = "default" then .ok (AList.singleton "profiles" (.arr [.str "public"]))
  else do return AList.singleton "preset" (.str (← canonicalPreset (.str key : Value ω)))

/-- The Hash has `rules:`, `default_egress:` or `default_ingress:`. -/
def hasCustomKey (sym : Wire ω) : Bool :=
  (sym.lookup "rules").isSome || (sym.lookup "default_egress").isSome ||
    (sym.lookup "default_ingress").isSome

/-- A preset with its deny lists. -/
def fromPresetHash (sym : Wire ω) : Except Exception (Wire ω) :=
  if hasCustomKey sym then
    .error (.argumentError ("network preset: cannot be combined with rules:/default_egress:/" ++
      "default_ingress: (the preset already defines its rules and defaults); " ++
      "only deny_domains:/deny_domain_suffixes: may be layered on a preset"))
  else do
    let h := AList.singleton "preset" (.str (← canonicalPreset (index sym "preset")))
    return addDenyLists h (index sym "deny_domains") (index sym "deny_domain_suffixes")

/-- No rules, with the defaults deny for egress and allow for ingress. -/
def emptyPolicy : Wire ω :=
  AList.insert "rules" (.arr []) (AList.insert "default_ingress" (.str "allow")
    (AList.singleton "default_egress" (.str "deny")))

/-- `profiles: []` alone is the empty composed policy. -/
def orEmptyPolicy (h : Wire ω) : Wire ω := if h.keys = [] then emptyPolicy else h

/-- Profiles with everything they compose with. -/
def fromProfilesHash (sym : Wire ω) (profiles : List String) : Except Exception (Wire ω) := do
  let h := insertSome ∅ "profiles" (strsUnlessEmpty profiles)
  let egress := index sym "default_egress"
  let h := insertSome h "default_egress" (← actionUnless (!egress.truthy) egress)
  let ingress := index sym "default_ingress"
  let h := insertSome h "default_ingress" (← actionUnless (!ingress.truthy) ingress)
  let rules ← (index sym "rules").array.mapM normalizeRule
  let h := insertSome h "rules"
    (if rules.isEmpty then Option.none else some (.arr (rules.map strHash)))
  let h := addDenyLists h (index sym "deny_domains") (index sym "deny_domain_suffixes")
  return orEmptyPolicy h

/-- `value || []`. -/
def orEmpty (v : Value ω) : Value ω := if v.truthy then v else .arr []

/-- An explicit custom policy. -/
def fromCustomHash (sym : Wire ω) : Except Exception (Wire ω) :=
  custom {
    defaultEgress := (sym.lookup "default_egress").getD (.sym "deny")
    defaultIngress := (sym.lookup "default_ingress").getD (.sym "allow")
    rules := orEmpty (index sym "rules")
    denyDomains := orEmpty (index sym "deny_domains")
    denyDomainSuffixes := orEmpty (index sym "deny_domain_suffixes") }

/-- Deny lists alone keep the rest of the network reachable. An empty Hash sets no policy. -/
def fromDenyListsHash (sym : Wire ω) : Wire ω :=
  let dd := (index sym "deny_domains").array.map Value.toS
  let ds := (index sym "deny_domain_suffixes").array.map Value.toS
  if dd.isEmpty && ds.isEmpty then ∅
  else
    let h : Wire ω := AList.insert "default_ingress" (.str "allow")
      (AList.singleton "default_egress" (.str "allow"))
    addDenyLists h (.arr (dd.map .str)) (.arr (ds.map .str))

/-- The profiles, if the Hash has `profiles:`. -/
def givenProfiles (sym : Wire ω) : Except Exception (Option (List String)) :=
  match sym.lookup "profiles" with
  | some profiles => (normalizeProfiles profiles).map some
  | Option.none => .ok Option.none

/-- `NetworkPolicy.from_hash`. -/
def fromHash (hash : Entries ω) : Except Exception (Wire ω) := do
  let sym ← transformKeysToSym hash
  let profiles ← givenProfiles sym
  -- the key alone makes a preset, also with `nil`
  if profiles.isSome && (sym.lookup "preset").isSome then
    .error (.argumentError "network profiles: and preset: are mutually exclusive")
  else if (sym.lookup "preset").isSome then fromPresetHash sym
  else
    match profiles with
    | some profiles => fromProfilesHash sym profiles
    | Option.none => if hasCustomKey sym then fromCustomHash sym else .ok (fromDenyListsHash sym)

end NetworkPolicy

/-- What the caller passes as `network:`. -/
inductive NetworkArg (ω : Type) where
  | policy (call : NetworkPolicy.Call ω)
  | value (v : Value ω)

/-- Coerce a `network:` argument into a normalized wire Hash. -/
def NetworkPolicy.coerce (network : NetworkArg ω) : Except Exception (Wire ω) :=
  match network with
  | .policy call => call.toH
  | .value (.arr xs) => fromProfiles xs
  | .value (.str s) => coerceName (.str s : Value ω)
  | .value (.sym s) => coerceName (.sym s : Value ω)
  | .value (.hash es) => fromHash es
  | .value v =>
    .error (.argumentError
      ("network: expects profile(s) (:public/:private/:host, or an Array of them), " ++
        "a preset (:none/:allow_all), a Microsandbox::NetworkPolicy, or a Hash " ++
        "(got " ++ v.className ++ ")"))

end Normalize

/-- Put the wire form of `network:` under the preset, the profiles or the custom policy option. -/
def routeNetwork (opts norm : Wire ω) : Wire ω :=
  -- `network: {}` leaves the default policy in place
  if norm.keys = [] then opts
  else if norm.keys = ["preset"] then opts.insert "network" (index norm "preset")
  else if norm.keys = ["profiles"] then opts.insert "network_profiles" (index norm "profiles")
  else opts.insert "network_policy" (strHash norm)

/-- `apply_network_opts`: the value is coerced, and routed by what it became. -/
def applyNetworkOpts [Methods ω] (opts : Wire ω) (network : NetworkArg ω) :
    Except Exception (Wire ω) := do
  let norm ← NetworkPolicy.coerce network
  return routeNetwork opts norm

end MicrosandboxRb.Network
