import MicrosandboxRb.Conv
import MicrosandboxRb.Error
import MicrosandboxRb.Lib.FirstMatch
import MicrosandboxRb.Lib.RustNet
import MicrosandboxRb.Lib.RustStr

/-!
# Network policies: the native layer

The parser for the wire form of rules and policies and the network routes of `build_builder`
(`sandbox.rs`), down to the policy that is handed to the core.

The core and the `ipnetwork` crate are parameters: the types of networks and domain names with their
parsers, the expansion of profiles, the preset policies, and which flows a rule applies to. A policy
decides a flow by its first rule that applies, and else by its default for the direction.

## Main definitions

* `parseRule`, `parseDestination`, `parseNetworkPolicy`: the parser;
* `networkRoutes`: the network part of `build_builder`;
* `Core.decide`: the decision of a policy.
-/

namespace MicrosandboxRb.Native

open Ruby Conv RustNet

variable {ω : Type}

/-! ## The core -/

/-- What a rule does with a flow. -/
inductive Action where
  | allow
  | deny
deriving DecidableEq, Repr

/-- The directions a rule covers. -/
inductive Direction where
  | egress
  | ingress
  | any
deriving DecidableEq, Repr

/-- The protocols a rule can name. -/
inductive Protocol where
  | tcp
  | udp
  | icmpv4
  | icmpv6
deriving DecidableEq, Repr

/-- The groups of addresses a rule can name. -/
inductive DestinationGroup where
  | publicNet
  | loopback
  | privateNet
  | linkLocal
  | metadata
  | multicast
  | host
deriving DecidableEq, Repr

/-- The profiles of the core. -/
inductive NetworkProfile where
  | publicNet
  | privateNet
  | host
deriving DecidableEq, Repr

/-- An inclusive range of ports. -/
structure PortRange where
  lo : UInt16
  hi : UInt16
  lo_le_hi : lo ≤ hi
deriving DecidableEq

/-- The range of one port. -/
def PortRange.single (p : UInt16) : PortRange := ⟨p, p, UInt16.le_refl p⟩

/-- The types whose values the extension only passes on. -/
structure CoreTypes where
  IpNetwork : Type
  DomainName : Type
  DomainSuffix : Type
  -- a connection attempt as the policy sees it
  Flow : Type

variable {T : CoreTypes}

/-- What a rule applies to. -/
inductive Destination (T : CoreTypes) where
  | any
  | cidr (network : T.IpNetwork)
  | domain (name : T.DomainName)
  | domainSuffix (suffix : T.DomainSuffix)
  | group (group : DestinationGroup)

/-- A rule of a network policy. -/
structure Rule (T : CoreTypes) where
  direction : Direction
  destination : Destination T
  -- no protocol stands for all of them, and so does no port
  protocols : List Protocol
  ports : List PortRange
  action : Action

/-- A policy: its rules, tried in order, and what holds where none applies. -/
structure NetworkPolicy (T : CoreTypes) where
  defaultEgress : Action
  defaultIngress : Action
  rules : List (Rule T)

/-- The direction of a flow. -/
inductive FlowDirection where
  | egress
  | ingress
deriving DecidableEq, Repr

/-- What a policy does with a flow no rule applies to. -/
def NetworkPolicy.default (policy : NetworkPolicy T) : FlowDirection → Action
  | .egress => policy.defaultEgress
  | .ingress => policy.defaultIngress

/-- What the extension calls, and what decides a flow. A parser returns the text of its error. -/
structure Core (T : CoreTypes) where
  parseDomainName : String → Except String T.DomainName
  parseDomainSuffix : String → Except String T.DomainSuffix
  -- `ipnetwork::IpNetwork`
  parseIpNetwork : String → Except String T.IpNetwork
  newIpNetwork : IpAddr → (prefixLen : ℕ) → Except String T.IpNetwork
  denyEgress : Destination T → Rule T
  fromProfiles : List NetworkProfile → NetworkPolicy T
  -- `NetworkPolicy::none` and `NetworkPolicy::allow_all`
  nonePolicy : NetworkPolicy T
  allowAllPolicy : NetworkPolicy T
  direction : T.Flow → FlowDirection
  -- the flow goes to, or comes from, the destination
  reaches : Destination T → T.Flow → Bool
  applies : Rule T → T.Flow → Bool

/-- First match wins, per direction. -/
def Core.decide (core : Core T) (policy : NetworkPolicy T) (flow : T.Flow) : Action :=
  firstMatch core.applies Rule.action policy.rules flow (policy.default (core.direction flow))

/-- What the extension relies on: `deny_egress` denies the egress to a destination, and the preset
`none` blocks all network access. -/
structure Core.Documented (core : Core T) : Prop where
  action_denyEgress : ∀ d, (core.denyEgress d).action = .deny
  applies_denyEgress : ∀ d flow, core.applies (core.denyEgress d) flow = true ↔
    core.direction flow = .egress ∧ core.reaches d flow = true
  decide_nonePolicy : ∀ flow, core.decide core.nonePolicy flow = .deny

/-! ## Names -/

/-- `action_from_str`. -/
def actionFromStr (s : String) : Except Exception Action :=
  match s with
  | "allow" => .ok .allow
  | "deny" => .ok .deny
  | other =>
    .error (baseError s!"unknown network action {RustStr.debug other} (expected allow/deny)")

/-- `direction_from_str`. -/
def directionFromStr (s : String) : Except Exception Direction :=
  match s with
  | "egress" => .ok .egress
  | "ingress" => .ok .ingress
  | "any" => .ok .any
  | other =>
    .error (baseError s!"unknown rule direction {RustStr.debug other} (expected egress/ingress/any)")

/-- `protocol_from_str`. -/
def protocolFromStr (s : String) : Except Exception Protocol :=
  match s with
  | "tcp" => .ok .tcp
  | "udp" => .ok .udp
  | "icmpv4" => .ok .icmpv4
  | "icmpv6" => .ok .icmpv6
  | other =>
    .error (baseError
      s!"unknown protocol {RustStr.debug other} (expected tcp/udp/icmpv4/icmpv6)")

/-- `network_profile_from_str`. -/
def networkProfileFromStr (s : String) : Except Exception NetworkProfile :=
  match s with
  | "public" => .ok .publicNet
  | "private" => .ok .privateNet
  | "host" => .ok .host
  | other =>
    .error (baseError
      s!"unknown network profile {RustStr.debug other} (expected public/private/host)")

/-- `network_preset`: the presets that are a policy. -/
def networkPreset (core : Core T) (p : String) : Except Exception (NetworkPolicy T) :=
  match p with
  | "none" | "disabled" | "disable" | "airgapped" => .ok core.nonePolicy
  | "all" | "allow_all" | "allow-all" => .ok core.allowAllPolicy
  | other =>
    .error (baseError (s!"unknown network preset {RustStr.debug other} " ++
      "(expected none/allow_all; the removed public_only/non_local presets are replaced by " ++
      "composable profiles)"))

/-! ## Destinations -/

section Destinations

variable (core : Core T)

/-- `parse_ip_destination`. -/
def parseIpDestination (raw : String) : Except Exception (Destination T) :=
  match parseIpAddr raw with
  | none => .error (baseError s!"invalid IP address {RustStr.debug raw}: {addrParseError}")
  | some ip =>
    match core.newIpNetwork ip (if ip.isIpv4 then 32 else 128) with
    | .ok cidr => .ok (.cidr cidr)
    | .error e => .error (baseError s!"invalid IP address {RustStr.debug raw}: {e}")

/-- `parse_cidr_destination`. -/
def parseCidrDestination (raw : String) : Except Exception (Destination T) :=
  match core.parseIpNetwork raw with
  | .ok cidr => .ok (.cidr cidr)
  | .error e => .error (baseError s!"invalid CIDR {RustStr.debug raw}: {e}")

/-- `parse_domain_destination`. -/
def parseDomainDestination (raw : String) : Except Exception (Destination T) :=
  match core.parseDomainName raw with
  | .ok name => .ok (.domain name)
  | .error e => .error (baseError s!"invalid domain {RustStr.debug raw}: {e}")

/-- `parse_domain_suffix_destination`. -/
def parseDomainSuffixDestination (raw : String) : Except Exception (Destination T) :=
  match core.parseDomainSuffix raw with
  | .ok name => .ok (.domainSuffix name)
  | .error e => .error (baseError s!"invalid domain suffix {RustStr.debug raw}: {e}")

/-- `maybe_group_destination`. -/
def maybeGroupDestination (raw : String) : Option (Destination T) :=
  match raw with
  | "public" => some (.group .publicNet)
  | "loopback" => some (.group .loopback)
  | "private" => some (.group .privateNet)
  | "link-local" | "link_local" => some (.group .linkLocal)
  | "metadata" => some (.group .metadata)
  | "multicast" => some (.group .multicast)
  | "host" => some (.group .host)
  | _ => none

/-- `parse_group_destination`. -/
def parseGroupDestination (raw : String) : Except Exception (Destination T) :=
  match maybeGroupDestination raw with
  | some dest => .ok dest
  | none => .error (baseError s!"unknown destination group {RustStr.debug raw}")

/-- Classify a destination that is given without a kind. -/
def parseShorthandDestination (raw : Option String) : Except Exception (Destination T) :=
  match raw with
  | none => .ok .any
  | some raw =>
    if raw = "*" then .ok .any
    else
      match RustStr.stripPrefix "domain=" raw with
      | some rest => parseDomainDestination core rest
      | none =>
        match RustStr.stripPrefix "suffix=" raw with
        | some rest => parseDomainSuffixDestination core rest
        | none =>
          match maybeGroupDestination raw with
          | some dest => .ok dest
          | none =>
            -- from here on the shape of the text decides
            if RustStr.startsWith '.' raw then parseDomainSuffixDestination core raw
            else if RustStr.contains '/' raw then parseCidrDestination core raw
            else if (parseIpAddr raw).isSome then parseIpDestination core raw
            else parseDomainDestination core raw

/-- The raw value of a destination that is given with its kind. -/
def required (raw : Option String) (kind : String) : Except Exception String :=
  match raw with
  | some raw => .ok raw
  | none =>
    .error (baseError s!"destination is required for destination kind {RustStr.debug kind}")

/-- Resolve a destination from its kind and raw value, or from the raw value alone. -/
def parseDestination (kind raw : Option String) : Except Exception (Destination T) :=
  match kind with
  | some "any" => .ok .any
  | some "ip" => required raw "ip" >>= parseIpDestination core
  | some "cidr" => required raw "cidr" >>= parseCidrDestination core
  | some "domain" => required raw "domain" >>= parseDomainDestination core
  | some "domain_suffix" | some "domain-suffix" =>
    required raw "domain_suffix" >>= parseDomainSuffixDestination core
  | some "group" => required raw "group" >>= parseGroupDestination
  | some other => .error (baseError s!"unknown destination kind {RustStr.debug other}")
  | none => parseShorthandDestination core raw

end Destinations

/-! ## Rules -/

/-- Parse a single port (`443`) or an inclusive range (`8000-9000`). -/
def parsePortRange (raw : String) : Except Exception PortRange :=
  let invalid := baseError s!"invalid port {RustStr.debug raw} (expected N or N-M)"
  match RustStr.splitOnce '-' raw with
  | some (lo, hi) =>
    match RustStr.parseU16 (RustStr.trim lo) with
    | none => .error invalid
    | some lo =>
      match RustStr.parseU16 (RustStr.trim hi) with
      | none => .error invalid
      | some hi =>
        if h : lo > hi then
          .error (baseError
            s!"invalid port range {RustStr.debug raw}: low {lo} exceeds high {hi}")
        else .ok ⟨lo, hi, UInt16.not_lt.mp h⟩
  | none =>
    match RustStr.parseU16 (RustStr.trim raw) with
    | some p => .ok (.single p)
    | none => .error invalid

/-- Parse every string, dropping the repetitions of a value. -/
def parseDistinct {α : Type} [DecidableEq α] (parse : String → Except Exception α)
    (raws : List String) : Except Exception (List α) :=
  raws.foldlM (fun acc raw => do
    let a ← parse raw
    return if a ∈ acc then acc else acc ++ [a]) []

/-- Read a required string. -/
def patchStr (h : RHash ω) (key : String) : Except Exception String := do
  match ← optString h key with
  | some s => return s
  | none => throw (baseError s!"patch is missing required key :{key}")

/-- A rule without a direction is about egress. -/
def ruleDirection (s : Option String) : Except Exception Direction :=
  match s with
  | some s => directionFromStr s
  | none => .ok .egress

/-- Parse a single rule Hash. -/
def parseRule (core : Core T) (rd : RHash ω) : Except Exception (Rule T) := do
  let action ← actionFromStr (← patchStr rd "action")
  let direction ← ruleDirection (← optString rd "direction")
  let kind ← optString rd "destination_kind"
  let raw ← optString rd "destination"
  let destination ← parseDestination core kind raw
  let protocols ← parseDistinct protocolFromStr (← optStringVec rd "protocols")
  let ports ← parseDistinct parsePortRange (← optStringVec rd "ports")
  return { direction, destination, protocols, ports, action }

/-! ## Policies -/

section Policies

variable (core : Core T)

/-- A deny-egress rule for an entry of a deny list. -/
def parseDeny {α : Type} (key : String) (parse : String → Except String α)
    (dest : α → Destination T) (raw : String) : Except Exception (Rule T) :=
  match parse raw with
  | .ok a => .ok (core.denyEgress (dest a))
  | .error e => .error (baseError s!"{key} {RustStr.debug raw}: {e}")

/-- The profiles or the preset that the policy builds on. -/
def parseBase (profileNames : List String) (preset : Option String) :
    Except Exception (Option (NetworkPolicy T)) :=
  if !profileNames.isEmpty && preset.isSome then
    .error (baseError "network profiles: and preset: are mutually exclusive")
  else if profileNames.isEmpty then
    match preset with
    | some p => (networkPreset core p).map some
    | none => .ok none
  else do
    let profiles ← profileNames.mapM networkProfileFromStr
    return some (core.fromProfiles profiles)

/-- The explicit default if there is one, else `base`. -/
def defaultAction (s : Option String) (base : Action) : Except Exception Action :=
  match s with
  | some s => actionFromStr s
  | none => .ok base

/-- Parse a policy Hash: the bulk domain denials come first, then the caller's rules, then the rules
of the base. The defaults are the explicit ones, else those of the base, else deny for egress and
allow for ingress. -/
def parsePolicyHash (np : RHash ω) : Except Exception (NetworkPolicy T) := do
  let domains ← (← optStringVec np "deny_domains").mapM
    (parseDeny core "deny_domains" core.parseDomainName .domain)
  let suffixes ← (← optStringVec np "deny_domain_suffixes").mapM
    (parseDeny core "deny_domain_suffixes" core.parseDomainSuffix .domainSuffix)
  let profileNames ← optStringVec np "profiles"
  let preset ← optString np "preset"
  let base ← parseBase core profileNames preset
  let rules ← (← optHashVec np "rules").mapM (parseRule core)
  let baseRules := base.elim [] NetworkPolicy.rules
  let defaultEgress ← defaultAction (← optString np "default_egress")
    (base.elim .deny NetworkPolicy.defaultEgress)
  let defaultIngress ← defaultAction (← optString np "default_ingress")
    (base.elim .allow NetworkPolicy.defaultIngress)
  -- the first rule that applies decides, so the deny lists come first and the base comes last
  return { defaultEgress, defaultIngress, rules := domains ++ suffixes ++ rules ++ baseRules }

/-- Parse the `network_policy` option. -/
def parseNetworkPolicy (opts : RHash ω) : Except Exception (Option (NetworkPolicy T)) := do
  match ← opt tryHash opts "network_policy" with
  | some np => return some (← parsePolicyHash core np)
  | none => return none

/-- What the builder is told about the network. -/
inductive NetworkSetting (T : CoreTypes) where
  /-- `disable_network` -/
  | disabled
  | policy (policy : NetworkPolicy T)

/-- The decision under a setting. A disabled network denies everything. -/
def NetworkSetting.decide (setting : NetworkSetting T) (flow : T.Flow) : Action :=
  match setting with
  | .disabled => .deny
  | .policy p => core.decide p flow

/-- What a bare preset does. -/
def presetSetting (net : String) : Except Exception (NetworkSetting T) :=
  match net with
  | "none" | "disabled" | "disable" | "airgapped" => .ok .disabled
  | "all" | "allow_all" => .ok (.policy core.allowAllPolicy)
  | other =>
    .error (baseError (s!"unknown network mode {RustStr.debug other} " ++
      "(expected none/allow_all; compose public/private/host access via network profiles)"))

/-- The `network` option: a preset. -/
def presetRoute (opts : RHash ω) : Except Exception (Option (NetworkSetting T)) := do
  match ← optString opts "network" with
  | some net => (presetSetting core net).map some
  | none => .ok none

/-- The `network_profiles` option. -/
def profilesRoute (opts : RHash ω) : Except Exception (Option (NetworkSetting T)) := do
  let profileNames ← optStringVec opts "network_profiles"
  if profileNames.isEmpty then .ok none
  else do
    let profiles ← profileNames.mapM networkProfileFromStr
    return some (.policy (core.fromProfiles profiles))

/-- The network part of `build_builder`. Of the settings that are made, the last one stands. -/
def networkRoutes (opts : RHash ω) : Except Exception (Option (NetworkSetting T)) := do
  let preset ← presetRoute core opts
  let profiles ← profilesRoute core opts
  let policy ← parseNetworkPolicy core opts
  return (policy.map .policy).or (profiles.or preset)

end Policies

/-! ## A small core -/

/-- A flow to or from a host, whose address is in one group. -/
structure SmallFlow where
  direction : FlowDirection
  host : String
  group : DestinationGroup
  protocol : Protocol
  port : UInt16

/-- Networks and domain names as plain strings. -/
abbrev smallTypes : CoreTypes where
  IpNetwork := String
  DomainName := String
  DomainSuffix := String
  Flow := SmallFlow

/-- Which flows a direction stands for. -/
def Direction.covers : Direction → FlowDirection → Bool
  | .any, _ => true
  | .egress, .egress => true
  | .ingress, .ingress => true
  | _, _ => false

/-- Which flows a destination stands for, over the small types. -/
def Destination.reaches (flow : SmallFlow) : Destination smallTypes → Bool
  | .any => true
  | .cidr _ => false
  | .domain name => flow.host == name
  | .domainSuffix suffix => suffix.toList.isSuffixOf flow.host.toList
  | .group g => flow.group == g

/-- A rule applies if all of its parts do. -/
def Rule.applies (r : Rule smallTypes) (flow : SmallFlow) : Bool :=
  r.direction.covers flow.direction && r.destination.reaches flow &&
    (r.protocols.isEmpty || r.protocols.contains flow.protocol) &&
    (r.ports.isEmpty || r.ports.any fun p => p.lo ≤ flow.port && flow.port ≤ p.hi)

/-- The group of addresses a profile opens. -/
def NetworkProfile.group : NetworkProfile → DestinationGroup
  | .publicNet => .publicNet
  | .privateNet => .privateNet
  | .host => .host

/-- A core to compute with. It takes every string but the empty one for a name, and every address
and network as written. A profile allows the egress to its group, and gateway DNS with it. -/
def smallCore : Core smallTypes where
  parseDomainName s := if s.isEmpty then .error "empty name" else .ok s
  parseDomainSuffix s := if s.isEmpty then .error "empty suffix" else .ok s
  parseIpNetwork s := .ok s
  newIpNetwork ip prefixLen := .ok (if ip.isIpv4 then s!"v4/{prefixLen}" else s!"v6/{prefixLen}")
  denyEgress d := ⟨.egress, d, [], [], .deny⟩
  fromProfiles profiles :=
    { defaultEgress := .deny
      defaultIngress := .allow
      rules :=
        if profiles.isEmpty then []
        else ⟨.egress, .group .host, [.udp, .tcp], [.single 53], .allow⟩ ::
          profiles.map fun p => ⟨.egress, .group p.group, [], [], .allow⟩ }
  nonePolicy := ⟨.deny, .deny, []⟩
  allowAllPolicy := ⟨.allow, .allow, []⟩
  direction := SmallFlow.direction
  reaches d flow := d.reaches flow
  applies := Rule.applies

/-- The small core behaves as documented. -/
theorem smallCore_documented : smallCore.Documented where
  action_denyEgress _ := rfl
  applies_denyEgress d flow := by
    change Rule.applies ⟨.egress, d, [], [], .deny⟩ flow = true ↔ flow.direction = .egress ∧ _
    rw [Rule.applies]
    cases flow.direction with
    | egress => simp [Direction.covers, smallCore]
    | ingress => simp [Direction.covers]
  decide_nonePolicy flow := by
    change NetworkPolicy.default ⟨.deny, .deny, []⟩ flow.direction = .deny
    cases flow.direction with
    | egress => rfl
    | ingress => rfl

end MicrosandboxRb.Native
