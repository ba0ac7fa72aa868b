import MicrosandboxRb.Lib.ExceptList
import MicrosandboxRb.Network.Native
import MicrosandboxRb.Network.Policy

/-!
# The layers of a network policy

A policy is meant in layers: the deny lists outrank the caller's rules, these outrank the rules of
the profiles or the preset it builds on, and the defaults decide what is left. `Layers.decide` says
so without a rule list. The native layer puts everything into one rule list, and the wire form names
the layers only by their keys.

## Main results

* `Layers.decide_policy`: the one rule list decides as the layers do;
* `exists_layers_of_parsePolicyHash`: the parser builds that rule list from what it reads;
* `exists_layers_of_networkRoutes`: so does every route of the wire form to the core.
-/

namespace MicrosandboxRb.Native

open Ruby Conv

variable {ω : Type} {T : CoreTypes}

/-- What a policy says, layer by layer. -/
structure Layers (T : CoreTypes) where
  denyDomains : List T.DomainName
  denyDomainSuffixes : List T.DomainSuffix
  rules : List (Rule T)
  -- the profiles or the preset that the policy builds on
  base : Option (NetworkPolicy T)
  explicitDefault : FlowDirection → Option Action
  -- what is left when neither the caller nor the base has a default
  fallback : FlowDirection → Action

/-- Deny egress, allow ingress. -/
def denyEgressAllowIngress : FlowDirection → Action
  | .egress => .deny
  | .ingress => .allow

namespace Layers

/-- The flow is egress to a domain on a deny list. -/
def Denies (core : Core T) (layers : Layers T) (flow : T.Flow) : Prop :=
  core.direction flow = .egress ∧
    ((∃ d ∈ layers.denyDomains, core.reaches (.domain d) flow = true) ∨
      ∃ s ∈ layers.denyDomainSuffixes, core.reaches (.domainSuffix s) flow = true)

instance (core : Core T) (layers : Layers T) (flow : T.Flow) :
    Decidable (layers.Denies core flow) := by
  unfold Denies
  infer_instance

/-- The default for a direction: the explicit one, else that of the base, else the fallback. -/
def default (layers : Layers T) (dir : FlowDirection) : Action :=
  ((layers.explicitDefault dir).or (layers.base.map fun base => base.default dir)).getD
    (layers.fallback dir)

/-- The rules of the base. -/
def baseRules (layers : Layers T) : List (Rule T) := layers.base.elim [] NetworkPolicy.rules

/-- The layered decision. -/
def decide (core : Core T) (layers : Layers T) (flow : T.Flow) : Action :=
  if layers.Denies core flow then .deny
  else
    match layers.rules.find? (core.applies · flow) with
    | some r => r.action
    | none =>
      match layers.baseRules.find? (core.applies · flow) with
      | some r => r.action
      | none => layers.default (core.direction flow)

/-- Layers that differ only in how their defaults come about. -/
structure Agree (layers layers' : Layers T) : Prop where
  denyDomains : layers.denyDomains = layers'.denyDomains
  denyDomainSuffixes : layers.denyDomainSuffixes = layers'.denyDomainSuffixes
  rules : layers.rules = layers'.rules
  base : layers.base = layers'.base
  default : ∀ dir, layers.default dir = layers'.default dir

/-- Layers that agree decide alike. -/
theorem Agree.decide_eq {layers layers' : Layers T} (h : Agree layers layers') (core : Core T)
    (flow : T.Flow) : layers.decide core flow = layers'.decide core flow := by
  have hdenies : layers.Denies core flow ↔ layers'.Denies core flow := by
    rw [Denies, Denies, h.denyDomains, h.denyDomainSuffixes]
  have hbase : layers.baseRules = layers'.baseRules := by
    rw [baseRules, baseRules, h.base]
  rw [decide, decide, h.rules, hbase, h.default]
  simp only [hdenies]

/-! ## One rule list -/

/-- The deny rules of both lists. -/
def denyRules (core : Core T) (layers : Layers T) : List (Rule T) :=
  layers.denyDomains.map (fun d => core.denyEgress (.domain d)) ++
    layers.denyDomainSuffixes.map fun s => core.denyEgress (.domainSuffix s)

/-- The policy that the native layer builds. -/
def policy (core : Core T) (layers : Layers T) : NetworkPolicy T where
  defaultEgress := layers.default .egress
  defaultIngress := layers.default .ingress
  rules := layers.denyRules core ++ layers.rules ++ layers.baseRules

/-- The policy of the layers has their defaults. -/
theorem default_policy (core : Core T) (layers : Layers T) (dir : FlowDirection) :
    (layers.policy core).default dir = layers.default dir := by
  cases dir with
  | egress => rfl
  | ingress => rfl

variable {core : Core T} (hcore : core.Documented)

include hcore

/-- A rule of a deny list denies. -/
theorem action_of_mem_denyRules {layers : Layers T} {r : Rule T} (h : r ∈ layers.denyRules core) :
    r.action = .deny := by
  rw [denyRules, List.mem_append, List.mem_map, List.mem_map] at h
  obtain ⟨d, -, rfl⟩ | ⟨s, -, rfl⟩ := h
  · exact hcore.action_denyEgress _
  · exact hcore.action_denyEgress _

/-- A deny rule applies exactly to what the deny lists name. -/
theorem exists_denyRules_iff (layers : Layers T) (flow : T.Flow) :
    (∃ r ∈ layers.denyRules core, core.applies r flow = true) ↔ layers.Denies core flow := by
  rw [denyRules, Denies]
  constructor
  · rintro ⟨r, hr, happ⟩
    rw [List.mem_append, List.mem_map, List.mem_map] at hr
    obtain ⟨d, hd, rfl⟩ | ⟨s, hs, rfl⟩ := hr
    · obtain ⟨hdir, hreach⟩ := (hcore.applies_denyEgress _ _).mp happ
      exact ⟨hdir, Or.inl ⟨d, hd, hreach⟩⟩
    · obtain ⟨hdir, hreach⟩ := (hcore.applies_denyEgress _ _).mp happ
      exact ⟨hdir, Or.inr ⟨s, hs, hreach⟩⟩
  · rintro ⟨hdir, ⟨d, hd, hreach⟩ | ⟨s, hs, hreach⟩⟩
    · exact ⟨_, List.mem_append_left _ (List.mem_map_of_mem hd),
        (hcore.applies_denyEgress _ _).mpr ⟨hdir, hreach⟩⟩
    · exact ⟨_, List.mem_append_right _ (List.mem_map_of_mem hs),
        (hcore.applies_denyEgress _ _).mpr ⟨hdir, hreach⟩⟩

/-- The rule list of the layers decides as the layers do. -/
theorem decide_policy (layers : Layers T) (flow : T.Flow) :
    core.decide (layers.policy core) flow = layers.decide core flow := by
  rw [Core.decide, default_policy]
  change firstMatch _ _ (layers.denyRules core ++ layers.rules ++ layers.baseRules) _ _ = _
  have hdeny : ∀ r ∈ layers.denyRules core, r.action = .deny := fun r =>
    action_of_mem_denyRules hcore
  rw [firstMatch_append, firstMatch_append, firstMatch_of_forall_action_eq hdeny,
    if_congr (exists_denyRules_iff hcore layers flow) rfl rfl, decide]
  by_cases hdenies : layers.Denies core flow
  · rw [if_pos hdenies, if_pos hdenies]
  · rw [if_neg hdenies, if_neg hdenies]
    unfold firstMatch
    cases layers.rules.find? (core.applies · flow) with
    | some r => rfl
    | none =>
      cases layers.baseRules.find? (core.applies · flow) with
      | some r => rfl
      | none => rfl

end Layers

/-! ## What the native layer reads -/

/-- The values of the keys of a policy Hash. -/
structure Reading (ω : Type) where
  denyDomains : List String := []
  denyDomainSuffixes : List String := []
  profiles : List String := []
  preset : Option String := none
  rules : List (RHash ω) := []
  defaultEgress : Option String := none
  defaultIngress : Option String := none

namespace Reading

/-- Reading the keys of `np` gives these values. -/
structure Of (np : RHash ω) (reading : Reading ω) : Prop where
  denyDomains : optStringVec np "deny_domains" = .ok reading.denyDomains
  denyDomainSuffixes : optStringVec np "deny_domain_suffixes" = .ok reading.denyDomainSuffixes
  profiles : optStringVec np "profiles" = .ok reading.profiles
  preset : optString np "preset" = .ok reading.preset
  rules : optHashVec np "rules" = .ok reading.rules
  defaultEgress : optString np "default_egress" = .ok reading.defaultEgress
  defaultIngress : optString np "default_ingress" = .ok reading.defaultIngress

/-- An action, if it has to be parsed. -/
def parseDefault : Option String → Option (Option Action)
  | some s => (actionFromStr s).toOption.map some
  | none => some none

/-- The explicit default for a direction. -/
def explicitDefault (egress ingress : Option Action) : FlowDirection → Option Action
  | .egress => egress
  | .ingress => ingress

/-- The layers that the values name. -/
def layers (core : Core T) (reading : Reading ω) : Option (Layers T) := do
  let denyDomains ← reading.denyDomains.mapM fun s => (core.parseDomainName s).toOption
  let denyDomainSuffixes ←
    reading.denyDomainSuffixes.mapM fun s => (core.parseDomainSuffix s).toOption
  let rules ← reading.rules.mapM fun rd => (parseRule core rd).toOption
  let base ← (parseBase core reading.profiles reading.preset).toOption
  let egress ← parseDefault reading.defaultEgress
  let ingress ← parseDefault reading.defaultIngress
  return {
    denyDomains, denyDomainSuffixes, rules, base
    explicitDefault := explicitDefault egress ingress
    fallback := denyEgressAllowIngress }

end Reading

section Parser

variable {core : Core T}

/-- One entry of a deny list, parsed and turned into a rule. -/
theorem parseDeny_eq_ok_iff {α : Type} {key : String} {parse : String → Except String α}
    {dest : α → Destination T} {raw : String} {r : Rule T} :
    parseDeny core key parse dest raw = .ok r ↔
      ∃ a, parse raw = .ok a ∧ core.denyEgress (dest a) = r := by
  unfold parseDeny
  cases parse raw with
  | error e => exact ⟨fun h => (by cases h), fun ⟨_, h, _⟩ => (by cases h)⟩
  | ok a => exact ⟨fun h => ⟨a, rfl, Except.ok.inj h⟩, fun ⟨_, h, hr⟩ => by cases h; rw [← hr]⟩

/-- A parsed deny list is the list of the deny rules for its entries. -/
theorem exists_of_mapM_parseDeny {α : Type} {key : String} {parse : String → Except String α}
    {dest : α → Destination T} {raws : List String} {rs : List (Rule T)}
    (h : raws.mapM (parseDeny core key parse dest) = .ok rs) :
    ∃ as, raws.mapM (fun raw => (parse raw).toOption) = some as ∧
      rs = as.map fun a => core.denyEgress (dest a) := by
  rw [Except.mapM_eq_ok_iff] at h
  induction h with
  | nil => exact ⟨[], rfl, rfl⟩
  | cons hr _ ih =>
    obtain ⟨a, ha, rfl⟩ := parseDeny_eq_ok_iff.mp hr
    obtain ⟨as, has, rfl⟩ := ih
    refine ⟨a :: as, ?_, rfl⟩
    rw [List.mapM_cons, ha, has]
    rfl

/-- A default is the explicit one, or else that of the base. -/
theorem exists_of_defaultAction {s : Option String} {base : Action} {a : Action}
    (h : defaultAction s base = .ok a) :
    ∃ explicit, Reading.parseDefault s = some explicit ∧ a = explicit.getD base := by
  cases s with
  | none =>
    cases h
    exact ⟨none, rfl, rfl⟩
  | some s =>
    refine ⟨some a, ?_, rfl⟩
    change (actionFromStr s).toOption.map some = some (some a)
    rw [show actionFromStr s = .ok a from h]
    rfl

/-- A default is the explicit one, else the base's, else the fallback. -/
theorem Layers.default_eq_getD (layers : Layers T) (dir : FlowDirection) :
    layers.default dir = (layers.explicitDefault dir).getD
      (layers.base.elim (layers.fallback dir) fun base => base.default dir) := by
  rw [Layers.default]
  cases layers.explicitDefault dir with
  | some a => rfl
  | none =>
    cases layers.base with
    | some base => rfl
    | none => rfl

/-- The parser builds the rule list of the layers that it reads. -/
theorem exists_layers_of_parsePolicyHash {np : RHash ω} {reading : Reading ω}
    {policy : NetworkPolicy T} (hreading : reading.Of np)
    (h : parsePolicyHash core np = .ok policy) :
    ∃ layers, reading.layers core = some layers ∧ policy = layers.policy core := by
  unfold parsePolicyHash at h
  rw [hreading.denyDomains, hreading.denyDomainSuffixes, hreading.profiles, hreading.preset,
    hreading.rules, hreading.defaultEgress, hreading.defaultIngress] at h
  simp only [Except.ok_bind] at h
  obtain ⟨domains, hdomains, h⟩ := Except.bind_eq_ok_iff.mp h
  obtain ⟨suffixes, hsuffixes, h⟩ := Except.bind_eq_ok_iff.mp h
  obtain ⟨base, hbase, h⟩ := Except.bind_eq_ok_iff.mp h
  obtain ⟨rules, hrules, h⟩ := Except.bind_eq_ok_iff.mp h
  obtain ⟨defaultEgress, hdefaultEgress, h⟩ := Except.bind_eq_ok_iff.mp h
  obtain ⟨defaultIngress, hdefaultIngress, h⟩ := Except.bind_eq_ok_iff.mp h
  -- each name of a deny list gives one rule, and each default an action or none
  obtain ⟨ds, hds, rfl⟩ := exists_of_mapM_parseDeny hdomains
  obtain ⟨ss, hss, rfl⟩ := exists_of_mapM_parseDeny hsuffixes
  obtain ⟨egress, hegress, rfl⟩ := exists_of_defaultAction hdefaultEgress
  obtain ⟨ingress, hingress, rfl⟩ := exists_of_defaultAction hdefaultIngress
  refine ⟨⟨ds, ss, rules, base, Reading.explicitDefault egress ingress, denyEgressAllowIngress⟩,
    ?_, ?_⟩
  · rw [Reading.layers, hds, hss, List.mapM_toOption_of_mapM_eq_ok hrules, hbase, hegress, hingress]
    rfl
  · rw [← Except.ok.inj h, Layers.policy, Layers.default_eq_getD, Layers.default_eq_getD]
    rfl

/-! ## The routes -/

/-- The layers of a profile list or a preset alone. -/
def Layers.ofBase (base : NetworkPolicy T) : Layers T where
  denyDomains := []
  denyDomainSuffixes := []
  rules := []
  base := some base
  explicitDefault := Reading.explicitDefault none none
  fallback := denyEgressAllowIngress

/-- A base alone is its own policy. -/
theorem Layers.policy_ofBase (base : NetworkPolicy T) : (Layers.ofBase base).policy core = base :=
  rfl

/-- The options hold no network setting yet. -/
structure NoNetwork (opts : AssocMap String (Value ω)) : Prop where
  network : opts.lookup "network" = none
  networkProfiles : opts.lookup "network_profiles" = none
  networkPolicy : opts.lookup "network_policy" = none

/-- The route of presets is not taken without its key. -/
theorem presetRoute_eq_none {opts : AssocMap String (Value ω)}
    (h : opts.lookup "network" = none) : presetRoute core (strEntries opts) = .ok none := by
  rw [presetRoute, optString, opt_eq_none h]
  rfl

/-- Nor is the one of profiles. -/
theorem profilesRoute_eq_none {opts : AssocMap String (Value ω)}
    (h : opts.lookup "network_profiles" = none) :
    profilesRoute core (strEntries opts) = .ok none := by
  rw [profilesRoute, optStringVec_eq_nil h]
  rfl

/-- Nor is the one of custom policies. -/
theorem parseNetworkPolicy_eq_none {opts : AssocMap String (Value ω)}
    (h : opts.lookup "network_policy" = none) :
    parseNetworkPolicy core (strEntries opts) = .ok none := by
  rw [parseNetworkPolicy, opt_eq_none h]
  rfl

namespace Reading

variable {norm : AssocMap String (Value ω)} {reading : Reading ω}

/-- A Hash reads in one way only. -/
theorem Of.eq {np : RHash ω} {reading reading' : Reading ω} (h : reading.Of np)
    (h' : reading'.Of np) : reading = reading' := by
  obtain ⟨h₁, h₂, h₃, h₄, h₅, h₆, h₇⟩ := h
  obtain ⟨h₁', h₂', h₃', h₄', h₅', h₆', h₇'⟩ := h'
  rw [h₁, Except.ok.injEq] at h₁'
  rw [h₂, Except.ok.injEq] at h₂'
  rw [h₃, Except.ok.injEq] at h₃'
  rw [h₄, Except.ok.injEq] at h₄'
  rw [h₅, Except.ok.injEq] at h₅'
  rw [h₆, Except.ok.injEq] at h₆'
  rw [h₇, Except.ok.injEq] at h₇'
  cases reading
  cases reading'
  simp_all only

/-- The reading of a Hash with the one key `preset`. -/
theorem Of.eq_of_preset (h : reading.Of (strEntries norm)) (hkeys : norm.keys = ["preset"]) :
    reading = { preset := reading.preset } := by
  have hnone : ∀ k, k ≠ "preset" → norm.lookup k = none := fun k hk =>
    AList.lookup_eq_none_of_keys_eq hkeys hk
  refine h.eq ⟨?_, ?_, ?_, h.preset, ?_, ?_, ?_⟩
  · exact optStringVec_eq_nil (hnone _ (by decide))
  · exact optStringVec_eq_nil (hnone _ (by decide))
  · exact optStringVec_eq_nil (hnone _ (by decide))
  · exact optHashVec_eq_nil (hnone _ (by decide))
  · exact opt_eq_none (hnone _ (by decide))
  · exact opt_eq_none (hnone _ (by decide))

/-- The reading of a Hash with the one key `profiles`. -/
theorem Of.eq_of_profiles (h : reading.Of (strEntries norm)) (hkeys : norm.keys = ["profiles"]) :
    reading = { profiles := reading.profiles } := by
  have hnone : ∀ k, k ≠ "profiles" → norm.lookup k = none := fun k hk =>
    AList.lookup_eq_none_of_keys_eq hkeys hk
  refine h.eq ⟨?_, ?_, h.profiles, ?_, ?_, ?_, ?_⟩
  · exact optStringVec_eq_nil (hnone _ (by decide))
  · exact optStringVec_eq_nil (hnone _ (by decide))
  · exact opt_eq_none (hnone _ (by decide))
  · exact optHashVec_eq_nil (hnone _ (by decide))
  · exact opt_eq_none (hnone _ (by decide))
  · exact opt_eq_none (hnone _ (by decide))

end Reading

variable {opts norm : AssocMap String (Value ω)} {reading : Reading ω}
  {setting : NetworkSetting T}

/-- A preset sets what the core documents for it. -/
theorem presetSetting_eq_ok (hcore : core.Documented) {net : String}
    (h : presetSetting core net = .ok setting) :
    ∃ base, networkPreset core net = .ok base ∧
      ∀ flow, setting.decide core flow = core.decide base flow := by
  unfold presetSetting at h
  split at h
  all_goals cases h
  · exact ⟨_, rfl, fun flow => (hcore.decide_nonePolicy flow).symm⟩
  · exact ⟨_, rfl, fun flow => (hcore.decide_nonePolicy flow).symm⟩
  · exact ⟨_, rfl, fun flow => (hcore.decide_nonePolicy flow).symm⟩
  · exact ⟨_, rfl, fun flow => (hcore.decide_nonePolicy flow).symm⟩
  · exact ⟨_, rfl, fun flow => rfl⟩
  · exact ⟨_, rfl, fun flow => rfl⟩

/-- A preset alone becomes the setting it names. -/
theorem exists_layers_of_preset (hcore : core.Documented) (hopts : NoNetwork opts)
    (hreading : reading.Of (strEntries norm)) (hkeys : norm.keys = ["preset"])
    (h : networkRoutes core (strEntries (opts.insert "network" (index norm "preset"))) =
      .ok (some setting)) :
    ∃ layers, reading.layers core = some layers ∧
      ∀ flow, setting.decide core flow = layers.decide core flow := by
  have hpreset : optString (strEntries (opts.insert "network" (index norm "preset"))) "network" =
      .ok reading.preset := by
    rw [← hreading.preset]
    apply opt_congr
    rw [AList.lookup_insert, lookup_eq_some_index]
    rw [AList.mem_keys, hkeys]
    exact List.mem_singleton_self _
  -- the other two routes are not taken
  have hprofiles : (opts.insert "network" (index norm "preset")).lookup "network_profiles" = none := by
    rw [AList.lookup_insert_ne (by decide), hopts.networkProfiles]
  have hpolicy : (opts.insert "network" (index norm "preset")).lookup "network_policy" = none := by
    rw [AList.lookup_insert_ne (by decide), hopts.networkPolicy]
  rw [networkRoutes, profilesRoute_eq_none hprofiles, parseNetworkPolicy_eq_none hpolicy,
    presetRoute, hpreset] at h
  cases hp : reading.preset with
  | none => rw [hp] at h; cases h
  | some net =>
    rw [hp, Except.ok_bind] at h
    obtain ⟨s, hs, hsetting⟩ := Except.bind_eq_ok_iff.mp h
    obtain ⟨_, hnet, rfl⟩ := Except.map_eq_ok_iff.mp hs
    cases hsetting
    obtain ⟨base, hbase, hdecide⟩ := presetSetting_eq_ok hcore hnet
    refine ⟨Layers.ofBase base, ?_, fun flow => ?_⟩
    · rw [hreading.eq_of_preset hkeys, hp, Reading.layers]
      change ((networkPreset core net).map some).toOption.bind _ = _
      rw [hbase]
      rfl
    · rw [hdecide, ← Layers.decide_policy hcore, Layers.policy_ofBase]

/-- Profiles alone become the core's own expansion. -/
theorem exists_layers_of_profiles (hcore : core.Documented) (hopts : NoNetwork opts)
    (hreading : reading.Of (strEntries norm)) (hkeys : norm.keys = ["profiles"])
    (h : networkRoutes core (strEntries (opts.insert "network_profiles" (index norm "profiles"))) =
      .ok (some setting)) :
    ∃ layers, reading.layers core = some layers ∧
      ∀ flow, setting.decide core flow = layers.decide core flow := by
  have hnames : optStringVec
      (strEntries (opts.insert "network_profiles" (index norm "profiles"))) "network_profiles" =
      .ok reading.profiles := by
    rw [← hreading.profiles]
    apply optStringVec_congr
    rw [AList.lookup_insert, lookup_eq_some_index]
    rw [AList.mem_keys, hkeys]
    exact List.mem_singleton_self _
  -- the other two routes are not taken
  have hpreset : (opts.insert "network_profiles" (index norm "profiles")).lookup "network" = none := by
    rw [AList.lookup_insert_ne (by decide), hopts.network]
  have hpolicy :
      (opts.insert "network_profiles" (index norm "profiles")).lookup "network_policy" = none := by
    rw [AList.lookup_insert_ne (by decide), hopts.networkPolicy]
  rw [networkRoutes, presetRoute_eq_none hpreset, parseNetworkPolicy_eq_none hpolicy,
    profilesRoute, hnames, Except.ok_bind, Except.ok_bind] at h
  cases hp : reading.profiles with
  | nil => rw [hp] at h; cases h
  | cons name names =>
    rw [hp] at h
    obtain ⟨s, hs, hsetting⟩ := Except.bind_eq_ok_iff.mp h
    obtain ⟨profiles, hprofiles, hs⟩ := Except.bind_eq_ok_iff.mp hs
    cases hs
    cases hsetting
    refine ⟨Layers.ofBase (core.fromProfiles profiles), ?_, fun flow => ?_⟩
    · rw [hreading.eq_of_profiles hkeys, hp, Reading.layers]
      change Option.bind (Except.toOption ((name :: names).mapM networkProfileFromStr >>=
        fun ps => .ok (some (core.fromProfiles ps)))) _ = _
      rw [hprofiles]
      rfl
    · rw [← Layers.decide_policy hcore, Layers.policy_ofBase]
      rfl

/-- Whatever route the wire form takes, the setting that the core gets decides every flow as the
layers do that the wire form names. -/
theorem exists_layers_of_networkRoutes (hcore : core.Documented) (hopts : NoNetwork opts)
    (hreading : reading.Of (strEntries norm))
    (h : networkRoutes core (strEntries (Network.routeNetwork opts norm)) = .ok (some setting)) :
    ∃ layers, reading.layers core = some layers ∧
      ∀ flow, setting.decide core flow = layers.decide core flow := by
  unfold Network.routeNetwork at h
  by_cases hempty : norm.keys = []
  · -- nothing is set, so no policy is either
    rw [if_pos hempty, networkRoutes, presetRoute_eq_none hopts.network,
      profilesRoute_eq_none hopts.networkProfiles, parseNetworkPolicy_eq_none hopts.networkPolicy] at h
    cases h
  rw [if_neg hempty] at h
  by_cases hpreset : norm.keys = ["preset"]
  · rw [if_pos hpreset] at h
    exact exists_layers_of_preset hcore hopts hreading hpreset h
  rw [if_neg hpreset] at h
  by_cases hprofiles : norm.keys = ["profiles"]
  · rw [if_pos hprofiles] at h
    exact exists_layers_of_profiles hcore hopts hreading hprofiles h
  rw [if_neg hprofiles] at h
  -- everything else goes into a policy of its own
  have hnetwork : (opts.insert "network_policy" (strHash norm)).lookup "network" = none := by
    rw [AList.lookup_insert_ne (by decide), hopts.network]
  have hnames : (opts.insert "network_policy" (strHash norm)).lookup "network_profiles" = none := by
    rw [AList.lookup_insert_ne (by decide), hopts.networkProfiles]
  have hpolicy : opt tryHash (strEntries (opts.insert "network_policy" (strHash norm)))
      "network_policy" = .ok (some (strEntries norm)) :=
    opt_eq_some (AList.lookup_insert opts) rfl rfl
  rw [networkRoutes, presetRoute_eq_none hnetwork, profilesRoute_eq_none hnames,
    parseNetworkPolicy, hpolicy, Except.ok_bind, Except.ok_bind, Except.ok_bind] at h
  obtain ⟨s, hs, hsetting⟩ := Except.bind_eq_ok_iff.mp h
  obtain ⟨policy, hparse, hsome⟩ := Except.bind_eq_ok_iff.mp hs
  cases hsome
  cases hsetting
  obtain ⟨layers, hlayers, rfl⟩ := exists_layers_of_parsePolicyHash hreading hparse
  exact ⟨layers, hlayers, fun flow => Layers.decide_policy hcore layers flow⟩

end Parser

end MicrosandboxRb.Native
