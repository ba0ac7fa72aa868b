import MicrosandboxRb.Network.Layers

/-!
# What a `network:` argument says

`NetworkArg.parts` reads the layers off the caller's value, by the keys that are given and without
the branches, defaults and routes of the code. `Matches` says that a wire form carries these parts.

## Main results

* `exists_layers_of_matches`: a wire form that carries the parts names the layers of the parts.
-/

namespace MicrosandboxRb.Network

open Ruby Conv Native

variable {ω : Type} {T : CoreTypes}

section Names

variable [Methods ω]

/-- The profile that a value names. -/
def profileNamed (v : Value ω) : Option NetworkProfile :=
  match downcase v.toS with
  | "public" => some .publicNet
  | "private" => some .privateNet
  | "host" => some .host
  | _ => none

/-- The preset policy that a value names. -/
def presetNamed (core : Core T) (v : Value ω) : Option (Native.NetworkPolicy T) :=
  match downcase v.toS with
  | "none" | "disabled" | "disable" | "airgapped" => some core.nonePolicy
  | "all" | "allow_all" | "allow-all" => some core.allowAllPolicy
  | _ => none

/-- The action a value names, in any case. -/
def actionNamed (v : Value ω) : Option Action :=
  match downcase v.toS with
  | "allow" => some .allow
  | "deny" => some .deny
  | _ => none

/-- The explicit default that a value sets. -/
def defaultNamed (v : Value ω) : Option (Option Action) :=
  if v.truthy then (actionNamed v).map some else some none

/-- The rule that a caller's rule Hash stands for. -/
def ruleOf (core : Core T) (v : Value ω) : Option (Rule T) :=
  (normalizeRule v).toOption.bind fun out => (parseRule core (strEntries out)).toOption

/-! ## The parts of an argument -/

/-- The layers of a `network:` argument, as the values the caller gives. -/
structure Parts (ω : Type) where
  denyDomains : List (Value ω) := []
  denyDomainSuffixes : List (Value ω) := []
  rules : List (Value ω) := []
  -- the base: profiles, or else a preset
  profiles : List (Value ω) := []
  preset : Option (Value ω) := none
  defaultEgress : Value ω := .nil
  defaultIngress : Value ω := .nil
  fallback : FlowDirection → Action := denyEgressAllowIngress

/-- The profiles or the preset of the argument. -/
def Parts.base (core : Core T) (parts : Parts ω) : Option (Option (Native.NetworkPolicy T)) :=
  if parts.profiles.isEmpty then
    match parts.preset with
    | some name => (presetNamed core name).map some
    | none => some none
  else (parts.profiles.mapM profileNamed).map fun profiles => some (core.fromProfiles profiles)

/-- The layers that the parts stand for. -/
def Parts.layers (core : Core T) (parts : Parts ω) : Option (Layers T) := do
  let denyDomains ← parts.denyDomains.mapM fun v => (core.parseDomainName v.toS).toOption
  let denyDomainSuffixes ←
    parts.denyDomainSuffixes.mapM fun v => (core.parseDomainSuffix v.toS).toOption
  let rules ← parts.rules.mapM (ruleOf core)
  let base ← parts.base core
  let egress ← defaultNamed parts.defaultEgress
  let ingress ← defaultNamed parts.defaultIngress
  return {
    denyDomains, denyDomainSuffixes, rules, base
    explicitDefault := Reading.explicitDefault egress ingress
    fallback := parts.fallback }

/-- The Hash gives a value, possibly `nil`, under the key. -/
def hasKey (es : Entries ω) (key : String) : Bool := (given es key).isSome

/-- The Hash names a base. -/
def hasBase (es : Entries ω) : Bool := hasKey es "profiles" || hasKey es "preset"

/-- The Hash has rules or defaults of its own. -/
def hasOwn (es : Entries ω) : Bool :=
  hasKey es "rules" || hasKey es "default_egress" || hasKey es "default_ingress"

/-- The value under the key, or `nil`. -/
def valueAt (es : Entries ω) (key : String) : Value ω := (given es key).getD .nil

/-- The entries of a deny list. `false` is no list in a custom policy without a base. -/
def denyList (es : Entries ω) (key : String) : List (Value ω) :=
  if !hasBase es && hasOwn es && !(valueAt es key).truthy then [] else (valueAt es key).array

/-- The layers of a Hash. If it has deny lists only, it allows everything else. -/
def hashParts (es : Entries ω) : Parts ω where
  denyDomains := denyList es "deny_domains"
  denyDomainSuffixes := denyList es "deny_domain_suffixes"
  rules := if (valueAt es "rules").truthy then (valueAt es "rules").array else []
  profiles := Value.flattenList (valueAt es "profiles").array
  preset := given es "preset"
  defaultEgress := valueAt es "default_egress"
  defaultIngress := valueAt es "default_ingress"
  fallback := if hasBase es || hasOwn es then denyEgressAllowIngress else fun _ => .allow

/-- A name is a profile, the word `default` for the profile `public`, or a preset. -/
def nameParts (name : Value ω) : Parts ω :=
  if (profileNamed name).isSome then { profiles := [name] }
  else if downcase name.toS = "default" then { profiles := [.sym "public"] }
  else { preset := some name }

/-- The layers of a `network:` argument. -/
def NetworkArg.parts (network : NetworkArg ω) : Parts ω :=
  match network with
  | .policy (.fromProfiles profiles) => { profiles := Value.flattenList profiles }
  | .policy (.preset name) => { preset := some name }
  | .policy (.custom args) =>
    { denyDomains := args.denyDomains.array
      denyDomainSuffixes := args.denyDomainSuffixes.array
      rules := args.rules.array
      defaultEgress := args.defaultEgress
      defaultIngress := args.defaultIngress }
  | .value (.arr xs) => { profiles := Value.flattenList xs }
  | .value (.hash es) => hashParts es
  | .value name => nameParts name

/-! ## Names on the wire -/

/-- A profile normalizes to its text in lower case. -/
theorem eq_of_normalizeProfile {v : Value ω} {key : String}
    (h : NetworkPolicy.normalizeProfile v = .ok key) : key = downcase v.toS := by
  unfold NetworkPolicy.normalizeProfile at h
  dsimp only at h
  split at h
  · exact (Except.ok.inj h).symm
  · split at h
    · cases h
    · cases h

/-- The profiles the native side knows. -/
theorem networkProfileFromStr_eq_ok {s : String} {p : NetworkProfile}
    (h : networkProfileFromStr s = .ok p) :
    (s = "public" ∧ p = .publicNet) ∨ (s = "private" ∧ p = .privateNet) ∨
      (s = "host" ∧ p = .host) := by
  unfold networkProfileFromStr at h
  split at h
  · exact Or.inl ⟨rfl, (Except.ok.inj h).symm⟩
  · exact Or.inr (Or.inl ⟨rfl, (Except.ok.inj h).symm⟩)
  · exact Or.inr (Or.inr ⟨rfl, (Except.ok.inj h).symm⟩)
  · cases h

/-- What both sides accept names that profile. -/
theorem profileNamed_eq_some {v : Value ω} {key : String} {p : NetworkProfile}
    (h : NetworkPolicy.normalizeProfile v = .ok key) (hp : networkProfileFromStr key = .ok p) :
    profileNamed v = some p := by
  have hkey := eq_of_normalizeProfile h
  unfold profileNamed
  rw [← hkey]
  rcases networkProfileFromStr_eq_ok hp with ⟨rfl, rfl⟩ | ⟨rfl, rfl⟩ | ⟨rfl, rfl⟩
  · rfl
  · rfl
  · rfl

/-- The wire form of a list of profiles names the same profiles. -/
theorem mapM_profileNamed {vs : List (Value ω)} {keys : List String} {ps : List NetworkProfile}
    (hkeys : vs.mapM NetworkPolicy.normalizeProfile = .ok keys)
    (hps : keys.mapM networkProfileFromStr = .ok ps) : vs.mapM profileNamed = some ps := by
  rw [Except.mapM_eq_ok_iff] at hkeys hps
  rw [Option.mapM_eq_some_iff]
  induction hkeys generalizing ps with
  | nil =>
    rw [List.forall₂_nil_left_iff] at hps
    rw [hps]
    exact List.Forall₂.nil
  | cons hv _ ih =>
    obtain ⟨p, ps', hp, hps', rfl⟩ := List.forall₂_cons_left_iff.mp hps
    exact List.Forall₂.cons (profileNamed_eq_some hv hp) (ih hps')

/-- A canonical preset name stands for the policy that the alias stands for. -/
theorem presetNamed_eq_some {core : Core T} {v : Value ω} {preset : String}
    {base : Native.NetworkPolicy T} (h : NetworkPolicy.canonicalPreset v = .ok preset)
    (hbase : networkPreset core preset = .ok base) : presetNamed core v = some base := by
  unfold NetworkPolicy.canonicalPreset at h
  dsimp only at h
  split at h
  · cases h
  · split at h
    · next hpreset =>
      cases h
      obtain ⟨l₁, l₂, hlist, -⟩ := List.lookup_eq_some_iff.mp hpreset
      have hmem : (downcase v.toS, preset) ∈ NetworkPolicy.PRESET_ALIASES := by
        rw [hlist]
        exact List.mem_append_right _ List.mem_cons_self
      unfold presetNamed
      simp only [NetworkPolicy.PRESET_ALIASES, List.mem_cons, Prod.mk.injEq, List.not_mem_nil,
        or_false] at hmem
      -- each alias names the preset that it is looked up as
      rcases hmem with ⟨hkey, rfl⟩ | ⟨hkey, rfl⟩ | ⟨hkey, rfl⟩ | ⟨hkey, rfl⟩ | ⟨hkey, rfl⟩ |
        ⟨hkey, rfl⟩ | ⟨hkey, rfl⟩
      all_goals
        cases hbase
        rw [hkey]
        rfl
    · cases h

/-- An action normalizes to its text in lower case. -/
theorem eq_of_actionStr {v : Value ω} {s : String} (h : NetworkPolicy.actionStr v = .ok s) :
    downcase v.toS = s ∧ (s = "allow" ∨ s = "deny") := by
  unfold NetworkPolicy.actionStr at h
  split at h
  · next hkey =>
    cases h
    exact ⟨hkey, Or.inl rfl⟩
  · next hkey =>
    cases h
    exact ⟨hkey, Or.inr rfl⟩
  · cases h

/-- What both sides accept names that action. -/
theorem actionNamed_eq_some {v : Value ω} {s : String} {a : Action}
    (h : NetworkPolicy.actionStr v = .ok s) (ha : actionFromStr s = .ok a) :
    actionNamed v = some a := by
  obtain ⟨hkey, hs⟩ := eq_of_actionStr h
  unfold actionNamed
  rw [hkey]
  rcases hs with rfl | rfl
  · cases ha
    rfl
  · cases ha
    rfl

/-! ## The parts on the wire -/

/-- How a default travels: as the action the caller names, as an absent key, or written out where
the caller gives none and there is no base. -/
inductive DefaultMatches (parts : Parts ω) (dir : FlowDirection) : Value ω → Option String → Prop
  | explicit {v : Value ω} {s : String} (hv : v.truthy = true)
      (hs : NetworkPolicy.actionStr v = .ok s) : DefaultMatches parts dir v (some s)
  | absent {v : Value ω} (hv : v.truthy = false)
      (hfallback : parts.fallback dir = denyEgressAllowIngress dir) :
      DefaultMatches parts dir v none
  | written {v : Value ω} {s : String} (hv : v.truthy = false) (hprofiles : parts.profiles = [])
      (hpreset : parts.preset = none) (hs : actionFromStr s = .ok (parts.fallback dir)) :
      DefaultMatches parts dir v (some s)

/-- What the native layer reads is the wire form of the parts. -/
structure Matches (parts : Parts ω) (reading : Reading ω) : Prop where
  denyDomains : reading.denyDomains = parts.denyDomains.map Value.toS
  denyDomainSuffixes : reading.denyDomainSuffixes = parts.denyDomainSuffixes.map Value.toS
  rules : ∃ outs, parts.rules.mapM normalizeRule = .ok outs ∧ reading.rules = outs.map strEntries
  profiles : parts.profiles.mapM NetworkPolicy.normalizeProfile = .ok reading.profiles
  preset : (parts.preset = none ∧ reading.preset = none) ∨ ∃ v s,
    parts.preset = some v ∧ NetworkPolicy.canonicalPreset v = .ok s ∧ reading.preset = some s
  defaultEgress : DefaultMatches parts .egress parts.defaultEgress reading.defaultEgress
  defaultIngress : DefaultMatches parts .ingress parts.defaultIngress reading.defaultIngress

/-- Rules that were normalized and parsed one by one. -/
theorem mapM_ruleOf {core : Core T} {vs : List (Value ω)} {outs : List (Wire ω)}
    {rules : List (Rule T)} (houts : vs.mapM normalizeRule = .ok outs)
    (hrules : (outs.map strEntries).mapM (fun rd => (parseRule core rd).toOption) = some rules) :
    vs.mapM (ruleOf core) = some rules := by
  rw [Except.mapM_eq_ok_iff] at houts
  rw [Option.mapM_eq_some_iff] at hrules ⊢
  induction houts generalizing rules with
  | nil =>
    rw [List.map_nil, List.forall₂_nil_left_iff] at hrules
    rw [hrules]
    exact List.Forall₂.nil
  | cons hv _ ih =>
    rw [List.map_cons] at hrules
    obtain ⟨r, rules', hr, hrules', rfl⟩ := List.forall₂_cons_left_iff.mp hrules
    refine List.Forall₂.cons ?_ (ih hrules')
    rw [ruleOf, hv]
    exact hr

/-- The base the native side parses is the one the parts name. -/
theorem base_eq_of_matches {core : Core T} {parts : Parts ω} {reading : Reading ω}
    (h : Matches parts reading) {base : Option (Native.NetworkPolicy T)}
    (hbase : parseBase core reading.profiles reading.preset = .ok base) :
    parts.base core = some base := by
  unfold parseBase at hbase
  unfold Parts.base
  have hprofiles := h.profiles
  cases hvs : parts.profiles with
  | nil =>
    rw [hvs] at hprofiles
    rw [← Except.ok.inj hprofiles] at hbase
    -- without profiles the base is the preset, if there is one
    rcases h.preset with ⟨hv, hs⟩ | ⟨v, s, hv, hs, hpreset⟩
    · rw [hs] at hbase
      rw [hv]
      cases hbase
      rfl
    · rw [hpreset] at hbase
      obtain ⟨policy, hpolicy, rfl⟩ := Except.map_eq_ok_iff.mp hbase
      rw [hv]
      change (presetNamed core v).map some = _
      rw [presetNamed_eq_some hs hpolicy]
      rfl
  | cons v vs =>
    rw [hvs] at hprofiles
    -- with profiles there is no preset beside them
    cases hkeys : reading.profiles with
    | nil =>
      rw [hkeys, Except.mapM_eq_ok_iff] at hprofiles
      cases hprofiles
    | cons key keys =>
      rw [hkeys] at hbase hprofiles
      by_cases hpreset : reading.preset.isSome = true
      · rw [hpreset] at hbase
        cases hbase
      · rw [Bool.not_eq_true] at hpreset
        rw [hpreset] at hbase
        obtain ⟨ps, hps, hsome⟩ := Except.bind_eq_ok_iff.mp hbase
        cases hsome
        change ((v :: vs).mapM profileNamed).map _ = _
        rw [mapM_profileNamed hprofiles hps]
        rfl

/-- Each default comes out as the parts have it. -/
theorem default_eq_of_matches {core : Core T} {parts : Parts ω} {dir : FlowDirection} {v : Value ω}
    {s : Option String} (h : DefaultMatches parts dir v s) {explicit : Option Action}
    (hs : Reading.parseDefault s = some explicit) {base : Option (Native.NetworkPolicy T)}
    (hbase : parts.base core = some base) :
    ∃ explicit', defaultNamed v = some explicit' ∧
      (explicit.or (base.map fun base => base.default dir)).getD (denyEgressAllowIngress dir) =
        (explicit'.or (base.map fun base => base.default dir)).getD (parts.fallback dir) := by
  unfold defaultNamed
  cases h with
  | explicit hv hstr =>
    rw [if_pos hv]
    obtain ⟨a, ha, rfl⟩ := Option.map_eq_some_iff.mp hs
    rw [actionNamed_eq_some hstr (Except.toOption_eq_some_iff.mp ha)]
    exact ⟨some a, rfl, rfl⟩
  | absent hv hfallback =>
    rw [if_neg (by rw [hv]; exact Bool.false_ne_true), hfallback]
    cases hs
    exact ⟨none, rfl, rfl⟩
  | written hv hprofiles hpreset hstr =>
    rw [if_neg (by rw [hv]; exact Bool.false_ne_true)]
    -- a default that the Ruby layer writes for want of one is the one that would hold anyway
    unfold Parts.base at hbase
    rw [hprofiles, hpreset] at hbase
    cases hbase
    obtain ⟨a, ha, rfl⟩ := Option.map_eq_some_iff.mp hs
    rw [hstr] at ha
    cases ha
    exact ⟨none, rfl, rfl⟩

/-- The layers that the native layer reads are those of the parts. -/
theorem exists_layers_of_matches {core : Core T} {parts : Parts ω} {reading : Reading ω}
    (h : Matches parts reading) {layers : Layers T} (hlayers : reading.layers core = some layers) :
    ∃ layers', parts.layers core = some layers' ∧ layers.Agree layers' := by
  unfold Reading.layers at hlayers
  simp only [Option.bind_eq_bind, Option.bind_eq_some_iff] at hlayers
  obtain ⟨ds, hds, ss, hss, rules, hrules, base, hbase, egress, hegress, ingress, hingress, hsome⟩ :=
    hlayers
  have hds' : parts.denyDomains.mapM (fun v => (core.parseDomainName v.toS).toOption) = some ds := by
    rw [h.denyDomains, List.mapM_map] at hds
    exact hds
  have hss' : parts.denyDomainSuffixes.mapM (fun v => (core.parseDomainSuffix v.toS).toOption) =
      some ss := by
    rw [h.denyDomainSuffixes, List.mapM_map] at hss
    exact hss
  obtain ⟨outs, houts, hrules'⟩ := h.rules
  rw [hrules'] at hrules
  -- the defaults need the base, from which they may come
  have hbase' := base_eq_of_matches h (Except.toOption_eq_some_iff.mp hbase)
  obtain ⟨egress', hegress', hdefaultEgress⟩ :=
    default_eq_of_matches h.defaultEgress hegress hbase'
  obtain ⟨ingress', hingress', hdefaultIngress⟩ :=
    default_eq_of_matches h.defaultIngress hingress hbase'
  cases hsome
  refine ⟨⟨ds, ss, rules, base, Reading.explicitDefault egress' ingress', parts.fallback⟩, ?_,
    rfl, rfl, rfl, rfl, ?_⟩
  · unfold Parts.layers
    rw [hds', hss', mapM_ruleOf houts hrules, hbase', hegress', hingress']
    rfl
  · intro dir
    cases dir with
    | egress => exact hdefaultEgress
    | ingress => exact hdefaultIngress

end Names

end MicrosandboxRb.Network
