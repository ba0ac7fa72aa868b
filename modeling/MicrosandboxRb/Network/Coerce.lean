import MicrosandboxRb.Network.Meaning
import MicrosandboxRb.Network.Spelling

/-!
# From a `network:` argument to the decision of the core

Every branch of the coercion puts the parts of its argument on the wire: the deny lists, the rules,
the base and the defaults, each in a form that the native layer reads back.

## Main results

* `exists_matches_of_coerce`: the wire form of an accepted argument matches its parts;
* `network_policy_means_its_layers`: every accepted argument that sets a policy decides every flow
  as its layers do.
-/

namespace MicrosandboxRb.Network

open Ruby Conv Native

variable {ω : Type} {T : CoreTypes}

/-! ## What a wire Hash reads as -/

/-- What the native side reads of a preset. -/
theorem reading_preset (p : String) :
    Reading.Of (strEntries (AList.singleton "preset" (.str p) : Wire ω)) { preset := some p } :=
  ⟨rfl, rfl, rfl, rfl, rfl, rfl, rfl⟩

/-- What it reads of profiles. -/
theorem reading_profiles (names : List String) :
    Reading.Of (strEntries (AList.singleton "profiles" (.arr (names.map .str)) : Wire ω))
      { profiles := names } :=
  ⟨rfl, rfl, mapM_tryString_map_str names, rfl, rfl, rfl, rfl⟩

/-- What it reads of the policy without rules. -/
theorem reading_emptyPolicy :
    Reading.Of (strEntries (NetworkPolicy.emptyPolicy : Wire ω))
      { defaultEgress := some "deny", defaultIngress := some "allow" } :=
  ⟨rfl, rfl, rfl, rfl, rfl, rfl, rfl⟩

section Wires

variable [Methods ω]

/-- The deny lists write no key but their own. -/
theorem lookup_addDenyLists_ne (h : Wire ω) (dd ds : Value ω) {k : String}
    (hdd : k ≠ "deny_domains") (hds : k ≠ "deny_domain_suffixes") :
    (NetworkPolicy.addDenyLists h dd ds).lookup k = h.lookup k := by
  rw [NetworkPolicy.addDenyLists, lookup_insertSome_ne _ hds, lookup_insertSome_ne _ hdd]

/-- The deny lists are read back as their Strings, beside what the Hash held before. -/
theorem reading_addDenyLists {h : Wire ω} {reading : Reading ω} (hreading : reading.Of (strEntries h))
    (hdd : h.lookup "deny_domains" = none) (hds : h.lookup "deny_domain_suffixes" = none)
    (dd ds : Value ω) :
    Reading.Of (strEntries (NetworkPolicy.addDenyLists h dd ds))
      { reading with
        denyDomains := dd.array.map Value.toS
        denyDomainSuffixes := ds.array.map Value.toS } := by
  have hne : ∀ k, k ≠ "deny_domains" → k ≠ "deny_domain_suffixes" →
      (NetworkPolicy.addDenyLists h dd ds).lookup k = h.lookup k := fun k =>
    lookup_addDenyLists_ne h dd ds
  refine ⟨?_, ?_, ?_, ?_, ?_, ?_, ?_⟩
  · apply optStringVec_strsUnlessEmpty
    rw [NetworkPolicy.addDenyLists, lookup_insertSome_ne _ (by decide), lookup_insertSome_self, hdd,
      Option.or_none]
  · apply optStringVec_strsUnlessEmpty
    rw [NetworkPolicy.addDenyLists, lookup_insertSome_self, lookup_insertSome_ne _ (by decide), hds,
      Option.or_none]
  · rw [optStringVec_congr (hne _ (by decide) (by decide))]
    exact hreading.profiles
  · rw [optString, opt_congr (hne _ (by decide) (by decide))]
    exact hreading.preset
  · rw [optHashVec_congr (hne _ (by decide) (by decide))]
    exact hreading.rules
  · rw [optString, opt_congr (hne _ (by decide) (by decide))]
    exact hreading.defaultEgress
  · rw [optString, opt_congr (hne _ (by decide) (by decide))]
    exact hreading.defaultIngress

end Wires

/-! ## Actions -/

section Actions

variable [Methods ω]

/-- An action is spelled in any case. -/
theorem actionStr_of_downcase_eq {v : Value ω} {s : String} (h : downcase v.toS = s)
    (hs : s = "allow" ∨ s = "deny") : NetworkPolicy.actionStr v = .ok s := by
  unfold NetworkPolicy.actionStr
  rw [h]
  rcases hs with rfl | rfl
  · rfl
  · rfl

/-- The Symbol `:deny`. -/
theorem actionStr_deny : NetworkPolicy.actionStr (.sym "deny" : Value ω) = .ok "deny" :=
  actionStr_of_downcase_eq (by rw [Value.toS_sym]; decide) (Or.inr rfl)

/-- The Symbol `:allow`. -/
theorem actionStr_allow : NetworkPolicy.actionStr (.sym "allow" : Value ω) = .ok "allow" :=
  actionStr_of_downcase_eq (by rw [Value.toS_sym]; decide) (Or.inl rfl)

/-- Only a value that is neither `nil` nor `false` names an action. -/
theorem truthy_of_actionStr {v : Value ω} {s : String} (h : NetworkPolicy.actionStr v = .ok s) :
    v.truthy = true := by
  obtain ⟨hkey, hs⟩ := eq_of_actionStr h
  have hne : ∀ t, downcase t ≠ "allow" → downcase t ≠ "deny" → v.toS ≠ t := by
    rintro t hallow hdeny rfl
    rw [hkey] at hallow hdeny
    exact hs.elim hallow hdeny
  cases v with
  | nil => exact absurd rfl (hne "" (by decide) (by decide))
  | bool b =>
    cases b with
    | false => exact absurd rfl (hne "false" (by decide) (by decide))
    | true => rfl
  | _ => rfl

/-- A default is left out, or travels as the action that the value names. -/
theorem exists_of_actionUnless {skip : Bool} {v : Value ω} {o : Option (Value ω)}
    (h : NetworkPolicy.actionUnless skip v = .ok o) :
    ∃ s : Option String, o = s.map .str ∧
      ((skip = true ∧ s = none) ∨
        (skip = false ∧ ∃ a, NetworkPolicy.actionStr v = .ok a ∧ s = some a)) := by
  unfold NetworkPolicy.actionUnless at h
  cases skip with
  | true =>
    cases h
    exact ⟨none, rfl, Or.inl ⟨rfl, rfl⟩⟩
  | false =>
    obtain ⟨a, ha, rfl⟩ := Except.map_eq_ok_iff.mp h
    exact ⟨some a, rfl, Or.inr ⟨rfl, a, ha, rfl⟩⟩

end Actions

/-! ## Custom policies -/

section Custom

variable [Methods ω]

/-- What a custom policy puts on the wire. -/
theorem exists_reading_of_custom {args : NetworkPolicy.CustomArgs ω} {wire : Wire ω}
    (h : NetworkPolicy.custom args = .ok wire) :
    ∃ (outs : List (Wire ω)) (egress ingress : Option String),
      args.rules.array.mapM normalizeRule = .ok outs ∧
      ((args.defaultEgress.isNil = true ∧ egress = none) ∨
        (args.defaultEgress.isNil = false ∧
          ∃ a, NetworkPolicy.actionStr args.defaultEgress = .ok a ∧ egress = some a)) ∧
      ((args.defaultIngress.isNil = true ∧ ingress = none) ∨
        (args.defaultIngress.isNil = false ∧
          ∃ a, NetworkPolicy.actionStr args.defaultIngress = .ok a ∧ ingress = some a)) ∧
      Reading.Of (strEntries wire)
        { denyDomains := args.denyDomains.array.map Value.toS
          denyDomainSuffixes := args.denyDomainSuffixes.array.map Value.toS
          rules := outs.map strEntries
          defaultEgress := egress
          defaultIngress := ingress } := by
  unfold NetworkPolicy.custom at h
  obtain ⟨oe, hoe, h⟩ := Except.bind_eq_ok_iff.mp h
  obtain ⟨oi, hoi, h⟩ := Except.bind_eq_ok_iff.mp h
  obtain ⟨outs, houts, h⟩ := Except.bind_eq_ok_iff.mp h
  obtain ⟨egress, rfl, hegress⟩ := exists_of_actionUnless hoe
  obtain ⟨ingress, rfl, hingress⟩ := exists_of_actionUnless hoi
  cases h
  refine ⟨outs, egress, ingress, houts, hegress, hingress, ?_⟩
  -- the rules and defaults first, the deny lists are added to them
  have hreading : Reading.Of (strEntries (AList.insert "rules" (.arr (outs.map strHash))
      (insertSome (insertSome ∅ "default_egress" (egress.map .str)) "default_ingress"
        (ingress.map .str)) : Wire ω))
      { rules := outs.map strEntries, defaultEgress := egress, defaultIngress := ingress } := by
    refine ⟨?_, ?_, ?_, ?_, ?_, ?_, ?_⟩
    · apply optStringVec_eq_nil
      simp (disch := decide) [lookup_insertSome_ne, AList.lookup_insert_ne]
    · apply optStringVec_eq_nil
      simp (disch := decide) [lookup_insertSome_ne, AList.lookup_insert_ne]
    · apply optStringVec_eq_nil
      simp (disch := decide) [lookup_insertSome_ne, AList.lookup_insert_ne]
    · apply opt_eq_none
      simp (disch := decide) [lookup_insertSome_ne, AList.lookup_insert_ne]
    · exact optHashVec_map_strHash (AList.lookup_insert _)
    · apply optString_map_str
      simp (disch := decide) [lookup_insertSome_ne, AList.lookup_insert_ne]
    · apply optString_map_str
      simp (disch := decide) [lookup_insertSome_ne, AList.lookup_insert_ne]
  apply reading_addDenyLists hreading
  · simp (disch := decide) [lookup_insertSome_ne, AList.lookup_insert_ne]
  · simp (disch := decide) [lookup_insertSome_ne, AList.lookup_insert_ne]

/-- A default that is not given falls back, any other is the action it names. -/
theorem defaultMatches_of_isNil {parts : Parts ω} {dir : FlowDirection} {v : Value ω}
    {s : Option String} (hfallback : parts.fallback dir = denyEgressAllowIngress dir)
    (h : (v.isNil = true ∧ s = none) ∨
      (v.isNil = false ∧ ∃ a, NetworkPolicy.actionStr v = .ok a ∧ s = some a)) :
    DefaultMatches parts dir v s := by
  rcases h with ⟨hv, rfl⟩ | ⟨-, a, ha, rfl⟩
  · exact .absent (Value.truthy_eq_false_of_isNil hv) hfallback
  · exact .explicit (truthy_of_actionStr ha) ha

/-- The wire Hash carries the parts. -/
def Carries (wire : Wire ω) (parts : Parts ω) : Prop :=
  ∃ reading : Reading ω, reading.Of (strEntries wire) ∧ Matches parts reading

/-- A custom policy carries its rules, lists and defaults. -/
theorem carries_custom {args : NetworkPolicy.CustomArgs ω} {wire : Wire ω}
    (h : NetworkPolicy.custom args = .ok wire) :
    Carries wire (NetworkArg.policy (.custom args)).parts := by
  obtain ⟨outs, egress, ingress, houts, hegress, hingress, hreading⟩ := exists_reading_of_custom h
  exact ⟨_, hreading, rfl, rfl, ⟨outs, houts, rfl⟩, rfl, Or.inl ⟨rfl, rfl⟩,
    defaultMatches_of_isNil rfl hegress, defaultMatches_of_isNil rfl hingress⟩

end Custom

/-! ## Profiles, presets and names -/

section Bases

variable [Methods ω]

/-- The policy without rules carries nothing but its defaults. -/
theorem carries_emptyPolicy :
    Carries (NetworkPolicy.emptyPolicy : Wire ω) ({} : Parts ω) :=
  ⟨_, reading_emptyPolicy, rfl, rfl, ⟨[], rfl, rfl⟩, rfl, Or.inl ⟨rfl, rfl⟩,
    .written rfl rfl rfl rfl, .written rfl rfl rfl rfl⟩

/-- Profiles carry themselves. -/
theorem carries_profiles {vs : List (Value ω)} {names : List String}
    (h : vs.mapM NetworkPolicy.normalizeProfile = .ok names) :
    Carries (AList.singleton "profiles" (.arr (names.map .str)) : Wire ω)
      ({ profiles := vs } : Parts ω) :=
  ⟨_, reading_profiles names, rfl, rfl, ⟨[], rfl, rfl⟩, h, Or.inl ⟨rfl, rfl⟩,
    .absent rfl rfl, .absent rfl rfl⟩

/-- So does a preset. -/
theorem carries_presetName {name : Value ω} {p : String}
    (h : NetworkPolicy.canonicalPreset name = .ok p) :
    Carries (AList.singleton "preset" (.str p) : Wire ω) ({ preset := some name } : Parts ω) :=
  ⟨_, reading_preset p, rfl, rfl, ⟨[], rfl, rfl⟩, rfl, Or.inr ⟨name, p, rfl, h, rfl⟩,
    .absent rfl rfl, .absent rfl rfl⟩

/-- `custom` without arguments is the policy without rules. -/
theorem custom_default :
    NetworkPolicy.custom ({} : NetworkPolicy.CustomArgs ω) = .ok NetworkPolicy.emptyPolicy := by
  unfold NetworkPolicy.custom NetworkPolicy.actionUnless
  dsimp only [Value.isNil]
  rw [actionStr_deny, actionStr_allow]
  rfl

/-- `from_profiles` carries the profiles, flattened. -/
theorem carries_fromProfiles {profiles : List (Value ω)} {wire : Wire ω}
    (h : NetworkPolicy.fromProfiles profiles = .ok wire) :
    Carries wire ({ profiles := Value.flattenList profiles } : Parts ω) := by
  unfold NetworkPolicy.fromProfiles at h
  obtain ⟨list, hlist, h⟩ := Except.bind_eq_ok_iff.mp h
  have hnames : (Value.flattenList profiles).mapM NetworkPolicy.normalizeProfile = .ok list := hlist
  cases list with
  | nil =>
    have hnil : Value.flattenList profiles = [] := by
      rw [Except.mapM_eq_ok_iff, List.forall₂_nil_right_iff] at hnames
      exact hnames
    rw [hnil]
    have hwire : NetworkPolicy.custom ({} : NetworkPolicy.CustomArgs ω) = .ok wire := h
    rw [custom_default] at hwire
    cases hwire
    exact carries_emptyPolicy
  | cons name names =>
    cases h
    exact carries_profiles hnames

/-- A preset name is looked up by its lower case alone. -/
theorem canonicalPreset_congr {v v' : Value ω} (hkey : downcase v.toS = downcase v'.toS) {p : String}
    (h : NetworkPolicy.canonicalPreset v = .ok p) : NetworkPolicy.canonicalPreset v' = .ok p := by
  unfold NetworkPolicy.canonicalPreset at h ⊢
  dsimp only at h ⊢
  rw [hkey] at h
  split at h
  · cases h
  · split at h
    · cases h
      rfl
    · cases h

/-- A value names a profile exactly if its text in lower case is in the list. -/
theorem profileNamed_isSome_iff {v : Value ω} :
    (profileNamed v).isSome = true ↔ downcase v.toS ∈ NetworkPolicy.PROFILES := by
  unfold profileNamed NetworkPolicy.PROFILES
  split
  · next hkey => simp [hkey]
  · next hkey => simp [hkey]
  · next hkey => simp [hkey]
  · next hpublic hprivate hhost => simpa using ⟨hpublic, hprivate, hhost⟩

/-- Such a value normalizes to the profile. -/
theorem normalizeProfile_of_mem {v : Value ω} {key : String} (hkey : downcase v.toS = key)
    (h : key ∈ NetworkPolicy.PROFILES) : NetworkPolicy.normalizeProfile v = .ok key := by
  unfold NetworkPolicy.normalizeProfile
  dsimp only
  rw [hkey, if_pos h]

/-- A list of one profile. -/
theorem mapM_singleton {v : Value ω} {key : String}
    (h : NetworkPolicy.normalizeProfile v = .ok key) :
    [v].mapM NetworkPolicy.normalizeProfile = .ok [key] := by
  rw [Except.mapM_eq_ok_iff]
  exact List.Forall₂.cons h List.Forall₂.nil

/-- A name is a profile or a preset. -/
theorem carries_name {name : Value ω} {wire : Wire ω} (h : NetworkPolicy.coerceName name = .ok wire) :
    Carries wire (nameParts name) := by
  unfold NetworkPolicy.coerceName at h
  unfold nameParts
  dsimp only at h
  by_cases hprofile : downcase name.toS ∈ NetworkPolicy.PROFILES
  · rw [if_pos hprofile] at h
    rw [if_pos (profileNamed_isSome_iff.mpr hprofile)]
    cases h
    exact carries_profiles (mapM_singleton (normalizeProfile_of_mem rfl hprofile))
  · rw [if_neg hprofile] at h
    rw [if_neg (fun hsome => hprofile (profileNamed_isSome_iff.mp hsome))]
    by_cases hdefault : downcase name.toS = "default"
    · rw [if_pos hdefault] at h
      rw [if_pos hdefault]
      cases h
      -- `default` is another name of the profile `public`
      have hkey : downcase (Value.sym "public" : Value ω).toS = "public" := by
        rw [Value.toS_sym]
        decide
      exact carries_profiles (mapM_singleton (normalizeProfile_of_mem hkey (by decide)))
    · rw [if_neg hdefault] at h
      rw [if_neg hdefault]
      obtain ⟨p, hp, h⟩ := Except.bind_eq_ok_iff.mp h
      cases h
      have hkey : downcase (Value.str (downcase name.toS) : Value ω).toS = downcase name.toS := by
        rw [Value.toS_str, downcase_downcase]
      exact carries_presetName (canonicalPreset_congr hkey hp)

end Bases

/-! ## Hashes -/

section Hashes

variable [Methods ω] {es : Entries ω} {sym wire : Wire ω}

/-- A key of the Hash, looked up after the keys became Symbols. -/
theorem index_eq_valueAt (hsym : transformKeysToSym es = .ok sym) (key : String) :
    index sym key = valueAt es key := by
  rw [index, lookup_transformKeysToSym hsym, valueAt]

/-- The keys of a custom policy are recognized in either spelling. -/
theorem hasCustomKey_eq_hasOwn (hsym : transformKeysToSym es = .ok sym) :
    NetworkPolicy.hasCustomKey sym = hasOwn es := by
  rw [NetworkPolicy.hasCustomKey, hasOwn, hasKey, hasKey, hasKey,
    lookup_transformKeysToSym hsym, lookup_transformKeysToSym hsym, lookup_transformKeysToSym hsym]

/-- A key the caller did not give. -/
theorem hasKey_eq_false_iff {key : String} : hasKey es key = false ↔ given es key = none := by
  rw [hasKey, Option.isSome_eq_false_iff, Option.isNone_iff_eq_none]

/-- Without a base neither profiles nor a preset are given. -/
theorem given_eq_none_of_not_hasBase (h : hasBase es = false) :
    given es "profiles" = none ∧ given es "preset" = none := by
  rw [hasBase, Bool.or_eq_false_iff, hasKey_eq_false_iff, hasKey_eq_false_iff] at h
  exact h

/-- What is not given reads as `nil`. -/
theorem valueAt_eq_nil {key : String} (h : given es key = none) : valueAt es key = .nil := by
  rw [valueAt, h, Option.getD_none]

/-- Without `profiles:` there are none. -/
theorem profiles_hashParts (h : given es "profiles" = none) : (hashParts es).profiles = [] := by
  rw [hashParts, valueAt_eq_nil h]
  rfl

/-- Without keys of its own, a Hash has no rules and no defaults. -/
theorem valueAt_eq_nil_of_not_hasOwn (h : hasOwn es = false) :
    valueAt es "rules" = .nil ∧ valueAt es "default_egress" = .nil ∧
      valueAt es "default_ingress" = .nil := by
  rw [hasOwn, Bool.or_eq_false_iff, Bool.or_eq_false_iff, hasKey_eq_false_iff,
    hasKey_eq_false_iff, hasKey_eq_false_iff] at h
  obtain ⟨⟨hrules, hegress⟩, hingress⟩ := h
  exact ⟨valueAt_eq_nil hrules, valueAt_eq_nil hegress, valueAt_eq_nil hingress⟩

/-- Over a base the deny lists are the ones given. -/
theorem denyList_of_hasBase (h : hasBase es = true) (key : String) :
    denyList es key = (valueAt es key).array := by
  rw [denyList, h]
  rfl

/-- So they are without keys of a custom policy. -/
theorem denyList_of_not_hasOwn (h : hasOwn es = false) (key : String) :
    denyList es key = (valueAt es key).array := by
  rw [denyList, h, Bool.and_false, Bool.false_and]
  rfl

/-- A preset with deny lists. -/
theorem carries_presetHash (hsym : transformKeysToSym es = .ok sym)
    (hprofiles : given es "profiles" = none) (hpreset : hasKey es "preset" = true)
    (h : NetworkPolicy.fromPresetHash sym = .ok wire) : Carries wire (hashParts es) := by
  unfold NetworkPolicy.fromPresetHash at h
  rw [hasCustomKey_eq_hasOwn hsym] at h
  cases hown : hasOwn es with
  | true => rw [hown] at h; cases h
  | false =>
    rw [hown] at h
    obtain ⟨p, hp, h⟩ := Except.bind_eq_ok_iff.mp h
    cases h
    have hbase : hasBase es = true := by rw [hasBase, hpreset, Bool.or_true]
    obtain ⟨hrules, hegress, hingress⟩ := valueAt_eq_nil_of_not_hasOwn hown
    -- a Hash with a preset falls back to the defaults of a custom policy
    have hfallback : (hashParts es).fallback = denyEgressAllowIngress := by
      rw [hashParts, hbase]
      rfl
    obtain ⟨name, hname⟩ := Option.isSome_iff_exists.mp hpreset
    refine ⟨_, reading_addDenyLists (reading_preset p) rfl rfl _ _, ?_, ?_, ⟨[], ?_, rfl⟩, ?_,
      Or.inr ⟨name, p, hname, ?_, rfl⟩, .absent ?_ (by rw [hfallback]),
      .absent ?_ (by rw [hfallback])⟩
    · change _ = (denyList es "deny_domains").map Value.toS
      rw [denyList_of_hasBase hbase, ← index_eq_valueAt hsym]
    · change _ = (denyList es "deny_domain_suffixes").map Value.toS
      rw [denyList_of_hasBase hbase, ← index_eq_valueAt hsym]
    · rw [hashParts, hrules]
      rfl
    · rw [hashParts, valueAt_eq_nil hprofiles]
      rfl
    · rw [index_eq_valueAt hsym, valueAt, hname] at hp
      exact hp
    · rw [hashParts, hegress]
      rfl
    · rw [hashParts, hingress]
      rfl

/-- A default in a Hash with profiles: `nil` and `false` leave it to the base. -/
theorem defaultMatches_of_not_truthy {parts : Parts ω} {dir : FlowDirection} {v : Value ω}
    {s : Option String} (hfallback : parts.fallback dir = denyEgressAllowIngress dir)
    (h : ((!v.truthy) = true ∧ s = none) ∨
      ((!v.truthy) = false ∧ ∃ a, NetworkPolicy.actionStr v = .ok a ∧ s = some a)) :
    DefaultMatches parts dir v s := by
  rcases h with ⟨hv, rfl⟩ | ⟨-, a, ha, rfl⟩
  · exact .absent (by rwa [Bool.not_eq_true'] at hv) hfallback
  · exact .explicit (truthy_of_actionStr ha) ha

/-- What a Hash with profiles puts on the wire, before an empty Hash is replaced. -/
theorem reading_profilesHash (names : List String) (outs : List (Wire ω))
    (egress ingress : Option String) (dd ds : Value ω) :
    Reading.Of (strEntries (NetworkPolicy.addDenyLists
      (insertSome (insertSome (insertSome (insertSome ∅ "profiles" (strsUnlessEmpty names))
        "default_egress" (egress.map .str)) "default_ingress" (ingress.map .str)) "rules"
          (if outs.isEmpty then none else some (.arr (outs.map strHash)))) dd ds))
      { denyDomains := dd.array.map Value.toS
        denyDomainSuffixes := ds.array.map Value.toS
        profiles := names
        rules := outs.map strEntries
        defaultEgress := egress
        defaultIngress := ingress } := by
  have hreading : Reading.Of (strEntries
      (insertSome (insertSome (insertSome (insertSome ∅ "profiles" (strsUnlessEmpty names))
        "default_egress" (egress.map .str)) "default_ingress" (ingress.map .str)) "rules"
          (if outs.isEmpty then none else some (.arr (outs.map strHash))) : Wire ω))
      { profiles := names, rules := outs.map strEntries, defaultEgress := egress,
        defaultIngress := ingress } := by
    refine ⟨?_, ?_, ?_, ?_, ?_, ?_, ?_⟩
    · apply optStringVec_eq_nil
      simp (disch := decide) [lookup_insertSome_ne]
    · apply optStringVec_eq_nil
      simp (disch := decide) [lookup_insertSome_ne]
    · apply optStringVec_strsUnlessEmpty
      simp (disch := decide) [lookup_insertSome_ne]
    · apply opt_eq_none
      simp (disch := decide) [lookup_insertSome_ne]
    · apply optHashVec_unlessEmpty
      simp (disch := decide) [lookup_insertSome_ne]
    · apply optString_map_str
      simp (disch := decide) [lookup_insertSome_ne]
    · apply optString_map_str
      simp (disch := decide) [lookup_insertSome_ne]
  apply reading_addDenyLists hreading
  · simp (disch := decide) [lookup_insertSome_ne]
  · simp (disch := decide) [lookup_insertSome_ne]

omit [Methods ω] in
/-- What the native side reads of the empty Hash. -/
theorem reading_empty : Reading.Of (strEntries (∅ : Wire ω)) ({} : Reading ω) :=
  ⟨rfl, rfl, rfl, rfl, rfl, rfl, rfl⟩

/-- A default that is not written was `nil` or `false`. -/
theorem truthy_of_matches_none {parts : Parts ω} {dir : FlowDirection} {v : Value ω}
    (h : DefaultMatches parts dir v none) : v.truthy = false := by
  cases h with
  | absent hv _ => exact hv

/-- Parts with nothing in them are carried by the empty composed policy too. -/
theorem matches_emptyPolicy {parts : Parts ω} (hmatches : Matches parts {})
    (hfallback : parts.fallback = denyEgressAllowIngress) :
    Matches parts { defaultEgress := some "deny", defaultIngress := some "allow" } := by
  have hprofiles : parts.profiles = [] := by
    have hnames := hmatches.profiles
    rw [Except.mapM_eq_ok_iff, List.forall₂_nil_right_iff] at hnames
    exact hnames
  have hpreset : parts.preset = none := by
    rcases hmatches.preset with ⟨hnone, -⟩ | ⟨v, s, -, -, hsome⟩
    · exact hnone
    · cases hsome
  exact ⟨hmatches.denyDomains, hmatches.denyDomainSuffixes, hmatches.rules, hmatches.profiles,
    hmatches.preset,
    .written (truthy_of_matches_none hmatches.defaultEgress) hprofiles hpreset
      (by rw [hfallback]; rfl),
    .written (truthy_of_matches_none hmatches.defaultIngress) hprofiles hpreset
      (by rw [hfallback]; rfl)⟩

/-- An empty wire form is replaced by the policy without rules. -/
theorem carries_orEmptyPolicy {parts : Parts ω} {reading : Reading ω}
    (hreading : reading.Of (strEntries wire)) (hmatches : Matches parts reading)
    (hfallback : parts.fallback = denyEgressAllowIngress) :
    Carries (NetworkPolicy.orEmptyPolicy wire) parts := by
  unfold NetworkPolicy.orEmptyPolicy
  by_cases hempty : wire.keys = []
  · -- nothing was put on the wire, so there is nothing to read
    rw [if_pos hempty]
    rw [AList.keys_eq_nil_iff.mp hempty] at hreading
    rw [hreading.eq reading_empty] at hmatches
    exact ⟨_, reading_emptyPolicy, matches_emptyPolicy hmatches hfallback⟩
  · rw [if_neg hempty]
    exact ⟨_, hreading, hmatches⟩

/-- Profiles with rules, defaults and deny lists. -/
theorem carries_profilesHash (hsym : transformKeysToSym es = .ok sym)
    (hprofiles : hasKey es "profiles" = true) (hpreset : given es "preset" = none)
    {names : List String}
    (hnames : NetworkPolicy.normalizeProfiles (valueAt es "profiles") = .ok names)
    (h : NetworkPolicy.fromProfilesHash sym names = .ok wire) : Carries wire (hashParts es) := by
  unfold NetworkPolicy.fromProfilesHash at h
  obtain ⟨oe, hoe, h⟩ := Except.bind_eq_ok_iff.mp h
  obtain ⟨oi, hoi, h⟩ := Except.bind_eq_ok_iff.mp h
  obtain ⟨outs, houts, h⟩ := Except.bind_eq_ok_iff.mp h
  obtain ⟨egress, rfl, hegress⟩ := exists_of_actionUnless hoe
  obtain ⟨ingress, rfl, hingress⟩ := exists_of_actionUnless hoi
  rw [index_eq_valueAt hsym] at houts hegress hingress
  have hbase : hasBase es = true := by rw [hasBase, hprofiles, Bool.true_or]
  -- over a base a default that is not given is left to it
  have hfallback : (hashParts es).fallback = denyEgressAllowIngress := by
    rw [hashParts, hbase]
    rfl
  have hrules : (hashParts es).rules.mapM normalizeRule = .ok outs := by
    change (if (valueAt es "rules").truthy then (valueAt es "rules").array else []).mapM _ = _
    by_cases htruthy : (valueAt es "rules").truthy = true
    · rw [if_pos htruthy]
      exact houts
    · -- `Array(false)` is not a list of rules
      rw [if_neg htruthy]
      cases hv : valueAt es "rules" with
      | nil => rw [hv] at houts; exact houts
      | bool b =>
        rw [hv] at houts
        cases houts
      | _ => rw [hv] at htruthy; exact absurd rfl htruthy
  -- what the keys name, part by part
  have hmatches : Matches (hashParts es)
      { denyDomains := (index sym "deny_domains").array.map Value.toS
        denyDomainSuffixes := (index sym "deny_domain_suffixes").array.map Value.toS
        profiles := names
        rules := outs.map strEntries
        defaultEgress := egress
        defaultIngress := ingress } := by
    refine ⟨?_, ?_, ⟨outs, hrules, rfl⟩, hnames, Or.inl ⟨hpreset, rfl⟩,
      defaultMatches_of_not_truthy (by rw [hfallback]) hegress,
      defaultMatches_of_not_truthy (by rw [hfallback]) hingress⟩
    · change _ = (denyList es "deny_domains").map Value.toS
      rw [denyList_of_hasBase hbase, ← index_eq_valueAt hsym]
    · change _ = (denyList es "deny_domain_suffixes").map Value.toS
      rw [denyList_of_hasBase hbase, ← index_eq_valueAt hsym]
  have hreading := reading_profilesHash names outs egress ingress (index sym "deny_domains")
    (index sym "deny_domain_suffixes")
  rw [← Except.ok.inj h]
  exact carries_orEmptyPolicy hreading hmatches hfallback

/-- A list, or the empty one for `nil` and `false`. -/
theorem array_orEmpty (v : Value ω) :
    (NetworkPolicy.orEmpty v).array = if v.truthy then v.array else [] := by
  unfold NetworkPolicy.orEmpty
  split
  · rfl
  · rfl

/-- A default in a custom policy Hash: written out if the key is missing. -/
theorem defaultMatches_of_getD {dir : FlowDirection} {key s₀ : String} {s : Option String}
    (hbase : hasBase es = false) (hown : hasOwn es = true)
    (hs₀ : NetworkPolicy.actionStr (.sym s₀ : Value ω) = .ok s₀)
    (hfallback : actionFromStr s₀ = .ok (denyEgressAllowIngress dir))
    (h : (((given es key).getD (.sym s₀)).isNil = true ∧ s = none) ∨
      (((given es key).getD (.sym s₀)).isNil = false ∧
        ∃ a, NetworkPolicy.actionStr ((given es key).getD (.sym s₀)) = .ok a ∧ s = some a)) :
    DefaultMatches (hashParts es) dir (valueAt es key) s := by
  have hparts : (hashParts es).fallback = denyEgressAllowIngress := by
    rw [hashParts, hown, Bool.or_true]
    rfl
  obtain ⟨hprofiles, hpreset⟩ := given_eq_none_of_not_hasBase hbase
  cases hv : given es key with
  | some v =>
    rw [hv, Option.getD_some] at h
    rw [valueAt, hv, Option.getD_some]
    exact defaultMatches_of_isNil (by rw [hparts]) h
  | none =>
    rw [hv, Option.getD_none, hs₀] at h
    rw [valueAt, hv, Option.getD_none]
    obtain ⟨hnil, -⟩ | ⟨-, a, ha, rfl⟩ := h
    · cases hnil
    · cases ha
      exact .written rfl (profiles_hashParts hprofiles) hpreset (by rw [hparts]; exact hfallback)

/-- A custom policy. -/
theorem carries_customHash (hsym : transformKeysToSym es = .ok sym) (hbase : hasBase es = false)
    (hown : hasOwn es = true) (h : NetworkPolicy.fromCustomHash sym = .ok wire) :
    Carries wire (hashParts es) := by
  unfold NetworkPolicy.fromCustomHash at h
  obtain ⟨outs, egress, ingress, houts, hegress, hingress, hreading⟩ := exists_reading_of_custom h
  dsimp only at houts hegress hingress hreading
  rw [lookup_transformKeysToSym hsym] at hegress hingress
  rw [array_orEmpty, index_eq_valueAt hsym] at houts
  -- `nil` and `false` stand for an empty deny list
  have hdeny : ∀ key, denyList es key = (NetworkPolicy.orEmpty (index sym key)).array := by
    intro key
    rw [denyList, hbase, hown, array_orEmpty, index_eq_valueAt hsym]
    cases (valueAt es key).truthy with
    | true => rfl
    | false => rfl
  obtain ⟨hprofiles, hpreset⟩ := given_eq_none_of_not_hasBase hbase
  refine ⟨_, hreading, ?_, ?_, ⟨outs, houts, rfl⟩, ?_, Or.inl ⟨hpreset, rfl⟩,
    defaultMatches_of_getD hbase hown actionStr_deny rfl hegress,
    defaultMatches_of_getD hbase hown actionStr_allow rfl hingress⟩
  · change _ = (denyList es "deny_domains").map Value.toS
    rw [hdeny]
  · change _ = (denyList es "deny_domain_suffixes").map Value.toS
    rw [hdeny]
  · rw [profiles_hashParts hprofiles]
    rfl

omit [Methods ω] in
/-- What the native side reads of two open defaults. -/
theorem reading_allowAll :
    Reading.Of (strEntries (AList.insert "default_ingress" (.str "allow")
      (AList.singleton "default_egress" (.str "allow")) : Wire ω))
      { defaultEgress := some "allow", defaultIngress := some "allow" } :=
  ⟨rfl, rfl, rfl, rfl, rfl, rfl, rfl⟩

/-- Deny lists alone. -/
theorem carries_denyListsHash (hsym : transformKeysToSym es = .ok sym) (hbase : hasBase es = false)
    (hown : hasOwn es = false) (hne : NetworkPolicy.fromDenyListsHash sym ≠ ∅) :
    Carries (NetworkPolicy.fromDenyListsHash sym) (hashParts es) := by
  unfold NetworkPolicy.fromDenyListsHash at hne ⊢
  dsimp only at hne ⊢
  split at hne
  · exact absurd rfl hne
  · next hlists =>
    rw [if_neg hlists]
    obtain ⟨hprofiles, hpreset⟩ := given_eq_none_of_not_hasBase hbase
    obtain ⟨hrules, hegress, hingress⟩ := valueAt_eq_nil_of_not_hasOwn hown
    -- deny lists alone leave everything else allowed
    have hfallback : (hashParts es).fallback = fun _ => .allow := by
      rw [hashParts, hbase, hown]
      rfl
    refine ⟨_, reading_addDenyLists reading_allowAll rfl rfl _ _, ?_, ?_, ⟨[], ?_, rfl⟩, ?_,
      Or.inl ⟨hpreset, rfl⟩,
      .written ?_ (profiles_hashParts hprofiles) hpreset (by rw [hfallback]; rfl),
      .written ?_ (profiles_hashParts hprofiles) hpreset (by rw [hfallback]; rfl)⟩
    · change _ = (denyList es "deny_domains").map Value.toS
      rw [denyList_of_not_hasOwn hown, ← index_eq_valueAt hsym]
      exact Value.map_toS_map_str _
    · change _ = (denyList es "deny_domain_suffixes").map Value.toS
      rw [denyList_of_not_hasOwn hown, ← index_eq_valueAt hsym]
      exact Value.map_toS_map_str _
    · rw [hashParts, hrules]
      rfl
    · rw [profiles_hashParts hprofiles]
      rfl
    · rw [hashParts, hegress]
      rfl
    · rw [hashParts, hingress]
      rfl

/-- A Hash carries the parts its keys name. -/
theorem carries_hash (h : NetworkPolicy.fromHash es = .ok wire) (hne : wire ≠ ∅) :
    Carries wire (hashParts es) := by
  unfold NetworkPolicy.fromHash at h
  obtain ⟨sym, hsym, h⟩ := Except.bind_eq_ok_iff.mp h
  obtain ⟨profiles, hprofiles, h⟩ := Except.bind_eq_ok_iff.mp h
  unfold NetworkPolicy.givenProfiles at hprofiles
  rw [lookup_transformKeysToSym hsym] at hprofiles h
  rw [hasCustomKey_eq_hasOwn hsym] at h
  cases hgiven : given es "profiles" with
  | some v =>
    rw [hgiven] at hprofiles
    obtain ⟨names, hnames, rfl⟩ := Except.map_eq_ok_iff.mp hprofiles
    cases hpreset : given es "preset" with
    | some name => rw [hpreset] at h; cases h
    | none =>
      rw [hpreset] at h
      have hkey : hasKey es "profiles" = true := by rw [hasKey, hgiven, Option.isSome_some]
      refine carries_profilesHash hsym hkey hpreset ?_ h
      rw [valueAt, hgiven]
      exact hnames
  | none =>
    rw [hgiven] at hprofiles
    cases hprofiles
    cases hpreset : hasKey es "preset" with
    | true =>
      rw [show (given es "preset").isSome = true from hpreset] at h
      exact carries_presetHash hsym hgiven hpreset h
    | false =>
      rw [show (given es "preset").isSome = false from hpreset] at h
      have hbase : hasBase es = false := by
        rw [hasBase, hpreset, hasKey_eq_false_iff.mpr hgiven, Bool.or_false]
      -- without a base: a custom policy, or deny lists alone
      cases hown : hasOwn es with
      | true =>
        rw [hown] at h
        exact carries_customHash hsym hbase hown h
      | false =>
        rw [hown] at h
        cases h
        exact carries_denyListsHash hsym hbase hown hne

end Hashes

/-! ## Every argument -/

section Main

variable [Methods ω]

/-- The wire form of an accepted argument carries the parts of the argument, unless it is empty. -/
theorem exists_matches_of_coerce {network : NetworkArg ω} {wire : Wire ω}
    (h : NetworkPolicy.coerce network = .ok wire) (hne : wire ≠ ∅) : Carries wire network.parts := by
  cases network with
  | policy call =>
    cases call with
    | fromProfiles profiles => exact carries_fromProfiles h
    | preset name =>
      obtain ⟨p, hp, hwire⟩ := Except.bind_eq_ok_iff.mp h
      cases hwire
      exact carries_presetName hp
    | custom args => exact carries_custom h
  | value v =>
    cases v with
    | arr xs => exact carries_fromProfiles h
    | str s => exact carries_name h
    | sym s => exact carries_name h
    | hash es => exact carries_hash h hne
    | _ => cases h

/-- A rule of the layers is the one that its request asks for. -/
theorem forall₂_parse_of_spelledBy {core : Core T} {parts : Parts ω} {layers : Layers T}
    (hlayers : parts.layers core = some layers) {reqs : List (RuleRequest ω)}
    (hreqs : List.Forall₂ RuleRequest.SpelledBy reqs parts.rules) :
    List.Forall₂ (fun req rule => req.parse core = .ok rule) reqs layers.rules := by
  have hrules : parts.rules.mapM (ruleOf core) = some layers.rules := by
    unfold Parts.layers at hlayers
    simp only [Option.bind_eq_bind, Option.bind_eq_some_iff] at hlayers
    obtain ⟨_, -, _, -, rules, hrules, _, -, _, -, _, -, heq⟩ := hlayers
    obtain rfl := Option.some.inj heq
    exact hrules
  rw [Option.mapM_eq_some_iff] at hrules
  generalize layers.rules = rules at hrules
  generalize parts.rules = vs at hrules hreqs
  induction hreqs generalizing rules with
  | nil =>
    cases hrules
    exact .nil
  | @cons req v _ _ hspelled _ ih =>
    obtain ⟨rule, rest, hrule, hrest, rfl⟩ := List.forall₂_cons_left_iff.mp hrules
    -- the rule is parsed to what the request asks for, so this is its layer
    obtain ⟨wire, hwire, hparse⟩ := hspelled.parse_eq core
    rw [ruleOf, hwire] at hrule
    refine .cons ?_ (ih rest hrest)
    rw [← hparse]
    exact Except.toOption_eq_some_iff.mp hrule

/-- Network policies mean what their layers say: whatever an accepted `network:` argument is, the
setting that reaches the core decides every flow as the layers of the argument do. Where the rules
spell requests, the rules of the layers are those that the requests ask for. -/
theorem network_policy_means_its_layers {core : Core T} (hcore : core.Documented) {opts : Wire ω}
    (hopts : NoNetwork opts) {network : NetworkArg ω} {opts' : Wire ω}
    (hruby : applyNetworkOpts opts network = .ok opts') {setting : NetworkSetting T}
    (hnative : networkRoutes core (strEntries opts') = .ok (some setting)) :
    ∃ layers, network.parts.layers core = some layers ∧
      (∀ reqs, List.Forall₂ RuleRequest.SpelledBy reqs network.parts.rules →
        List.Forall₂ (fun req rule => req.parse core = .ok rule) reqs layers.rules) ∧
      ∀ flow, setting.decide core flow = layers.decide core flow := by
  obtain ⟨wire, hwire, hroute⟩ := Except.bind_eq_ok_iff.mp hruby
  cases hroute
  have hne : wire ≠ ∅ := by
    -- an empty wire Hash sets no policy
    rintro rfl
    have hnone : networkRoutes core (strEntries opts) = .ok none := by
      rw [networkRoutes, presetRoute_eq_none hopts.network,
        profilesRoute_eq_none hopts.networkProfiles,
        parseNetworkPolicy_eq_none hopts.networkPolicy]
      rfl
    rw [show routeNetwork opts ∅ = opts from rfl, hnone] at hnative
    cases hnative
  obtain ⟨reading, hreading, hmatches⟩ := exists_matches_of_coerce hwire hne
  obtain ⟨layers, hlayers, hdecide⟩ := exists_layers_of_networkRoutes hcore hopts hreading hnative
  obtain ⟨layers', hlayers', hagree⟩ := exists_layers_of_matches hmatches hlayers
  refine ⟨layers', hlayers', fun _ => forall₂_parse_of_spelledBy hlayers', fun flow => ?_⟩
  rw [hdecide flow]
  exact hagree.decide_eq core flow

/-- Profiles with a rule and a deny list, under keys of both spellings. -/
def profilesRulesDenyList : NetworkArg Unit :=
  .value (.hash [(.sym "profiles", .arr [.sym "public"]),
    (.str "rules", .arr [.hash [(.sym "action", .str "deny"),
      (.sym "destination", .str "tracker.example")]]),
    (.sym "deny_domains", .arr [.str "ads.example"])])

/-- The rule of the Hash. -/
def trackerRequest : RuleRequest Unit where
  action := .deny
  direction := .egress
  destination := .str "tracker.example"
  protocol := .nil
  protocols := .nil
  port := .nil
  ports := .nil

/-- Profiles, a rule and a deny list in one Hash. -/
theorem network_policy_means_its_layers_profilesRulesDenyList :
    ∃ opts' setting, applyNetworkOpts ∅ profilesRulesDenyList = .ok opts' ∧
      networkRoutes smallCore (strEntries opts') = .ok (some setting) ∧
      ∃ layers, profilesRulesDenyList.parts.layers smallCore = some layers ∧
        (∃ rule, layers.rules = [rule] ∧ trackerRequest.parse smallCore = .ok rule) ∧
        ∀ flow, setting.decide smallCore flow = layers.decide smallCore flow := by
  have hrun : ∃ setting, (applyNetworkOpts ∅ profilesRulesDenyList >>= fun opts =>
      networkRoutes smallCore (strEntries opts)) = .ok (some setting) := ⟨_, rfl⟩
  obtain ⟨setting, hrun⟩ := hrun
  obtain ⟨opts', hruby, hnative⟩ := Except.bind_eq_ok_iff.mp hrun
  have hopts : NoNetwork (∅ : Wire Unit) := ⟨rfl, rfl, rfl⟩
  obtain ⟨layers, hlayers, hrules, hdecide⟩ :=
    network_policy_means_its_layers smallCore_documented hopts hruby hnative
  have hflat : trackerRequest.Flat
      [((.sym "action" : Value Unit), .str "deny"), (.sym "destination", .str "tracker.example")] :=
    { action := ⟨_, rfl, Or.inl rfl⟩, direction := Or.inr ⟨rfl, rfl⟩, protocol := rfl
      protocols := rfl, port := rfl, ports := rfl, kind := rfl, destination := rfl
      shorthand := fun _ => rfl }
  obtain ⟨rule, rest, hrule, hrest, hcons⟩ :=
    List.forall₂_cons_left_iff.mp (hrules [trackerRequest] (.cons (.flat hflat) .nil))
  cases hrest
  exact ⟨opts', setting, hruby, hnative, layers, hlayers, ⟨rule, hcons, hrule⟩, hdecide⟩

example : (profilesRulesDenyList.parts.layers smallCore).map (fun layers =>
    ["ads.example", "tracker.example", "ok.example"].map fun host =>
      layers.decide smallCore ⟨.egress, host, .publicNet, .tcp, 443⟩) =
    some [.deny, .deny, .allow] := by decide

end Main

end MicrosandboxRb.Network
