import MicrosandboxRb.Network.Coerce
import MicrosandboxRb.Network.Spelling

/-!
# A policy object and its Hash form

A policy object keeps the wire Hash it was built with. Passed to `create` as a Hash again, with
Strings or Symbols for keys, this Hash is normalized once more, and the native layer arrives at the
same policy as for the object.

## Main results

* `fromHash_of_rekeyed_custom`: a custom policy is normalized to itself, with its defaults written
  out;
* `policy_interchangeable`: the object and the Hash lead the native layer to the same policy.
-/

namespace MicrosandboxRb.Network

open Ruby Conv Native

variable {ω : Type} {T : CoreTypes}

/-! ## What the native layer parses of a reading -/

/-- The policy that a reading is parsed to. -/
def parseReading (core : Core T) (reading : Reading ω) :
    Except Exception (Native.NetworkPolicy T) := do
  let domains ← reading.denyDomains.mapM
    (parseDeny core "deny_domains" core.parseDomainName .domain)
  let suffixes ← reading.denyDomainSuffixes.mapM
    (parseDeny core "deny_domain_suffixes" core.parseDomainSuffix .domainSuffix)
  let base ← parseBase core reading.profiles reading.preset
  let rules ← reading.rules.mapM (parseRule core)
  let defaultEgress ← defaultAction reading.defaultEgress
    (base.elim .deny Native.NetworkPolicy.defaultEgress)
  let defaultIngress ← defaultAction reading.defaultIngress
    (base.elim .allow Native.NetworkPolicy.defaultIngress)
  return { defaultEgress, defaultIngress
           rules := domains ++ suffixes ++ rules ++ base.elim [] Native.NetworkPolicy.rules }

/-- The native side parses what it read. -/
theorem parsePolicyHash_eq {core : Core T} {np : RHash ω} {reading : Reading ω}
    (h : reading.Of np) : parsePolicyHash core np = parseReading core reading := by
  unfold parsePolicyHash parseReading
  rw [h.denyDomains, h.denyDomainSuffixes, h.profiles, h.preset, h.rules, h.defaultEgress,
    h.defaultIngress]
  simp only [Except.ok_bind]

/-- Without a base, a default that is written out is the default that is missing. -/
theorem parse_written_defaults {core : Core T} {reading : Reading ω}
    (hprofiles : reading.profiles = []) (hpreset : reading.preset = none) :
    parseReading core { reading with
      defaultEgress := some (reading.defaultEgress.getD "deny")
      defaultIngress := some (reading.defaultIngress.getD "allow") } =
    parseReading core reading := by
  have hbase : parseBase core reading.profiles reading.preset = .ok none := by
    rw [hprofiles, hpreset]
    rfl
  have hdefault : ∀ (s : Option String) (text : String) (a : Action), actionFromStr text = .ok a →
      defaultAction (some (s.getD text)) a = defaultAction s a := by
    intro s text a ha
    cases s with
    | none => exact ha
    | some s => rfl
  unfold parseReading
  dsimp only
  rw [hbase]
  simp only [Except.ok_bind, Option.elim_none, hdefault _ "deny" .deny rfl,
    hdefault _ "allow" .allow rfl]

/-! ## Hashes with other keys -/

section Rekeyed

variable [Methods ω]

/-- A Hash whose keys are Strings or Symbols, with the entries of a wire Hash. The rules may have
either kind of keys, too. -/
structure Rekeyed (es : Entries ω) (wire : Wire ω) : Prop where
  keys : ∀ e ∈ es, ∃ name, Names e.1 name
  held : ∀ key, key ≠ "rules" → given es key = wire.lookup key
  rules : (given es "rules" = none ∧ wire.lookup "rules" = none) ∨
    ∃ (ess : List (Entries ω)) (outs : List (Wire ω)),
      given es "rules" = some (.arr (ess.map .hash)) ∧
      wire.lookup "rules" = some (.arr (outs.map strHash)) ∧
      List.Forall₂ (fun es out => ∀ key, last es key = out.lookup key) ess outs

/-- Keys that are names can all be made Symbols. -/
theorem exists_transformKeysToSym {es : Entries ω} (h : ∀ e ∈ es, ∃ name, Names e.1 name) :
    ∃ sym, transformKeysToSym es = .ok sym := by
  have hfold : ∀ (es : Entries ω) (m : Wire ω), (∀ e ∈ es, ∃ name, Names e.1 name) →
      ∃ sym, es.foldlM insertToSym m = .ok sym := by
    intro es
    induction es with
    | nil => exact fun m _ => ⟨m, rfl⟩
    | cons e es ih =>
      intro m h
      obtain ⟨name, hname⟩ := h e List.mem_cons_self
      have hinsert : insertToSym m e = .ok (m.insert name e.2) := by
        unfold insertToSym
        rcases hname with h | h
        · rw [h]
          rfl
        · rw [h]
          rfl
      rw [List.foldlM_cons, hinsert]
      exact ih _ (fun e' he' => h e' (List.mem_cons_of_mem e he'))
  exact hfold es ∅ h

/-- A normalized rule is normalized to itself, whatever its keys are. -/
theorem normalizeRule_of_last {es : Entries ω} {f : RuleFields}
    (h : ∀ key, last es key = (f.wire : Wire ω).lookup key) :
    normalizeRule (.hash es) = .ok f.wire := by
  have hsame : ∀ key, (transformKeys Value.toS es).lookup key = (f.wire : Wire ω).lookup key := by
    intro key
    rw [lookup_transformKeys_toS, h]
  rw [normalizeRule_eq, ruleFields_congr hsame, ruleFields_wire]

/-- Rules with the entries of normalized ones normalize to them. -/
theorem mapM_normalizeRule_of_last {rules : List (Value ω)} {outs : List (Wire ω)}
    (houts : rules.mapM normalizeRule = .ok outs) {ess : List (Entries ω)}
    (h : List.Forall₂ (fun es out => ∀ key, last es key = out.lookup key) ess outs) :
    (ess.map .hash).mapM normalizeRule = .ok outs := by
  rw [Except.mapM_eq_ok_iff] at houts ⊢
  rw [List.forall₂_map_left_iff]
  induction houts generalizing ess with
  | nil =>
    rw [List.forall₂_nil_right_iff] at h
    rw [h]
    exact List.Forall₂.nil
  | cons hrule _ ih =>
    obtain ⟨es, ess', hes, hess, rfl⟩ := List.forall₂_cons_right_iff.mp h
    refine List.Forall₂.cons ?_ (ih hess)
    rename_i v out _ _ _
    cases v with
    | hash es' =>
      rw [normalizeRule_eq] at hrule
      obtain rfl := Except.ok.inj hrule
      exact normalizeRule_of_last hes
    | _ => cases hrule

/-! ## Custom policies -/

/-- What a custom policy holds. -/
structure CustomHolds (args : NetworkPolicy.CustomArgs ω) (wire : Wire ω) (outs : List (Wire ω))
    (egress ingress : Option String) : Prop where
  mapM_rules : args.rules.array.mapM normalizeRule = .ok outs
  actionUnless_egress :
    NetworkPolicy.actionUnless args.defaultEgress.isNil args.defaultEgress = .ok (egress.map .str)
  actionUnless_ingress :
    NetworkPolicy.actionUnless args.defaultIngress.isNil args.defaultIngress =
      .ok (ingress.map .str)
  egress_eq : ∀ s, egress = some s → s = "allow" ∨ s = "deny"
  ingress_eq : ∀ s, ingress = some s → s = "allow" ∨ s = "deny"
  profiles : wire.lookup "profiles" = none
  preset : wire.lookup "preset" = none
  rules : wire.lookup "rules" = some (.arr (outs.map strHash))
  defaultEgress : wire.lookup "default_egress" = egress.map .str
  defaultIngress : wire.lookup "default_ingress" = ingress.map .str
  denyDomains :
    wire.lookup "deny_domains" = strsUnlessEmpty (args.denyDomains.array.map Value.toS)
  denyDomainSuffixes : wire.lookup "deny_domain_suffixes" =
    strsUnlessEmpty (args.denyDomainSuffixes.array.map Value.toS)
  reading : Reading.Of (strEntries wire)
    { denyDomains := args.denyDomains.array.map Value.toS
      denyDomainSuffixes := args.denyDomainSuffixes.array.map Value.toS
      rules := outs.map strEntries
      defaultEgress := egress
      defaultIngress := ingress }

/-- A default that is written is one of the two actions. -/
theorem eq_allow_or_deny_of_given {v : Value ω} {s : Option String}
    (h : (v.isNil = true ∧ s = none) ∨
      (v.isNil = false ∧ ∃ a, NetworkPolicy.actionStr v = .ok a ∧ s = some a)) :
    ∀ a, s = some a → a = "allow" ∨ a = "deny" := by
  rintro a rfl
  rcases h with ⟨-, h⟩ | ⟨-, a', ha', h⟩
  · cases h
  · obtain rfl := Option.some.inj h
    exact (eq_of_actionStr ha').2

/-- What the wire form of a custom policy holds. -/
theorem exists_customHolds {args : NetworkPolicy.CustomArgs ω} {wire : Wire ω}
    (h : NetworkPolicy.custom args = .ok wire) :
    ∃ outs egress ingress, CustomHolds args wire outs egress ingress := by
  obtain ⟨outs, egress, ingress, houts, hegress, hingress, hreading⟩ := exists_reading_of_custom h
  unfold NetworkPolicy.custom at h
  obtain ⟨oe, hoe, h⟩ := Except.bind_eq_ok_iff.mp h
  obtain ⟨oi, hoi, h⟩ := Except.bind_eq_ok_iff.mp h
  obtain ⟨outs', houts', h⟩ := Except.bind_eq_ok_iff.mp h
  obtain ⟨egress', rfl, -⟩ := exists_of_actionUnless hoe
  obtain ⟨ingress', rfl, -⟩ := exists_of_actionUnless hoi
  obtain rfl : outs = outs' := Except.ok.inj (houts.symm.trans houts')
  -- each key is inserted once, and the deny lists come last
  have hwire := (Except.ok.inj h).symm
  have hlookupEgress : wire.lookup "default_egress" = egress'.map .str := by
    rw [hwire, lookup_addDenyLists_ne _ _ _ (by decide) (by decide)]
    simp (disch := decide) [lookup_insertSome_ne, AList.lookup_insert_ne]
  have hlookupIngress : wire.lookup "default_ingress" = ingress'.map .str := by
    rw [hwire, lookup_addDenyLists_ne _ _ _ (by decide) (by decide)]
    simp (disch := decide) [lookup_insertSome_ne, AList.lookup_insert_ne]
  obtain rfl : egress = egress' :=
    Except.ok.inj (hreading.defaultEgress.symm.trans (optString_map_str hlookupEgress))
  obtain rfl : ingress = ingress' :=
    Except.ok.inj (hreading.defaultIngress.symm.trans (optString_map_str hlookupIngress))
  refine ⟨outs, egress, ingress, ?_⟩
  exact {
    mapM_rules := houts
    actionUnless_egress := hoe
    actionUnless_ingress := hoi
    egress_eq := eq_allow_or_deny_of_given hegress
    ingress_eq := eq_allow_or_deny_of_given hingress
    profiles := by
      rw [hwire, lookup_addDenyLists_ne _ _ _ (by decide) (by decide)]
      simp (disch := decide) [lookup_insertSome_ne, AList.lookup_insert_ne]
    preset := by
      rw [hwire, lookup_addDenyLists_ne _ _ _ (by decide) (by decide)]
      simp (disch := decide) [lookup_insertSome_ne, AList.lookup_insert_ne]
    rules := by
      rw [hwire, lookup_addDenyLists_ne _ _ _ (by decide) (by decide), AList.lookup_insert]
    defaultEgress := hlookupEgress
    defaultIngress := hlookupIngress
    denyDomains := by
      rw [hwire, NetworkPolicy.addDenyLists]
      simp (disch := decide) [lookup_insertSome_ne, AList.lookup_insert_ne]
    denyDomainSuffixes := by
      rw [hwire, NetworkPolicy.addDenyLists]
      simp (disch := decide) [lookup_insertSome_ne, AList.lookup_insert_ne]
    reading := hreading }

/-- The text of an action. -/
theorem actionStr_of_eq {v : Value ω} {s : String} (hv : v.toS = s)
    (hs : s = "allow" ∨ s = "deny") : NetworkPolicy.actionStr v = .ok s := by
  apply actionStr_of_downcase_eq _ hs
  rw [hv]
  rcases hs with rfl | rfl
  · decide
  · decide

/-- The default that a custom policy is normalized with. -/
theorem actionUnless_written {s : Option String} {text : String}
    (htext : text = "allow" ∨ text = "deny") (hs : ∀ a, s = some a → a = "allow" ∨ a = "deny") :
    NetworkPolicy.actionUnless
        ((s.map .str).getD (.sym text) : Value ω).isNil ((s.map .str).getD (.sym text) : Value ω) =
      .ok (some (.str (s.getD text))) := by
  cases s with
  | none =>
    unfold NetworkPolicy.actionUnless
    change (NetworkPolicy.actionStr (.sym text : Value ω)).map _ = _
    rw [actionStr_of_eq (Value.toS_sym text) htext]
    rfl
  | some a =>
    unfold NetworkPolicy.actionUnless
    change (NetworkPolicy.actionStr (.str a : Value ω)).map _ = _
    rw [actionStr_of_eq (Value.toS_str a) (hs a rfl)]
    rfl

/-- A list of Strings written unless empty is read back. -/
theorem array_orEmpty_strsUnlessEmpty (ss : List String) :
    (NetworkPolicy.orEmpty ((strsUnlessEmpty ss).getD .nil : Value ω)).array.map Value.toS = ss := by
  cases ss with
  | nil => rfl
  | cons s ss => exact Value.map_toS_map_str (s :: ss)

omit [Methods ω] in
/-- Texts that make the same value are the same. -/
theorem map_str_injective {s s' : Option String}
    (h : (s.map .str : Option (Value ω)) = s'.map .str) : s = s' :=
  Option.map_injective (fun _ _ => Value.str.inj) h

omit [Methods ω] in
/-- A wire form is determined by its Hash. -/
theorem strHash_injective : Function.Injective (strHash : Wire ω → Value ω) := by
  intro m m' h
  have hentries : (m.entries.map fun e => ((.str e.1 : Value ω), e.2)) =
      m'.entries.map fun e => (.str e.1, e.2) := Value.hash.inj h
  apply AList.ext
  refine List.map_injective_iff.mpr ?_ hentries
  rintro ⟨k, v⟩ ⟨k', v'⟩ h
  obtain ⟨hk, rfl⟩ := Prod.mk.inj h
  obtain rfl := Value.str.inj hk
  rfl

/-- A custom policy is normalized to itself, with its defaults written out. -/
theorem fromHash_of_rekeyed_custom {args : NetworkPolicy.CustomArgs ω} {wire : Wire ω}
    {outs : List (Wire ω)} {egress ingress : Option String}
    (hholds : CustomHolds args wire outs egress ingress) {es : Entries ω}
    (hes : Rekeyed es wire) :
    ∃ wire', NetworkPolicy.fromHash es = .ok wire' ∧ wire'.lookup "rules" ≠ none ∧
      Reading.Of (strEntries wire')
        { denyDomains := args.denyDomains.array.map Value.toS
          denyDomainSuffixes := args.denyDomainSuffixes.array.map Value.toS
          rules := outs.map strEntries
          defaultEgress := some (egress.getD "deny")
          defaultIngress := some (ingress.getD "allow") } := by
  obtain ⟨sym, hsym⟩ := exists_transformKeysToSym hes.keys
  -- but for the rules, the Hash holds what the wire form holds
  have hlookup : ∀ key, key ≠ "rules" → sym.lookup key = wire.lookup key := by
    intro key hkey
    rw [lookup_transformKeysToSym hsym, hes.held key hkey]
  obtain ⟨-, hnone⟩ | ⟨ess, outs', hrules, houts', hess⟩ := hes.rules
  · rw [hholds.rules] at hnone
    cases hnone
  have hsymRules : sym.lookup "rules" = some (.arr (ess.map .hash)) := by
    rw [lookup_transformKeysToSym hsym, hrules]
  have houts : (ess.map .hash).mapM normalizeRule = .ok outs := by
    rw [hholds.rules] at houts'
    have heq := List.map_injective_iff.mpr strHash_injective
      (Value.arr.inj (Option.some.inj houts'))
    exact mapM_normalizeRule_of_last hholds.mapM_rules (heq ▸ hess)
  -- the branch for an explicit custom policy
  have hfrom : NetworkPolicy.fromHash es = NetworkPolicy.fromCustomHash sym := by
    unfold NetworkPolicy.fromHash NetworkPolicy.givenProfiles NetworkPolicy.hasCustomKey
    rw [hsym, Except.ok_bind, hlookup "profiles" (by decide), hholds.profiles,
      hlookup "preset" (by decide), hholds.preset, hsymRules]
    rfl
  -- actions and rules are in normal form already, so nothing is refused
  have hcustom : ∃ wire', NetworkPolicy.fromCustomHash sym = .ok wire' := by
    unfold NetworkPolicy.fromCustomHash NetworkPolicy.custom
    dsimp only
    rw [hlookup "default_egress" (by decide), hholds.defaultEgress,
      hlookup "default_ingress" (by decide), hholds.defaultIngress,
      actionUnless_written (Or.inr rfl) hholds.egress_eq, Except.ok_bind,
      actionUnless_written (Or.inl rfl) hholds.ingress_eq, Except.ok_bind, index, hsymRules]
    change ∃ wire', ((ess.map .hash).mapM normalizeRule >>= _) = .ok wire'
    rw [houts, Except.ok_bind]
    exact ⟨_, rfl⟩
  obtain ⟨wire', hwire'⟩ := hcustom
  -- what it holds is what was held before
  obtain ⟨outs₂, egress₂, ingress₂, hholds₂⟩ := exists_customHolds hwire'
  have houts₂ := hholds₂.mapM_rules
  have hegress₂ := hholds₂.actionUnless_egress
  have hingress₂ := hholds₂.actionUnless_ingress
  have hreading := hholds₂.reading
  dsimp only at houts₂ hegress₂ hingress₂ hreading
  rw [index, hsymRules] at houts₂
  obtain rfl : outs = outs₂ := Except.ok.inj (houts.symm.trans houts₂)
  rw [hlookup "default_egress" (by decide), hholds.defaultEgress,
    actionUnless_written (Or.inr rfl) hholds.egress_eq] at hegress₂
  obtain rfl : some (egress.getD "deny") = egress₂ :=
    map_str_injective (Except.ok.inj hegress₂)
  rw [hlookup "default_ingress" (by decide), hholds.defaultIngress,
    actionUnless_written (Or.inl rfl) hholds.ingress_eq] at hingress₂
  obtain rfl : some (ingress.getD "allow") = ingress₂ :=
    map_str_injective (Except.ok.inj hingress₂)
  refine ⟨wire', hfrom.trans hwire', ?_, ?_⟩
  · rw [hholds₂.rules]
    exact Option.some_ne_none _
  · rw [index, hlookup "deny_domains" (by decide), hholds.denyDomains, index,
      hlookup "deny_domain_suffixes" (by decide), hholds.denyDomainSuffixes,
      array_orEmpty_strsUnlessEmpty, array_orEmpty_strsUnlessEmpty] at hreading
    exact hreading

/-! ## Presets and profiles -/

section Singleton

variable {es : Entries ω} {k : String} {v : Value ω}

/-- A Hash with one entry is read as one with this entry. -/
theorem exists_sym_of_singleton (hk : k ≠ "rules") (hes : Rekeyed es (AList.singleton k v)) :
    ∃ sym, transformKeysToSym es = .ok sym ∧ sym.lookup k = some v ∧
      ∀ key, key ≠ k → sym.lookup key = none := by
  obtain ⟨sym, hsym⟩ := exists_transformKeysToSym hes.keys
  have hnone : ∀ key, key ≠ k → (AList.singleton k v : Wire ω).lookup key = none := by
    intro key hkey
    rw [AList.lookup_eq_none, AList.mem_keys, AList.keys_singleton, List.mem_singleton]
    exact hkey
  refine ⟨sym, hsym, ?_, ?_⟩
  · rw [lookup_transformKeysToSym hsym, hes.held k hk, ← AList.insert_empty, AList.lookup_insert]
  · intro key hkey
    rw [lookup_transformKeysToSym hsym]
    by_cases hrules : key = "rules"
    · subst hrules
      obtain ⟨hgiven, -⟩ | ⟨_, _, -, hsome, -⟩ := hes.rules
      · exact hgiven
      · rw [hnone _ hkey] at hsome
        cases hsome
    · rw [hes.held key hrules, hnone key hkey]

end Singleton

/-- A canonical preset stays as it is. -/
theorem canonicalPreset_of_eq {p : String} (hp : p = "none" ∨ p = "allow_all") :
    NetworkPolicy.canonicalPreset (.str p : Value ω) = .ok p := by
  unfold NetworkPolicy.canonicalPreset
  rw [Value.toS_str]
  rcases hp with rfl | rfl
  · have hkey : downcase "none" = "none" := by decide
    rw [hkey]
    rfl
  · have hkey : downcase "allow_all" = "allow_all" := by decide
    rw [hkey]
    rfl

/-- A preset that is named canonically is normalized to itself. -/
theorem fromHash_of_rekeyed_preset {p : String} (hp : p = "none" ∨ p = "allow_all")
    {es : Entries ω} (hes : Rekeyed es (AList.singleton "preset" (.str p))) :
    NetworkPolicy.fromHash es = .ok (AList.singleton "preset" (.str p)) := by
  obtain ⟨sym, hsym, hpreset, hnone⟩ := exists_sym_of_singleton (by decide) hes
  unfold NetworkPolicy.fromHash NetworkPolicy.givenProfiles
  rw [hsym, Except.ok_bind, hnone "profiles" (by decide), hpreset]
  change NetworkPolicy.fromPresetHash sym = _
  unfold NetworkPolicy.fromPresetHash NetworkPolicy.hasCustomKey
  rw [hnone "rules" (by decide), hnone "default_egress" (by decide),
    hnone "default_ingress" (by decide), index, hpreset, Option.getD_some,
    canonicalPreset_of_eq hp, index, hnone "deny_domains" (by decide), index,
    hnone "deny_domain_suffixes" (by decide)]
  rfl

/-- So does a profile of the list. -/
theorem normalizeProfile_of_mem_PROFILES {name : String} (h : name ∈ NetworkPolicy.PROFILES) :
    NetworkPolicy.normalizeProfile (.str name : Value ω) = .ok name := by
  apply normalizeProfile_of_mem _ h
  rw [Value.toS_str]
  have hall : ∀ name ∈ NetworkPolicy.PROFILES, downcase name = name := by decide
  exact hall name h

omit [Methods ω] in
/-- A list of Strings is flat. -/
theorem flattenList_map_str (names : List String) :
    Value.flattenList (names.map .str : List (Value ω)) = names.map .str := by
  induction names with
  | nil => rfl
  | cons name names ih =>
    rw [List.map_cons, Value.flattenList, ih]
    rfl

/-- Profiles that are named canonically are normalized to themselves. -/
theorem fromHash_of_rekeyed_profiles {names : List String} (hne : names ≠ [])
    (hnames : ∀ name ∈ names, name ∈ NetworkPolicy.PROFILES) {es : Entries ω}
    (hes : Rekeyed es (AList.singleton "profiles" (.arr (names.map .str)))) :
    NetworkPolicy.fromHash es = .ok (AList.singleton "profiles" (.arr (names.map .str))) := by
  obtain ⟨sym, hsym, hprofiles, hnone⟩ := exists_sym_of_singleton (by decide) hes
  have hnormalize : NetworkPolicy.normalizeProfiles (.arr (names.map .str) : Value ω) = .ok names := by
    unfold NetworkPolicy.normalizeProfiles
    rw [Value.array_arr, flattenList_map_str, Except.mapM_eq_ok_iff, List.forall₂_map_left_iff,
      List.forall₂_same]
    exact fun name hname => normalizeProfile_of_mem_PROFILES (hnames name hname)
  unfold NetworkPolicy.fromHash NetworkPolicy.givenProfiles
  rw [hsym, Except.ok_bind, hprofiles]
  dsimp only
  rw [hnormalize, hnone "preset" (by decide)]
  change NetworkPolicy.fromProfilesHash sym names = _
  unfold NetworkPolicy.fromProfilesHash
  rw [index, hnone "default_egress" (by decide), index, hnone "default_ingress" (by decide), index,
    hnone "rules" (by decide), index, hnone "deny_domains" (by decide), index,
    hnone "deny_domain_suffixes" (by decide)]
  cases names with
  | nil => exact absurd rfl hne
  | cons name names => rfl

end Rekeyed

/-! ## Routes -/

section Routes

variable [Methods ω]

omit [Methods ω] in
/-- Both forms take the same way through the options. -/
theorem networkRoutes_insert_policy (core : Core T) (opts wire wire' : Wire ω)
    (h : parsePolicyHash core (strEntries wire) = parsePolicyHash core (strEntries wire')) :
    networkRoutes core (strEntries (opts.insert "network_policy" (strHash wire))) =
      networkRoutes core (strEntries (opts.insert "network_policy" (strHash wire'))) := by
  have hpolicy : ∀ m : Wire ω,
      parseNetworkPolicy core (strEntries (opts.insert "network_policy" (strHash m))) =
        (parsePolicyHash core (strEntries m)).map some := by
    intro m
    have hopt : opt tryHash (strEntries (opts.insert "network_policy" (strHash m)))
        "network_policy" = .ok (some (strEntries m)) :=
      opt_eq_some (AList.lookup_insert _) rfl rfl
    unfold parseNetworkPolicy
    rw [hopt]
    rfl
  have hother : ∀ key, key ≠ "network_policy" →
      (opts.insert "network_policy" (strHash wire)).lookup key =
        (opts.insert "network_policy" (strHash wire')).lookup key := by
    intro key hkey
    rw [AList.lookup_insert_ne hkey, AList.lookup_insert_ne hkey]
  unfold networkRoutes presetRoute profilesRoute
  rw [hpolicy, hpolicy, h, optString, opt_congr (hother "network" (by decide)),
    optStringVec_congr (hother "network_profiles" (by decide))]
  rfl

omit [Methods ω] in
/-- A Hash with rules travels as a policy. -/
theorem routeNetwork_of_rules (opts : Wire ω) {wire : Wire ω} (h : wire.lookup "rules" ≠ none) :
    routeNetwork opts wire = opts.insert "network_policy" (strHash wire) := by
  have hmem : "rules" ∈ wire.keys := by
    by_contra hnot
    exact h (AList.lookup_eq_none.mpr hnot)
  unfold routeNetwork
  rw [if_neg, if_neg, if_neg]
  · intro hkeys
    rw [hkeys] at hmem
    exact absurd hmem (by decide)
  · intro hkeys
    rw [hkeys] at hmem
    exact absurd hmem (by decide)
  · intro hkeys
    rw [hkeys] at hmem
    exact absurd hmem (by decide)

/-- A custom policy and its Hash take the same routes. -/
theorem interchangeable_of_custom (core : Core T) (opts : Wire ω)
    {args : NetworkPolicy.CustomArgs ω} {wire : Wire ω}
    (hwire : NetworkPolicy.custom args = .ok wire) {es : Entries ω} (hes : Rekeyed es wire) :
    ∃ wire', NetworkPolicy.fromHash es = .ok wire' ∧
      networkRoutes core (strEntries (routeNetwork opts wire)) =
        networkRoutes core (strEntries (routeNetwork opts wire')) := by
  obtain ⟨outs, egress, ingress, hholds⟩ := exists_customHolds hwire
  obtain ⟨wire', hfrom, hrules, hreading⟩ := fromHash_of_rekeyed_custom hholds hes
  refine ⟨wire', hfrom, ?_⟩
  rw [routeNetwork_of_rules opts (by rw [hholds.rules]; exact Option.some_ne_none _),
    routeNetwork_of_rules opts hrules]
  apply networkRoutes_insert_policy
  rw [parsePolicyHash_eq hholds.reading, parsePolicyHash_eq hreading]
  exact (parse_written_defaults rfl rfl).symm

/-- A normalized profile is in the list. -/
theorem mem_PROFILES_of_normalizeProfile {v : Value ω} {name : String}
    (h : NetworkPolicy.normalizeProfile v = .ok name) : name ∈ NetworkPolicy.PROFILES := by
  unfold NetworkPolicy.normalizeProfile at h
  dsimp only at h
  split at h
  · next hmem =>
    obtain rfl := Except.ok.inj h
    exact hmem
  · split at h
    · cases h
    · cases h

/-- So are all of them. -/
theorem mem_PROFILES_of_normalizeProfiles {profiles : Value ω} {names : List String}
    (h : NetworkPolicy.normalizeProfiles profiles = .ok names) :
    ∀ name ∈ names, name ∈ NetworkPolicy.PROFILES := by
  unfold NetworkPolicy.normalizeProfiles at h
  rw [Except.mapM_eq_ok_iff] at h
  generalize Value.flattenList profiles.array = vs at h
  induction h with
  | nil =>
    intro name hname
    cases hname
  | cons hv _ ih =>
    intro name hname
    rcases List.mem_cons.mp hname with rfl | hname
    · exact mem_PROFILES_of_normalizeProfile hv
    · exact ih name hname

/-- The canonical presets are two. -/
theorem eq_of_canonicalPreset {v : Value ω} {p : String}
    (h : NetworkPolicy.canonicalPreset v = .ok p) : p = "none" ∨ p = "allow_all" := by
  have hall : ∀ e ∈ NetworkPolicy.PRESET_ALIASES, e.2 = "none" ∨ e.2 = "allow_all" := by decide
  unfold NetworkPolicy.canonicalPreset at h
  dsimp only at h
  split at h
  · cases h
  · split at h
    · next hpreset =>
      obtain rfl := Except.ok.inj h
      obtain ⟨l₁, l₂, hlist, -⟩ := List.lookup_eq_some_iff.mp hpreset
      exact hall (downcase v.toS, _) (by rw [hlist]; exact List.mem_append_right _ List.mem_cons_self)
    · cases h

/-- The Hash form of every policy object leads to the policy of the object. -/
theorem interchangeable_of_call (core : Core T) (opts : Wire ω) {call : NetworkPolicy.Call ω}
    {wire : Wire ω} (hwire : call.toH = .ok wire) {es : Entries ω} (hes : Rekeyed es wire) :
    ∃ wire', NetworkPolicy.fromHash es = .ok wire' ∧
      networkRoutes core (strEntries (routeNetwork opts wire)) =
        networkRoutes core (strEntries (routeNetwork opts wire')) := by
  cases call with
  | custom args => exact interchangeable_of_custom core opts hwire hes
  | preset name =>
    obtain ⟨p, hp, hwire⟩ := Except.bind_eq_ok_iff.mp hwire
    obtain rfl := Except.ok.inj hwire
    exact ⟨_, fromHash_of_rekeyed_preset (eq_of_canonicalPreset hp) hes, rfl⟩
  | fromProfiles profiles =>
    obtain ⟨names, hnames, hwire⟩ := Except.bind_eq_ok_iff.mp hwire
    cases names with
    | nil => exact interchangeable_of_custom core opts hwire hes
    | cons name names =>
      obtain rfl := Except.ok.inj hwire
      exact ⟨_, fromHash_of_rekeyed_profiles (List.cons_ne_nil _ _)
        (mem_PROFILES_of_normalizeProfiles hnames) hes, rfl⟩

/-- `create` with a policy object and with its Hash form, whose keys are Strings or Symbols, lead
the native layer to the same defaults and the same rules. -/
theorem policy_interchangeable (core : Core T) (opts : Wire ω) {call : NetworkPolicy.Call ω}
    {wire : Wire ω} (hwire : call.toH = .ok wire) {es : Entries ω} (hes : Rekeyed es wire) :
    ∃ opts₁ opts₂, applyNetworkOpts opts (.policy call) = .ok opts₁ ∧
      applyNetworkOpts opts (.value (.hash es)) = .ok opts₂ ∧
      networkRoutes core (strEntries opts₁) = networkRoutes core (strEntries opts₂) := by
  obtain ⟨wire', hfrom, hroutes⟩ := interchangeable_of_call core opts hwire hes
  refine ⟨routeNetwork opts wire, routeNetwork opts wire', ?_, ?_, hroutes⟩
  · change (call.toH >>= fun norm => .ok (routeNetwork opts norm)) = _
    rw [hwire]
    rfl
  · change (NetworkPolicy.fromHash es >>= fun norm => .ok (routeNetwork opts norm)) = _
    rw [hfrom]
    rfl

end Routes

/-- A custom policy without an explicit default for egress. -/
def denyMail : NetworkPolicy.Call Unit := .custom
  { defaultEgress := .nil
    rules := .arr [.hash [(.sym "action", .sym "deny"), (.sym "port", .str "25")]] }

/-- A policy that denies port 25. -/
def denyMailWire : Wire Unit :=
  AList.insert "rules" (.arr [strHash (AList.insert "ports" (.arr [.str "25"])
      (AList.singleton "action" (.str "deny")))])
    (AList.singleton "default_ingress" (.str "allow"))

/-- Its Hash form, with Symbols. -/
def denyMailHash : Entries Unit :=
  [(.sym "default_ingress", .str "allow"),
    (.sym "rules", .arr [.hash [(.sym "action", .str "deny"),
      (.sym "ports", .arr [.str "25"])]])]

/-- The Hash with Symbol keys has the same entries. -/
theorem rekeyed_denyMail : Rekeyed denyMailHash denyMailWire where
  keys := by
    intro e he
    rcases List.mem_cons.mp he with rfl | he
    · exact ⟨"default_ingress", Or.inr rfl⟩
    · rw [List.mem_singleton.mp he]
      exact ⟨"rules", Or.inr rfl⟩
  held key hkey := by
    rw [denyMailWire, AList.lookup_insert_ne hkey, ← AList.insert_empty]
    by_cases hingress : key = "default_ingress"
    · subst hingress
      rfl
    · rw [AList.lookup_insert_ne hingress, AList.lookup_empty]
      simp [given, denyMailHash, lastValue, Value.toSym?, Ne.symm hkey, Ne.symm hingress]
  rules := by
    refine Or.inr ⟨[[(.sym "action", .str "deny"), (.sym "ports", .arr [.str "25"])]],
      [AList.insert "ports" (.arr [.str "25"]) (AList.singleton "action" (.str "deny"))], rfl, rfl,
      List.Forall₂.cons ?_ List.Forall₂.nil⟩
    intro key
    by_cases hports : key = "ports"
    · subst hports
      rfl
    · rw [AList.lookup_insert_ne hports, ← AList.insert_empty]
      by_cases haction : key = "action"
      · subst haction
        rfl
      · rw [AList.lookup_insert_ne haction, AList.lookup_empty]
        simp [last, lastValue, Ne.symm hports, Ne.symm haction]

/-- The object and the Hash are routed alike. -/
theorem policy_interchangeable_denyMail :
    ∃ opts₁ opts₂, applyNetworkOpts ∅ (.policy denyMail) = .ok opts₁ ∧
      applyNetworkOpts ∅ (.value (.hash denyMailHash)) = .ok opts₂ ∧
      networkRoutes smallCore (strEntries opts₁) = networkRoutes smallCore (strEntries opts₂) :=
  policy_interchangeable smallCore ∅ (by rfl : denyMail.toH = .ok denyMailWire) rekeyed_denyMail

end MicrosandboxRb.Network
