import MicrosandboxRb.Lib.ExceptList
import MicrosandboxRb.Network.Native
import MicrosandboxRb.Network.Policy

/-!
# Rules that are widened

On the wire, a rule without a destination, a protocol or a port is about all of them. A destination
that the normalizers do not recognize is left out, so that the rule matches everything. This module
says which rules keep what the caller wrote.

## Main results

* `parseDestination_eq_any_iff`: the wire forms that the parser reads as any destination;
* `rule_of_hash`: what an accepted rule Hash becomes;
* `notWidened_iff`: an accepted rule is not widened if and only if what the caller supplied is still
  named where it is read.
-/

namespace MicrosandboxRb.Network

open Ruby Conv Native

variable {ω : Type} {T : CoreTypes}

/-! ## What the parser reads as everything -/

section Parser

variable (core : Core T)

/-- An address is never parsed as anywhere. -/
theorem parseIpDestination_ne_any (raw : String) : parseIpDestination core raw ≠ .ok .any := by
  unfold parseIpDestination
  intro h
  split at h
  · cases h
  · split at h
    · cases h
    · cases h

/-- Neither is a network. -/
theorem parseCidrDestination_ne_any (raw : String) : parseCidrDestination core raw ≠ .ok .any := by
  unfold parseCidrDestination
  intro h
  split at h
  · cases h
  · cases h

/-- Neither is a domain. -/
theorem parseDomainDestination_ne_any (raw : String) :
    parseDomainDestination core raw ≠ .ok .any := by
  unfold parseDomainDestination
  intro h
  split at h
  · cases h
  · cases h

/-- Neither is a domain suffix. -/
theorem parseDomainSuffixDestination_ne_any (raw : String) :
    parseDomainSuffixDestination core raw ≠ .ok .any := by
  unfold parseDomainSuffixDestination
  intro h
  split at h
  · cases h
  · cases h

/-- No group stands for anywhere. -/
theorem maybeGroupDestination_ne_any (raw : String) :
    (maybeGroupDestination raw : Option (Native.Destination T)) ≠ some .any := by
  unfold maybeGroupDestination
  intro h
  split at h
  all_goals cases h

/-- So no text is parsed as one that does. -/
theorem parseGroupDestination_ne_any (raw : String) :
    (parseGroupDestination raw : Except Exception (Native.Destination T)) ≠ .ok .any := by
  unfold parseGroupDestination
  intro h
  split at h
  · next dest hdest =>
    cases h
    exact maybeGroupDestination_ne_any raw hdest
  · cases h

/-- Without a kind, a missing destination is any destination, and so is `*`. -/
theorem parseShorthandDestination_eq_any_iff {raw : Option String} :
    parseShorthandDestination core raw = .ok .any ↔ raw = none ∨ raw = some "*" := by
  cases raw with
  | none => exact ⟨fun _ => Or.inl rfl, fun _ => rfl⟩
  | some raw =>
    unfold parseShorthandDestination
    by_cases hstar : raw = "*"
    · subst hstar
      exact ⟨fun _ => Or.inr rfl, fun _ => rfl⟩
    · have hright : ¬(some raw = none ∨ some raw = some "*") := by
        simpa using hstar
      refine iff_of_false ?_ hright
      dsimp only
      rw [if_neg hstar]
      intro h
      -- every other text is read as one kind of destination, and none of these is any
      split at h
      · exact parseDomainDestination_ne_any core _ h
      split at h
      · exact parseDomainSuffixDestination_ne_any core _ h
      split at h
      · next dest hdest =>
        cases h
        exact maybeGroupDestination_ne_any raw hdest
      split at h
      · exact parseDomainSuffixDestination_ne_any core _ h
      split at h
      · exact parseCidrDestination_ne_any core _ h
      split at h
      · exact parseIpDestination_ne_any core _ h
      · exact parseDomainDestination_ne_any core _ h

/-- The wire forms that are read as any destination. -/
theorem parseDestination_eq_any_iff {kind raw : Option String} :
    parseDestination core kind raw = .ok .any ↔
      kind = some "any" ∨ (kind = none ∧ (raw = none ∨ raw = some "*")) := by
  cases kind with
  | none =>
    unfold parseDestination
    rw [parseShorthandDestination_eq_any_iff]
    simp
  | some kind =>
    by_cases hany : kind = "any"
    · subst hany
      exact ⟨fun _ => Or.inl rfl, fun _ => rfl⟩
    · have hright : ¬(some kind = some "any" ∨ (some kind = none ∧ (raw = none ∨ raw = some "*"))) := by
        simpa using hany
      -- every other kind parses to something narrower
      refine iff_of_false ?_ hright
      unfold parseDestination
      intro h
      split at h
      · next hkind => exact hany (Option.some.inj hkind)
      · obtain ⟨raw, -, h⟩ := Except.bind_eq_ok_iff.mp h
        exact parseIpDestination_ne_any core raw h
      · obtain ⟨raw, -, h⟩ := Except.bind_eq_ok_iff.mp h
        exact parseCidrDestination_ne_any core raw h
      · obtain ⟨raw, -, h⟩ := Except.bind_eq_ok_iff.mp h
        exact parseDomainDestination_ne_any core raw h
      · obtain ⟨raw, -, h⟩ := Except.bind_eq_ok_iff.mp h
        exact parseDomainSuffixDestination_ne_any core raw h
      · obtain ⟨raw, -, h⟩ := Except.bind_eq_ok_iff.mp h
        exact parseDomainSuffixDestination_ne_any core raw h
      · obtain ⟨raw, -, h⟩ := Except.bind_eq_ok_iff.mp h
        exact parseGroupDestination_ne_any raw h
      · cases h
      · next hkind => cases hkind

/-- Parsing a list of strings gives nothing only if there are none. -/
theorem parseDistinct_ne_nil_iff {α : Type} [DecidableEq α] {parse : String → Except Exception α}
    {raws : List String} {as : List α} (h : parseDistinct parse raws = .ok as) :
    as ≠ [] ↔ raws ≠ [] := by
  -- what is not empty stays so, whatever comes after it
  have hkeep : ∀ (raws : List String) (acc as : List α), acc ≠ [] →
      raws.foldlM (fun acc raw => do
        let a ← parse raw
        return if a ∈ acc then acc else acc ++ [a]) acc = .ok as → as ≠ [] := by
    intro raws
    induction raws with
    | nil =>
      intro acc as hacc h
      cases h
      exact hacc
    | cons raw raws ih =>
      intro acc as hacc h
      rw [List.foldlM_cons] at h
      obtain ⟨acc', hstep, h⟩ := Except.bind_eq_ok_iff.mp h
      obtain ⟨a, -, hacc'⟩ := Except.bind_eq_ok_iff.mp hstep
      refine ih acc' as ?_ h
      rw [← Except.ok.inj hacc']
      split
      · exact hacc
      · exact List.append_ne_nil_of_right_ne_nil _ (List.cons_ne_nil _ _)
  unfold parseDistinct at h
  cases raws with
  | nil =>
    cases h
    exact iff_of_false (fun hne => hne rfl) (fun hne => hne rfl)
  | cons raw raws =>
    refine iff_of_true ?_ (List.cons_ne_nil _ _)
    rw [List.foldlM_cons] at h
    obtain ⟨acc', hstep, h⟩ := Except.bind_eq_ok_iff.mp h
    obtain ⟨a, -, hacc'⟩ := Except.bind_eq_ok_iff.mp hstep
    refine hkeep raws acc' as ?_ h
    rw [← Except.ok.inj hacc', if_neg List.not_mem_nil]
    exact List.cons_ne_nil _ _

end Parser

/-! ## What a rule Hash becomes -/

section RuleHash

variable [Methods ω]

/-- A destination Hash that is not read as any destination. Of the values under one name, the last
is read. -/
def NamedHash (es : Entries ω) : Prop :=
  let kind := (last es "destination_kind").getD .nil
  (kind.truthy = true ∧ kind.toS ≠ "any") ∨
    (kind.truthy = false ∧ ∃ v, last es "destination" = some v ∧ v.toS ≠ "*")

/-- A destination value that is not read as any destination. -/
def NamedValue : Value ω → Prop
  | .hash es => NamedHash es
  | v => v.isNil = false ∧ v.toS ≠ "*"

/-- The destination of a rule Hash is not read as any destination. -/
def NamesDestination (es : Entries ω) : Prop :=
  match last es "destination_kind" with
  | some kind => kind.toS ≠ "any"
  | none => NamedValue ((last es "destination").getD .nil)

/-- The wire forms that are read as any destination. -/
def WireAny (kind raw : Option String) : Prop :=
  kind = some "any" ∨ (kind = none ∧ (raw = none ∨ raw = some "*"))

/-- A text written unless `nil` is read as the text. -/
theorem optString_strUnlessNil {m : Wire ω} {key : String} {v : Value ω}
    (h : m.lookup key = strUnlessNil v) :
    optString (strEntries m) key = .ok (if v.isNil then none else some v.toS) := by
  apply optString_map_str
  rw [h, strUnlessNil]
  split
  · rfl
  · rfl

/-- A destination given as a text is anywhere for `nil` and `"*"` only. -/
theorem wireAny_unlessNil_iff (v : Value ω) :
    WireAny none (if v.isNil then none else some v.toS) ↔ ¬(v.isNil = false ∧ v.toS ≠ "*") := by
  unfold WireAny
  cases v.isNil with
  | true => simp
  | false => simp

/-- One given as a Hash is anywhere unless it names something. -/
theorem wireAny_hash_iff (es : Entries ω) :
    WireAny
      (if ((last es "destination_kind").getD .nil).truthy then
        some ((last es "destination_kind").getD .nil).toS else none)
      ((last es "destination").map Value.toS) ↔ ¬NamedHash es := by
  unfold WireAny NamedHash
  dsimp only
  cases ((last es "destination_kind").getD .nil).truthy with
  | true => simp
  | false =>
    cases last es "destination" with
    | none => simp
    | some v => simp

/-- What the parser reads of the destination that `normalize_rule_destination` puts on the wire. -/
theorem exists_wireDestination {es : Entries ω} {out₀ : Wire ω} (out : Wire ω)
    (hkind₀ : out₀.lookup "destination_kind" = none) (hdest₀ : out₀.lookup "destination" = none)
    (hkind : out.lookup "destination_kind" =
      (normalizeRuleDestination (transformKeys Value.toS es) out₀).lookup "destination_kind")
    (hdest : out.lookup "destination" =
      (normalizeRuleDestination (transformKeys Value.toS es) out₀).lookup "destination") :
    ∃ kind raw, optString (strEntries out) "destination_kind" = .ok kind ∧
      optString (strEntries out) "destination" = .ok raw ∧
      (WireAny kind raw ↔ ¬NamesDestination es) := by
  unfold normalizeRuleDestination at hkind hdest
  rw [index, lookup_transformKeys_toS, lookup_transformKeys_toS] at hkind hdest
  unfold NamesDestination
  cases hk : last es "destination_kind" with
  | some kind =>
    -- the kind decides, whatever the value is
    rw [hk] at hkind hdest
    dsimp only at hkind hdest
    rw [lookup_insertSome_ne _ (by decide), AList.lookup_insert] at hkind
    rw [lookup_insertSome_self, AList.lookup_insert_ne (by decide), hdest₀, Option.or_none] at hdest
    refine ⟨_, _, opt_eq_some hkind rfl rfl, optString_strUnlessNil hdest, ?_⟩
    simp [WireAny]
  | none =>
    rw [hk] at hkind hdest
    -- without a kind the value decides, and a Hash brings a kind of its own
    cases hv : (last es "destination").getD .nil with
    | hash es' =>
      rw [hv] at hkind hdest
      dsimp only at hkind hdest
      rw [lookup_insertSome_ne _ (by decide), lookup_insertSome_self, hkind₀, Option.or_none, index,
        lookup_transformKeys_toS] at hkind
      rw [lookup_insertSome_self, lookup_insertSome_ne _ (by decide), hdest₀, Option.or_none,
        lookup_transformKeys_toS] at hdest
      have hraw : out.lookup "destination" =
          ((last es' "destination").map Value.toS).map Value.str := by
        rw [hdest, Option.map_map]
        rfl
      exact ⟨_, _, optString_strIf hkind, optString_map_str hraw, wireAny_hash_iff es'⟩
    | _ =>
      rw [hv] at hkind hdest
      dsimp only at hkind hdest
      rw [lookup_insertSome_ne _ (by decide), hkind₀] at hkind
      rw [lookup_insertSome_self, hdest₀, Option.or_none] at hdest
      exact ⟨none, _, opt_eq_none hkind, optString_strUnlessNil hdest, wireAny_unlessNil_iff _⟩

/-- The Strings that a rule Hash lists under a name, in the plural and the singular. -/
def wireList (es : Entries ω) (plural singular : String) : List String :=
  Rule.strList ((last es plural).getD .nil) ((last es singular).getD .nil)

/-- The destination writes no key but its two. -/
theorem lookup_normalizeRuleDestination_ne (sym out : Wire ω) {key : String}
    (hkind : key ≠ "destination_kind") (hdest : key ≠ "destination") :
    (normalizeRuleDestination sym out).lookup key = out.lookup key := by
  unfold normalizeRuleDestination
  split
  · rw [lookup_insertSome_ne _ hdest, AList.lookup_insert_ne hkind]
  · split
    · rw [lookup_insertSome_ne _ hdest, lookup_insertSome_ne _ hkind]
    · rw [lookup_insertSome_ne _ hdest]

/-- The parts of a normalized rule. -/
theorem exists_of_normalizeRule {es : Entries ω} {out : Wire ω}
    (h : normalizeRule (.hash es) = .ok out) :
    ∃ out₀ : Wire ω,
      (∀ key, key ≠ "action" → key ≠ "direction" → out₀.lookup key = none) ∧
      out = insertSome (insertSome (normalizeRuleDestination (transformKeys Value.toS es) out₀)
        "protocols" (strsUnlessEmpty (wireList es "protocols" "protocol")))
        "ports" (strsUnlessEmpty (wireList es "ports" "port")) := by
  refine ⟨insertSome (insertSome ∅ "action" (strIf (index (transformKeys Value.toS es) "action")))
    "direction" (strIf (index (transformKeys Value.toS es) "direction")), ?_, ?_⟩
  · intro key haction hdirection
    rw [lookup_insertSome_ne _ hdirection, lookup_insertSome_ne _ haction, AList.lookup_empty]
  · rw [← Except.ok.inj h, wireList, wireList]
    simp only [← lookup_transformKeys_toS]
    rfl

/-- What the parser reads of a normalized rule. -/
theorem exists_wireRule {es : Entries ω} {out : Wire ω} (h : normalizeRule (.hash es) = .ok out) :
    ∃ kind raw, optString (strEntries out) "destination_kind" = .ok kind ∧
      optString (strEntries out) "destination" = .ok raw ∧
      (WireAny kind raw ↔ ¬NamesDestination es) ∧
      optStringVec (strEntries out) "protocols" = .ok (wireList es "protocols" "protocol") ∧
      optStringVec (strEntries out) "ports" = .ok (wireList es "ports" "port") := by
  obtain ⟨out₀, hnone, rfl⟩ := exists_of_normalizeRule h
  have hprotocols :
      (normalizeRuleDestination (transformKeys Value.toS es) out₀).lookup "protocols" = none := by
    rw [lookup_normalizeRuleDestination_ne _ _ (by decide) (by decide),
      hnone _ (by decide) (by decide)]
  have hports :
      (normalizeRuleDestination (transformKeys Value.toS es) out₀).lookup "ports" = none := by
    rw [lookup_normalizeRuleDestination_ne _ _ (by decide) (by decide),
      hnone _ (by decide) (by decide)]
  -- the protocols and ports are written under keys of their own, beside the destination
  obtain ⟨kind, raw, hkind, hraw, hany⟩ := exists_wireDestination
    (insertSome (insertSome (normalizeRuleDestination (transformKeys Value.toS es) out₀)
      "protocols" (strsUnlessEmpty (wireList es "protocols" "protocol")))
      "ports" (strsUnlessEmpty (wireList es "ports" "port")))
    (hnone _ (by decide) (by decide)) (hnone _ (by decide) (by decide))
    (by rw [lookup_insertSome_ne _ (by decide), lookup_insertSome_ne _ (by decide)])
    (by rw [lookup_insertSome_ne _ (by decide), lookup_insertSome_ne _ (by decide)])
  refine ⟨kind, raw, hkind, hraw, hany, optStringVec_strsUnlessEmpty ?_,
    optStringVec_strsUnlessEmpty ?_⟩
  · rw [lookup_insertSome_ne _ (by decide), lookup_insertSome_self, hprotocols, Option.or_none]
  · rw [lookup_insertSome_self, lookup_insertSome_ne _ (by decide), hports, Option.or_none]

variable {core : Core T} {es : Entries ω} {out : Wire ω} {rule : Native.Rule T}

/-- What an accepted rule Hash becomes: its destination, and whether it lists protocols and
ports. -/
theorem rule_of_hash (hout : normalizeRule (.hash es) = .ok out)
    (hrule : parseRule core (strEntries out) = .ok rule) :
    (rule.destination ≠ .any ↔ NamesDestination es) ∧
      (rule.protocols ≠ [] ↔ wireList es "protocols" "protocol" ≠ []) ∧
      (rule.ports ≠ [] ↔ wireList es "ports" "port" ≠ []) := by
  obtain ⟨kind, raw, hkind, hraw, hany, hprotocols, hports⟩ := exists_wireRule hout
  unfold parseRule at hrule
  rw [hkind, hraw, hprotocols, hports] at hrule
  simp only [Except.ok_bind] at hrule
  obtain ⟨_, -, hrule⟩ := Except.bind_eq_ok_iff.mp hrule
  obtain ⟨action, -, hrule⟩ := Except.bind_eq_ok_iff.mp hrule
  obtain ⟨_, -, hrule⟩ := Except.bind_eq_ok_iff.mp hrule
  obtain ⟨direction, -, hrule⟩ := Except.bind_eq_ok_iff.mp hrule
  obtain ⟨destination, hdestination, hrule⟩ := Except.bind_eq_ok_iff.mp hrule
  obtain ⟨protocols, hprotocols, hrule⟩ := Except.bind_eq_ok_iff.mp hrule
  obtain ⟨ports, hports, hrule⟩ := Except.bind_eq_ok_iff.mp hrule
  cases hrule
  refine ⟨?_, parseDistinct_ne_nil_iff hprotocols, parseDistinct_ne_nil_iff hports⟩
  have hiff : destination = .any ↔ WireAny kind raw := by
    rw [WireAny, ← parseDestination_eq_any_iff core, hdestination, Except.ok.injEq]
  change destination ≠ .any ↔ _
  rw [ne_eq, hiff, hany, Classical.not_not]

end RuleHash

/-! ## What the caller supplies -/

section Input

variable [Methods ω]

/-- A rule as the caller gives it. -/
inductive RuleInput (ω : Type) where
  /-- A Hash written by hand. -/
  | hash (es : Entries ω)
  /-- The result of `Rule.allow` or `Rule.deny`. -/
  | built (action : Action) (args : Rule.Args ω)

/-- The rule Hash that the normalizer gets. -/
def RuleInput.value : RuleInput ω → Except Exception (Value ω)
  | .hash es => .ok (.hash es)
  | .built .allow args => (Rule.allow args).map strHash
  | .built .deny args => (Rule.deny args).map strHash

/-- The rule that the core gets. -/
def RuleInput.parse (core : Core T) (input : RuleInput ω) : Except Exception (Native.Rule T) := do
  parseRule core (strEntries (← normalizeRule (← input.value)))

/-- The values given under a Symbol or a String. -/
def valuesUnder (es : Entries ω) (name : String) : List (Value ω) :=
  es.filterMap fun e =>
    match e.1 with
    | .sym s => if s = name then some e.2 else none
    | .str s => if s = name then some e.2 else none
    | _ => none

/-- A value of this kind is the kind `any`. -/
def isAny (kind : Value ω) : Bool := kind.toS == "any"

/-- A String, a Symbol or a Hash that is not `*` and does not carry the kind `any`. -/
def isNarrow : Value ω → Bool
  | .str s => s != "*"
  | .sym s => s != "*"
  | .hash es => !(valuesUnder es "destination_kind").any isAny
  | _ => false

/-- The caller supplies a destination that is not any destination. -/
def RuleInput.suppliesDestination : RuleInput ω → Bool
  | .hash es =>
    (valuesUnder es "destination").any isNarrow && !(valuesUnder es "destination_kind").any isAny
  | .built _ args => isNarrow args.destination

/-- The values that are given in a plural and in a singular. -/
def elements (plural singular : List (Value ω)) : List (Value ω) :=
  plural.flatMap Value.array ++ singular.flatMap Value.array

/-- The protocols that the caller supplies. -/
def RuleInput.protocols : RuleInput ω → List (Value ω)
  | .hash es => elements (valuesUnder es "protocols") (valuesUnder es "protocol")
  | .built _ args => elements [args.protocols] [args.protocol]

/-- The ports that the caller supplies. -/
def RuleInput.ports : RuleInput ω → List (Value ω)
  | .hash es => elements (valuesUnder es "ports") (valuesUnder es "port")
  | .built _ args => elements [args.ports] [args.port]

/-- The rule is not widened: each of the three that the caller restricts stays restricted. -/
structure NotWidened (input : RuleInput ω) (rule : Native.Rule T) : Prop where
  destination : input.suppliesDestination = true → rule.destination ≠ .any
  protocols : (∃ v ∈ input.protocols, v.isNil = false) → rule.protocols ≠ []
  ports : (∃ v ∈ input.ports, v.isNil = false) → rule.ports ≠ []

/-- The last values under the two names have an element that is not `nil`. -/
def ListsOne (es : Entries ω) (plural singular : String) : Prop :=
  ∃ v ∈ ((last es plural).getD .nil).array ++ ((last es singular).getD .nil).array, v.isNil = false

/-- What the caller supplies stands where it is read: a destination Hash of the factory is merged
into its rule, and of the values under one name the last is read. -/
def RuleInput.Read : RuleInput ω → Prop
  | .hash es =>
    ((RuleInput.hash es).suppliesDestination = true → NamesDestination es) ∧
      ((∃ v ∈ (RuleInput.hash es).protocols, v.isNil = false) →
        ListsOne es "protocols" "protocol") ∧
      ((∃ v ∈ (RuleInput.hash es).ports, v.isNil = false) → ListsOne es "ports" "port")
  | .built _ args => ∀ es, args.destination = .hash es → isNarrow (.hash es) = true →
      NamesDestination es

/-- A list is written as soon as one item is not `nil`. -/
theorem strList_ne_nil_iff {plural singular : Value ω} :
    Rule.strList plural singular ≠ [] ↔
      ∃ v ∈ plural.array ++ singular.array, v.isNil = false := by
  rw [Rule.strList, ne_eq, List.map_eq_nil_iff]
  exact Value.compact_ne_nil_iff

/-- What a built rule holds, beside its action and its direction. -/
theorem exists_of_build {action : String} {args : Rule.Args ω} {m : Wire ω}
    (h : Rule.build action args = .ok m) :
    ∃ dest, Rule.normalizeDestination args.destination = .ok dest ∧
      m.lookup "destination_kind" = dest.lookup "destination_kind" ∧
      m.lookup "destination" = dest.lookup "destination" ∧
      m.lookup "protocols" = (strsUnlessEmpty (Rule.strList args.protocols args.protocol)).or
        (dest.lookup "protocols") ∧
      m.lookup "ports" = (strsUnlessEmpty (Rule.strList args.ports args.port)).or
        (dest.lookup "ports") := by
  unfold Rule.build at h
  obtain ⟨dest, hdest, h⟩ := Except.bind_eq_ok_iff.mp h
  have hm := (Except.ok.inj h).symm
  -- apart from the action and the direction, the rule has the keys of its destination
  have hbase : ∀ key, key ≠ "action" → key ≠ "direction" →
      (AList.insert "direction" (.str args.direction.toS)
        (AList.singleton "action" (.str action)) : Wire ω).lookup key = none := by
    intro key haction hdirection
    rw [AList.lookup_insert_ne hdirection, ← AList.insert_empty, AList.lookup_insert_ne haction,
      AList.lookup_empty]
  refine ⟨dest, hdest, ?_, ?_, ?_, ?_⟩
  · rw [hm, lookup_insertSome_ne _ (by decide), lookup_insertSome_ne _ (by decide), lookup_merge,
      hbase _ (by decide) (by decide), Option.or_none]
  · rw [hm, lookup_insertSome_ne _ (by decide), lookup_insertSome_ne _ (by decide), lookup_merge,
      hbase _ (by decide) (by decide), Option.or_none]
  · rw [hm, lookup_insertSome_ne _ (by decide), lookup_insertSome_self, lookup_merge,
      hbase _ (by decide) (by decide), Option.or_none]
  · rw [hm, lookup_insertSome_self, lookup_insertSome_ne _ (by decide), lookup_merge,
      hbase _ (by decide) (by decide), Option.or_none]

/-- The keyword arguments of the factory are listed first. -/
theorem wireList_ne_nil_of_built {m : Wire ω} {plural singular : String} {ss : List String}
    {o : Option (Value ω)} (h : m.lookup plural = (strsUnlessEmpty ss).or o) (hss : ss ≠ []) :
    wireList (strEntries m) plural singular ≠ [] := by
  rw [wireList, last_strEntries, last_strEntries, h]
  cases ss with
  | nil => exact absurd rfl hss
  | cons s ss =>
    rw [strList_ne_nil_iff]
    exact ⟨.str s, List.mem_append_left _ List.mem_cons_self, rfl⟩

/-- Whether a destination is named depends on its two keys. -/
theorem namesDestination_congr {es es' : Entries ω}
    (hkind : last es "destination_kind" = last es' "destination_kind")
    (hdest : last es "destination" = last es' "destination") :
    NamesDestination es ↔ NamesDestination es' := by
  rw [NamesDestination, NamesDestination, hkind, hdest]

/-- A built rule keeps its destination, unless it is a Hash that names none. -/
theorem namesDestination_of_built {action : String} {args : Rule.Args ω} {m : Wire ω}
    (h : Rule.build action args = .ok m) :
    (isNarrow args.destination = true → NamesDestination (strEntries m)) ↔
      ∀ es, args.destination = .hash es → isNarrow (.hash es) = true → NamesDestination es := by
  obtain ⟨dest, hdest, hkind, hvalue, -, -⟩ := exists_of_build h
  rw [← last_strEntries] at hkind hvalue
  cases hd : args.destination with
  | hash es =>
    rw [hd] at hdest
    cases hdest
    -- a Hash goes into the rule as it is, with its keys as Strings
    rw [lookup_transformKeys_toS] at hkind hvalue
    rw [namesDestination_congr hkind hvalue]
    constructor
    · intro hnamed es' hes hnarrow
      cases hes
      exact hnamed hnarrow
    · intro hnamed hnarrow
      exact hnamed es rfl hnarrow
  | nil => exact iff_of_true (fun hnarrow => by cases hnarrow) (fun es hes => by cases hes)
  | str s =>
    rw [hd] at hdest
    cases hdest
    refine iff_of_true (fun hnarrow => ?_) (fun es hes => by cases hes)
    have hs : s ≠ "*" := by simpa [isNarrow] using hnarrow
    unfold NamesDestination
    rw [hkind, hvalue]
    exact ⟨rfl, hs⟩
  | sym s =>
    rw [hd] at hdest
    cases hdest
    refine iff_of_true (fun hnarrow => ?_) (fun es hes => by cases hes)
    have hs : s ≠ "*" := by simpa [isNarrow] using hnarrow
    unfold NamesDestination
    rw [hkind, hvalue]
    exact ⟨rfl, hs⟩
  | _ =>
    rw [hd] at hdest
    cases hdest

/-- A built rule is widened only through its destination. -/
theorem notWidened_built_iff {core : Core T} {action : String} {args : Rule.Args ω} {m : Wire ω}
    (h : Rule.build action args = .ok m) {out : Wire ω} (hout : normalizeRule (strHash m) = .ok out)
    {rule : Native.Rule T} (hrule : parseRule core (strEntries out) = .ok rule) (a : Action) :
    NotWidened (.built a args) rule ↔ (RuleInput.built a args).Read := by
  obtain ⟨hdestination, hprotocols, hports⟩ := rule_of_hash hout hrule
  obtain ⟨dest, -, -, -, hlistProtocols, hlistPorts⟩ := exists_of_build h
  have helements : ∀ plural singular : Value ω,
      (∃ v ∈ elements [plural] [singular], v.isNil = false) →
        Rule.strList plural singular ≠ [] := by
    intro plural singular hsome
    rw [elements, List.flatMap_singleton, List.flatMap_singleton] at hsome
    exact strList_ne_nil_iff.mpr hsome
  rw [RuleInput.Read, ← namesDestination_of_built h]
  constructor
  · intro hnot hnarrow
    exact hdestination.mp (hnot.destination hnarrow)
  · intro hnamed
    refine ⟨fun hnarrow => hdestination.mpr (hnamed hnarrow), fun hsome => hprotocols.mpr ?_,
      fun hsome => hports.mpr ?_⟩
    · exact wireList_ne_nil_of_built hlistProtocols (helements _ _ hsome)
    · exact wireList_ne_nil_of_built hlistPorts (helements _ _ hsome)

/-- An accepted rule is not widened if and only if what the caller supplied stands where it is
read. -/
theorem notWidened_iff {core : Core T} {input : RuleInput ω} {rule : Native.Rule T}
    (h : input.parse core = .ok rule) : NotWidened input rule ↔ input.Read := by
  unfold RuleInput.parse at h
  obtain ⟨v, hv, h⟩ := Except.bind_eq_ok_iff.mp h
  obtain ⟨out, hout, hrule⟩ := Except.bind_eq_ok_iff.mp h
  cases input with
  | hash es =>
    cases hv
    -- each part of the rule is limited exactly if its keys were read
    obtain ⟨hdestination, hprotocols, hports⟩ := rule_of_hash hout hrule
    rw [wireList, strList_ne_nil_iff] at hprotocols hports
    constructor
    · intro hnot
      exact ⟨fun hsome => hdestination.mp (hnot.destination hsome),
        fun hsome => hprotocols.mp (hnot.protocols hsome),
        fun hsome => hports.mp (hnot.ports hsome)⟩
    · rintro ⟨hread, hreadProtocols, hreadPorts⟩
      exact ⟨fun hsome => hdestination.mpr (hread hsome),
        fun hsome => hprotocols.mpr (hreadProtocols hsome),
        fun hsome => hports.mpr (hreadPorts hsome)⟩
  | built action args =>
    cases action with
    | allow =>
      obtain ⟨m, hm, rfl⟩ := Except.map_eq_ok_iff.mp hv
      exact notWidened_built_iff hm hout hrule .allow
    | deny =>
      obtain ⟨m, hm, rfl⟩ := Except.map_eq_ok_iff.mp hv
      exact notWidened_built_iff hm hout hrule .deny

/-- A destination Hash with a key that is not known. -/
def unknownKeyRule : RuleInput Unit :=
  .hash [(.sym "action", .str "allow"),
    (.sym "destination", .hash [(.sym "cidr", .str "10.0.0.0/8")])]

/-- The rule allows the egress to everywhere. -/
theorem exists_widened : ∃ rule, unknownKeyRule.parse smallCore = .ok rule ∧
    ¬NotWidened unknownKeyRule rule :=
  ⟨⟨.egress, .any, [], [], .allow⟩, rfl, fun h => h.destination rfl rfl⟩

example : ((RuleInput.built .allow { destination := .hash [(.sym "cidr", .str "10.0.0.0/8")] } :
    RuleInput Unit).parse smallCore).map Native.Rule.destination = .ok .any := rfl

-- the same name under a Symbol and a String: the last one stands, and it is `nil`
example : ((RuleInput.hash [(.sym "action", .str "allow"), (.sym "protocol", .str "tcp"),
    (.str "protocol", .nil)] : RuleInput Unit).parse smallCore).map Native.Rule.protocols =
      .ok [] := rfl

/-- A rule with a network, a protocol and a port, under keys of both spellings. -/
def networkRule : RuleInput Unit :=
  .hash [(.str "action", .sym "allow"), (.sym "destination", .str "10.0.0.0/8"),
    (.sym "protocol", .sym "tcp"), (.str "ports", .arr [.int 443, .str "8000-9000"])]

/-- A rule of both spellings that is read. -/
theorem notWidened_iff_networkRule : ∃ rule, networkRule.parse smallCore = .ok rule ∧
    (NotWidened networkRule rule ↔ networkRule.Read) := by
  have hparse : ∃ rule, networkRule.parse smallCore = .ok rule := ⟨_, rfl⟩
  obtain ⟨rule, hparse⟩ := hparse
  exact ⟨rule, hparse, notWidened_iff hparse⟩

end Input

end MicrosandboxRb.Network
