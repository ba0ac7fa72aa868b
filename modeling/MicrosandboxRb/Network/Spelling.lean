import MicrosandboxRb.Lib.ExceptList
import MicrosandboxRb.Network.Native
import MicrosandboxRb.Network.Policy
import Mathlib.Data.List.Induction

/-!
# The spellings of a network rule

A rule is asked for with the factories `Rule.allow` and `Rule.deny`, or with a Hash written by hand,
whose destination stands in one key or in two. The normalization writes all of them as the same
wire fields, and what the native layer parses depends on these fields only.

## Main results

* `normalizeRule_eq`: the wire form is put together from six fields;
* `normalizeRule_idempotent`: the fields of a wire form are its own;
* `parseDistinct_eq`: what a list of strings is parsed to;
* `spellings_agree`: every spelling of a request is parsed to the same rule, or is rejected.
-/

namespace MicrosandboxRb.Network

open Ruby Conv Native

variable {ω : Type} {T : CoreTypes}

/-! ## The fields of a wire rule -/

/-- What `normalize_rule` writes, each under its own key. -/
structure RuleFields where
  action : Option String
  direction : Option String
  kind : Option String
  destination : Option String
  protocols : List String
  ports : List String

/-- The wire form of the fields. -/
def RuleFields.wire (f : RuleFields) : Wire ω :=
  let out := insertSome ∅ "action" (f.action.map .str)
  let out := insertSome out "direction" (f.direction.map .str)
  let out := insertSome out "destination_kind" (f.kind.map .str)
  let out := insertSome out "destination" (f.destination.map .str)
  let out := insertSome out "protocols" (strsUnlessEmpty f.protocols)
  insertSome out "ports" (strsUnlessEmpty f.ports)

section Lookup

variable (f : RuleFields)

/-- The action, as written. -/
@[simp] theorem RuleFields.lookup_action :
    (f.wire : Wire ω).lookup "action" = f.action.map .str := by
  rw [wire, lookup_insertSome_ne _ (by decide), lookup_insertSome_ne _ (by decide),
    lookup_insertSome_ne _ (by decide), lookup_insertSome_ne _ (by decide),
    lookup_insertSome_ne _ (by decide), lookup_insertSome_self]
  exact Option.or_none

/-- The direction, as written. -/
@[simp] theorem RuleFields.lookup_direction :
    (f.wire : Wire ω).lookup "direction" = f.direction.map .str := by
  rw [wire, lookup_insertSome_ne _ (by decide), lookup_insertSome_ne _ (by decide),
    lookup_insertSome_ne _ (by decide), lookup_insertSome_ne _ (by decide),
    lookup_insertSome_self, lookup_insertSome_ne _ (by decide)]
  exact Option.or_none

/-- The kind of the destination, as written. -/
@[simp] theorem RuleFields.lookup_kind :
    (f.wire : Wire ω).lookup "destination_kind" = f.kind.map .str := by
  rw [wire, lookup_insertSome_ne _ (by decide), lookup_insertSome_ne _ (by decide),
    lookup_insertSome_ne _ (by decide), lookup_insertSome_self, lookup_insertSome_ne _ (by decide),
    lookup_insertSome_ne _ (by decide)]
  exact Option.or_none

/-- The destination, as written. -/
@[simp] theorem RuleFields.lookup_destination :
    (f.wire : Wire ω).lookup "destination" = f.destination.map .str := by
  rw [wire, lookup_insertSome_ne _ (by decide), lookup_insertSome_ne _ (by decide),
    lookup_insertSome_self, lookup_insertSome_ne _ (by decide), lookup_insertSome_ne _ (by decide),
    lookup_insertSome_ne _ (by decide)]
  exact Option.or_none

/-- The protocols, unless there are none. -/
@[simp] theorem RuleFields.lookup_protocols :
    (f.wire : Wire ω).lookup "protocols" = strsUnlessEmpty f.protocols := by
  rw [wire, lookup_insertSome_ne _ (by decide), lookup_insertSome_self,
    lookup_insertSome_ne _ (by decide), lookup_insertSome_ne _ (by decide),
    lookup_insertSome_ne _ (by decide), lookup_insertSome_ne _ (by decide)]
  exact Option.or_none

/-- The ports, unless there are none. -/
@[simp] theorem RuleFields.lookup_ports :
    (f.wire : Wire ω).lookup "ports" = strsUnlessEmpty f.ports := by
  rw [wire, lookup_insertSome_self, lookup_insertSome_ne _ (by decide),
    lookup_insertSome_ne _ (by decide), lookup_insertSome_ne _ (by decide),
    lookup_insertSome_ne _ (by decide), lookup_insertSome_ne _ (by decide)]
  exact Option.or_none

/-- No other key is written. -/
theorem RuleFields.lookup_other {key : String} (haction : key ≠ "action")
    (hdirection : key ≠ "direction") (hkind : key ≠ "destination_kind")
    (hdestination : key ≠ "destination") (hprotocols : key ≠ "protocols") (hports : key ≠ "ports") :
    (f.wire : Wire ω).lookup key = none := by
  rw [wire, lookup_insertSome_ne _ hports, lookup_insertSome_ne _ hprotocols,
    lookup_insertSome_ne _ hdestination, lookup_insertSome_ne _ hkind,
    lookup_insertSome_ne _ hdirection, lookup_insertSome_ne _ haction]
  rfl

end Lookup

/-- A key that is written alike is read alike. -/
theorem index_congr {m m' : Wire ω} {key : String} (h : m.lookup key = m'.lookup key) :
    index m key = index m' key := by
  rw [index, index, h]

/-- `v.to_s unless v.nil?`, as a string. -/
def textUnlessNil [Methods ω] (v : Value ω) : Option String := if v.isNil then none else some v.toS

section Normalize

variable [Methods ω]

/-- A text written unless `nil`. -/
theorem strUnlessNil_eq_map_textUnlessNil (v : Value ω) :
    strUnlessNil v = (textUnlessNil v).map .str := by
  unfold strUnlessNil textUnlessNil
  split <;> rfl

/-- The kind and the text of the destination of a rule. -/
def destinationFields (sym : Wire ω) : Option String × Option String :=
  match sym.lookup "destination_kind" with
  | some kind => (some kind.toS, textUnlessNil (index sym "destination"))
  | none =>
    match index sym "destination" with
    | .hash es =>
      let dest := transformKeys Value.toS es
      (textIf (index dest "destination_kind"), (dest.lookup "destination").map Value.toS)
    | v => (none, textUnlessNil v)

/-- A destination is written as its two fields. -/
theorem normalizeRuleDestination_eq (sym out : Wire ω) :
    normalizeRuleDestination sym out =
      insertSome (insertSome out "destination_kind" ((destinationFields sym).1.map .str))
        "destination" ((destinationFields sym).2.map .str) := by
  unfold normalizeRuleDestination destinationFields
  cases sym.lookup "destination_kind" with
  | some kind =>
    dsimp only
    rw [strUnlessNil_eq_map_textUnlessNil]
    rfl
  | none =>
    cases index sym "destination" with
    | hash es =>
      dsimp only
      rw [strIf_eq_map_textIf, Option.map_map]
      rfl
    | _ =>
      dsimp only
      rw [strUnlessNil_eq_map_textUnlessNil]
      rfl

/-- The fields that a rule with these keys has. -/
def ruleFields (sym : Wire ω) : RuleFields where
  action := textIf (index sym "action")
  direction := textIf (index sym "direction")
  kind := (destinationFields sym).1
  destination := (destinationFields sym).2
  protocols := Rule.strList (index sym "protocols") (index sym "protocol")
  ports := Rule.strList (index sym "ports") (index sym "port")

/-- A rule is normalized to the wire form of its fields. -/
theorem normalizeRule_eq (es : Entries ω) :
    normalizeRule (.hash es) = .ok (ruleFields (transformKeys Value.toS es)).wire := by
  unfold normalizeRule
  dsimp only
  rw [normalizeRuleDestination_eq, strIf_eq_map_textIf, strIf_eq_map_textIf]
  rfl

/-! ## Idempotence -/

/-- The fields depend only on what eight keys hold. -/
theorem ruleFields_congr {sym sym' : Wire ω}
    (h : ∀ key, sym.lookup key = sym'.lookup key) : ruleFields sym = ruleFields sym' := by
  have hindex : ∀ key, index sym key = index sym' key := fun key => index_congr (h key)
  unfold ruleFields destinationFields
  simp only [hindex, h]

/-- Keys that are Strings stay as they are. -/
theorem lookup_transformKeys_strEntries (m : Wire ω) (key : String) :
    (transformKeys Value.toS (strEntries m)).lookup key = m.lookup key := by
  rw [lookup_transformKeys_toS, last_strEntries]

/-- A text that is written is read back. -/
theorem textIf_getD_map_str (o : Option String) :
    textIf ((o.map .str).getD .nil : Value ω) = o := by
  cases o with
  | none => rfl
  | some s => rfl

/-- So is one that is written unless `nil`. -/
theorem textUnlessNil_getD_map_str (o : Option String) :
    textUnlessNil ((o.map .str).getD .nil : Value ω) = o := by
  cases o with
  | none => rfl
  | some s => rfl

/-- So is a list that is written unless empty. -/
theorem strList_strsUnlessEmpty (ss : List String) :
    Rule.strList ((strsUnlessEmpty ss).getD .nil : Value ω) .nil = ss := by
  have hcompact : ∀ ss : List String,
      Value.compact (ss.map fun s => (.str s : Value ω)) = ss.map .str := by
    intro ss
    rw [Value.compact, List.filter_eq_self]
    rintro v hv
    obtain ⟨s, -, rfl⟩ := List.mem_map.mp hv
    rfl
  unfold Rule.strList strsUnlessEmpty
  cases ss with
  | nil => rfl
  | cons s ss =>
    change (Value.compact (((s :: ss).map .str) ++ [])).map Value.toS = s :: ss
    rw [List.append_nil, hcompact, Value.map_toS_map_str]

/-- So is a destination. -/
theorem destinationFields_wire (f : RuleFields) :
    destinationFields (f.wire : Wire ω) = (f.kind, f.destination) := by
  unfold destinationFields
  rw [f.lookup_kind, index, f.lookup_destination]
  cases hkind : f.kind with
  | some kind =>
    dsimp only [Option.map_some]
    rw [textUnlessNil_getD_map_str]
    rfl
  | none =>
    cases f.destination with
    | none => rfl
    | some s => rfl

/-- A wire form is read as the fields it was written from. -/
theorem ruleFields_wire (f : RuleFields) : ruleFields (f.wire : Wire ω) = f := by
  unfold ruleFields
  rw [destinationFields_wire, index, index, index, index, index, index, f.lookup_action,
    f.lookup_direction, f.lookup_protocols, f.lookup_ports,
    f.lookup_other (by decide) (by decide) (by decide) (by decide) (by decide) (by decide),
    f.lookup_other (by decide) (by decide) (by decide) (by decide) (by decide) (by decide),
    textIf_getD_map_str, textIf_getD_map_str, Option.getD_none, strList_strsUnlessEmpty,
    strList_strsUnlessEmpty]

/-- To normalize a rule twice is to normalize it once. -/
theorem normalizeRule_idempotent {rule : Value ω} {out : Wire ω} (h : normalizeRule rule = .ok out) :
    normalizeRule (strHash out) = .ok out := by
  cases rule with
  | hash es =>
    rw [normalizeRule_eq] at h
    obtain rfl := Except.ok.inj h
    rw [strHash, normalizeRule_eq, ruleFields_congr (lookup_transformKeys_strEntries _),
      ruleFields_wire]
  | _ => cases h

end Normalize

/-! ## Parsing the fields -/

/-- What the native layer makes of the fields. -/
def RuleFields.parse (core : Core T) (f : RuleFields) : Except Exception (Native.Rule T) := do
  let action ←
    match f.action with
    | some s => actionFromStr s
    | none => throw (baseError "patch is missing required key :action")
  let direction ← ruleDirection f.direction
  let destination ← parseDestination core f.kind f.destination
  let protocols ← parseDistinct protocolFromStr f.protocols
  let ports ← parseDistinct parsePortRange f.ports
  return { direction, destination, protocols, ports, action }

/-- The native side parses the fields that were written. -/
theorem parseRule_wire (core : Core T) (f : RuleFields) :
    parseRule core (strEntries (f.wire : Wire ω)) = f.parse core := by
  unfold parseRule patchStr RuleFields.parse
  rw [optString_map_str f.lookup_action, optString_map_str f.lookup_direction,
    optString_map_str f.lookup_kind, optString_map_str f.lookup_destination,
    optStringVec_strsUnlessEmpty f.lookup_protocols, optStringVec_strsUnlessEmpty f.lookup_ports]
  simp only [Except.ok_bind]
  cases f.action with
  | none => rfl
  | some s => rfl

/-- A further element is kept unless it occurs before. -/
theorem eraseDups_append_singleton {α : Type} [DecidableEq α] (as : List α) (a : α) :
    (as ++ [a]).eraseDups = if a ∈ as.eraseDups then as.eraseDups else as.eraseDups ++ [a] := by
  rw [List.eraseDups_append]
  by_cases ha : a ∈ as
  · rw [if_pos (List.mem_eraseDups.mpr ha)]
    simp [ha, List.removeAll]
  · rw [if_neg (fun h => ha (List.mem_eraseDups.mp h))]
    simp [ha, List.removeAll, List.eraseDups_cons]

/-- The distinct values, in the order in which they first occur. -/
theorem parseDistinct_eq {α : Type} [DecidableEq α] (parse : String → Except Exception α)
    (raws : List String) : parseDistinct parse raws = (raws.mapM parse).map List.eraseDups := by
  -- Generalized over what has been seen: the fold keeps it in front, each value once.
  have hstep : ∀ (raws : List String) (seen : List α),
      raws.foldlM (fun acc raw => do
        let a ← parse raw
        return if a ∈ acc then acc else acc ++ [a]) seen.eraseDups =
      (raws.mapM parse).map fun bs => (seen ++ bs).eraseDups := by
    intro raws
    induction raws with
    | nil =>
      intro seen
      rw [List.foldlM_nil, List.mapM_nil]
      exact congrArg (fun as => Except.ok as.eraseDups) (List.append_nil seen).symm
    | cons raw raws ih =>
      intro seen
      rw [List.foldlM_cons, List.mapM_cons]
      cases parse raw with
      | error e => rfl
      | ok a =>
        change (raws.foldlM _ (if a ∈ seen.eraseDups then _ else _)) = _
        rw [← eraseDups_append_singleton, ih (seen ++ [a])]
        cases raws.mapM parse with
        | error e => rfl
        | ok bs =>
          exact congrArg (fun as => Except.ok as.eraseDups) (List.append_assoc seen [a] bs)
  exact hstep raws []

/-- No element is kept twice. -/
theorem nodup_eraseDups {α : Type} [DecidableEq α] (as : List α) : as.eraseDups.Nodup := by
  induction as using List.reverseRecOn with
  | nil => exact List.nodup_nil
  | append_singleton as a ih =>
    rw [eraseDups_append_singleton]
    split
    · exact ih
    · rename_i ha
      exact List.nodup_append.mpr
        ⟨ih, List.nodup_singleton a, fun b hb c hc => by
          rw [List.mem_singleton.mp hc]
          exact fun hba => ha (hba ▸ hb)⟩

/-! ## Requests -/

/-- What a caller gives as `destination:`, with the factories of `Destination`. -/
inductive DestinationArg (ω : Type) where
  | none
  | str (s : String)
  | sym (s : String)
  | any
  | ip (value : Value ω)
  | cidr (value : Value ω)
  | domain (value : Value ω)
  | domainSuffix (value : Value ω)
  | group (value : Value ω)

/-- A rule as its caller means it. -/
structure RuleRequest (ω : Type) where
  action : Action
  direction : Direction
  destination : DestinationArg ω
  protocol : Value ω
  protocols : Value ω
  port : Value ω
  ports : Value ω

/-- The text of an action. -/
def actionText : Action → String
  | .allow => "allow"
  | .deny => "deny"

/-- The text of a direction. -/
def directionText : Direction → String
  | .egress => "egress"
  | .ingress => "ingress"
  | .any => "any"

/-- The text of an action reads back. -/
theorem actionFromStr_actionText (a : Action) : actionFromStr (actionText a) = .ok a := by
  cases a <;> rfl

/-- So does the text of a direction. -/
theorem directionFromStr_directionText (d : Direction) :
    directionFromStr (directionText d) = .ok d := by
  cases d <;> rfl

section Requests

variable [Methods ω]

namespace DestinationArg

/-- The value that is passed as `destination:`. -/
def value : DestinationArg ω → Value ω
  | .none => .nil
  | .str s => .str s
  | .sym s => .sym s
  | .any => Destination.any
  | .ip v => Destination.ip v
  | .cidr v => Destination.cidr v
  | .domain v => Destination.domain v
  | .domainSuffix v => Destination.domainSuffix v
  | .group v => Destination.group v

/-- The kind that is named explicitly. -/
def kind? : DestinationArg ω → Option String
  | .none | .str _ | .sym _ => Option.none
  | .any => some "any"
  | .ip _ => some "ip"
  | .cidr _ => some "cidr"
  | .domain _ => some "domain"
  | .domainSuffix _ => some "domain_suffix"
  | .group _ => some "group"

/-- The text of a destination. -/
def text? : DestinationArg ω → Option String
  | .none | .any => Option.none
  | .str s | .sym s => some s
  | .ip v | .cidr v | .domain v | .domainSuffix v => some v.toS
  | .group v => some (String.ofList (v.toS.toList.map fun c => if c = '_' then '-' else c))

end DestinationArg

/-- The items that a caller asks for under a plural and a singular keyword: those of the plural and
then those of the singular, each as a String. `nil` is no item. -/
def requested (plural singular : Value ω) : List String :=
  (plural.array ++ singular.array).filterMap fun v => if v.isNil then none else some v.toS

/-- The factories and the normalization of a rule collect the items that are asked for. -/
theorem strList_eq_requested (plural singular : Value ω) :
    Rule.strList plural singular = requested plural singular := by
  unfold Rule.strList requested Value.compact
  induction plural.array ++ singular.array with
  | nil => rfl
  | cons v vs ih =>
    cases hnil : v.isNil with
    | true =>
      rw [List.filter_cons_of_neg (by simp [hnil]), ih, List.filterMap_cons_none (by simp [hnil])]
    | false =>
      rw [List.filter_cons_of_pos (by simp [hnil]), List.map_cons, ih,
        List.filterMap_cons_some (b := v.toS) (by simp [hnil])]

/-- A list written unless empty requests its elements. -/
theorem requested_strsUnlessEmpty (ss : List String) :
    requested ((strsUnlessEmpty ss).getD .nil : Value ω) .nil = ss := by
  rw [← strList_eq_requested, strList_strsUnlessEmpty]

/-- What the request asks for: each item once, in the order in which the items first occur. -/
def RuleRequest.parse (core : Core T) (req : RuleRequest ω) : Except Exception (Native.Rule T) := do
  let destination ← parseDestination core req.destination.kind? req.destination.text?
  let protocols ← (requested req.protocols req.protocol).mapM protocolFromStr
  let ports ← (requested req.ports req.port).mapM parsePortRange
  return { direction := req.direction, destination, protocols := protocols.eraseDups
           ports := ports.eraseDups, action := req.action }

/-- The value is the String or the Symbol `s`. -/
def Names (v : Value ω) (s : String) : Prop := v = .str s ∨ v = .sym s

/-- A name is its own text. -/
theorem Names.toS_eq {v : Value ω} {s : String} (h : Names v s) : v.toS = s := by
  rcases h with rfl | rfl
  · rfl
  · rfl

/-- And it is never left out. -/
theorem Names.textIf_eq {v : Value ω} {s : String} (h : Names v s) : textIf v = some s := by
  rcases h with rfl | rfl
  · rfl
  · rfl

/-- The factory arguments of a request. -/
structure RuleRequest.FactoryArgs (req : RuleRequest ω) (args : Rule.Args ω) : Prop where
  destination : args.destination = req.destination.value
  direction : Names args.direction (directionText req.direction)
  protocol : args.protocol = req.protocol
  protocols : args.protocols = req.protocols
  port : args.port = req.port
  ports : args.ports = req.ports

/-- What the Hashes that are written by hand have in common. Each key is a Symbol or a String, in
any order, and of the values under one name the last one counts. -/
structure RuleRequest.HandWritten (req : RuleRequest ω) (es : Entries ω) : Prop where
  action : ∃ v, last es "action" = some v ∧ Names v (actionText req.action)
  direction : (∃ v, last es "direction" = some v ∧ Names v (directionText req.direction)) ∨
    (last es "direction" = none ∧ req.direction = .egress)
  protocol : (last es "protocol").getD .nil = req.protocol
  protocols : (last es "protocols").getD .nil = req.protocols
  port : (last es "port").getD .nil = req.port
  ports : (last es "ports").getD .nil = req.ports

/-- The destination stands under `destination:`, as a shorthand or as the Hash of the factory. -/
structure RuleRequest.Nested (req : RuleRequest ω) (es : Entries ω) : Prop
    extends req.HandWritten es where
  kind : last es "destination_kind" = none
  destination : (last es "destination").getD .nil = req.destination.value

/-- A destination with a kind stands under `destination_kind:` and `destination:`. -/
structure RuleRequest.Flat (req : RuleRequest ω) (es : Entries ω) : Prop
    extends req.HandWritten es where
  kind : (last es "destination_kind").map Value.toS = req.destination.kind?
  destination : textUnlessNil ((last es "destination").getD .nil) = req.destination.text?
  shorthand : req.destination.kind? = none →
    ((last es "destination").getD .nil).isHash = false

/-- The fields that every spelling of the request is normalized to, but for a direction that may be
left out. -/
def RuleRequest.fields (req : RuleRequest ω) (direction : Option String) : RuleFields where
  action := some (actionText req.action)
  direction := direction
  kind := req.destination.kind?
  destination := req.destination.text?
  protocols := requested req.protocols req.protocol
  ports := requested req.ports req.port

/-- The fields of a request parse as the request does. -/
theorem RuleRequest.parse_fields (core : Core T) (req : RuleRequest ω) {direction : Option String}
    (h : ruleDirection direction = .ok req.direction) :
    (req.fields direction).parse core = req.parse core := by
  unfold RuleFields.parse RuleRequest.fields RuleRequest.parse
  simp only [h, actionFromStr_actionText, Except.ok_bind, parseDistinct_eq, Except.map_bind]

/-- The fields of a Hash that is written by hand, up to its destination. -/
theorem RuleRequest.HandWritten.exists_fields {req : RuleRequest ω} {es : Entries ω}
    (h : req.HandWritten es)
    (hdest : destinationFields (transformKeys Value.toS es) =
      (req.destination.kind?, req.destination.text?)) :
    ∃ direction, ruleDirection direction = .ok req.direction ∧
      ruleFields (transformKeys Value.toS es) = req.fields direction := by
  obtain ⟨action, haction, hnames⟩ := h.action
  have hindex : ∀ key, index (transformKeys Value.toS es) key = (last es key).getD .nil := by
    intro key
    rw [index, lookup_transformKeys_toS]
  refine ⟨textIf ((last es "direction").getD .nil), ?_, ?_⟩
  · rcases h.direction with ⟨v, hv, hnames⟩ | ⟨hnone, hegress⟩
    · rw [hv, Option.getD_some, hnames.textIf_eq]
      exact directionFromStr_directionText req.direction
    · rw [hnone, hegress]
      rfl
  · unfold ruleFields RuleRequest.fields
    rw [hdest, hindex, hindex, hindex, hindex, hindex, hindex, h.protocol, h.protocols, h.port,
      h.ports, haction, Option.getD_some, hnames.textIf_eq, strList_eq_requested,
      strList_eq_requested]

/-- A nested destination is written as its kind and its text. -/
theorem destinationFields_of_value {sym : Wire ω} {dest : DestinationArg ω}
    (hkind : sym.lookup "destination_kind" = none) (hdest : index sym "destination" = dest.value) :
    destinationFields sym = (dest.kind?, dest.text?) := by
  unfold destinationFields
  rw [hkind, hdest]
  cases dest <;> rfl

/-- A nested destination has the fields of the request. -/
theorem RuleRequest.Nested.destinationFields_eq {req : RuleRequest ω} {es : Entries ω}
    (h : req.Nested es) :
    destinationFields (transformKeys Value.toS es) =
      (req.destination.kind?, req.destination.text?) := by
  apply destinationFields_of_value
  · rw [lookup_transformKeys_toS, h.kind]
  · rw [index, lookup_transformKeys_toS, h.destination]

/-- So does a flat one. -/
theorem RuleRequest.Flat.destinationFields_eq {req : RuleRequest ω} {es : Entries ω}
    (h : req.Flat es) :
    destinationFields (transformKeys Value.toS es) =
      (req.destination.kind?, req.destination.text?) := by
  cases hkind : last es "destination_kind" with
  | none =>
    have hnone : req.destination.kind? = none := by rw [← h.kind, hkind]; rfl
    have hshort := h.shorthand hnone
    unfold destinationFields
    rw [lookup_transformKeys_toS, hkind, hnone, ← h.destination, index, lookup_transformKeys_toS]
    cases hdest : (last es "destination").getD .nil with
    | hash => rw [hdest] at hshort; cases hshort
    | _ => rfl
  | some kind =>
    unfold destinationFields
    rw [lookup_transformKeys_toS, hkind, ← h.kind, hkind, ← h.destination, index,
      lookup_transformKeys_toS]
    rfl

/-- A Hash written by hand is parsed to the rule that was asked for. -/
theorem RuleRequest.HandWritten.parse_eq {req : RuleRequest ω} {es : Entries ω}
    (h : req.HandWritten es)
    (hdest : destinationFields (transformKeys Value.toS es) =
      (req.destination.kind?, req.destination.text?)) (core : Core T) :
    ∃ wire, normalizeRule (.hash es) = .ok wire ∧
      parseRule core (strEntries wire) = req.parse core := by
  obtain ⟨direction, hdirection, hfields⟩ := h.exists_fields hdest
  refine ⟨_, normalizeRule_eq es, ?_⟩
  rw [hfields, parseRule_wire, req.parse_fields core hdirection]

/-! ## The factories -/

/-- The wire form of a destination has its kind and its text. -/
def DestinationArg.At (dest : DestinationArg ω) (key : String) : Option (Value ω) :=
  if key = "destination_kind" then dest.kind?.map .str
  else if key = "destination" then dest.text?.map .str
  else Option.none

/-- The two keys of a typed destination. -/
theorem lookup_typed (kind text key : String) :
    (transformKeys Value.toS
        [((.str "destination_kind" : Value ω), (.str kind : Value ω)),
          (.str "destination", .str text)]).lookup key =
      if key = "destination_kind" then some (.str kind)
      else if key = "destination" then some (.str text)
      else none := by
  rw [lookup_transformKeys]
  by_cases hkind : key = "destination_kind"
  · subst hkind
    simp [lastValue]
  · by_cases hdest : key = "destination"
    · subst hdest
      simp [lastValue]
    · simp [lastValue, hkind, hdest, Ne.symm hkind, Ne.symm hdest]

/-- Every destination a caller can name is normalized to its two keys. -/
theorem exists_normalizeDestination (dest : DestinationArg ω) :
    ∃ w, Rule.normalizeDestination dest.value = .ok w ∧ ∀ key, w.lookup key = dest.At key := by
  have hsingle : ∀ s : String, ∀ key : String,
      (AList.singleton "destination" (.str s) : Wire ω).lookup key =
        if key = "destination_kind" then none
        else if key = "destination" then some (.str s) else none := by
    intro s key
    by_cases hdest : key = "destination"
    · subst hdest
      rfl
    · rw [if_neg hdest, ite_self, AList.lookup_eq_none, AList.mem_keys, AList.keys_singleton,
        List.mem_singleton]
      exact hdest
  -- a text has no kind, and a typed destination has one
  cases dest with
  | none => exact ⟨∅, rfl, fun key => by
    simp [DestinationArg.At, DestinationArg.kind?, DestinationArg.text?]⟩
  | str s => exact ⟨_, rfl, hsingle s⟩
  | sym s => exact ⟨_, rfl, hsingle s⟩
  | any =>
    refine ⟨_, rfl, fun key => ?_⟩
    rw [lookup_transformKeys]
    by_cases hkind : key = "destination_kind"
    · subst hkind
      simp [lastValue, DestinationArg.At, DestinationArg.kind?]
    · simp [lastValue, DestinationArg.At, DestinationArg.text?, hkind, Ne.symm hkind]
  | ip v => exact ⟨_, rfl, lookup_typed "ip" v.toS⟩
  | cidr v => exact ⟨_, rfl, lookup_typed "cidr" v.toS⟩
  | domain v => exact ⟨_, rfl, lookup_typed "domain" v.toS⟩
  | domainSuffix v => exact ⟨_, rfl, lookup_typed "domain_suffix" v.toS⟩
  | group v => exact ⟨_, rfl, lookup_typed "group" _⟩

/-- The request with its collections as lists of strings. -/
def RuleRequest.listed (req : RuleRequest ω) : RuleRequest ω where
  action := req.action
  direction := req.direction
  destination := req.destination
  protocol := .nil
  protocols := (strsUnlessEmpty (requested req.protocols req.protocol)).getD .nil
  port := .nil
  ports := (strsUnlessEmpty (requested req.ports req.port)).getD .nil

/-- Listing the singular items after the plural ones changes nothing. -/
theorem RuleRequest.parse_listed (core : Core T) (req : RuleRequest ω) :
    req.listed.parse core = req.parse core := by
  unfold RuleRequest.parse RuleRequest.listed
  dsimp only
  rw [requested_strsUnlessEmpty, requested_strsUnlessEmpty]

/-- A rule that a factory builds has its destination in two keys. -/
theorem RuleRequest.FactoryArgs.exists_flat {req : RuleRequest ω} {args : Rule.Args ω}
    (h : req.FactoryArgs args) :
    ∃ rule, Rule.build (actionText req.action) args = .ok rule ∧
      req.listed.Flat (strEntries rule) := by
  obtain ⟨w, hw, hlookup⟩ := exists_normalizeDestination req.destination
  rw [← h.destination] at hw
  obtain ⟨rule, hrule⟩ : ∃ rule, Rule.build (actionText req.action) args = .ok rule :=
    ⟨_, by unfold Rule.build; rw [hw]; rfl⟩
  refine ⟨rule, hrule, ?_⟩
  unfold Rule.build at hrule
  rw [hw] at hrule
  have hm := (Except.ok.inj hrule).symm
  -- the rule starts with its action alone
  have hsingle : ∀ key, key ≠ "action" →
      (AList.singleton "action" (.str (actionText req.action)) : Wire ω).lookup key = none := by
    intro key hkey
    rw [AList.lookup_eq_none, AList.mem_keys, AList.keys_singleton, List.mem_singleton]
    exact hkey
  -- The lists are inserted over the destination, and the destination over the rest.
  have haction : last (strEntries rule) "action" = some (.str (actionText req.action)) := by
    rw [last_strEntries, hm, lookup_insertSome_ne _ (by decide), lookup_insertSome_ne _ (by decide),
      lookup_merge, hlookup, AList.lookup_insert_ne (by decide)]
    rfl
  have hdirection : last (strEntries rule) "direction" = some (.str args.direction.toS) := by
    rw [last_strEntries, hm, lookup_insertSome_ne _ (by decide), lookup_insertSome_ne _ (by decide),
      lookup_merge, hlookup, AList.lookup_insert]
    rfl
  have hdest : ∀ key, key = "destination_kind" ∨ key = "destination" →
      last (strEntries rule) key = req.destination.At key := by
    rintro key (rfl | rfl)
    · rw [last_strEntries, hm, lookup_insertSome_ne _ (by decide),
        lookup_insertSome_ne _ (by decide), lookup_merge, hlookup,
        AList.lookup_insert_ne (by decide), hsingle _ (by decide), Option.or_none]
    · rw [last_strEntries, hm, lookup_insertSome_ne _ (by decide),
        lookup_insertSome_ne _ (by decide), lookup_merge, hlookup,
        AList.lookup_insert_ne (by decide), hsingle _ (by decide), Option.or_none]
  -- the factory writes the plural keys only
  have hnone : ∀ key, key = "protocol" ∨ key = "port" → last (strEntries rule) key = none := by
    rintro key (rfl | rfl)
    · rw [last_strEntries, hm, lookup_insertSome_ne _ (by decide),
        lookup_insertSome_ne _ (by decide), lookup_merge, hlookup,
        AList.lookup_insert_ne (by decide), hsingle _ (by decide)]
      rfl
    · rw [last_strEntries, hm, lookup_insertSome_ne _ (by decide),
        lookup_insertSome_ne _ (by decide), lookup_merge, hlookup,
        AList.lookup_insert_ne (by decide), hsingle _ (by decide)]
      rfl
  have hprotocols : last (strEntries rule) "protocols" =
      strsUnlessEmpty (requested req.protocols req.protocol) := by
    rw [← strList_eq_requested, last_strEntries, hm, lookup_insertSome_ne _ (by decide),
      lookup_insertSome_self, lookup_merge, hlookup, AList.lookup_insert_ne (by decide),
      hsingle _ (by decide), h.protocols, h.protocol]
    exact Option.or_none
  have hports : last (strEntries rule) "ports" =
      strsUnlessEmpty (requested req.ports req.port) := by
    rw [← strList_eq_requested, last_strEntries, hm, lookup_insertSome_self,
      lookup_insertSome_ne _ (by decide), lookup_merge, hlookup, AList.lookup_insert_ne (by decide),
      hsingle _ (by decide), h.ports, h.port]
    exact Option.or_none
  exact {
    -- what the wire form holds is what the request lists
    action := ⟨_, haction, Or.inl rfl⟩
    direction := Or.inl ⟨_, hdirection, Or.inl (by rw [h.direction.toS_eq]; rfl)⟩
    protocol := by rw [hnone _ (Or.inl rfl)]; rfl
    protocols := by rw [hprotocols]; rfl
    port := by rw [hnone _ (Or.inr rfl)]; rfl
    ports := by rw [hports]; rfl
    kind := by
      rw [hdest _ (Or.inl rfl), DestinationArg.At, if_pos rfl, Option.map_map]
      exact Option.map_id_apply
    destination := by
      rw [hdest _ (Or.inr rfl), DestinationArg.At, if_neg (by decide), if_pos rfl]
      exact textUnlessNil_getD_map_str _
    shorthand := by
      intro hkind
      rw [hdest _ (Or.inr rfl), DestinationArg.At, if_neg (by decide), if_pos rfl]
      cases req.destination.text? <;> rfl }

/-! ## Agreement -/

/-- The values that spell a request: what its factory builds, and the Hashes that are written by
hand, with a nested or with a flat destination. -/
inductive RuleRequest.SpelledBy (req : RuleRequest ω) : Value ω → Prop
  | built {args : Rule.Args ω} {rule : Wire ω} (args_of : req.FactoryArgs args)
    (eq : Rule.build (actionText req.action) args = .ok rule) : SpelledBy req (strHash rule)
  | nested {es : Entries ω} (h : req.Nested es) : SpelledBy req (.hash es)
  | flat {es : Entries ω} (h : req.Flat es) : SpelledBy req (.hash es)

/-- Whatever spells a request is normalized to a wire form that is parsed as the request is. -/
theorem RuleRequest.SpelledBy.parse_eq {req : RuleRequest ω} {v : Value ω} (h : req.SpelledBy v)
    (core : Core T) :
    ∃ wire, normalizeRule v = .ok wire ∧ parseRule core (strEntries wire) = req.parse core := by
  cases h with
  | built hargs hrule =>
    obtain ⟨rule', hrule', hflat⟩ := hargs.exists_flat
    obtain rfl := Except.ok.inj (hrule.symm.trans hrule')
    obtain ⟨wire, hwire, hparse⟩ := hflat.parse_eq hflat.destinationFields_eq core
    rw [req.parse_listed core] at hparse
    exact ⟨wire, hwire, hparse⟩
  | nested h => exact h.parse_eq h.destinationFields_eq core
  | flat h => exact h.parse_eq h.destinationFields_eq core

/-- Rules of the factories, Hashes with a nested destination and Hashes with a flat one are
normalized to wire forms that the native layer parses to the rule that was asked for, or rejects
alike. A wire form is normalized to itself. A parsed rule has each protocol and each port once, in
the order in which they are first asked for. -/
theorem spellings_agree (core : Core T) (req : RuleRequest ω) :
    (∀ args, req.FactoryArgs args → ∃ rule wire,
      Rule.build (actionText req.action) args = .ok rule ∧
      normalizeRule (strHash rule) = .ok wire ∧
      parseRule core (strEntries wire) = req.parse core) ∧
    (∀ es, req.Nested es → ∃ wire, normalizeRule (.hash es) = .ok wire ∧
      parseRule core (strEntries wire) = req.parse core) ∧
    (∀ es, req.Flat es → ∃ wire, normalizeRule (.hash es) = .ok wire ∧
      parseRule core (strEntries wire) = req.parse core) ∧
    (∀ (rule : Value ω) out, normalizeRule rule = .ok out →
      normalizeRule (strHash out) = .ok out) ∧
    ∀ rule, req.parse core = .ok rule →
      rule.protocols.Nodup ∧ rule.ports.Nodup ∧
      (∃ protocols, (requested req.protocols req.protocol).mapM protocolFromStr = .ok protocols ∧
        rule.protocols = protocols.eraseDups) ∧
      ∃ ports, (requested req.ports req.port).mapM parsePortRange = .ok ports ∧
        rule.ports = ports.eraseDups := by
  refine ⟨?_, ?_, ?_, ?_, ?_⟩
  · intro args hargs
    obtain ⟨rule, hrule, -⟩ := hargs.exists_flat
    obtain ⟨wire, hwire, hparse⟩ := (RuleRequest.SpelledBy.built hargs hrule).parse_eq core
    exact ⟨rule, wire, hrule, hwire, hparse⟩
  · intro es hes
    exact (RuleRequest.SpelledBy.nested hes).parse_eq core
  · intro es hes
    exact (RuleRequest.SpelledBy.flat hes).parse_eq core
  · intro rule out h
    exact normalizeRule_idempotent h
  · intro rule h
    -- the order and the repetitions are settled where the request is parsed
    unfold RuleRequest.parse at h
    obtain ⟨destination, -, h⟩ := Except.bind_eq_ok_iff.mp h
    obtain ⟨protocols, hprotocols, h⟩ := Except.bind_eq_ok_iff.mp h
    obtain ⟨ports, hports, h⟩ := Except.bind_eq_ok_iff.mp h
    obtain rfl := Except.ok.inj h
    exact ⟨nodup_eraseDups protocols, nodup_eraseDups ports, ⟨protocols, hprotocols, rfl⟩,
      ⟨ports, hports, rfl⟩⟩

end Requests

/-- TCP to a network, on a port and a range of ports. -/
def cidrRequest : RuleRequest Unit where
  action := .allow
  direction := .egress
  destination := .cidr (.str "10.0.0.0/8")
  protocol := .sym "tcp"
  protocols := .nil
  port := .str "443"
  ports := .arr [.str "8000-9000", .str "443"]

/-- The rule of the request: the protocol of the singular, and the ports of the plural before the
one of the singular, which they repeat. -/
def cidrRule : Native.Rule smallTypes where
  direction := .egress
  destination := .cidr "10.0.0.0/8"
  protocols := [.tcp]
  ports := [⟨8000, 9000, by decide⟩, .single 443]
  action := .allow

/-- The request with its factory, and by hand with a nested and with a flat destination. -/
theorem spellings_agree_cidr :
    (∃ rule wire,
      Rule.build "allow"
        ({ destination := Destination.cidr (.str "10.0.0.0/8"), protocol := .sym "tcp"
           port := .str "443", ports := .arr [.str "8000-9000", .str "443"] } : Rule.Args Unit) =
        .ok rule ∧
      normalizeRule (strHash rule) = .ok wire ∧
      parseRule smallCore (strEntries wire) = cidrRequest.parse smallCore) ∧
    (∃ wire, normalizeRule (.hash
        [((.sym "action" : Value Unit), .sym "allow"), (.sym "protocol", .sym "tcp"),
          (.sym "port", .str "443"),
          (.sym "destination", Destination.cidr (.str "10.0.0.0/8")),
          (.sym "ports", .arr [.str "8000-9000", .str "443"])]) = .ok wire ∧
      parseRule smallCore (strEntries wire) = cidrRequest.parse smallCore) ∧
    (∃ wire, normalizeRule (.hash
        [((.str "action" : Value Unit), .str "allow"), (.str "protocol", .sym "tcp"),
          (.str "port", .str "443"),
          (.str "destination_kind", .sym "cidr"), (.str "destination", .str "10.0.0.0/8"),
          (.str "direction", .sym "egress"),
          (.str "ports", .arr [.str "8000-9000", .str "443"])]) = .ok wire ∧
      parseRule smallCore (strEntries wire) = cidrRequest.parse smallCore) ∧
    cidrRequest.parse smallCore = .ok cidrRule ∧ cidrRule.protocols.Nodup ∧
    cidrRule.ports.Nodup := by
  obtain ⟨hfactory, hnested, hflat, -, hparsed⟩ := spellings_agree smallCore cidrRequest
  refine ⟨hfactory _ ?_, hnested _ ?_, hflat _ ?_, ?_⟩
  · exact ⟨rfl, Or.inr rfl, rfl, rfl, rfl, rfl⟩
  · exact { action := ⟨_, rfl, Or.inr rfl⟩, direction := Or.inr ⟨rfl, rfl⟩, protocol := rfl
            protocols := rfl, port := rfl, ports := rfl, kind := rfl, destination := rfl }
  · exact { action := ⟨_, rfl, Or.inl rfl⟩, direction := Or.inl ⟨_, rfl, Or.inr rfl⟩
            protocol := rfl, protocols := rfl, port := rfl, ports := rfl, kind := rfl
            destination := rfl, shorthand := fun _ => rfl }
  · obtain ⟨hprotocols, hports, -⟩ := hparsed cidrRule rfl
    exact ⟨rfl, hprotocols, hports⟩

end MicrosandboxRb.Network
