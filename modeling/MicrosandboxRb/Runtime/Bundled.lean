import Mathlib.Data.List.MinMax
import Mathlib.Data.List.Perm.Basic
import MicrosandboxRb.Lib.ExceptList
import MicrosandboxRb.Lib.RustPath

/-!
# The companion gem of the runtime

`activate_bundled_runtime!` (`microsandbox.rb`) claims the slot of the runtime path for the `msb` of
the companion gem, unless a gem that is not trusted provides the file that was loaded. Gem roots
nest, so the owner of the file is the gem with the longest root that contains it.

## Main results

* `exists_perm_owner_iff`: the owners of the file are the gems with the innermost root, each in some
  order of the loaded gems;
* `claim_well_defined_iff`: the decision does not depend on the order, and claims for trusted owners
  only, unless trusted and other gems share the innermost root of a runtime that is complete.
-/

namespace MicrosandboxRb.Bundled

/-- A loaded gem. -/
structure GemSpec where
  name : String
  fullGemPath : String
deriving DecidableEq, Repr

/-- An exception that the method rescues. -/
structure Raised where
  className : String
  message : String
deriving DecidableEq, Repr

/-- The module `Microsandbox::Binaries` as it was loaded, with what its methods return. -/
structure Binaries where
  version : String
  runtimeVersion : String
  root : String
  /-- The file that defines `msb_path`. -/
  sourceLocation : Except Raised (Option String)
  msbPath : Except Raised (Option String)
  libkrunfwPath : Except Raised (Option String)

/-- What `require "microsandbox/binaries"` does. -/
inductive Required where
  | loadError
  | raised (e : Raised)
  | loaded (binaries : Binaries)

/-- What the activation does: the path that it claims the slot for, and its warning. -/
structure Activation where
  claimed : Option String := none
  warning : Option String := none
deriving DecidableEq, Repr

/-- `VERSION` of the gem. -/
def VERSION : String := "0.17.5"

/-- `RUNTIME_VERSION`. -/
def RUNTIME_VERSION : String := "v0.6.18"

/-- `TRUSTED_BINARIES_OWNERS`. -/
def TRUSTED_BINARIES_OWNERS : List String := ["microsandbox-rb-binaries", "microsandbox-rb"]

/-- `File.join(path, "")`. -/
def joinSlash (path : String) : String :=
  if path.toList.getLast? = some '/' then path else path ++ "/"

/-- `source.start_with?(File.join(root, ""))`. -/
def under (root source : String) : Bool := (joinSlash root).toList.isPrefixOf source.toList

/-- The gem that owns a file. Of several with the longest root, `max_by` takes the first. -/
def owner (loadedSpecs : List GemSpec) (source : String) : Option GemSpec :=
  let roots := loadedSpecs.filter fun s => under s.fullGemPath source
  roots.argmax fun s => s.fullGemPath.length

/-- `bundled_runtime_owner`: the name of the gem a file belongs to. -/
def bundledRuntimeOwner (loadedSpecs : List GemSpec) (source : Option String) : Option String :=
  (source.bind (owner loadedSpecs)).map GemSpec.name

/-- What follows a successful `require`. -/
def activate (loadedSpecs : List GemSpec) (b : Binaries) : Except Raised Activation := do
  match (bundledRuntimeOwner loadedSpecs (← b.sourceLocation)).filter
      fun owner => owner ∉ TRUSTED_BINARIES_OWNERS with
  | some owner => return { warning := some (
      s!"[microsandbox] ignoring microsandbox/binaries provided by the {owner} gem " ++
      "(only microsandbox-rb-binaries is trusted for the bundled runtime)") }
  | none =>
    if b.version = VERSION ∧ b.runtimeVersion = RUNTIME_VERSION then
      let missing : Activation := { warning := some (
        s!"[microsandbox] microsandbox-rb-binaries {b.version} is installed but " ++
        s!"carries no runtime under {b.root}; falling back to ~/.microsandbox.") }
      match ← b.msbPath with
      | none => return missing
      | some msb =>
        match ← b.libkrunfwPath with
        | none => return missing
        | some _ => return { claimed := some msb }
    else
      return { warning := some (
        s!"[microsandbox] ignoring microsandbox-rb-binaries {b.version} " ++
        s!"(runtime {b.runtimeVersion}): microsandbox-rb {VERSION} " ++
        s!"(runtime {RUNTIME_VERSION}) needs the companion gem at the same version. " ++
        "Install both gems at the same version; falling back to ~/.microsandbox.") }

/-- The `rescue` of the method. -/
def rescued (e : Raised) : Activation where
  warning := some
    s!"[microsandbox] could not activate microsandbox-rb-binaries: {e.className}: {e.message}"

/-- `activate_bundled_runtime`: what becomes of the gem that was required. -/
def activateBundledRuntime (loadedSpecs : List GemSpec) (required : Required) : Activation :=
  match required with
  | .loadError => {}
  | .raised e => rescued e
  | .loaded b =>
    match activate loadedSpecs b with
    | .ok activation => activation
    | .error e => rescued e

/-! ## The owner of a file -/

/-- Whether a gem's root contains a file. -/
def Contains (s : GemSpec) (source : String) : Prop :=
  ∃ rest : String, source = joinSlash s.fullGemPath ++ rest

/-- A file is under a root exactly if the root contains it. -/
theorem under_iff {s : GemSpec} {source : String} :
    under s.fullGemPath source = true ↔ Contains s source := by
  rw [under, List.isPrefixOf_iff_prefix]
  constructor
  · rintro ⟨rest, h⟩
    refine ⟨String.ofList rest, ?_⟩
    rw [← String.toList_inj, String.toList_append, String.toList_ofList, h]
  · rintro ⟨rest, h⟩
    exact ⟨rest.toList, by rw [h, String.toList_append]⟩

/-- The components of a path that starts with another one and a slash. -/
theorem parts_append_slash (p q : String) :
    RustPath.parts (RustPath.ofString (p ++ "/" ++ q)) =
      RustPath.parts (RustPath.ofString p) ++ RustPath.parts (RustPath.ofString q) := by
  rw [RustPath.ofString_append, RustPath.ofString_append, List.append_assoc]
  exact RustPath.parts_append_sep _ _

/-- A root that contains a file is a directory above it, and not just a prefix of its text. -/
theorem parts_prefix_of_contains {s : GemSpec} {source : String} (h : Contains s source) :
    RustPath.parts (RustPath.ofString s.fullGemPath) <+:
      RustPath.parts (RustPath.ofString source) := by
  obtain ⟨rest, rfl⟩ := h
  unfold joinSlash
  split
  · rename_i hlast
    obtain ⟨init, hinit⟩ := List.getLast?_eq_some_iff.mp hlast
    have hpath : s.fullGemPath = String.ofList init ++ "/" := by
      rw [← String.toList_inj, String.toList_append, String.toList_ofList, hinit]
      rfl
    have hparts := parts_append_slash (String.ofList init) ""
    rw [String.append_empty] at hparts
    rw [hpath, hparts, parts_append_slash]
    exact ⟨_, by rw [List.append_assoc]; rfl⟩
  · rw [parts_append_slash]
    exact List.prefix_append _ _

/-- A gem whose root contains a file, and is no shorter than the root of any other such gem. -/
def Innermost (loadedSpecs : List GemSpec) (source : String) (s : GemSpec) : Prop :=
  s ∈ loadedSpecs ∧ Contains s source ∧
    ∀ t ∈ loadedSpecs, Contains t source → t.fullGemPath.length ≤ s.fullGemPath.length

section Owner

variable {loadedSpecs loadedSpecs' : List GemSpec} {source : String} {s : GemSpec}

/-- The innermost roots do not depend on the order of the gems. -/
theorem innermost_perm (h : loadedSpecs.Perm loadedSpecs') :
    Innermost loadedSpecs source s ↔ Innermost loadedSpecs' source s := by
  simp only [Innermost, h.mem_iff]

/-- There is no owner exactly if no root contains the file. -/
theorem owner_eq_none_iff :
    owner loadedSpecs source = none ↔ ∀ s ∈ loadedSpecs, ¬Contains s source := by
  rw [owner, List.argmax_eq_none, List.filter_eq_nil_iff]
  simp only [under_iff]

/-- The owner has an innermost root. -/
theorem innermost_of_owner (h : owner loadedSpecs source = some s) :
    Innermost loadedSpecs source s := by
  have hmem := List.argmax_mem h
  rw [List.mem_filter, under_iff] at hmem
  refine ⟨hmem.1, hmem.2, fun t ht hcontains => ?_⟩
  have ht : t ∈ loadedSpecs.filter fun s => under s.fullGemPath source :=
    List.mem_filter.mpr ⟨ht, under_iff.mpr hcontains⟩
  exact List.le_of_mem_argmax (f := fun s => s.fullGemPath.length) ht h

/-- A gem with the innermost root owns the file where it is enumerated first. -/
theorem owner_cons_of_innermost (h : Innermost (s :: loadedSpecs) source s) :
    owner (s :: loadedSpecs) source = some s := by
  obtain ⟨-, hcontains, hmax⟩ := h
  have hroots : (s :: loadedSpecs).filter (fun s => under s.fullGemPath source) =
      s :: loadedSpecs.filter fun s => under s.fullGemPath source :=
    List.filter_cons_of_pos (under_iff.mpr hcontains)
  unfold owner
  rw [hroots]
  apply List.argmax_eq_some_iff.mpr
  refine ⟨List.mem_cons_self, ?_, ?_⟩
  · intro t ht
    rcases List.mem_cons.mp ht with rfl | ht
    · exact le_rfl
    · rw [List.mem_filter, under_iff] at ht
      exact hmax t (List.mem_cons_of_mem s ht.1) ht.2
  · intro t _ _
    rw [List.idxOf_cons_self]
    exact Nat.zero_le _

/-- The owners of a file in some order of the loaded gems. -/
theorem exists_perm_owner_iff :
    (∃ loadedSpecs', loadedSpecs.Perm loadedSpecs' ∧ owner loadedSpecs' source = some s) ↔
      Innermost loadedSpecs source s := by
  constructor
  · rintro ⟨loadedSpecs', hperm, howner⟩
    exact (innermost_perm hperm).mpr (innermost_of_owner howner)
  · intro h
    have hperm : loadedSpecs.Perm (s :: loadedSpecs.erase s) := List.perm_cons_erase h.1
    exact ⟨_, hperm, owner_cons_of_innermost ((innermost_perm hperm).mp h)⟩

end Owner

/-! ## The decision -/

/-- Whether the runtime of the module is complete and of this version. -/
def Complete (b : Binaries) : Prop :=
  b.version = VERSION ∧ b.runtimeVersion = RUNTIME_VERSION ∧
    (∃ msb, b.msbPath = .ok (some msb)) ∧ ∃ libkrunfw, b.libkrunfwPath = .ok (some libkrunfw)

/-- Whether the slot is claimed. -/
def Claims (loadedSpecs : List GemSpec) (required : Required) : Prop :=
  (activateBundledRuntime loadedSpecs required).claimed ≠ none

/-- A gem that may own the binaries. -/
def Trusted (s : GemSpec) : Prop := s.name ∈ TRUSTED_BINARIES_OWNERS

instance (s : GemSpec) : Decidable (Trusted s) := inferInstanceAs (Decidable (_ ∈ _))

/-- The owner that is named in a warning is one that is not trusted. -/
theorem filter_owner_eq_none_iff {loadedSpecs : List GemSpec} {source : Option String} :
    (bundledRuntimeOwner loadedSpecs source).filter (fun owner => owner ∉ TRUSTED_BINARIES_OWNERS) =
      none ↔ ∀ s, source.bind (owner loadedSpecs) = some s → Trusted s := by
  rw [bundledRuntimeOwner, Option.filter_eq_none_iff]
  constructor
  · intro h s hs
    by_contra hnot
    refine h s.name ?_ (decide_eq_true hnot)
    rw [hs]
    rfl
  · rintro h name hname hnot
    obtain ⟨s, hs, rfl⟩ := Option.map_eq_some_iff.mp hname
    exact of_decide_eq_true hnot (h s hs)

/-- The part of the activation after the owner was accepted. -/
theorem exists_runtime_iff {b : Binaries} {missing outdated : Activation}
    (hmissing : missing.claimed = none) (houtdated : outdated.claimed = none) :
    (∃ a, (if b.version = VERSION ∧ b.runtimeVersion = RUNTIME_VERSION then do
        match ← b.msbPath with
        | none => return missing
        | some msb =>
          match ← b.libkrunfwPath with
          | none => return missing
          | some _ => return { claimed := some msb }
      else return outdated : Except Raised Activation) = .ok a ∧ a.claimed ≠ none) ↔
      Complete b := by
  unfold Complete
  by_cases hversions : b.version = VERSION ∧ b.runtimeVersion = RUNTIME_VERSION
  · rw [if_pos hversions]
    -- both files have to be found
    cases b.msbPath with
    | error e => simp [Bind.bind, Except.bind]
    | ok msb =>
      cases msb with
      | none => simp [Bind.bind, Except.bind, pure, Except.pure, hmissing]
      | some msb =>
        cases b.libkrunfwPath with
        | error e => simp [Bind.bind, Except.bind]
        | ok libkrunfw =>
          cases libkrunfw with
          | none => simp [Bind.bind, Except.bind, pure, Except.pure, hmissing]
          | some libkrunfw =>
            simp [Bind.bind, Except.bind, pure, Except.pure, hversions.1, hversions.2]
  · rw [if_neg hversions]
    constructor
    · rintro ⟨a, h, hclaimed⟩
      cases h
      exact absurd houtdated hclaimed
    · rintro ⟨hversion, hruntime, -⟩
      exact absurd ⟨hversion, hruntime⟩ hversions

/-- The activation claims the slot for a complete runtime whose owner is trusted, if it has one. -/
theorem exists_activate_iff {loadedSpecs : List GemSpec} {b : Binaries} :
    (∃ a, activate loadedSpecs b = .ok a ∧ a.claimed ≠ none) ↔
      Complete b ∧ ∃ source, b.sourceLocation = .ok source ∧
        ∀ s, source.bind (owner loadedSpecs) = some s → Trusted s := by
  unfold activate
  cases hsource : b.sourceLocation with
  | error e =>
    constructor
    · rintro ⟨a, h, -⟩
      cases h
    · rintro ⟨-, source, h, -⟩
      cases h
  | ok source =>
    rw [Except.ok_bind]
    -- the source file may belong to a gem that is not trusted
    cases howner : (bundledRuntimeOwner loadedSpecs source).filter
        (fun owner => owner ∉ TRUSTED_BINARIES_OWNERS) with
    | some owner =>
      constructor
      · rintro ⟨a, h, hclaimed⟩
        cases h
        exact absurd rfl hclaimed
      -- an owner that is not trusted was found, against the assumption
      · rintro ⟨-, source', h, htrusted⟩
        obtain rfl := Except.ok.inj h
        rw [filter_owner_eq_none_iff.mpr htrusted] at howner
        cases howner
    | none =>
      have htrusted := filter_owner_eq_none_iff.mp howner
      refine (exists_runtime_iff rfl rfl).trans ?_
      constructor
      · exact fun h => ⟨h, source, rfl, htrusted⟩
      · exact fun h => h.1

/-- When the slot is claimed. -/
theorem claims_iff {loadedSpecs : List GemSpec} {required : Required} :
    Claims loadedSpecs required ↔ ∃ b source, required = .loaded b ∧ Complete b ∧
      b.sourceLocation = .ok source ∧
      ∀ s, source.bind (owner loadedSpecs) = some s → Trusted s := by
  unfold Claims activateBundledRuntime
  cases required with
  | loadError => simp
  | raised e => simp [rescued]
  | loaded b =>
    -- a runtime that was not loaded, or raised, claims nothing
    have hactivate := @exists_activate_iff loadedSpecs b
    have hloaded : (∃ b' source, Required.loaded b = .loaded b' ∧ Complete b' ∧
        b'.sourceLocation = .ok source ∧ ∀ s, source.bind (owner loadedSpecs) = some s → Trusted s) ↔
        Complete b ∧ ∃ source, b.sourceLocation = .ok source ∧
          ∀ s, source.bind (owner loadedSpecs) = some s → Trusted s := by
      constructor
      · rintro ⟨b', source, hb, hcomplete, hsource⟩
        obtain rfl := Required.loaded.inj hb
        exact ⟨hcomplete, source, hsource⟩
      · rintro ⟨hcomplete, source, hsource⟩
        exact ⟨b, source, rfl, hcomplete, hsource⟩
    rw [hloaded, ← hactivate]
    dsimp only
    cases activate loadedSpecs b with
    | error e => simp [rescued]
    | ok a => simp

/-! ## Trust -/

/-- Whether the slot may be claimed: the runtime is complete, and no gem contains its file or every
gem with the innermost root is trusted. -/
def MayClaim (loadedSpecs : List GemSpec) (required : Required) : Prop :=
  ∃ b source, required = .loaded b ∧ Complete b ∧ b.sourceLocation = .ok source ∧
    ∀ file, source = some file → (∀ s ∈ loadedSpecs, ¬Contains s file) ∨
      ∀ s, Innermost loadedSpecs file s → Trusted s

/-- What the decision should be for the loaded gems: the same in every order, a claim only where it
may be one, and no owner whose root is not a directory above the file. -/
structure WellDefined (loadedSpecs : List GemSpec) (required : Required) : Prop where
  claims_perm : ∀ loadedSpecs', loadedSpecs.Perm loadedSpecs' →
    (Claims loadedSpecs' required ↔ Claims loadedSpecs required)
  mayClaim : ∀ loadedSpecs', loadedSpecs.Perm loadedSpecs' →
    Claims loadedSpecs' required → MayClaim loadedSpecs' required
  owner_above : ∀ file s, owner loadedSpecs file = some s →
    RustPath.parts (RustPath.ofString s.fullGemPath) <+: RustPath.parts (RustPath.ofString file)

/-- A complete runtime whose file has an innermost root that a trusted gem shares with another. -/
def Ambiguous (loadedSpecs : List GemSpec) (required : Required) : Prop :=
  ∃ b file, required = .loaded b ∧ Complete b ∧ b.sourceLocation = .ok (some file) ∧
    (∃ s, Innermost loadedSpecs file s ∧ Trusted s) ∧
    ∃ s, Innermost loadedSpecs file s ∧ ¬Trusted s

section Trust

variable {loadedSpecs loadedSpecs' : List GemSpec} {required : Required}

/-- Whether two gems share the innermost root does not depend on the order. -/
theorem ambiguous_perm (h : loadedSpecs.Perm loadedSpecs') :
    Ambiguous loadedSpecs required ↔ Ambiguous loadedSpecs' required := by
  simp only [Ambiguous, innermost_perm h]

/-- Nor does whether one of them may claim the runtime. -/
theorem mayClaim_perm (h : loadedSpecs.Perm loadedSpecs') :
    MayClaim loadedSpecs required ↔ MayClaim loadedSpecs' required := by
  simp only [MayClaim, innermost_perm h, h.mem_iff]

/-- Who may claim it in every order claims it in this one. -/
theorem claims_of_mayClaim (h : MayClaim loadedSpecs required) : Claims loadedSpecs required := by
  obtain ⟨b, source, hb, hcomplete, hsource, htrusted⟩ := h
  refine claims_iff.mpr ⟨b, source, hb, hcomplete, hsource, fun s hs => ?_⟩
  obtain ⟨file, hfile, howner⟩ := Option.bind_eq_some_iff.mp hs
  have hinner := innermost_of_owner howner
  rcases htrusted file hfile with hnone | hall
  · exact absurd hinner.2.1 (hnone s hinner.1)
  · exact hall s hinner

/-- Where the innermost root is not shared, its gems decide. -/
theorem mayClaim_of_claims (hnot : ¬Ambiguous loadedSpecs required)
    (h : Claims loadedSpecs required) : MayClaim loadedSpecs required := by
  obtain ⟨b, source, hb, hcomplete, hsource, htrusted⟩ := claims_iff.mp h
  refine ⟨b, source, hb, hcomplete, hsource, ?_⟩
  rintro file rfl
  cases howner : owner loadedSpecs file with
  | none => exact Or.inl (owner_eq_none_iff.mp howner)
  | some s =>
    right
    intro t ht
    by_contra hforeign
    exact hnot ⟨b, file, hb, hcomplete, hsource,
      ⟨s, innermost_of_owner howner, htrusted s howner⟩, t, ht, hforeign⟩

/-- Without such a pair the claim is the same in every order. -/
theorem wellDefined_of_not_ambiguous (hnot : ¬Ambiguous loadedSpecs required) :
    WellDefined loadedSpecs required where
  claims_perm loadedSpecs' hperm := by
    have hnot' : ¬Ambiguous loadedSpecs' required := mt (ambiguous_perm hperm).mpr hnot
    constructor
    · exact fun h => claims_of_mayClaim ((mayClaim_perm hperm).mpr (mayClaim_of_claims hnot' h))
    · exact fun h => claims_of_mayClaim ((mayClaim_perm hperm).mp (mayClaim_of_claims hnot h))
  mayClaim loadedSpecs' hperm := mayClaim_of_claims (mt (ambiguous_perm hperm).mpr hnot)
  owner_above file s h := parts_prefix_of_contains (innermost_of_owner h).2.1

/-- The gem that comes first among those with the innermost root decides. -/
theorem not_wellDefined_of_ambiguous (h : Ambiguous loadedSpecs required) :
    ¬WellDefined loadedSpecs required := by
  obtain ⟨b, file, hb, hcomplete, hsource, ⟨s, hs, htrusted⟩, t, ht, hforeign⟩ := h
  intro hwell
  obtain ⟨trustedFirst, hperm, howner⟩ := exists_perm_owner_iff.mpr hs
  obtain ⟨foreignFirst, hperm', howner'⟩ := exists_perm_owner_iff.mpr ht
  have hclaims : Claims trustedFirst required := by
    refine claims_iff.mpr ⟨b, some file, hb, hcomplete, hsource, fun s' hs' => ?_⟩
    obtain rfl := Option.some.inj (howner.symm.trans hs')
    exact htrusted
  have hrefuses : ¬Claims foreignFirst required := by
    intro hclaims'
    obtain ⟨b', source, hb', -, hsource', htrusted'⟩ := claims_iff.mp hclaims'
    obtain rfl := Required.loaded.inj (hb.symm.trans hb')
    obtain rfl := Except.ok.inj (hsource.symm.trans hsource')
    exact hforeign (htrusted' t howner')
  exact hrefuses ((hwell.claims_perm _ hperm').mpr ((hwell.claims_perm _ hperm).mp hclaims))

end Trust

/-- The decision is well defined unless a trusted gem and another one share the innermost root of a
complete runtime. -/
theorem claim_well_defined_iff (loadedSpecs : List GemSpec) (required : Required) :
    WellDefined loadedSpecs required ↔ ¬Ambiguous loadedSpecs required :=
  ⟨fun hwell h => not_wellDefined_of_ambiguous h hwell, wellDefined_of_not_ambiguous⟩

/-- The companion gem of a source checkout. -/
def checkout : Binaries where
  version := "0.17.5"
  runtimeVersion := "v0.6.18"
  root := "/srv/app/binaries/vendor"
  sourceLocation := .ok (some "/srv/app/binaries/lib/microsandbox/binaries.rb")
  msbPath := .ok (some "/srv/app/binaries/vendor/bin/msb")
  libkrunfwPath := .ok (some "/srv/app/binaries/vendor/lib/libkrunfw.so.5")

/-- Two gems of one directory, of which one is trusted: the first of them decides. -/
theorem claim_depends_on_order :
    activateBundledRuntime [⟨"microsandbox-rb", "/srv/app"⟩, ⟨"host-app", "/srv/app"⟩]
        (.loaded checkout) = { claimed := some "/srv/app/binaries/vendor/bin/msb" } ∧
      (activateBundledRuntime [⟨"host-app", "/srv/app"⟩, ⟨"microsandbox-rb", "/srv/app"⟩]
        (.loaded checkout)).claimed = none ∧
      ¬∀ loadedSpecs required, WellDefined loadedSpecs required := by
  have hclaims : activateBundledRuntime
      [⟨"microsandbox-rb", "/srv/app"⟩, ⟨"host-app", "/srv/app"⟩] (.loaded checkout) =
        { claimed := some "/srv/app/binaries/vendor/bin/msb" } := by
    decide
  have hrefuses : (activateBundledRuntime
      [⟨"host-app", "/srv/app"⟩, ⟨"microsandbox-rb", "/srv/app"⟩] (.loaded checkout)).claimed =
        none := by
    decide
  refine ⟨hclaims, hrefuses, fun h => ?_⟩
  have hsame := (h [⟨"host-app", "/srv/app"⟩, ⟨"microsandbox-rb", "/srv/app"⟩]
    (.loaded checkout)).claims_perm _ (List.Perm.swap _ _ _)
  rw [Claims, hclaims] at hsame
  exact hsame.mp (Option.some_ne_none _) hrefuses

end MicrosandboxRb.Bundled
