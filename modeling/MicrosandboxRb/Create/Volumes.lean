import MicrosandboxRb.Create.RootDisk
import MicrosandboxRb.Create.Wire

/-!
# Volume mounts: the Ruby layer

The normalization of the `volumes:` option (`sandbox.rb`), whose result `build_builder` reads again
by key.

## Main definitions

* `normalizeVolumes`: the Hashes that the native layer receives;
* `buildVolumes`: what the core's builder is told about each mount.
-/

namespace MicrosandboxRb.Volumes

open Ruby Conv Native

variable {ω : Type} [Methods ω] [Numeric ω]

/-! ## Normalization -/

/-- `mount[key] = Integer(spec[key]) if spec[key]`. -/
def applyMountInteger (mount : Opts ω) (spec : Entries ω) (key : String) :
    Except Exception (Opts ω) :=
  let value := either spec key
  if value.truthy then (integer value).map fun n => mount.insert key (.int n)
  else .ok mount

/-- Resolve the kind of a mount, with its source and, for a disk, its format. -/
def applyMountSource (mount : Opts ω) (spec : Entries ω) (guest : Value ω) :
    Except Exception (Opts ω) :=
  let bind := either spec "bind"
  let named := either spec "named"
  let disk := either spec "disk"
  -- the first of the four wins, whatever else the Hash names
  if bind.truthy then
    .ok ((mount.insert "kind" (.str "bind")).insert "source" (.str bind.toS))
  else if named.truthy then
    .ok ((mount.insert "kind" (.str "named")).insert "source" (.str named.toS))
  else if (either spec "tmpfs").truthy then .ok (mount.insert "kind" (.str "tmpfs"))
  else if disk.truthy then
    .ok (insertSome ((mount.insert "kind" (.str "disk")).insert "source" (.str disk.toS)) "format"
      (strIf (either spec "format")))
  else
    .error (.argumentError
      s!"volume spec for {guest.inspect} needs :bind, :named, :tmpfs, or :disk")

/-- Resolve the kind of a mount and its source, size, format and filesystem. -/
def applyMountKind (mount : Opts ω) (spec : Entries ω) (guest : Value ω) :
    Except Exception (Opts ω) := do
  let mount ← applyMountSource mount spec guest
  let mount ← applyMountInteger mount spec "size_mib"
  let mount := insertSome mount "fstype" (strIf (either spec "fstype"))
  applyMountInteger mount spec "quota_mib"

/-- One token of the `options:` form. -/
def applyMountOption (mount : Opts ω) (opt : Value ω) : Except Exception (Opts ω) :=
  match opt.toS with
  | "ro" | "readonly" => .ok (mount.insert "readonly" (.bool true))
  | "rw" => .ok mount
  | "noexec" => .ok (mount.insert "noexec" (.bool true))
  | "nosuid" => .ok (mount.insert "nosuid" (.bool true))
  | "nodev" => .ok (mount.insert "nodev" (.bool true))
  | _ =>
    .error (.argumentError (s!"unknown mount option {opt.inspect} in options: — use " ++
      "ro/readonly, rw, noexec, nosuid, or nodev (or the matching boolean keys)"))

/-- Translate the `options:` array form onto the flags. -/
def applyLegacyMountOptions (mount : Opts ω) (spec : Entries ω) : Except Exception (Opts ω) :=
  (either spec "options").array.foldlM applyMountOption mount

/-- Whether `mount["kind"]` is one of a mount with a root of its own on the host. -/
def hasHostRoot (mount : Opts ω) : Bool := ["bind", "named"].contains (index mount "kind").toS

/-- Range-check one mount owner ID. -/
def coerceMountOwnerId (value : Value ω) (label : String) : Except Exception ℤ :=
  match value with
  | .int n =>
    if 0 ≤ n ∧ n ≤ 4294967295 then .ok n
    else
      .error (.argumentError
        s!"{label} must be an Integer between 0 and 4294967295 (got {value.inspect})")
  | _ =>
    .error (.argumentError
      s!"{label} must be an Integer between 0 and 4294967295 (got {value.inspect})")

/-- The message for an owner of a mount without a host root. -/
def ownerKindMessage (kind : String) : String :=
  "uid:/gid: (mount owner) only applies to bind/named mounts " ++
    s!"(got a {kind} mount), like stat_virtualization:/host_permissions:"

/-- The message for an owner without an overlay. -/
def ownerOffMessage : String :=
  "uid:/gid: (mount owner) cannot be combined with stat_virtualization: :off — " ++
    "`off` exposes literal host metadata, leaving no overlay to rewrite the owner in"

/-- `mount["stat_virtualization"] == "off"` -/
def statVirtualizationOff (mount : Opts ω) : Bool :=
  match mount.lookup "stat_virtualization" with
  | some (.str s) => s == "off"
  | _ => false

/-- Apply the fallback ownership of a mount. -/
def applyMountOwner (mount : Opts ω) (spec : Entries ω) : Except Exception (Opts ω) :=
  let uid := fetchOpt spec "uid"
  let gid := fetchOpt spec "gid"
  -- 0 is an owner like any other, so only `nil` counts as missing
  if uid.isNil && gid.isNil then .ok mount
  else if uid.isNil || gid.isNil then
    .error (.argumentError "mount uid: and gid: must be set together")
  else if !hasHostRoot mount then
    .error (.argumentError (ownerKindMessage (index mount "kind").toS))
  else if statVirtualizationOff mount then .error (.argumentError ownerOffMessage)
  else do
    let uid ← coerceMountOwnerId uid "uid:"
    let gid ← coerceMountOwnerId gid "gid:"
    return (mount.insert "override_uid" (.int uid)).insert "override_gid" (.int gid)

/-- The message for symbolic links of a mount without a host root. -/
def followKindMessage (kind : String) : String :=
  "follow_root_symlinks: only applies to bind/named mounts " ++
    s!"(got a {kind} mount); a {kind} mount has no host root to protect"

/-- Apply the opt-out of the protection of the mount root. -/
def applyFollow (mount : Opts ω) (spec : Entries ω) : Except Exception (Opts ω) :=
  let follow := fetchOpt spec "follow_root_symlinks"
  if follow.isNil then .ok mount
  else if !hasHostRoot mount then
    .error (.argumentError (followKindMessage (index mount "kind").toS))
  else .ok (mount.insert "follow_root_symlinks" (.bool follow.truthy))

/-- Apply the flags of a mount. -/
def applyMountFlags (mount : Opts ω) (spec : Entries ω) : Except Exception (Opts ω) := do
  let mount := setFlag mount "readonly" ((either spec "ro").truthy || (either spec "readonly").truthy)
  let mount := setFlag mount "noexec" (either spec "noexec").truthy
  let mount := setFlag mount "nosuid" (either spec "nosuid").truthy
  let mount := setFlag mount "nodev" (either spec "nodev").truthy
  let mount ← applyLegacyMountOptions mount spec
  let mount := insertSome mount "stat_virtualization" (strIf (either spec "stat_virtualization"))
  let mount := insertSome mount "host_permissions" (strIf (either spec "host_permissions"))
  let mount ← applyFollow mount spec
  applyMountOwner mount spec

/-- Normalize one entry of `volumes:`. -/
def normalizeVolume (guest spec : Value ω) : Except Exception (Opts ω) :=
  let mount : Opts ω := AList.singleton "guest" (.str guest.toS)
  match spec with
  | .str source => .ok ((mount.insert "kind" (.str "bind")).insert "source" (.str source))
  | .hash spec => do
    let mount ← applyMountKind mount spec guest
    applyMountFlags mount spec
  | _ =>
    .error (.argumentError s!"invalid volume spec for {guest.inspect}: {spec.inspect}")

/-- Normalize `volumes:`. -/
def normalizeVolumes (volumes : Entries ω) : Except Exception (List (Opts ω)) :=
  volumes.mapM fun e => normalizeVolume e.1 e.2

/-- The volumes of `build_builder`: the guest path of each mount, with the calls on its builder. -/
def buildVolumes (parseFormat : String → Option DiskImageFormat) (hostPaths : HostPaths)
    (process : Process) (opts : RHash ω) : Except Exception (List (String × List MountCall)) := do
  let mounts ← optHashVec opts "volumes"
  mounts.mapM fun m => do
    let spec ← parseMount parseFormat hostPaths process m
    return (spec.guest, spec.apply)

/-! ## What a spec asks for -/

/-- The kinds of a mount. -/
inductive MountKind where
  | bind
  | named
  | tmpfs
  | disk
deriving DecidableEq

/-- The name of a kind. -/
def MountKind.name : MountKind → String
  | .bind => "bind"
  | .named => "named"
  | .tmpfs => "tmpfs"
  | .disk => "disk"

/-- Whether the mount has a root of its own on the host. -/
def MountKind.rooted : MountKind → Bool
  | .bind | .named => true
  | .tmpfs | .disk => false

/-- The kind that a spec names: the first one, in this order. -/
def kindGiven (spec : Entries ω) : Option MountKind :=
  if (either spec "bind").truthy then some .bind
  else if (either spec "named").truthy then some .named
  else if (either spec "tmpfs").truthy then some .tmpfs
  else if (either spec "disk").truthy then some .disk
  else none

/-- The value that a kind is given with. -/
def MountKind.source (spec : Entries ω) : MountKind → Option (Value ω)
  | .bind => some (either spec "bind")
  | .named => some (either spec "named")
  | .tmpfs => none
  | .disk => some (either spec "disk")

/-- The tokens of the `options:` form. -/
def optionTokens : List String := ["ro", "readonly", "rw", "noexec", "nosuid", "nodev"]

/-- The flag that a token sets. -/
def flagOf : String → Option String
  | "ro" | "readonly" => some "readonly"
  | "noexec" => some "noexec"
  | "nosuid" => some "nosuid"
  | "nodev" => some "nodev"
  | _ => none

/-- The keys of a spec that set a flag. -/
def spellings (flag : String) : List String := if flag = "readonly" then ["ro", "readonly"] else [flag]

/-- Whether a spec asks for a flag, by a key or by a token. -/
def asked (spec : Entries ω) (flag : String) : Bool :=
  ((spellings flag).any fun key => (either spec key).truthy) ||
    (either spec "options").array.any fun opt => flagOf opt.toS == some flag

/-- A value that must be an integer when it is given. -/
def IntegerIfGiven (v : Value ω) : Prop := v.truthy = true → ∃ n, integer v = .ok n

/-- An ID in the range of `u32`. -/
def OwnerId (v : Value ω) (id : UInt32) : Prop := v = .int id.toNat

/-- The fallback ownership that a spec may ask for. -/
def OwnerAccepted (spec : Entries ω) (kind : MountKind) : Prop :=
  (fetchOpt spec "uid").isNil = true ∧ (fetchOpt spec "gid").isNil = true ∨
    (∃ uid gid, OwnerId (fetchOpt spec "uid") uid ∧ OwnerId (fetchOpt spec "gid") gid) ∧
      kind.rooted = true ∧ strIf (either spec "stat_virtualization") ≠ some (.str "off")

/-- The spec of a mount that the Ruby layer accepts. -/
structure Accepted (spec : Entries ω) (kind : MountKind) : Prop where
  found : kindGiven spec = some kind
  sizeMib : IntegerIfGiven (either spec "size_mib")
  quotaMib : IntegerIfGiven (either spec "quota_mib")
  options : ∀ opt ∈ (either spec "options").array, opt.toS ∈ optionTokens
  follow : (fetchOpt spec "follow_root_symlinks").isNil = true ∨ kind.rooted = true
  owner : OwnerAccepted spec kind

/-! ## The steps of the normalization -/

open AList

section Steps

variable {mount mount' : Opts ω} {spec : Entries ω}

/-- A size that is taken is an Integer, and written under its key. -/
theorem applyMountInteger_eq_ok {key : String} (h : applyMountInteger mount spec key = .ok mount') :
    IntegerIfGiven (either spec key) ∧
      Adds (atKey key (integerIf (either spec key))) mount mount' := by
  unfold applyMountInteger at h
  by_cases htruthy : (either spec key).truthy = true
  · simp only [htruthy, if_true] at h
    obtain ⟨n, hn, rfl⟩ := Except.map_eq_ok_iff.mp h
    refine ⟨fun _ => ⟨n, hn⟩, ?_⟩
    rw [integerIf, if_pos htruthy, hn]
    exact adds_insert mount key _
  · simp only [htruthy, Bool.false_eq_true, if_false] at h
    obtain rfl := Except.ok.inj h
    refine ⟨fun hgiven => absurd hgiven htruthy, ?_⟩
    rw [integerIf, if_neg htruthy]
    intro k
    simp [atKey]

/-- An Integer is taken. -/
theorem exists_applyMountInteger (mount : Opts ω) {key : String}
    (h : IntegerIfGiven (either spec key)) :
    ∃ mount', applyMountInteger mount spec key = .ok mount' := by
  unfold applyMountInteger
  by_cases htruthy : (either spec key).truthy = true
  · obtain ⟨n, hn⟩ := h htruthy
    simp only [htruthy, if_true, hn]
    exact ⟨_, rfl⟩
  · simp only [htruthy, Bool.false_eq_true, if_false]
    exact ⟨_, rfl⟩

/-- The keys that the kind of a mount sets. -/
def kindKeys (spec : Entries ω) (kind : MountKind) (key : String) : Option (Value ω) :=
  (atKey "format" (if kind = .disk then strIf (either spec "format") else none) key).or
    ((atKey "source" ((kind.source spec).map fun v => .str v.toS) key).or
      (atKey "kind" (some (.str kind.name)) key))

omit [Numeric ω] in
/-- The first of four keys that is given makes the kind. -/
theorem applyMountSource_eq_ok {guest : Value ω}
    (h : applyMountSource mount spec guest = .ok mount') :
    ∃ kind, kindGiven spec = some kind ∧ Adds (kindKeys spec kind) mount mount' := by
  -- Every kind but `disk` writes its name and its source and nothing else.
  have hsource : ∀ kind v, v ∈ MountKind.source spec kind → kind ≠ .disk →
      Adds (kindKeys spec kind) mount
        ((mount.insert "kind" (.str kind.name)).insert "source" (.str v.toS)) := by
    intro kind v hv hdisk
    have hadds := (adds_insert mount "kind" (.str kind.name)).trans
      (adds_insert _ "source" (.str v.toS))
    intro key
    rw [hadds key, kindKeys, if_neg hdisk, Option.mem_def.mp hv]
    simp [atKey]
  unfold applyMountSource at h
  unfold kindGiven
  -- The keys are looked at in the order of the source, and the first one counts.
  by_cases hbind : (either spec "bind").truthy = true
  · simp only [hbind, if_true] at h ⊢
    obtain rfl := Except.ok.inj h
    exact ⟨.bind, rfl, hsource .bind _ rfl (by simp)⟩
  · simp only [hbind, Bool.false_eq_true, if_false] at h ⊢
    by_cases hnamed : (either spec "named").truthy = true
    · simp only [hnamed, if_true] at h ⊢
      obtain rfl := Except.ok.inj h
      exact ⟨.named, rfl, hsource .named _ rfl (by simp)⟩
    · simp only [hnamed, Bool.false_eq_true, if_false] at h ⊢
      by_cases htmpfs : (either spec "tmpfs").truthy = true
      · simp only [htmpfs, if_true] at h ⊢
        obtain rfl := Except.ok.inj h
        refine ⟨.tmpfs, rfl, ?_⟩
        intro key
        rw [adds_insert mount "kind" _ key]
        simp [kindKeys, MountKind.source, MountKind.name, atKey]
      · simp only [htmpfs, Bool.false_eq_true, if_false] at h ⊢
        by_cases hdisk : (either spec "disk").truthy = true
        · simp only [hdisk, if_true] at h ⊢
          obtain rfl := Except.ok.inj h
          refine ⟨.disk, rfl, ?_⟩
          exact ((adds_insert mount "kind" _).trans (adds_insert _ "source" _)).trans
            (adds_insertSome _ "format" _)
        · simp only [hdisk, Bool.false_eq_true, if_false] at h
          cases h

omit [Numeric ω] in
/-- A kind that is given is taken. -/
theorem exists_applyMountSource (mount : Opts ω) {kind : MountKind}
    (h : kindGiven spec = some kind) (guest : Value ω) :
    ∃ mount', applyMountSource mount spec guest = .ok mount' := by
  unfold kindGiven at h
  unfold applyMountSource
  by_cases hbind : (either spec "bind").truthy = true
  · simp [hbind]
  · by_cases hnamed : (either spec "named").truthy = true
    · simp [hbind, hnamed]
    · by_cases htmpfs : (either spec "tmpfs").truthy = true
      · simp [hbind, hnamed, htmpfs]
      · by_cases hdisk : (either spec "disk").truthy = true
        · simp [hbind, hnamed, htmpfs, hdisk]
        · simp [hbind, hnamed, htmpfs, hdisk] at h

/-- Set a flag, if a token names one. -/
def setFlagOf (mount : Opts ω) (flag : Option String) : Opts ω :=
  match flag with
  | some key => mount.insert key (.bool true)
  | none => mount

omit [Numeric ω] in
/-- A token sets its flag, when it is one of those that are known. -/
theorem applyMountOption_eq_ok_iff {opt : Value ω} :
    applyMountOption mount opt = .ok mount' ↔
      opt.toS ∈ optionTokens ∧ mount' = setFlagOf mount (flagOf opt.toS) := by
  unfold applyMountOption flagOf
  generalize opt.toS = token
  split <;> simp_all [optionTokens, setFlagOf, eq_comm]

omit [Methods ω] [Numeric ω] in
/-- A token sets its own flag and no other key. -/
theorem adds_setFlagOf (mount : Opts ω) (flag : Option String) :
    Adds (fun key => if flag = some key then some (.bool true) else none) mount
      (setFlagOf mount flag) := by
  cases flag with
  | none =>
    intro key
    simp [setFlagOf]
  | some flag =>
    intro key
    rw [setFlagOf, adds_insert mount flag _ key]
    simp [atKey, eq_comm]

omit [Numeric ω] in
/-- The tokens, from the first to the last. -/
theorem foldlM_applyMountOption_eq_ok {opts : List (Value ω)}
    (h : opts.foldlM applyMountOption mount = .ok mount') :
    (∀ opt ∈ opts, opt.toS ∈ optionTokens) ∧
      Adds (fun key => if opts.any fun opt => flagOf opt.toS == some key then some (.bool true)
        else none) mount mount' := by
  induction opts generalizing mount with
  | nil =>
    obtain rfl := Except.ok.inj h
    exact ⟨by simp, adds_nothing mount⟩
  | cons opt opts ih =>
    rw [List.foldlM_cons] at h
    obtain ⟨mid, hopt, hrest⟩ := Except.bind_eq_ok_iff.mp h
    obtain ⟨htoken, rfl⟩ := applyMountOption_eq_ok_iff.mp hopt
    obtain ⟨hknown, hadds⟩ := ih hrest
    refine ⟨List.forall_mem_cons.mpr ⟨htoken, hknown⟩, ?_⟩
    intro key
    rw [(adds_setFlagOf mount _).trans hadds key]
    simp only [List.any_cons]
    by_cases hfirst : flagOf opt.toS = some key
    · by_cases hlater : (opts.any fun opt => flagOf opt.toS == some key) = true <;>
        simp [hfirst, hlater]
    · simp [hfirst]

omit [Numeric ω] in
/-- Known tokens are taken. -/
theorem exists_foldlM_applyMountOption {opts : List (Value ω)} (mount : Opts ω)
    (h : ∀ opt ∈ opts, opt.toS ∈ optionTokens) :
    ∃ mount', opts.foldlM applyMountOption mount = .ok mount' := by
  induction opts generalizing mount with
  | nil => exact ⟨mount, rfl⟩
  | cons opt opts ih =>
    obtain ⟨hknown, hrest⟩ := List.forall_mem_cons.mp h
    rw [List.foldlM_cons, applyMountOption_eq_ok_iff.mpr ⟨hknown, rfl⟩]
    exact ih _ hrest

section Kind

variable {kind : MountKind} (hkind : mount.lookup "kind" = some (.str kind.name))

include hkind

omit [Numeric ω] in
/-- Bind and named mounts have a root on the host. -/
theorem hasHostRoot_eq : hasHostRoot mount = kind.rooted := by
  rw [hasHostRoot, index, hkind, Option.getD_some]
  cases kind <;> rfl

omit [Numeric ω] in
/-- Symbolic links are followed or not where there is a host root. -/
theorem applyFollow_eq_ok (h : applyFollow mount spec = .ok mount') :
    ((fetchOpt spec "follow_root_symlinks").isNil = true ∨ kind.rooted = true) ∧
      Adds (atKey "follow_root_symlinks" (unlessNil (fetchOpt spec "follow_root_symlinks")
        (.bool (fetchOpt spec "follow_root_symlinks").truthy))) mount mount' := by
  unfold applyFollow at h
  by_cases hnil : (fetchOpt spec "follow_root_symlinks").isNil = true
  · simp only [hnil, if_true] at h
    obtain rfl := Except.ok.inj h
    refine ⟨Or.inl hnil, ?_⟩
    rw [unlessNil, if_pos hnil]
    intro key
    simp [atKey]
  · cases hroot : kind.rooted with
    | false =>
      simp only [hnil, Bool.false_eq_true, if_false, hasHostRoot_eq hkind, hroot, Bool.not_false,
        if_true] at h
      cases h
    | true =>
      simp only [hnil, Bool.false_eq_true, if_false, hasHostRoot_eq hkind, hroot,
        Bool.not_true] at h
      obtain rfl := Except.ok.inj h
      refine ⟨Or.inr rfl, ?_⟩
      rw [unlessNil, if_neg hnil]
      exact adds_insert mount _ _

omit [Numeric ω] in
/-- Where there is a host root, the setting is taken. -/
theorem exists_applyFollow
    (h : (fetchOpt spec "follow_root_symlinks").isNil = true ∨ kind.rooted = true) :
    ∃ mount', applyFollow mount spec = .ok mount' := by
  unfold applyFollow
  by_cases hnil : (fetchOpt spec "follow_root_symlinks").isNil = true
  · simp [hnil]
  · simp [hnil, hasHostRoot_eq hkind, h.resolve_left hnil]

omit hkind [Numeric ω] in
/-- An owner id is an Integer of 32 bits. -/
theorem coerceMountOwnerId_eq_ok_iff {value : Value ω} {label : String} {n : ℤ} :
    coerceMountOwnerId value label = .ok n ↔ ∃ id, OwnerId value id ∧ n = id.toNat := by
  constructor
  · intro h
    cases value with
    | int m =>
      by_cases hm : 0 ≤ m ∧ m ≤ 4294967295
      · rw [coerceMountOwnerId, if_pos hm] at h
        obtain rfl := Except.ok.inj h
        have hid : (UInt32.ofNat m.toNat).toNat = m.toNat :=
          UInt32.toNat_ofNat_of_lt' (by change m.toNat < 2 ^ 32; omega)
        refine ⟨UInt32.ofNat m.toNat, ?_, ?_⟩
        · rw [OwnerId, hid, Int.toNat_of_nonneg hm.1]
        · rw [hid, Int.toNat_of_nonneg hm.1]
      · rw [coerceMountOwnerId, if_neg hm] at h
        cases h
    | nil | bool | str | sym | arr | hash | obj => cases h
  · rintro ⟨id, hid, rfl⟩
    have hlt := id.toNat_lt
    rw [hid, coerceMountOwnerId, if_pos (by omega)]

omit hkind [Methods ω] [Numeric ω] in
/-- An owner id is given. -/
theorem isNil_of_ownerId {v : Value ω} {id : UInt32} (h : OwnerId v id) : v.isNil = false := by
  rw [h]
  rfl

omit hkind [Methods ω] [Numeric ω] in
/-- The overlay is switched off by the name `off`. -/
theorem statVirtualizationOff_iff :
    statVirtualizationOff mount = true ↔ mount.lookup "stat_virtualization" = some (.str "off") := by
  unfold statVirtualizationOff
  cases mount.lookup "stat_virtualization" with
  | none => simp
  | some v => cases v <;> simp

/-- The keys of an owner. -/
def ownerKeys (spec : Entries ω) (key : String) : Option (Value ω) :=
  (atKey "override_gid" (unlessNil (fetchOpt spec "gid") (fetchOpt spec "gid")) key).or
    (atKey "override_uid" (unlessNil (fetchOpt spec "uid") (fetchOpt spec "uid")) key)

variable (hstat : mount.lookup "stat_virtualization" = strIf (either spec "stat_virtualization"))

include hstat

omit [Numeric ω] in
/-- An owner that is taken is acceptable, and both ids are written. -/
theorem applyMountOwner_eq_ok (h : applyMountOwner mount spec = .ok mount') :
    OwnerAccepted spec kind ∧ Adds (ownerKeys spec) mount mount' := by
  unfold applyMountOwner at h
  cases huid : (fetchOpt spec "uid").isNil with
  | true =>
    cases hgid : (fetchOpt spec "gid").isNil with
    | true =>
      simp only [huid, hgid, Bool.and_self, if_true] at h
      obtain rfl := Except.ok.inj h
      refine ⟨Or.inl ⟨huid, hgid⟩, ?_⟩
      intro key
      simp [ownerKeys, unlessNil, huid, hgid, atKey]
    | false => simp [huid, hgid] at h
  | false =>
    cases hgid : (fetchOpt spec "gid").isNil with
    | true => simp [huid, hgid] at h
    | false =>
      cases hroot : kind.rooted with
      | false => simp [huid, hgid, hasHostRoot_eq hkind, hroot] at h
      | true =>
        by_cases hoff : statVirtualizationOff mount = true
        · simp [huid, hgid, hasHostRoot_eq hkind, hroot, hoff] at h
        · simp only [huid, hgid, hasHostRoot_eq hkind, hroot, hoff, Bool.and_self, Bool.or_self,
            Bool.not_true, Bool.false_eq_true, if_false] at h
          obtain ⟨uid, hu, h⟩ := Except.bind_eq_ok_iff.mp h
          obtain ⟨gid, hg, h⟩ := Except.bind_eq_ok_iff.mp h
          obtain rfl := Except.ok.inj h
          obtain ⟨uid, huidValue, rfl⟩ := coerceMountOwnerId_eq_ok_iff.mp hu
          obtain ⟨gid, hgidValue, rfl⟩ := coerceMountOwnerId_eq_ok_iff.mp hg
          -- The policy that the mount holds is the one that the spec names.
          rw [statVirtualizationOff_iff, hstat] at hoff
          refine ⟨Or.inr ⟨⟨uid, gid, huidValue, hgidValue⟩, hroot, hoff⟩, ?_⟩
          intro key
          rw [((adds_insert mount "override_uid" _).trans (adds_insert _ "override_gid" _)) key,
            ownerKeys, unlessNil, unlessNil, huid, hgid, huidValue, hgidValue]
          rfl

omit [Numeric ω] in
/-- An acceptable owner is taken. -/
theorem exists_applyMountOwner (h : OwnerAccepted spec kind) :
    ∃ mount', applyMountOwner mount spec = .ok mount' := by
  unfold applyMountOwner
  rcases h with ⟨huid, hgid⟩ | ⟨⟨uid, gid, hu, hg⟩, hroot, hoff⟩
  · simp [huid, hgid]
  · rw [← hstat, ne_eq, ← statVirtualizationOff_iff] at hoff
    simp only [isNil_of_ownerId hu, isNil_of_ownerId hg, hasHostRoot_eq hkind, hroot, hoff,
      Bool.and_self, Bool.or_self, Bool.not_true, Bool.false_eq_true, if_false,
      coerceMountOwnerId_eq_ok_iff.mpr ⟨uid, hu, rfl⟩,
      coerceMountOwnerId_eq_ok_iff.mpr ⟨gid, hg, rfl⟩]
    exact ⟨_, rfl⟩

end Kind

end Steps

/-! ## The normalization as a whole -/

/-- The keys that `applyMountKind` sets. -/
def sourceKeys (spec : Entries ω) (kind : MountKind) (key : String) : Option (Value ω) :=
  (atKey "quota_mib" (integerIf (either spec "quota_mib")) key).or
    ((atKey "fstype" (strIf (either spec "fstype")) key).or
      ((atKey "size_mib" (integerIf (either spec "size_mib")) key).or (kindKeys spec kind key)))

/-- The keys that `applyMountFlags` sets for the flags. -/
def flagKeys (spec : Entries ω) (key : String) : Option (Value ω) :=
  let whenGiven (given : Bool) : Option (Value ω) := if given then some (.bool true) else none
  (whenGiven ((either spec "options").array.any fun opt => flagOf opt.toS == some key)).or
    ((atKey "nodev" (whenGiven (either spec "nodev").truthy) key).or
      ((atKey "nosuid" (whenGiven (either spec "nosuid").truthy) key).or
        ((atKey "noexec" (whenGiven (either spec "noexec").truthy) key).or
          (atKey "readonly"
            (whenGiven ((either spec "ro").truthy || (either spec "readonly").truthy)) key))))

/-- The keys that `applyMountFlags` sets for the policies. -/
def policyKeys (spec : Entries ω) (key : String) : Option (Value ω) :=
  (atKey "host_permissions" (strIf (either spec "host_permissions")) key).or
    ((atKey "stat_virtualization" (strIf (either spec "stat_virtualization")) key).or
      (flagKeys spec key))

/-- The key of `follow_root_symlinks:`. -/
def followKeys (spec : Entries ω) (key : String) : Option (Value ω) :=
  atKey "follow_root_symlinks" (unlessNil (fetchOpt spec "follow_root_symlinks")
    (.bool (fetchOpt spec "follow_root_symlinks").truthy)) key

/-- What is written for the kind and the sizes. -/
theorem applyMountKind_eq_ok {mount mount' : Opts ω} {spec : Entries ω} {guest : Value ω}
    (h : applyMountKind mount spec guest = .ok mount') :
    ∃ kind, kindGiven spec = some kind ∧ IntegerIfGiven (either spec "size_mib") ∧
      IntegerIfGiven (either spec "quota_mib") ∧ Adds (sourceKeys spec kind) mount mount' := by
  unfold applyMountKind at h
  obtain ⟨m₁, hsource, h⟩ := Except.bind_eq_ok_iff.mp h
  obtain ⟨m₂, hsize, hquota⟩ := Except.bind_eq_ok_iff.mp h
  obtain ⟨kind, hfound, hkindKeys⟩ := applyMountSource_eq_ok hsource
  obtain ⟨hsizeInteger, hsizeKey⟩ := applyMountInteger_eq_ok hsize
  obtain ⟨hquotaInteger, hquotaKey⟩ := applyMountInteger_eq_ok hquota
  exact ⟨kind, hfound, hsizeInteger, hquotaInteger,
    ((hkindKeys.trans hsizeKey).trans (adds_insertSome m₂ _ _)).trans hquotaKey⟩

/-- An acceptable kind is taken, with its sizes. -/
theorem exists_applyMountKind {spec : Entries ω} {kind : MountKind} (mount : Opts ω)
    (guest : Value ω) (h : Accepted spec kind) :
    ∃ mount', applyMountKind mount spec guest = .ok mount' := by
  obtain ⟨m₁, hsource⟩ := exists_applyMountSource mount h.found guest
  obtain ⟨m₂, hsize⟩ := exists_applyMountInteger m₁ h.sizeMib
  obtain ⟨m₃, hquota⟩ := exists_applyMountInteger
    (insertSome m₂ "fstype" (strIf (either spec "fstype"))) h.quotaMib
  refine ⟨m₃, ?_⟩
  unfold applyMountKind
  exact Except.bind_eq_ok_iff.mpr
    ⟨m₁, hsource, Except.bind_eq_ok_iff.mpr ⟨m₂, hsize, hquota⟩⟩

omit [Numeric ω] in
/-- No flag is one of the other keys. -/
theorem flagKeys_eq_none {spec : Entries ω} {key : String}
    (hkey : key ∉ ["readonly", "noexec", "nosuid", "nodev"]) : flagKeys spec key = none := by
  have hflag : ∀ token, flagOf token ≠ some key := by
    intro token
    unfold flagOf
    split <;> simp_all [eq_comm]
  have hany : ((either spec "options").array.any fun opt => flagOf opt.toS == some key) = false := by
    simp [hflag]
  simp only [List.mem_cons, List.not_mem_nil, or_false, not_or] at hkey
  simp [flagKeys, hany, atKey, hkey]

section Flags

variable {mount mount' : Opts ω} {spec : Entries ω} {kind : MountKind}

/-- The flags that are given by a key. -/
def flagged (mount : Opts ω) (spec : Entries ω) : Opts ω :=
  setFlag (setFlag (setFlag (setFlag mount "readonly"
    ((either spec "ro").truthy || (either spec "readonly").truthy))
    "noexec" (either spec "noexec").truthy)
    "nosuid" (either spec "nosuid").truthy)
    "nodev" (either spec "nodev").truthy

/-- The policies that are given. -/
def withPolicies (mount : Opts ω) (spec : Entries ω) : Opts ω :=
  insertSome (insertSome mount "stat_virtualization" (strIf (either spec "stat_virtualization")))
    "host_permissions" (strIf (either spec "host_permissions"))

omit [Numeric ω] in
/-- Flags, policies, symbolic links and the owner come one after another. -/
theorem applyMountFlags_eq_ok_iff :
    applyMountFlags mount spec = .ok mount' ↔
      ∃ m₁, applyLegacyMountOptions (flagged mount spec) spec = .ok m₁ ∧
        ∃ m₂, applyFollow (withPolicies m₁ spec) spec = .ok m₂ ∧
          applyMountOwner m₂ spec = .ok mount' := by
  unfold applyMountFlags
  simp only [Except.bind_eq_ok_iff]
  rfl

omit [Numeric ω] in
/-- What is written for the flags and policies. -/
theorem adds_policyKeys {m₁ : Opts ω}
    (h : applyLegacyMountOptions (flagged mount spec) spec = .ok m₁) :
    (∀ opt ∈ (either spec "options").array, opt.toS ∈ optionTokens) ∧
      Adds (policyKeys spec) mount (withPolicies m₁ spec) := by
  obtain ⟨hknown, hoptionKeys⟩ := foldlM_applyMountOption_eq_ok h
  have hflags : Adds (flagKeys spec) mount m₁ :=
    ((((adds_setFlag mount "readonly" _).trans (adds_setFlag _ "noexec" _)).trans
      (adds_setFlag _ "nosuid" _)).trans (adds_setFlag _ "nodev" _)).trans hoptionKeys
  exact ⟨hknown, (hflags.trans (adds_insertSome m₁ _ _)).trans (adds_insertSome _ _ _)⟩

omit [Numeric ω] in
/-- What `applyFollow` and `applyMountOwner` read again. -/
theorem lookup_of_adds_policyKeys {m : Opts ω} (h : Adds (policyKeys spec) mount m)
    (hkind : mount.lookup "kind" = some (.str kind.name))
    (hstat : mount.lookup "stat_virtualization" = none) :
    m.lookup "kind" = some (.str kind.name) ∧
      m.lookup "stat_virtualization" = strIf (either spec "stat_virtualization") := by
  constructor
  · rw [h "kind", policyKeys, flagKeys_eq_none (by decide), hkind]
    rfl
  · rw [h "stat_virtualization", policyKeys, flagKeys_eq_none (by decide), hstat]
    simp [atKey]

variable (hkind : mount.lookup "kind" = some (.str kind.name))
  (hstat : mount.lookup "stat_virtualization" = none)

include hkind hstat

omit [Numeric ω] in
/-- What is written after the kind. -/
theorem applyMountFlags_eq_ok (h : applyMountFlags mount spec = .ok mount') :
    (∀ opt ∈ (either spec "options").array, opt.toS ∈ optionTokens) ∧
      ((fetchOpt spec "follow_root_symlinks").isNil = true ∨ kind.rooted = true) ∧
      OwnerAccepted spec kind ∧
      Adds (fun key => (ownerKeys spec key).or ((followKeys spec key).or (policyKeys spec key)))
        mount mount' := by
  obtain ⟨m₁, hoptions, m₂, hfollow, howner⟩ := applyMountFlags_eq_ok_iff.mp h
  obtain ⟨hknown, hpolicy⟩ := adds_policyKeys hoptions
  obtain ⟨hkind₁, hstat₁⟩ := lookup_of_adds_policyKeys hpolicy hkind hstat
  obtain ⟨hrooted, hfollowKey⟩ := applyFollow_eq_ok hkind₁ hfollow
  have hkind₂ : m₂.lookup "kind" = some (.str kind.name) := (hfollowKey "kind").trans hkind₁
  have hstat₂ : m₂.lookup "stat_virtualization" = strIf (either spec "stat_virtualization") :=
    (hfollowKey "stat_virtualization").trans hstat₁
  obtain ⟨haccepted, hownerKey⟩ := applyMountOwner_eq_ok hkind₂ hstat₂ howner
  exact ⟨hknown, hrooted, haccepted, (hpolicy.trans hfollowKey).trans hownerKey⟩

omit [Numeric ω] in
/-- Acceptable settings are taken. -/
theorem exists_applyMountFlags
    (hknown : ∀ opt ∈ (either spec "options").array, opt.toS ∈ optionTokens)
    (hrooted : (fetchOpt spec "follow_root_symlinks").isNil = true ∨ kind.rooted = true)
    (haccepted : OwnerAccepted spec kind) : ∃ mount', applyMountFlags mount spec = .ok mount' := by
  obtain ⟨m₁, hoptions⟩ := exists_foldlM_applyMountOption (flagged mount spec) hknown
  obtain ⟨-, hpolicy⟩ := adds_policyKeys hoptions
  obtain ⟨hkind₁, hstat₁⟩ := lookup_of_adds_policyKeys hpolicy hkind hstat
  obtain ⟨m₂, hfollow⟩ := exists_applyFollow hkind₁ hrooted
  obtain ⟨-, hfollowKey⟩ := applyFollow_eq_ok hkind₁ hfollow
  obtain ⟨m₃, howner⟩ := exists_applyMountOwner ((hfollowKey "kind").trans hkind₁)
    ((hfollowKey "stat_virtualization").trans hstat₁) haccepted
  exact ⟨m₃, applyMountFlags_eq_ok_iff.mpr ⟨m₁, hoptions, m₂, hfollow, howner⟩⟩

end Flags

/-- The keys that are written for the spec of a mount. -/
def writtenKeys (guest : Value ω) (spec : Entries ω) (kind : MountKind) (key : String) :
    Option (Value ω) :=
  ((ownerKeys spec key).or ((followKeys spec key).or (policyKeys spec key))).or
    ((sourceKeys spec kind key).or (atKey "guest" (some (.str guest.toS)) key))

/-- The kind is there when the flags are written, and no policy yet. -/
theorem lookup_kind_of_sourceKeys {guest : Value ω} {spec : Entries ω} {kind : MountKind}
    {m : Opts ω} (h : Adds (sourceKeys spec kind) (AList.singleton "guest" (.str guest.toS)) m) :
    m.lookup "kind" = some (.str kind.name) ∧ m.lookup "stat_virtualization" = none := by
  constructor
  · rw [h "kind"]
    simp [sourceKeys, kindKeys, atKey]
  · rw [h "stat_virtualization"]
    simp [sourceKeys, kindKeys, atKey, AList.lookup_singleton]

/-- A Hash that is normalized is one of those that are accepted, and each key is written as it is
meant. -/
theorem lookup_of_normalizeVolume {guest : Value ω} {spec : Entries ω} {m : Opts ω}
    (h : normalizeVolume guest (.hash spec) = .ok m) :
    ∃ kind, Accepted spec kind ∧ ∀ key, m.lookup key = writtenKeys guest spec kind key := by
  unfold normalizeVolume at h
  obtain ⟨m₁, hsource, hflags⟩ := Except.bind_eq_ok_iff.mp h
  obtain ⟨kind, hfound, hsize, hquota, hsourceKeys⟩ := applyMountKind_eq_ok hsource
  obtain ⟨hkind, hstat⟩ := lookup_kind_of_sourceKeys hsourceKeys
  obtain ⟨hknown, hrooted, howner, hflagKeys⟩ := applyMountFlags_eq_ok hkind hstat hflags
  refine ⟨kind, ⟨hfound, hsize, hquota, hknown, hrooted, howner⟩, ?_⟩
  intro key
  rw [hflagKeys key, hsourceKeys key, writtenKeys, AList.lookup_singleton, atKey]

/-- An acceptable spec is taken. -/
theorem exists_normalizeVolume {spec : Entries ω} {kind : MountKind} (guest : Value ω)
    (h : Accepted spec kind) : ∃ m, normalizeVolume guest (.hash spec) = .ok m := by
  obtain ⟨m₁, hm₁⟩ := exists_applyMountKind (AList.singleton "guest" (.str guest.toS)) guest h
  obtain ⟨kind', hfound, -, -, hsourceKeys⟩ := applyMountKind_eq_ok hm₁
  obtain rfl : kind = kind' := Option.some.inj (h.found.symm.trans hfound)
  obtain ⟨hkind, hstat⟩ := lookup_kind_of_sourceKeys hsourceKeys
  obtain ⟨m, hm⟩ := exists_applyMountFlags hkind hstat h.options h.follow h.owner
  exact ⟨m, by rw [normalizeVolume, hm₁]; exact hm⟩

/-! ## What the native layer reads of it -/

section Reading

variable {m : Opts ω} {key : String} {v : Value ω}

/-- Where a size is given, it is that many MiB. -/
def MibGiven (spec : Entries ω) (key : String) (mib : UInt32) : Prop :=
  (either spec key).truthy = true ∧ integer (either spec key) = .ok (mib.toNat : ℤ)

/-- A size is read if it fits 32 bits. -/
theorem optU32_integerIf {spec : Entries ω} (hlookup : m.lookup key = integerIf (either spec key))
    {o : Option UInt32} (h : optU32 (strEntries m) key = .ok o) (mib : UInt32) :
    o = some mib ↔ MibGiven spec key mib := by
  rw [opt_eq_ok_some_iff hlookup ?_ h mib, MibGiven, integerIf]
  · by_cases htruthy : (either spec key).truthy = true
    · rw [if_pos htruthy]
      cases hint : integer (either spec key) with
      | error e => simp [Except.toOption]
      | ok n => simp [Except.toOption, tryU32_int_eq_ok_iff, htruthy]
    · simp [htruthy]
  · intro w hw
    unfold integerIf at hw
    split at hw
    · obtain ⟨n, -, rfl⟩ := Option.map_eq_some_iff.mp hw
      rfl
    · cases hw

omit [Methods ω] in
/-- An owner id is read as it is. -/
theorem optU32_ownerId (hlookup : m.lookup key = unlessNil v v)
    (hv : v.isNil = true ∨ ∃ id, OwnerId v id) {o : Option UInt32}
    (h : optU32 (strEntries m) key = .ok o) (id : UInt32) : o = some id ↔ OwnerId v id := by
  rw [opt_eq_ok_some_iff hlookup ?_ h id, unlessNil]
  · rcases hv with hnil | ⟨id', hid'⟩
    · rw [if_pos hnil]
      simp only [reduceCtorEq, false_and, exists_false, false_iff]
      intro hid
      rw [isNil_of_ownerId hid] at hnil
      cases hnil
    · rw [isNil_of_ownerId hid', OwnerId, hid']
      simp [tryU32_int_eq_ok_iff]
  · intro w hw
    unfold unlessNil at hw
    split at hw
    · cases hw
    · rename_i hnil
      obtain rfl := Option.some.inj hw
      exact Bool.eq_false_iff.mpr hnil

end Reading

/-- What each key of the mount of a Hash holds. -/
structure Written (guest : Value ω) (spec : Entries ω) (kind : MountKind) (m : Opts ω) : Prop where
  guestPath : m.lookup "guest" = some (.str guest.toS)
  kindName : m.lookup "kind" = some (.str kind.name)
  source : m.lookup "source" = (kind.source spec).map fun v => .str v.toS
  sizeMib : m.lookup "size_mib" = integerIf (either spec "size_mib")
  quotaMib : m.lookup "quota_mib" = integerIf (either spec "quota_mib")
  fstype : m.lookup "fstype" = strIf (either spec "fstype")
  flag : ∀ key ∈ ["readonly", "noexec", "nosuid", "nodev"],
    m.lookup key = if asked spec key then some (.bool true) else none
  format : m.lookup "format" = if kind = .disk then strIf (either spec "format") else none
  statVirtualization :
    m.lookup "stat_virtualization" = strIf (either spec "stat_virtualization")
  hostPermissions : m.lookup "host_permissions" = strIf (either spec "host_permissions")
  overrideUid : m.lookup "override_uid" = unlessNil (fetchOpt spec "uid") (fetchOpt spec "uid")
  overrideGid : m.lookup "override_gid" = unlessNil (fetchOpt spec "gid") (fetchOpt spec "gid")
  follow : m.lookup "follow_root_symlinks" = unlessNil (fetchOpt spec "follow_root_symlinks")
    (.bool (fetchOpt spec "follow_root_symlinks").truthy)

omit [Numeric ω] in
/-- A flag is set if one of its spellings is. -/
theorem flagKeys_eq {spec : Entries ω} {key : String}
    (hkey : key ∈ ["readonly", "noexec", "nosuid", "nodev"]) :
    flagKeys spec key = if asked spec key then some (.bool true) else none := by
  have hor : ∀ (a b : Prop) [Decidable a] [Decidable b],
      ((if a then some (.bool true) else none : Option (Value ω)).or
        (if b then some (.bool true) else none)) = if b ∨ a then some (.bool true) else none := by
    intro a b _ _
    by_cases ha : a <;> by_cases hb : b <;> simp [ha, hb]
  simp only [List.mem_cons, List.not_mem_nil, or_false] at hkey
  rcases hkey with rfl | rfl | rfl | rfl <;>
    simp [flagKeys, asked, spellings, atKey, hor]

/-- The other keys are not written by the flags. -/
theorem writtenKeys_of_notMem (guest : Value ω) (spec : Entries ω) (kind : MountKind)
    {key : String} (hkey : key ∉ ["readonly", "noexec", "nosuid", "nodev"]) :
    writtenKeys guest spec kind key =
      ((ownerKeys spec key).or ((followKeys spec key).or
        ((atKey "host_permissions" (strIf (either spec "host_permissions")) key).or
          (atKey "stat_virtualization" (strIf (either spec "stat_virtualization")) key)))).or
        ((sourceKeys spec kind key).or (atKey "guest" (some (.str guest.toS)) key)) := by
  rw [writtenKeys, policyKeys, flagKeys_eq_none hkey, Option.or_none]

/-- Key by key. -/
theorem Written.of_lookup {guest : Value ω} {spec : Entries ω} {kind : MountKind} {m : Opts ω}
    (h : ∀ key, m.lookup key = writtenKeys guest spec kind key) : Written guest spec kind m := by
  constructor
  case flag =>
    intro key hkey
    rw [h, writtenKeys, policyKeys, flagKeys_eq hkey]
    simp only [List.mem_cons, List.not_mem_nil, or_false] at hkey
    rcases hkey with rfl | rfl | rfl | rfl <;>
      simp [ownerKeys, followKeys, sourceKeys, kindKeys, atKey]
  all_goals
    rw [h, writtenKeys_of_notMem _ _ _ (by decide)]
    simp [ownerKeys, followKeys, sourceKeys, kindKeys, atKey]

/-! ## What the core is told -/

/-- The name of a policy. -/
def statVirtualizationName : StatVirtualization → String
  | .strict => "strict"
  | .relaxed => "relaxed"
  | .off => "off"

/-- The name of a policy. -/
def hostPermissionsName : HostPermissions → String
  | .onlyOwner => "private"
  | .mirror => "mirror"

/-- A policy is read from its name. -/
theorem statVirtualizationFromStr_eq_ok_iff {s : String} {policy : StatVirtualization} :
    statVirtualizationFromStr s = .ok policy ↔ s = statVirtualizationName policy := by
  constructor
  · intro h
    unfold statVirtualizationFromStr at h
    split at h <;> cases h <;> rfl
  · rintro rfl
    cases policy <;> rfl

/-- So is this one. -/
theorem hostPermissionsFromStr_eq_ok_iff {s : String} {policy : HostPermissions} :
    hostPermissionsFromStr s = .ok policy ↔ s = hostPermissionsName policy := by
  constructor
  · intro h
    unfold hostPermissionsFromStr at h
    split at h <;> cases h <;> rfl
  · rintro rfl
    cases policy <;> rfl

section Told

variable (parseFormat : String → Option DiskImageFormat) (hostPaths : HostPaths) (process : Process)

/-- What the Hash of a mount asks of the builder of the mount. -/
def HashAsks (spec : Entries ω) : MountCall → Prop
  | .bind host => kindGiven spec = some .bind ∧
      hostPaths.pin process (either spec "bind").toS "bind mount host path" = .ok host
  | .disk host => kindGiven spec = some .disk ∧
      hostPaths.pin process (either spec "disk").toS "disk mount host path" = .ok host
  | .named name => kindGiven spec = some .named ∧ (either spec "named").toS = name
  | .tmpfs => kindGiven spec = some .tmpfs
  | .size mib => MibGiven spec "size_mib" mib
  | .quota mib => MibGiven spec "quota_mib" mib
  | .format format => kindGiven spec = some .disk ∧ (either spec "format").truthy = true ∧
      parseFormat (either spec "format").toS = some format
  | .fstype fstype => (either spec "fstype").truthy = true ∧ (either spec "fstype").toS = fstype
  | .readonly => asked spec "readonly" = true
  | .noexec => asked spec "noexec" = true
  | .nosuid => asked spec "nosuid" = true
  | .nodev => asked spec "nodev" = true
  | .statVirtualization policy => (either spec "stat_virtualization").truthy = true ∧
      (either spec "stat_virtualization").toS = statVirtualizationName policy
  | .hostPermissions policy => (either spec "host_permissions").truthy = true ∧
      (either spec "host_permissions").toS = hostPermissionsName policy
  | .owner uid gid => OwnerId (fetchOpt spec "uid") uid ∧ OwnerId (fetchOpt spec "gid") gid
  | .followRootSymlinks follow => (fetchOpt spec "follow_root_symlinks").isNil = false ∧
      (fetchOpt spec "follow_root_symlinks").truthy = follow

/-- What an entry of `volumes:` asks of the builder of the mount: a String is a bind mount of that
path. -/
def Asks (volume : Value ω) (call : MountCall) : Prop :=
  match volume with
  | .str source => ∃ host, hostPaths.pin process source "bind mount host path" = .ok host ∧
      call = .bind host
  | .hash spec => HashAsks parseFormat hostPaths process spec call
  | _ => False

end Told

/-- The field of a mount that a call is made for. -/
def Tells (spec : MountSpec) : MountCall → Prop
  | .bind host => spec.backing = .bind host
  | .disk host => spec.backing = .disk host
  | .named name => spec.backing = .named name
  | .tmpfs => spec.backing = .tmpfs
  | .size mib => spec.sizeMib = some mib
  | .quota mib => spec.quotaMib = some mib
  | .format format => spec.format = some format
  | .fstype fstype => spec.fstype = some fstype
  | .readonly => spec.readonly = true
  | .noexec => spec.noexec = true
  | .nosuid => spec.nosuid = true
  | .nodev => spec.nodev = true
  | .statVirtualization policy => spec.statVirt = some policy
  | .hostPermissions policy => spec.hostPerms = some policy
  | .owner uid gid => spec.overrideUid = some uid ∧ spec.overrideGid = some gid
  | .followRootSymlinks follow => spec.followRootSymlinks = some follow

/-- The owner is told if both ids are there. -/
theorem mem_ownerCalls {spec : MountSpec} {call : MountCall} :
    call ∈ spec.ownerCalls ↔
      ∃ uid gid, (spec.overrideUid = some uid ∧ spec.overrideGid = some gid) ∧
        call = .owner uid gid := by
  unfold MountSpec.ownerCalls
  cases spec.overrideUid with
  | none => simp
  | some uid =>
    cases spec.overrideGid with
    | none => simp
    | some gid => simp

/-- A flag makes its call. -/
theorem mem_callIf {b : Bool} {call call' : MountCall} :
    call ∈ callIf b call' ↔ b = true ∧ call = call' := by
  cases b <;> simp [callIf]

/-- A call is made if and only if its field says so. -/
theorem mem_apply_iff {spec : MountSpec} {call : MountCall} :
    call ∈ spec.apply ↔ Tells spec call := by
  have hbacking : call = spec.backing.call ↔ spec.backing.call = call := eq_comm
  cases call <;>
    simp [MountSpec.apply, mem_callIf, mem_ownerCalls, Tells, hbacking] <;>
    cases spec.backing <;> simp [MountBacking.call]

/-- The setters of the builder, in the order in which they are called. -/
def setter : MountCall → ℕ
  | .bind _ | .disk _ | .named _ | .tmpfs => 0
  | .size _ => 1
  | .quota _ => 2
  | .format _ => 3
  | .fstype _ => 4
  | .readonly => 5
  | .noexec => 6
  | .nosuid => 7
  | .nodev => 8
  | .statVirtualization _ => 9
  | .hostPermissions _ => 10
  | .owner _ _ => 11
  | .followRootSymlinks _ => 12

/-- A flag makes one call at most. -/
theorem sublist_setter_callIf (b : Bool) (call : MountCall) :
    ((callIf b call).map setter).Sublist [setter call] := by
  cases b with
  | false => exact List.nil_sublist _
  | true => exact List.Sublist.refl _

/-- An option makes one call at most. -/
theorem sublist_setter_toList {α : Type} (o : Option α) (call : α → MountCall) {n : ℕ}
    (h : ∀ a, setter (call a) = n) : ((o.map call).toList.map setter).Sublist [n] := by
  cases o with
  | none => exact List.nil_sublist _
  | some a =>
    rw [Option.map_some, Option.toList_some, List.map_singleton, h]

/-- An owner makes one call at most. -/
theorem sublist_setter_ownerCalls (spec : MountSpec) :
    (spec.ownerCalls.map setter).Sublist [11] := by
  unfold MountSpec.ownerCalls
  split
  · exact List.Sublist.refl _
  · exact List.nil_sublist _

/-- Each setter is called once at most, and the one of the backing first. -/
theorem setters_apply (spec : MountSpec) : (spec.apply.map setter).Pairwise (· < ·) := by
  have hbacking : [spec.backing.call].map setter = [0] := by
    cases spec.backing <;> rfl
  have hsublist : (spec.apply.map setter).Sublist
      ([0] ++ [1] ++ [2] ++ [3] ++ [4] ++ [5] ++ [6] ++ [7] ++ [8] ++ [9] ++ [10] ++ [11] ++
        [12]) := by
    simp only [MountSpec.apply, List.map_append, hbacking]
    repeat' apply List.Sublist.append
    case hl => exact List.Sublist.refl _
    all_goals
      first
      | exact sublist_setter_callIf _ _
      | exact sublist_setter_ownerCalls spec
      | exact sublist_setter_toList _ _ fun _ => rfl
  exact List.Pairwise.sublist hsublist (by decide)

/-- A mount, with the calls on its builder, for an entry of `volumes:`: exactly those that the entry
asks for, each setter once at most. -/
structure AsAsked (parseFormat : String → Option DiskImageFormat) (hostPaths : HostPaths)
    (process : Process) (volume : Value ω × Value ω) (mount : String × List MountCall) :
    Prop where
  guest : mount.1 = volume.1.toS
  calls : ∀ call, call ∈ mount.2 ↔ Asks parseFormat hostPaths process volume.2 call
  setters : (mount.2.map setter).Pairwise (· < ·)

section Main

variable {parseFormat : String → Option DiskImageFormat} {hostPaths : HostPaths} {process : Process}

/-- The backing of a mount is the one of its kind. -/
theorem tells_backing_iff {spec : Entries ω} {kind : MountKind} {read : MountSpec}
    (hfound : kindGiven spec = some kind)
    (h : mountBacking hostPaths process kind.name ((kind.source spec).map Value.toS) =
      .ok read.backing) {call : MountCall} (hcall : setter call = 0) :
    Tells read call ↔ HashAsks parseFormat hostPaths process spec call := by
  cases kind with
  | bind =>
    obtain ⟨host, hpin, hbacking⟩ := Except.map_eq_ok_iff.mp h
    cases call <;> simp [setter] at hcall <;> simp [Tells, HashAsks, hfound, hpin, ← hbacking]
  | named =>
    have hbacking : MountBacking.named (either spec "named").toS = read.backing := Except.ok.inj h
    cases call <;> simp [setter] at hcall <;> simp [Tells, HashAsks, hfound, ← hbacking]
  | tmpfs =>
    have hbacking : MountBacking.tmpfs = read.backing := Except.ok.inj h
    cases call <;> simp [setter] at hcall <;> simp [Tells, HashAsks, hfound, ← hbacking]
  | disk =>
    obtain ⟨host, hpin, hbacking⟩ := Except.map_eq_ok_iff.mp h
    cases call <;> simp [setter] at hcall <;> simp [Tells, HashAsks, hfound, hpin, ← hbacking]

/-- What is read of the mount of a Hash is what the Hash asks for. -/
theorem tells_iff {guest : Value ω} {spec : Entries ω} {kind : MountKind} {m : Opts ω}
    {read : MountSpec} {k : String} {source : Option String} (haccepted : Accepted spec kind)
    (hwritten : Written guest spec kind m)
    (hread : read.Of parseFormat hostPaths process (strEntries m) k source) (call : MountCall) :
    Tells read call ↔ HashAsks parseFormat hostPaths process spec call := by
  -- Each flag is written under its own key.
  have hflag : ∀ key ∈ ["readonly", "noexec", "nosuid", "nodev"], ∀ b,
      optBool (strEntries m) key = .ok b → (b = true ↔ asked spec key = true) := by
    intro key hkey b hb
    rw [Except.ok.inj (hb.symm.trans (optBool_setFlag (hwritten.flag key hkey)))]
  -- An accepted spec gives both ids or neither.
  have howner : ((fetchOpt spec "uid").isNil = true ∨ ∃ id, OwnerId (fetchOpt spec "uid") id) ∧
      ((fetchOpt spec "gid").isNil = true ∨ ∃ id, OwnerId (fetchOpt spec "gid") id) := by
    rcases haccepted.owner with ⟨huid, hgid⟩ | ⟨⟨uid, gid, huid, hgid⟩, -, -⟩
    · exact ⟨Or.inl huid, Or.inl hgid⟩
    · exact ⟨Or.inr ⟨uid, huid⟩, Or.inr ⟨gid, hgid⟩⟩
  have hbacking := hread.backing
  have hkind := (optString_map_str (s := some kind.name) hwritten.kindName).symm.trans hread.kind
  have hsource := (optString_map_str (s := (kind.source spec).map Value.toS) (by
    rw [hwritten.source, Option.map_map]
    rfl)).symm.trans hread.source
  rw [← Option.some.inj (Except.ok.inj hkind), ← Except.ok.inj hsource] at hbacking
  -- The format is written for a disk only.
  have hformat : ∀ format, read.format = some format ↔ kindGiven spec = some .disk ∧
      (either spec "format").truthy = true ∧ parseFormat (either spec "format").toS = some format := by
    intro format
    rw [haccepted.found, Option.some_inj, ← diskFormatFromStr_eq_ok_iff]
    by_cases hdisk : kind = .disk
    · have hlookup := hwritten.format
      rw [if_pos hdisk] at hlookup
      rw [optParsed_strIf hlookup hread.format, and_iff_right hdisk]
    · have hlookup := hwritten.format
      rw [if_neg hdisk] at hlookup
      have hnone : optParsed (diskFormatFromStr parseFormat) (strEntries m) "format" = .ok none := by
        rw [optParsed, optString, opt_eq_none hlookup]
        rfl
      simp [Except.ok.inj (hread.format.symm.trans hnone), hdisk]
  -- One setter after the other, each with the key that it reads.
  cases call with
  | bind => exact tells_backing_iff haccepted.found hbacking rfl
  | disk => exact tells_backing_iff haccepted.found hbacking rfl
  | named => exact tells_backing_iff haccepted.found hbacking rfl
  | tmpfs => exact tells_backing_iff haccepted.found hbacking rfl
  | size mib => exact optU32_integerIf hwritten.sizeMib hread.sizeMib mib
  | quota mib => exact optU32_integerIf hwritten.quotaMib hread.quotaMib mib
  | format format => exact hformat format
  | fstype fstype =>
    rw [Tells, HashAsks, ← Except.ok.inj ((optString_strIf hwritten.fstype).symm.trans hread.fstype),
      textIf, Option.ite_none_right_eq_some, Option.some_inj]
  | readonly => exact hflag "readonly" (by decide) _ hread.readonly
  | noexec => exact hflag "noexec" (by decide) _ hread.noexec
  | nosuid => exact hflag "nosuid" (by decide) _ hread.nosuid
  | nodev => exact hflag "nodev" (by decide) _ hread.nodev
  | statVirtualization policy =>
    rw [HashAsks, ← statVirtualizationFromStr_eq_ok_iff]
    exact optParsed_strIf hwritten.statVirtualization hread.statVirt policy
  | hostPermissions policy =>
    rw [HashAsks, ← hostPermissionsFromStr_eq_ok_iff]
    exact optParsed_strIf hwritten.hostPermissions hread.hostPerms policy
  | owner uid gid =>
    exact and_congr (optU32_ownerId hwritten.overrideUid howner.1 hread.overrideUid uid)
      (optU32_ownerId hwritten.overrideGid howner.2 hread.overrideGid gid)
  | followRootSymlinks follow =>
    rw [Tells, HashAsks, ← Except.ok.inj
      ((opt_boolUnlessNil hwritten.follow).symm.trans hread.followRootSymlinks), boolIf]
    cases (fetchOpt spec "follow_root_symlinks").isNil <;> simp

/-- The mount of a String. -/
def bindKeys (guest : Value ω) (source key : String) : Option (Value ω) :=
  (atKey "source" (some (.str source)) key).or
    ((atKey "kind" (some (.str "bind")) key).or (atKey "guest" (some (.str guest.toS)) key))

omit [Numeric ω] in
/-- A String writes three keys. -/
theorem bindKeys_eq_none (guest : Value ω) (source : String) {key : String}
    (hkey : key ∉ ["guest", "kind", "source"]) : bindKeys guest source key = none := by
  simp only [List.mem_cons, List.not_mem_nil, or_false, not_or] at hkey
  simp [bindKeys, atKey, hkey]

/-- Of the mount of a String, the path is read and nothing else. -/
theorem tells_iff_of_str {guest : Value ω} {source : String} {m : Opts ω} {read : MountSpec}
    {k : String} {src : Option String} (hlookup : ∀ key, m.lookup key = bindKeys guest source key)
    (hread : read.Of parseFormat hostPaths process (strEntries m) k src) (call : MountCall) :
    Tells read call ↔
      ∃ host, hostPaths.pin process source "bind mount host path" = .ok host ∧
        call = .bind host := by
  -- A String writes three keys, so every setter but the backing reads an absent option.
  have hnone : ∀ key ∉ ["guest", "kind", "source"], m.lookup key = none := by
    intro key hkey
    rw [hlookup, bindKeys_eq_none guest source hkey]
  have habsent : ∀ {α : Type} {o : Option α} {tryConvert : Value ω → Except Exception α} {key},
      opt tryConvert (strEntries m) key = .ok o → key ∉ ["guest", "kind", "source"] → o = none := by
    intro α o tryConvert key ho hkey
    rw [opt_eq_none (hnone key hkey)] at ho
    exact (Except.ok.inj ho).symm
  have hflag : ∀ {b : Bool} {key}, optBool (strEntries m) key = .ok b →
      key ∉ ["guest", "kind", "source"] → b = false := by
    intro b key hb hkey
    have habsent : optBool (strEntries m) key = .ok false := by
      rw [optBool, opt_eq_none (hnone key hkey)]
      rfl
    exact Except.ok.inj (hb.symm.trans habsent)
  have hparsed : ∀ {α : Type} {o : Option α} {parse : String → Except Exception α} {key},
      optParsed parse (strEntries m) key = .ok o → key ∉ ["guest", "kind", "source"] →
        o = none := by
    intro α o parse key ho hkey
    rw [optParsed, optString, opt_eq_none (hnone key hkey)] at ho
    exact (Except.ok.inj ho).symm
  have hkind := (optString_map_str (s := some "bind") (hlookup "kind")).symm.trans hread.kind
  have hsource := (optString_map_str (s := some source) (hlookup "source")).symm.trans hread.source
  have hbacking := hread.backing
  rw [← Option.some.inj (Except.ok.inj hkind), ← Except.ok.inj hsource] at hbacking
  -- The backing is the path on the host, pinned.
  obtain ⟨host, hpin, hbacking⟩ := Except.map_eq_ok_iff.mp hbacking
  have hsize := habsent hread.sizeMib (by decide)
  have hquota := habsent hread.quotaMib (by decide)
  have hfstype := habsent hread.fstype (by decide)
  have hreadonly := hflag hread.readonly (by decide)
  have hnoexec := hflag hread.noexec (by decide)
  have hnosuid := hflag hread.nosuid (by decide)
  have hnodev := hflag hread.nodev (by decide)
  have hformat := hparsed hread.format (by decide)
  have hstat := hparsed hread.statVirt (by decide)
  have hpermissions := hparsed hread.hostPerms (by decide)
  have huid := habsent hread.overrideUid (by decide)
  have hfollow := habsent hread.followRootSymlinks (by decide)
  have hhost : (∃ host', hostPaths.pin process source "bind mount host path" = .ok host' ∧
      call = .bind host') ↔ MountCall.bind host = call := by
    simp [hpin, eq_comm]
  rw [hhost]
  cases call <;>
    simp [Tells, ← hbacking, hsize, hquota, hfstype, hreadonly, hnoexec, hnosuid, hnodev, hformat,
      hstat, hpermissions, huid, hfollow]

/-- Whether the Ruby layer takes an entry of `volumes:`. -/
def VolumeAccepted (volume : Value ω) : Prop :=
  (∃ source, volume = .str source) ∨ ∃ spec kind, volume = .hash spec ∧ Accepted spec kind

/-- The entries that are taken. -/
theorem exists_normalizeVolume_iff {guest volume : Value ω} :
    (∃ m, normalizeVolume guest volume = .ok m) ↔ VolumeAccepted volume := by
  constructor
  · rintro ⟨m, h⟩
    cases volume with
    | str source => exact Or.inl ⟨source, rfl⟩
    | hash spec =>
      obtain ⟨kind, haccepted, -⟩ := lookup_of_normalizeVolume h
      exact Or.inr ⟨spec, kind, rfl, haccepted⟩
    | nil | bool | int | sym | arr | obj => cases h
  · rintro (⟨source, rfl⟩ | ⟨spec, kind, rfl, haccepted⟩)
    · exact ⟨_, rfl⟩
    · exact exists_normalizeVolume guest haccepted

/-- One entry through both layers. -/
theorem mounted_as_asked {guest volume : Value ω} {m : Opts ω} {read : MountSpec}
    (hm : normalizeVolume guest volume = .ok m)
    (hread : parseMount parseFormat hostPaths process (strEntries m) = .ok read) :
    read.guest = guest.toS ∧
      ∀ call, call ∈ read.apply ↔ Asks parseFormat hostPaths process volume call := by
  obtain ⟨k, src, hread⟩ := exists_of_parseMount hread
  have hguest : m.lookup "guest" = some (.str guest.toS) → read.guest = guest.toS := by
    intro hlookup
    have hread' := (optString_map_str (s := some guest.toS) hlookup).symm.trans hread.guest
    exact (Option.some.inj (Except.ok.inj hread')).symm
  cases volume with
  | str source =>
    obtain rfl := Except.ok.inj hm
    -- a String is a bind mount and nothing else
    have hlookup : ∀ key, (((AList.singleton "guest" (.str guest.toS) : Opts ω).insert "kind"
        (.str "bind")).insert "source" (.str source)).lookup key = bindKeys guest source key := by
      intro key
      rw [adds_insert _ _ _ key, adds_insert _ _ _ key, AList.lookup_singleton, bindKeys]
      rfl
    refine ⟨hguest (hlookup "guest"), ?_⟩
    intro call
    rw [mem_apply_iff, tells_iff_of_str hlookup hread]
    rfl
  | hash spec =>
    obtain ⟨kind, haccepted, hlookup⟩ := lookup_of_normalizeVolume hm
    have hwritten := Written.of_lookup hlookup
    refine ⟨hguest hwritten.guestPath, ?_⟩
    intro call
    rw [mem_apply_iff, tells_iff haccepted hwritten hread]
    rfl
  | nil | bool | int | sym | arr | obj => cases hm

/-- An entry of `volumes:` is taken if and only if it is well formed, and each mount is then told
exactly what its entry asks for, each setter of the builder once at most and the backing first. -/
theorem volumes_mounted_as_asked (parseFormat : String → Option DiskImageFormat)
    (hostPaths : HostPaths) (process : Process) (volumes : Entries ω) :
    ((∃ mounts, normalizeVolumes volumes = .ok mounts) ↔ ∀ e ∈ volumes, VolumeAccepted e.2) ∧
      ∀ mounts, normalizeVolumes volumes = .ok mounts → ∀ opts : Opts ω,
        opts.lookup "volumes" = some (.arr (mounts.map strHash)) →
        ∀ told, buildVolumes parseFormat hostPaths process (strEntries opts) = .ok told →
          List.Forall₂ (AsAsked parseFormat hostPaths process) volumes told := by
  constructor
  · simp only [normalizeVolumes, Except.exists_mapM_eq_ok_iff, exists_normalizeVolume_iff]
  · intro mounts hmounts opts hopts told htold
    unfold buildVolumes at htold
    rw [optHashVec_map_strHash hopts] at htold
    rw [Except.ok_bind, List.mapM_map] at htold
    refine Except.forall₂_of_mapM_of_mapM ?_ hmounts htold
    intro volume m mount hm hmount
    obtain ⟨read, hread, hmount⟩ := Except.bind_eq_ok_iff.mp hmount
    obtain rfl := Except.ok.inj hmount
    obtain ⟨hguest, hcalls⟩ := mounted_as_asked hm hread
    exact { guest := hguest, calls := hcalls, setters := setters_apply read }

end Main

/-- A bind mount with an owner and an explicit `false`, and one that is given by its path. -/
def ownedVolumes : Entries Unit :=
  [(.sym "/data", .hash [(.sym "bind", .str "srv"), (.str "uid", .int 1000), (.sym "gid", .int 0),
    (.sym "options", .arr [.sym "ro", .str "nosuid"]),
    (.sym "follow_root_symlinks", .bool false)]), (.str "/cache", .str "/tmp")]

/-- Two mounts, with their calls. -/
theorem volumes_mounted_as_asked_owned :
    ∃ mounts told, normalizeVolumes ownedVolumes = .ok mounts ∧
      buildVolumes coreFormats ⟨true⟩ ⟨.ok (RustPath.ofString "/w"), fun _ => ""⟩
        (strEntries (AList.singleton "volumes" (.arr (mounts.map strHash)))) = .ok told ∧
      told = [("/data", [.bind (RustPath.ofString "/w/srv"), .readonly, .nosuid, .owner 1000 0,
        .followRootSymlinks false]), ("/cache", [.bind (RustPath.ofString "/tmp")])] ∧
      List.Forall₂ (AsAsked coreFormats ⟨true⟩ ⟨.ok (RustPath.ofString "/w"), fun _ => ""⟩)
        ownedVolumes told := by
  obtain ⟨-, htold⟩ := volumes_mounted_as_asked coreFormats ⟨true⟩
    ⟨.ok (RustPath.ofString "/w"), fun _ => ""⟩ ownedVolumes
  exact ⟨_, _, rfl, rfl, rfl, htold _ rfl (AList.singleton "volumes" (.arr (List.map strHash _)))
    rfl _ rfl⟩

end MicrosandboxRb.Volumes
