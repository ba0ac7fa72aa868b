import MicrosandboxRb.Create.Mount
import MicrosandboxRb.Options

/-!
# Root disks

The `root_disk:` option of a create call: the factories (`root_disk.rb`), the normalization into the
wire form (`sandbox.rb`), and the native parser of that form (`sandbox.rs`).

## Main definitions

* `normalizeRootDisk`: the normalization;
* `parseRootDisk`: the native parser;
* `RootDisk`: a root disk whose fields fit its kind.

## Main results

* `root_disk_settings_kept`: what is given is either refused or kept by both layers, and the wire
  form is its own normalization.
-/

namespace MicrosandboxRb.Native

open Ruby Conv RustPath

variable {ω : Type}

/-! ## The Ruby layer -/

section Normalize

variable [Methods ω] [Numeric ω]

/-- Whether a size in MiB is positive and fits in 32 bits. -/
def FitsMib (n : ℤ) : Prop := 0 < n ∧ n ≤ 4294967295

instance (n : ℤ) : Decidable (FitsMib n) := inferInstanceAs (Decidable (_ ∧ _))

/-- `coerce_root_disk_size`. -/
def coerceRootDiskSize (value : Value ω) (label : String) : Except Exception ℤ := do
  let mib ← integer value
  if FitsMib mib then return mib
  else throw (.argumentError (s!"{label} must be a positive size in MiB that fits in 32 bits " ++
    s!"(got {mib})"))

/-- Refuse the fields that only a disk has. -/
def rejectDiskFields (spec : Opts ω) (keys : List String) : Except Exception Unit :=
  keys.forM fun key =>
    if (index spec key).truthy then
      .error (.argumentError s!"root_disk {key}: is only valid for the disk kind")
    else .ok ()

/-- The size that is copied, if one is given. -/
def rootDiskSize (spec : Opts ω) : Except Exception (Option (Value ω)) :=
  if (index spec "size_mib").truthy then
    (coerceRootDiskSize (index spec "size_mib") "root_disk size_mib:").map fun n => some (.int n)
  else .ok none

/-- A managed or tmpfs disk, which takes a size and nothing else. -/
def normalizeUpper (kind : String) (spec : Opts ω) : Except Exception (Value ω) := do
  rejectDiskFields spec ["path", "format", "fstype"]
  let h : Opts ω := AList.singleton "kind" (.str kind)
  return strHash (insertSome h "size_mib" (← rootDiskSize spec))

/-- A disk image, which needs a path. -/
def normalizeDiskImage (spec : Opts ω) : Except Exception (Value ω) := do
  let path := index spec "path"
  if path.isNil || path.toS.isEmpty then
    throw (.argumentError "root_disk disk kind requires path:")
  if (index spec "size_mib").truthy then
    throw (.argumentError ("root_disk size_mib: is not valid for a disk image " ++
      "(the image file determines the size)"))
  let h : Opts ω := (AList.singleton "kind" (.str "disk")).insert "path" (.str path.toS)
  let h := insertSome h "format" (strIf (index spec "format"))
  return strHash (insertSome h "fstype" (strIf (index spec "fstype")))

/-- The clone strategy that is copied, if one is given. -/
def rootDiskClone (spec : Opts ω) : Except Exception (Option (Value ω)) :=
  if (index spec "clone").truthy then
    let clone := (index spec "clone").toS
    if clone ∈ ["auto", "copy", "reflink"] then .ok (some (.str clone))
    else .error (.argumentError ("unknown root_disk clone strategy " ++
      s!"{(Value.str clone : Value ω).inspect} (expected auto/copy/reflink)"))
  else .ok none

/-- A flat disk, which may be cloned. -/
def normalizeFlat (spec : Opts ω) : Except Exception (Value ω) := do
  rejectDiskFields spec ["path", "format"]
  let h : Opts ω := AList.singleton "kind" (.str "flat")
  let h := insertSome h "size_mib" (← rootDiskSize spec)
  let h := insertSome h "fstype" (strIf (index spec "fstype"))
  return strHash (insertSome h "clone" (← rootDiskClone spec))

/-- `normalize_root_disk`: a size, or the Hash of a disk. -/
def normalizeRootDisk (rootDisk : Value ω) : Except Exception (Value ω) :=
  match rootDisk with
  | .hash es =>
    let spec := transformKeys Value.toS es
    -- a `kind:` that is `nil` or `false` counts as missing
    let kind := if (index spec "kind").truthy then (index spec "kind").toS else "managed"
    match kind with
    | "managed" => normalizeUpper "managed" spec
    | "tmpfs" => normalizeUpper "tmpfs" spec
    | "disk" | "disk-image" | "disk_image" => normalizeDiskImage spec
    | "flat" => normalizeFlat spec
    | kind => .error (.argumentError ("unknown root_disk kind " ++
        s!"{(Value.str kind : Value ω).inspect} (expected managed/tmpfs/disk/flat)"))
  | value => (coerceRootDiskSize value "root_disk:").map .int

/-! The factories of `Microsandbox::RootDisk`. -/

/-- The Hash of a kind with a size, if one is given. -/
def sizedDisk (kind : String) (sizeMib : Value ω) : Except Exception (Opts ω) :=
  let h : Opts ω := AList.singleton "kind" (.str kind)
  if sizeMib.truthy then (integer sizeMib).map fun n => h.insert "size_mib" (.int n) else .ok h

/-- `RootDisk.managed`. -/
def managed (sizeMib : Value ω) : Except Exception (Opts ω) := sizedDisk "managed" sizeMib

/-- `RootDisk.tmpfs`. -/
def tmpfs (sizeMib : Value ω) : Except Exception (Opts ω) := sizedDisk "tmpfs" sizeMib

omit [Numeric ω] in
/-- `RootDisk.disk`. -/
def disk (path format fstype : Value ω) : Opts ω :=
  let h : Opts ω := (AList.singleton "kind" (.str "disk")).insert "path" (.str path.toS)
  insertSome (insertSome h "format" (strIf format)) "fstype" (strIf fstype)

/-- `RootDisk.flat`. -/
def flat (sizeMib fstype clone : Value ω) : Except Exception (Opts ω) :=
  (sizedDisk "flat" sizeMib).map fun h =>
    insertSome (insertSome h "fstype" (strIf fstype)) "clone" (strIf clone)

/-- What a factory builds. -/
inductive BuiltByFactory : Opts ω → Prop
  | managed {sizeMib : Value ω} {h : Opts ω} (eq : managed sizeMib = .ok h) : BuiltByFactory h
  | tmpfs {sizeMib : Value ω} {h : Opts ω} (eq : tmpfs sizeMib = .ok h) : BuiltByFactory h
  | disk (path format fstype : Value ω) : BuiltByFactory (disk path format fstype)
  | flat {sizeMib fstype clone : Value ω} {h : Opts ω} (eq : flat sizeMib fstype clone = .ok h) :
    BuiltByFactory h

end Normalize

/-! ## The native layer -/

/-- What backs a root disk, with the host path already pinned. -/
inductive RootDiskKindSpec where
  | managed
  | tmpfs
  | disk (path : Path)
  | flat
deriving DecidableEq, Repr

/-- How a flat disk is cloned. -/
inductive FlatClone where
  | auto
  | copy
  | reflink
deriving DecidableEq, Repr

/-- What is read of a root disk. -/
structure RootDiskSpec where
  kind : RootDiskKindSpec
  sizeMib : Option UInt32
  format : Option DiskImageFormat
  fstype : Option String
  clone : Option FlatClone
deriving DecidableEq, Repr

/-- `flat_clone_from_str`. -/
def flatCloneFromStr (s : String) : Except Exception FlatClone :=
  match s with
  | "auto" => .ok .auto
  | "copy" => .ok .copy
  | "reflink" => .ok .reflink
  | other => .error (baseError
      s!"unknown root_disk clone strategy {RustStr.debug other} (expected auto/copy/reflink)")

/-- The kind of a disk, with the path of a disk image. -/
def parseRootDiskKind (hostPaths : HostPaths) (process : Process) (h : RHash ω) :
    Except Exception RootDiskKindSpec := do
  match ← optString h "kind" with
  | none | some "managed" => return .managed
  | some "tmpfs" => return .tmpfs
  | some "disk" | some "disk-image" | some "disk_image" =>
    match ← optString h "path" with
    | none => throw (baseError "root_disk disk kind requires path:")
    | some path => (hostPaths.pin process path "root disk image path").map .disk
  | some "flat" => return .flat
  | some other => throw (baseError
      s!"unknown root_disk kind {RustStr.debug other} (expected managed/tmpfs/disk/flat)")

/-- The native parser, which takes an Integer for the size of a managed disk. -/
def parseRootDisk [Numeric ω] (parseFormat : String → Option DiskImageFormat)
    (hostPaths : HostPaths) (process : Process) (v : Value ω) : Except Exception RootDiskSpec :=
  -- an Integer out of range goes on to the Hash, and is refused there
  match tryU32 v with
  | .ok mib =>
    .ok { kind := .managed, sizeMib := some mib, format := none, fstype := none, clone := none }
  | .error _ =>
    match tryHash v with
    | .error _ => .error (baseError ("root_disk: expects an Integer (managed size in MiB) or a " ++
        "Hash (use Microsandbox::RootDisk.managed/tmpfs/disk/flat)"))
    | .ok h => do
      let kind ← parseRootDiskKind hostPaths process h
      let format ← optParsed (diskFormatFromStr parseFormat) h "format"
      let clone ← optParsed flatCloneFromStr h "clone"
      let sizeMib ← optU32 h "size_mib"
      let fstype ← optString h "fstype"
      return { kind, sizeMib, format, fstype, clone }

/-! ## Root disks whose fields fit their kind -/

/-- The kinds of a root disk. -/
inductive RootDiskKind where
  | managed
  | tmpfs
  | disk
  | flat
deriving DecidableEq, Repr

/-- The name of a kind, without its aliases. -/
def RootDiskKind.name : RootDiskKind → String
  | .managed => "managed"
  | .tmpfs => "tmpfs"
  | .disk => "disk"
  | .flat => "flat"

/-- The kind that a name or one of its aliases stands for. -/
def RootDiskKind.ofName? : String → Option RootDiskKind
  | "managed" => some .managed
  | "tmpfs" => some .tmpfs
  | "disk" | "disk-image" | "disk_image" => some .disk
  | "flat" => some .flat
  | _ => none

/-- The name of a way to clone. -/
def FlatClone.name : FlatClone → String
  | .auto => "auto"
  | .copy => "copy"
  | .reflink => "reflink"

/-- A Hash with the fields that are given, in the order in which they are copied. -/
def wireOf (kind : String) (path : Option String) (sizeMib : Option ℤ)
    (format fstype clone : Option String) : Opts ω :=
  insertSome (insertSome (insertSome (insertSome (insertSome
    (AList.singleton "kind" (.str kind))
    "path" (path.map .str))
    "size_mib" (sizeMib.map .int))
    "format" (format.map .str))
    "fstype" (fstype.map .str))
    "clone" (clone.map .str)

section WireOf

variable (kind : String) (path : Option String) (sizeMib : Option ℤ)
  (format fstype clone : Option String)

/-- The wire form of a disk has its kind. -/
@[simp] theorem lookup_wireOf_kind :
    (wireOf kind path sizeMib format fstype clone : Opts ω).lookup "kind" = some (.str kind) := by
  simp (disch := decide) [wireOf, lookup_insertSome_ne, AList.lookup_singleton]

/-- It has the path, if there is one. -/
@[simp] theorem lookup_wireOf_path :
    (wireOf kind path sizeMib format fstype clone : Opts ω).lookup "path" = path.map .str := by
  simp (disch := decide) [wireOf, lookup_insertSome_ne, AList.lookup_singleton]

/-- It has the size, if there is one. -/
@[simp] theorem lookup_wireOf_sizeMib :
    (wireOf kind path sizeMib format fstype clone : Opts ω).lookup "size_mib" =
      sizeMib.map .int := by
  simp (disch := decide) [wireOf, lookup_insertSome_ne, AList.lookup_singleton]

/-- It has the format, if there is one. -/
@[simp] theorem lookup_wireOf_format :
    (wireOf kind path sizeMib format fstype clone : Opts ω).lookup "format" =
      format.map .str := by
  simp (disch := decide) [wireOf, lookup_insertSome_ne, AList.lookup_singleton]

/-- It has the file system type, if there is one. -/
@[simp] theorem lookup_wireOf_fstype :
    (wireOf kind path sizeMib format fstype clone : Opts ω).lookup "fstype" =
      fstype.map .str := by
  simp (disch := decide) [wireOf, lookup_insertSome_ne, AList.lookup_singleton]

/-- It has the way to clone, if there is one. -/
@[simp] theorem lookup_wireOf_clone :
    (wireOf kind path sizeMib format fstype clone : Opts ω).lookup "clone" = clone.map .str := by
  simp (disch := decide) [wireOf, lookup_insertSome_ne, AList.lookup_singleton]

end WireOf

/-- A root disk with the fields that its kind allows. -/
structure RootDisk where
  kind : RootDiskKind
  path : Option {s : String // s ≠ ""}
  sizeMib : Option {n : ℤ // FitsMib n}
  format : Option String
  fstype : Option String
  clone : Option FlatClone
  path_isSome : path.isSome = decide (kind = .disk)
  sizeMib_eq_none : kind = .disk → sizeMib = none
  format_eq_none : kind ≠ .disk → format = none
  fstype_eq_none : kind = .managed ∨ kind = .tmpfs → fstype = none
  clone_eq_none : kind ≠ .flat → clone = none

namespace RootDisk

variable (d : RootDisk)

/-- The wire form. -/
def wire : Opts ω :=
  wireOf d.kind.name (d.path.map Subtype.val) (d.sizeMib.map Subtype.val) d.format d.fstype
    (d.clone.map FlatClone.name)

/-- Only a disk image has a path. -/
theorem path_eq_none {d : RootDisk} (h : d.kind ≠ .disk) : d.path = none := by
  rw [← Option.isNone_iff_eq_none, ← Option.not_isSome, d.path_isSome, decide_eq_false h]
  rfl

/-! ## What a root disk is given by -/

section Given

variable [Methods ω] [Numeric ω]

/-- The size that a value stands for, which is none unless the value is truthy. -/
def SizeGiven (v : Value ω) (sizeMib : Option {n : ℤ // FitsMib n}) : Prop :=
  if v.truthy then ∃ n, sizeMib = some n ∧ integer v = .ok n.1 else sizeMib = none

/-- The fields of `d` are the values given, with those left out that are not truthy. -/
structure Fields (given : String → Value ω) (d : RootDisk) : Prop where
  path : d.kind = .disk → d.path.map Subtype.val = some (given "path").toS
  path_truthy : d.kind ≠ .disk → (given "path").truthy = false
  sizeMib : SizeGiven (given "size_mib") d.sizeMib
  format : d.format.map .str = strIf (given "format")
  fstype : d.fstype.map .str = strIf (given "fstype")
  clone : d.kind = .flat → (d.clone.map FlatClone.name).map .str = strIf (given "clone")

end Given

end RootDisk

/-- The value given under a Symbol or a String. -/
def setting [Methods ω] (es : Entries ω) (key : String) : Value ω := (last es key).getD .nil

/-- The name of the kind that is given. -/
def kindGiven [Methods ω] (es : Entries ω) : String :=
  if (setting es "kind").truthy then (setting es "kind").toS else "managed"

/-! ## The normalization -/

section Normalization

variable [Methods ω]

/-- A text is left out if its value is `nil` or `false`. -/
theorem strIf_eq_none_iff {v : Value ω} : strIf v = none ↔ v.truthy = false := by
  rw [strIf, ite_eq_right_iff, Bool.eq_false_iff]
  exact forall_congr' fun _ => iff_of_false (by simp) (fun h => h)

/-- A text that may be left out. -/
theorem exists_strIf (v : Value ω) : ∃ o : Option String, o.map .str = strIf v := by
  unfold strIf
  split
  · exact ⟨some v.toS, rfl⟩
  · exact ⟨none, rfl⟩

/-- With its keys as Strings, a Hash gives the last of the entries under a name. -/
theorem index_transformKeys_toS (es : Entries ω) (key : String) :
    index (transformKeys Value.toS es) key = setting es key := by
  rw [index, lookup_transformKeys_toS, setting]

omit [Methods ω] in
/-- The fields that a kind does not take have to be `nil` or `false`. -/
theorem rejectDiskFields_eq_ok_iff {spec : Opts ω} {keys : List String} :
    rejectDiskFields spec keys = .ok () ↔ ∀ key ∈ keys, (index spec key).truthy = false := by
  induction keys with
  | nil => exact iff_of_true rfl (by simp)
  | cons key keys ih =>
    rw [List.forall_mem_cons, ← ih]
    rw [rejectDiskFields, List.forM_eq_forM, List.forM_cons, Except.bind_eq_ok_iff]
    cases htruthy : (index spec key).truthy with
    | true => simp
    | false => simp [rejectDiskFields]

variable [Numeric ω]

/-- A size is an Integer that fits. -/
theorem coerceRootDiskSize_eq_ok_iff {value : Value ω} {label : String} {n : ℤ} :
    coerceRootDiskSize value label = .ok n ↔ integer value = .ok n ∧ FitsMib n := by
  rw [coerceRootDiskSize, Except.bind_eq_ok_iff]
  constructor
  · rintro ⟨mib, hmib, h⟩
    split at h
    · rename_i hfits
      obtain rfl := Except.ok.inj h
      exact ⟨hmib, hfits⟩
    · cases h
  · rintro ⟨hmib, hfits⟩
    exact ⟨n, hmib, if_pos hfits⟩

/-- A size that may be left out. -/
theorem rootDiskSize_eq_ok_iff {spec : Opts ω} {o : Option (Value ω)} :
    rootDiskSize spec = .ok o ↔ ∃ sizeMib : Option {n : ℤ // FitsMib n},
      RootDisk.SizeGiven (index spec "size_mib") sizeMib ∧
        o = (sizeMib.map Subtype.val).map .int := by
  unfold rootDiskSize RootDisk.SizeGiven
  split
  · rw [Except.map_eq_ok_iff]
    constructor
    · rintro ⟨n, hn, rfl⟩
      obtain ⟨hint, hfits⟩ := coerceRootDiskSize_eq_ok_iff.mp hn
      exact ⟨some ⟨n, hfits⟩, ⟨_, rfl, hint⟩, rfl⟩
    · rintro ⟨_, ⟨n, rfl, hint⟩, rfl⟩
      exact ⟨n.1, coerceRootDiskSize_eq_ok_iff.mpr ⟨hint, n.2⟩, rfl⟩
  · constructor
    · intro h
      exact ⟨none, rfl, (Except.ok.inj h).symm⟩
    · rintro ⟨_, rfl, rfl⟩
      rfl

/-- There are three ways to clone. -/
theorem exists_name_eq_iff {s : String} :
    (∃ clone : FlatClone, clone.name = s) ↔ s ∈ ["auto", "copy", "reflink"] := by
  simp only [List.mem_cons, List.not_mem_nil, or_false]
  constructor
  · rintro ⟨clone, rfl⟩
    cases clone with
    | auto => exact Or.inl rfl
    | copy => exact Or.inr (Or.inl rfl)
    | reflink => exact Or.inr (Or.inr rfl)
  · rintro (rfl | rfl | rfl)
    · exact ⟨.auto, rfl⟩
    · exact ⟨.copy, rfl⟩
    · exact ⟨.reflink, rfl⟩

/-- No size is given by `nil` and by `false`. -/
theorem sizeGiven_none_iff {v : Value ω} : RootDisk.SizeGiven v none ↔ v.truthy = false := by
  rw [RootDisk.SizeGiven]
  cases v.truthy with
  | false => simp
  | true => simp

omit [Methods ω] [Numeric ω] in
/-- Only `nil` is `nil`. -/
theorem eq_nil_of_isNil {v : Value ω} (h : v.isNil = true) : v = .nil := by
  cases v with
  | nil => rfl
  | _ => cases h

omit [Numeric ω] in
/-- A way to clone that may be left out. -/
theorem rootDiskClone_eq_ok_iff {spec : Opts ω} {o : Option (Value ω)} :
    rootDiskClone spec = .ok o ↔ ∃ clone : Option FlatClone,
      (clone.map FlatClone.name).map .str = strIf (index spec "clone") ∧
        o = (clone.map FlatClone.name).map .str := by
  unfold rootDiskClone strIf
  split
  · dsimp only
    constructor
    · intro h
      split at h
      · rename_i hname
        -- an accepted text is the name of a way to clone
        obtain ⟨clone, hname⟩ := exists_name_eq_iff.mpr hname
        refine ⟨some clone, ?_, ?_⟩
        · rw [Option.map_some, Option.map_some, hname]
        · rw [Option.map_some, Option.map_some, hname, Except.ok.inj h]
      · cases h
    · rintro ⟨clone, hclone, rfl⟩
      obtain ⟨name, hname, hstr⟩ := Option.map_eq_some_iff.mp hclone
      obtain ⟨c, -, hc⟩ := Option.map_eq_some_iff.mp hname
      have htext : c.name = (index spec "clone").toS := hc.trans (Value.str.inj hstr)
      rw [if_pos (exists_name_eq_iff.mp ⟨c, htext⟩), hclone]
  · constructor
    · intro h
      exact ⟨none, rfl, (Except.ok.inj h).symm⟩
    · rintro ⟨clone, hclone, rfl⟩
      rw [hclone]

open RootDisk

/-- What is accepted of a managed or tmpfs disk, and what becomes of it. -/
theorem normalizeUpper_eq_ok_iff {kind : RootDiskKind} (hkind : kind = .managed ∨ kind = .tmpfs)
    {spec : Opts ω} {v : Value ω} :
    normalizeUpper kind.name spec = .ok v ↔
      ∃ d : RootDisk, d.kind = kind ∧ Fields (index spec) d ∧ v = strHash d.wire := by
  have hdisk : kind ≠ .disk := by rcases hkind with rfl | rfl <;> decide
  have hflat : kind ≠ .flat := by rcases hkind with rfl | rfl <;> decide
  rw [normalizeUpper, Except.bind_eq_ok_iff]
  constructor
  · rintro ⟨_, hreject, h⟩
    obtain ⟨o, hsize, h⟩ := Except.bind_eq_ok_iff.mp h
    obtain ⟨sizeMib, hgiven, rfl⟩ := rootDiskSize_eq_ok_iff.mp hsize
    -- The fields of a disk image are rejected, so the record has none of them.
    rw [rejectDiskFields_eq_ok_iff, List.forall_mem_cons, List.forall_mem_cons,
      List.forall_mem_singleton] at hreject
    obtain ⟨hpath, hformat, hfstype⟩ := hreject
    refine ⟨{
      kind, path := none, sizeMib, format := none, fstype := none, clone := none
      path_isSome := by rw [Option.isSome_none, decide_eq_false hdisk]
      sizeMib_eq_none := fun h => absurd h hdisk
      format_eq_none := fun _ => rfl
      fstype_eq_none := fun _ => rfl
      clone_eq_none := fun _ => rfl }, rfl, ?_, (Except.ok.inj h).symm⟩
    exact {
      path := fun h => absurd h hdisk
      path_truthy := fun _ => hpath
      sizeMib := hgiven
      format := (strIf_eq_none_iff.mpr hformat).symm
      fstype := (strIf_eq_none_iff.mpr hfstype).symm
      clone := fun h => absurd h hflat }
  · rintro ⟨d, rfl, h, rfl⟩
    have hformat := h.format
    have hfstype := h.fstype
    rw [d.format_eq_none hdisk, Option.map_none, eq_comm, strIf_eq_none_iff] at hformat
    rw [d.fstype_eq_none hkind, Option.map_none, eq_comm, strIf_eq_none_iff] at hfstype
    have hreject : rejectDiskFields spec ["path", "format", "fstype"] = .ok () := by
      rw [rejectDiskFields_eq_ok_iff, List.forall_mem_cons, List.forall_mem_cons,
        List.forall_mem_singleton]
      exact ⟨h.path_truthy hdisk, hformat, hfstype⟩
    refine ⟨(), hreject, ?_⟩
    rw [rootDiskSize_eq_ok_iff.mpr ⟨d.sizeMib, h.sizeMib, rfl⟩, Except.ok_bind, wire,
      path_eq_none hdisk, d.format_eq_none hdisk, d.fstype_eq_none hkind, d.clone_eq_none hflat]
    rfl

/-- What is accepted of a disk image, and what becomes of it. -/
theorem normalizeDiskImage_eq_ok_iff {spec : Opts ω} {v : Value ω} :
    normalizeDiskImage spec = .ok v ↔
      ∃ d : RootDisk, d.kind = .disk ∧ Fields (index spec) d ∧ v = strHash d.wire := by
  unfold normalizeDiskImage
  dsimp only
  constructor
  · intro h
    split at h
    · cases h
    rename_i hpath
    split at h
    · cases h
    rename_i hsize
    -- The guard on the path is what makes it a path of the record.
    have hne : (index spec "path").toS ≠ "" := by
      rintro hempty
      rw [hempty] at hpath
      exact hpath (Bool.or_true _)
    obtain ⟨format, hformat⟩ := exists_strIf (index spec "format")
    obtain ⟨fstype, hfstype⟩ := exists_strIf (index spec "fstype")
    rw [← hformat, ← hfstype] at h
    refine ⟨{
      kind := .disk, path := some ⟨_, hne⟩, sizeMib := none, format, fstype, clone := none
      path_isSome := rfl
      sizeMib_eq_none := fun _ => rfl
      format_eq_none := fun h => absurd rfl h
      fstype_eq_none := by rintro (h | h) <;> cases h
      clone_eq_none := fun _ => rfl }, rfl, ?_, (Except.ok.inj h).symm⟩
    exact {
      path := fun _ => rfl
      path_truthy := fun h => absurd rfl h
      sizeMib := sizeGiven_none_iff.mpr (Bool.eq_false_of_not_eq_true hsize)
      format := hformat
      fstype := hfstype
      clone := by rintro ⟨⟩ }
  · rintro ⟨d, hkind, h, rfl⟩
    have hflat : d.kind ≠ .flat := by rw [hkind]; decide
    have hsize := h.sizeMib
    rw [d.sizeMib_eq_none hkind, sizeGiven_none_iff] at hsize
    obtain ⟨path, hdpath, hpath⟩ := Option.map_eq_some_iff.mp (h.path hkind)
    -- Conversely, the record has a path, so the guard lets it pass.
    have hguard : ((index spec "path").isNil || (index spec "path").toS.isEmpty) = false := by
      rw [Bool.or_eq_false_iff, ← hpath]
      constructor
      · cases hnil : (index spec "path").isNil with
        | false => rfl
        | true =>
          rw [eq_nil_of_isNil hnil] at hpath
          exact absurd hpath path.2
      · rw [Bool.eq_false_iff, ne_eq, String.isEmpty_iff]
        exact path.2
    rw [hguard, hsize, if_neg Bool.false_ne_true, if_neg Bool.false_ne_true, wire, hdpath,
      d.sizeMib_eq_none hkind, d.clone_eq_none hflat, hkind, wireOf, h.format, h.fstype, ← hpath]
    rfl

/-- What is accepted of a flat disk, and what becomes of it. -/
theorem normalizeFlat_eq_ok_iff {spec : Opts ω} {v : Value ω} :
    normalizeFlat spec = .ok v ↔
      ∃ d : RootDisk, d.kind = .flat ∧ Fields (index spec) d ∧ v = strHash d.wire := by
  rw [normalizeFlat, Except.bind_eq_ok_iff]
  constructor
  · rintro ⟨_, hreject, h⟩
    obtain ⟨o, hsize, h⟩ := Except.bind_eq_ok_iff.mp h
    obtain ⟨c, hclone, h⟩ := Except.bind_eq_ok_iff.mp h
    -- what was read makes a root disk, as the fields of the other kinds were refused
    obtain ⟨sizeMib, hgiven, rfl⟩ := rootDiskSize_eq_ok_iff.mp hsize
    obtain ⟨clone, hcloneGiven, rfl⟩ := rootDiskClone_eq_ok_iff.mp hclone
    rw [rejectDiskFields_eq_ok_iff, List.forall_mem_cons, List.forall_mem_singleton] at hreject
    obtain ⟨hpath, hformat⟩ := hreject
    obtain ⟨fstype, hfstype⟩ := exists_strIf (index spec "fstype")
    rw [← hfstype] at h
    refine ⟨{
      kind := .flat, path := none, sizeMib, format := none, fstype, clone
      path_isSome := rfl
      sizeMib_eq_none := by rintro ⟨⟩
      format_eq_none := fun _ => rfl
      fstype_eq_none := by rintro (h | h) <;> cases h
      clone_eq_none := fun h => absurd rfl h }, rfl, ?_, (Except.ok.inj h).symm⟩
    exact {
      path := by rintro ⟨⟩
      path_truthy := fun _ => hpath
      sizeMib := hgiven
      format := (strIf_eq_none_iff.mpr hformat).symm
      fstype := hfstype
      clone := fun _ => hcloneGiven }
  · rintro ⟨d, hkind, h, rfl⟩
    have hdisk : d.kind ≠ .disk := by rw [hkind]; decide
    have hformat := h.format
    rw [d.format_eq_none hdisk, Option.map_none, eq_comm, strIf_eq_none_iff] at hformat
    have hreject : rejectDiskFields spec ["path", "format"] = .ok () := by
      rw [rejectDiskFields_eq_ok_iff, List.forall_mem_cons, List.forall_mem_singleton]
      exact ⟨h.path_truthy hdisk, hformat⟩
    refine ⟨(), hreject, ?_⟩
    rw [rootDiskSize_eq_ok_iff.mpr ⟨d.sizeMib, h.sizeMib, rfl⟩, Except.ok_bind,
      rootDiskClone_eq_ok_iff.mpr ⟨d.clone, h.clone hkind, rfl⟩, Except.ok_bind, wire,
      path_eq_none hdisk, d.format_eq_none hdisk, hkind, wireOf, h.fstype]
    rfl

/-- A name and the kind that it names pick the same disks. -/
theorem exists_kind_eq_iff {name : String} {kind : RootDiskKind}
    (h : RootDiskKind.ofName? name = some kind) {p : RootDisk → Prop} :
    (∃ d : RootDisk, d.kind = kind ∧ p d) ↔
      ∃ d : RootDisk, RootDiskKind.ofName? name = some d.kind ∧ p d := by
  rw [h]
  refine exists_congr fun d => and_congr_left fun _ => ?_
  rw [Option.some_inj, eq_comm]

/-- A Hash is normalized to the root disk that its fields describe. -/
theorem normalizeRootDisk_eq_ok_iff {es : Entries ω} {v : Value ω} :
    normalizeRootDisk (.hash es) = .ok v ↔ ∃ d : RootDisk,
      RootDiskKind.ofName? (kindGiven es) = some d.kind ∧ Fields (setting es) d ∧
        v = strHash d.wire := by
  have hset : index (transformKeys Value.toS es) = setting es :=
    funext (index_transformKeys_toS es)
  rw [normalizeRootDisk, kindGiven, ← hset]
  -- from here on the kind is any text
  generalize (if (index (transformKeys Value.toS es) "kind").truthy = true then
    (index (transformKeys Value.toS es) "kind").toS else "managed") = kind
  split
  · rw [← exists_kind_eq_iff rfl]
    exact normalizeUpper_eq_ok_iff (Or.inl rfl)
  · rw [← exists_kind_eq_iff rfl]
    exact normalizeUpper_eq_ok_iff (Or.inr rfl)
  · rw [← exists_kind_eq_iff rfl]
    exact normalizeDiskImage_eq_ok_iff
  · rw [← exists_kind_eq_iff rfl]
    exact normalizeDiskImage_eq_ok_iff
  · rw [← exists_kind_eq_iff rfl]
    exact normalizeDiskImage_eq_ok_iff
  · rw [← exists_kind_eq_iff rfl]
    exact normalizeFlat_eq_ok_iff
  · -- Any other name is the name of no kind.
    rename_i hmanaged htmpfs hdisk hdash hunder hflat
    have hnone : RootDiskKind.ofName? kind = none := by
      unfold RootDiskKind.ofName?
      split
      · exact absurd rfl hmanaged
      · exact absurd rfl htmpfs
      · exact absurd rfl hdisk
      · exact absurd rfl hdash
      · exact absurd rfl hunder
      · exact absurd rfl hflat
      · rfl
    rw [hnone]
    constructor
    · rintro ⟨⟩
    · rintro ⟨d, ⟨⟩, -⟩

omit [Numeric ω] in
/-- A Hash that the Ruby layer builds has one entry for each key. -/
theorem setting_strEntries (m : Opts ω) (key : String) :
    setting (strEntries m) key = index m key := by
  rw [setting, last_strEntries, index]

omit [Numeric ω] in
/-- A text that was written is taken as it is. -/
theorem strIf_getD_map_str (o : Option String) :
    strIf ((o.map .str).getD .nil : Value ω) = o.map .str := by
  cases o with
  | none => rfl
  | some s => rfl

/-- The wire form of a root disk gives its own fields. -/
theorem fields_wire (d : RootDisk) : Fields (setting (strEntries (d.wire : Opts ω))) d where
  path := by
    intro hkind
    have hsome : d.path.isSome = true := by rw [d.path_isSome, decide_eq_true hkind]
    obtain ⟨path, hpath⟩ := Option.isSome_iff_exists.mp hsome
    rw [setting_strEntries, index, wire, lookup_wireOf_path, hpath]
    rfl
  path_truthy := by
    intro hkind
    rw [setting_strEntries, index, wire, lookup_wireOf_path, path_eq_none hkind]
    rfl
  sizeMib := by
    rw [setting_strEntries, index, wire, lookup_wireOf_sizeMib]
    cases d.sizeMib with
    | none => exact sizeGiven_none_iff.mpr rfl
    | some n => exact ⟨n, rfl, rfl⟩
  format := by
    rw [setting_strEntries, index, wire, lookup_wireOf_format, strIf_getD_map_str]
  fstype := by
    rw [setting_strEntries, index, wire, lookup_wireOf_fstype, strIf_getD_map_str]
  clone := by
    intro _
    rw [setting_strEntries, index, wire, lookup_wireOf_clone, strIf_getD_map_str]

omit [Numeric ω] in
/-- The wire form of a disk gives its own kind. -/
theorem kindGiven_wireOf (kind : String) (path : Option String) (sizeMib : Option ℤ)
    (format fstype clone : Option String) :
    kindGiven (strEntries (wireOf kind path sizeMib format fstype clone : Opts ω)) = kind := by
  rw [kindGiven, setting_strEntries, index, lookup_wireOf_kind]
  rfl

/-- Every kind is named by its name. -/
theorem ofName?_name (kind : RootDiskKind) : RootDiskKind.ofName? kind.name = some kind := by
  cases kind with
  | managed => rfl
  | tmpfs => rfl
  | disk => rfl
  | flat => rfl

/-- The wire form is its own normalization. -/
theorem normalizeRootDisk_wire (d : RootDisk) :
    normalizeRootDisk (strHash (d.wire : Opts ω)) = .ok (strHash d.wire) := by
  have hkind : RootDiskKind.ofName? (kindGiven (strEntries (d.wire : Opts ω))) = some d.kind := by
    rw [wire, kindGiven_wireOf, ofName?_name]
  exact normalizeRootDisk_eq_ok_iff.mpr ⟨d, hkind, fields_wire d, rfl⟩

/-! ## The factories -/

/-- A factory writes the kind and the size. -/
theorem exists_of_sizedDisk {kind : String} {sizeMib : Value ω} {h : Opts ω}
    (hok : sizedDisk kind sizeMib = .ok h) :
    ∃ size : Option ℤ,
      h = insertSome (AList.singleton "kind" (.str kind)) "size_mib" (size.map .int) := by
  unfold sizedDisk at hok
  split at hok
  · obtain ⟨n, -, rfl⟩ := Except.map_eq_ok_iff.mp hok
    exact ⟨some n, rfl⟩
  · exact ⟨none, (Except.ok.inj hok).symm⟩

/-- Only the factory of flat disks sets a clone strategy. -/
theorem exists_of_builtByFactory {h : Opts ω} (hbuilt : BuiltByFactory h) :
    ∃ (kind : RootDiskKind) (path : Option String) (sizeMib : Option ℤ)
      (format fstype clone : Option String),
      h = wireOf kind.name path sizeMib format fstype clone ∧ (clone = none ∨ kind = .flat) := by
  cases hbuilt with
  | managed hok =>
    obtain ⟨size, rfl⟩ := exists_of_sizedDisk hok
    exact ⟨.managed, none, size, none, none, none, rfl, Or.inl rfl⟩
  | tmpfs hok =>
    obtain ⟨size, rfl⟩ := exists_of_sizedDisk hok
    exact ⟨.tmpfs, none, size, none, none, none, rfl, Or.inl rfl⟩
  | disk path format fstype =>
    obtain ⟨f, hformat⟩ := exists_strIf format
    obtain ⟨t, hfstype⟩ := exists_strIf fstype
    rw [disk, ← hformat, ← hfstype]
    exact ⟨.disk, some path.toS, none, f, t, none, rfl, Or.inl rfl⟩
  | flat hok =>
    -- the one factory that takes `clone:`
    obtain ⟨h', hsized, rfl⟩ := Except.map_eq_ok_iff.mp hok
    obtain ⟨size, rfl⟩ := exists_of_sizedDisk hsized
    rename_i sizeMib fstype clone
    obtain ⟨t, hfstype⟩ := exists_strIf fstype
    obtain ⟨c, hclone⟩ := exists_strIf clone
    rw [← hfstype, ← hclone]
    exact ⟨.flat, none, size, none, t, c, rfl, Or.inr rfl⟩

/-- A size that was written is taken as it is. -/
theorem sizeGiven_map_int {o : Option ℤ} {sizeMib : Option {n : ℤ // FitsMib n}}
    (h : SizeGiven ((o.map .int).getD .nil : Value ω) sizeMib) : sizeMib.map Subtype.val = o := by
  cases o with
  | none => rw [show sizeMib = none from h, Option.map_none]
  | some n =>
    obtain ⟨m, rfl, hm⟩ := h
    rw [Option.map_some, ← Except.ok.inj hm]

/-- A disk with the fields of a wire form has this wire form. -/
theorem wire_eq_of_fields {d : RootDisk} {path : Option String} {sizeMib : Option ℤ}
    {format fstype clone : Option String}
    (h : Fields (setting
      (strEntries (wireOf d.kind.name path sizeMib format fstype clone : Opts ω))) d)
    (hclone : clone = none ∨ d.kind = .flat) :
    (d.wire : Opts ω) = wireOf d.kind.name path sizeMib format fstype clone := by
  have hinj : Function.Injective (Option.map (Value.str : String → Value ω)) :=
    Option.map_injective fun s t h => Value.str.inj h
  have hformat : d.format = format := by
    apply hinj
    rw [h.format, setting_strEntries, index, lookup_wireOf_format, strIf_getD_map_str]
  have hfstype : d.fstype = fstype := by
    apply hinj
    rw [h.fstype, setting_strEntries, index, lookup_wireOf_fstype, strIf_getD_map_str]
  have hsize : d.sizeMib.map Subtype.val = sizeMib := by
    have hgiven := h.sizeMib
    rw [setting_strEntries, index, lookup_wireOf_sizeMib] at hgiven
    exact sizeGiven_map_int hgiven
  have hpath : d.path.map Subtype.val = path := by
    by_cases hkind : d.kind = .disk
    · have hgiven := h.path hkind
      rw [setting_strEntries, index, lookup_wireOf_path] at hgiven
      cases path with
      | some s => exact hgiven
      | none =>
        -- a disk has a path that is not empty
        obtain ⟨s, -, hs⟩ := Option.map_eq_some_iff.mp hgiven
        exact absurd hs s.2
    · have hgiven := h.path_truthy hkind
      rw [setting_strEntries, index, lookup_wireOf_path] at hgiven
      rw [path_eq_none hkind]
      cases path with
      | none => rfl
      | some s => cases hgiven
  have hcloneEq : d.clone.map FlatClone.name = clone := by
    by_cases hkind : d.kind = .flat
    · apply hinj
      rw [h.clone hkind, setting_strEntries, index, lookup_wireOf_clone, strIf_getD_map_str]
    · rw [d.clone_eq_none hkind, hclone.resolve_right hkind, Option.map_none]
  rw [wire, hpath, hsize, hformat, hfstype, hcloneEq]

/-- What a factory builds is its own normalization, unless it is refused. -/
theorem eq_of_normalizeRootDisk_factory {h : Opts ω} {v : Value ω} (hbuilt : BuiltByFactory h)
    (hok : normalizeRootDisk (strHash h) = .ok v) : v = strHash h := by
  obtain ⟨kind, path, sizeMib, format, fstype, clone, rfl, hclone⟩ :=
    exists_of_builtByFactory hbuilt
  obtain ⟨d, hkind, hfields, rfl⟩ := normalizeRootDisk_eq_ok_iff.mp hok
  rw [kindGiven_wireOf, ofName?_name] at hkind
  obtain rfl := Option.some.inj hkind
  rw [wire_eq_of_fields hfields hclone]

/-! ## What is refused -/

/-- An error that names what is wrong, or the error of the conversion of a size. -/
def SizeError (sizeMib : Value ω) (e : Exception) : Prop :=
  (∃ message, e = .argumentError message) ∨ integer sizeMib = .error e

/-- A size is refused by `Integer` or for its range. -/
theorem coerceRootDiskSize_eq_error {value : Value ω} {label : String} {e : Exception}
    (h : coerceRootDiskSize value label = .error e) : SizeError value e := by
  rcases Except.bind_eq_error_iff.mp h with h | ⟨mib, -, h⟩
  · exact Or.inr h
  · split at h
    · cases h
    · exact Or.inl ⟨_, (Except.error.inj h).symm⟩

/-- So is one that may be left out. -/
theorem rootDiskSize_eq_error {spec : Opts ω} {e : Exception}
    (h : rootDiskSize spec = .error e) : SizeError (index spec "size_mib") e := by
  unfold rootDiskSize at h
  split at h
  · cases hsize : coerceRootDiskSize (index spec "size_mib") "root_disk size_mib:" with
    | error e' =>
      rw [hsize] at h
      obtain rfl := Except.error.inj h
      exact coerceRootDiskSize_eq_error hsize
    | ok n =>
      rw [hsize] at h
      cases h
  · cases h

omit [Methods ω] [Numeric ω] in
/-- A field that a kind does not take is an `ArgumentError`. -/
theorem onlyArgumentErrors_rejectDiskFields (spec : Opts ω) (keys : List String) :
    OnlyArgumentErrors (rejectDiskFields spec keys) := by
  induction keys with
  | nil => exact onlyArgumentErrors_ok ()
  | cons key keys ih =>
    rw [rejectDiskFields, List.forM_eq_forM, List.forM_cons]
    refine OnlyArgumentErrors.bind ?_ fun _ => ih
    split
    · exact onlyArgumentErrors_argumentError _
    · exact onlyArgumentErrors_ok ()

omit [Numeric ω] in
/-- An unknown way to clone is an `ArgumentError`. -/
theorem onlyArgumentErrors_rootDiskClone (spec : Opts ω) :
    OnlyArgumentErrors (rootDiskClone spec) := by
  unfold rootDiskClone
  dsimp only
  split
  · split
    · exact onlyArgumentErrors_ok _
    · exact onlyArgumentErrors_argumentError _
  · exact onlyArgumentErrors_ok _

/-- Whatever else is wrong with a disk is an `ArgumentError`. -/
theorem normalizeRootDisk_eq_error {es : Entries ω} {e : Exception}
    (h : normalizeRootDisk (.hash es) = .error e) : SizeError (setting es "size_mib") e := by
  -- Only the size can fail with an error of `Integer`.
  have hupper (kind : String) (h : normalizeUpper kind (transformKeys Value.toS es) = .error e) :
      SizeError (setting es "size_mib") e := by
    rcases Except.bind_eq_error_iff.mp h with h | ⟨-, -, h⟩
    · exact Or.inl (onlyArgumentErrors_rejectDiskFields _ _ e h)
    · rcases Except.bind_eq_error_iff.mp h with h | ⟨o, -, h⟩
      · rw [← index_transformKeys_toS]
        exact rootDiskSize_eq_error h
      · cases h
  have hdisk (h : normalizeDiskImage (transformKeys Value.toS es) = .error e) :
      SizeError (setting es "size_mib") e := by
    unfold normalizeDiskImage at h
    dsimp only at h
    split at h
    · exact Or.inl ⟨_, (Except.error.inj h).symm⟩
    · split at h
      · exact Or.inl ⟨_, (Except.error.inj h).symm⟩
      · cases h
  have hflat (h : normalizeFlat (transformKeys Value.toS es) = .error e) :
      SizeError (setting es "size_mib") e := by
    rcases Except.bind_eq_error_iff.mp h with h | ⟨-, -, h⟩
    · exact Or.inl (onlyArgumentErrors_rejectDiskFields _ _ e h)
    · rcases Except.bind_eq_error_iff.mp h with h | ⟨o, -, h⟩
      · rw [← index_transformKeys_toS]
        exact rootDiskSize_eq_error h
      · rcases Except.bind_eq_error_iff.mp h with h | ⟨c, -, h⟩
        · exact Or.inl (onlyArgumentErrors_rootDiskClone _ e h)
        · cases h
  rw [normalizeRootDisk] at h
  split at h
  · exact hupper _ h
  · exact hupper _ h
  · exact hdisk h
  · exact hdisk h
  · exact hdisk h
  · exact hflat h
  · exact Or.inl ⟨_, (Except.error.inj h).symm⟩

end Normalization

/-! ## What the native layer reads -/

section Read

variable (parseFormat : String → Option DiskImageFormat) (hostPaths : HostPaths)
  (process : Process)

/-- The kind that is read of a wire form. -/
def RootDisk.kindRead (d : RootDisk) : Except Exception RootDiskKindSpec :=
  match d.kind, d.path with
  | .managed, _ => .ok .managed
  | .tmpfs, _ => .ok .tmpfs
  | .flat, _ => .ok .flat
  | .disk, some path => (hostPaths.pin process path.1 "root disk image path").map .disk
  | .disk, none => .error (baseError "root_disk disk kind requires path:")

/-- The format that is read of a wire form. -/
def RootDisk.formatRead (d : RootDisk) : Except Exception (Option DiskImageFormat) :=
  d.format.elim (.ok none) fun s => (diskFormatFromStr parseFormat s).map some

/-- A text that was written is parsed. -/
theorem optParsed_map_str {α : Type} {parse : String → Except Exception α} {m : Opts ω}
    {key : String} {s : Option String} (h : m.lookup key = s.map .str) :
    optParsed parse (strEntries m) key = s.elim (.ok none) fun s => (parse s).map some := by
  rw [optParsed, optString_map_str h]
  cases s with
  | none => rfl
  | some s => rfl

/-- The kind is read off the wire form. -/
theorem parseRootDiskKind_wire (d : RootDisk) :
    parseRootDiskKind hostPaths process (strEntries (d.wire : Opts ω)) =
      d.kindRead hostPaths process := by
  have hkind : optString (strEntries (d.wire : Opts ω)) "kind" = .ok (some d.kind.name) :=
    optString_map_str (lookup_wireOf_kind _ _ _ _ _ _)
  have hpath : optString (strEntries (d.wire : Opts ω)) "path" =
      .ok (d.path.map Subtype.val) :=
    optString_map_str (lookup_wireOf_path _ _ _ _ _ _)
  rw [parseRootDiskKind, hkind, hpath]
  unfold RootDisk.kindRead
  cases d.kind with
  | managed => rfl
  | tmpfs => rfl
  | flat => rfl
  | disk =>
    cases d.path with
    | none => rfl
    | some path => rfl

/-- Every way to clone is read from its name. -/
theorem flatCloneFromStr_name (clone : FlatClone) : flatCloneFromStr clone.name = .ok clone := by
  cases clone with
  | auto => rfl
  | copy => rfl
  | reflink => rfl

variable [Numeric ω]

/-- A size that fits is read as a `u32`. -/
theorem tryU32_int {n : ℤ} (h : FitsMib n) :
    tryU32 (.int n : Value ω) = .ok (UInt32.ofNat n.toNat) := by
  have hlt : n.toNat < 2 ^ 32 := by
    have := h.2
    omega
  rw [tryU32_int_eq_ok_iff, isUnsigned_u32.toNat_ofNat _ hlt, Int.toNat_of_nonneg h.1.le]

/-- What is read of a wire form, field by field. -/
theorem parseRootDisk_wire (d : RootDisk) :
    parseRootDisk parseFormat hostPaths process (strHash (d.wire : Opts ω)) = (do
      let kind ← d.kindRead hostPaths process
      let format ← d.formatRead parseFormat
      return { kind, format, fstype := d.fstype, clone := d.clone,
               sizeMib := d.sizeMib.map fun n => UInt32.ofNat n.1.toNat }) := by
  have hclone : optParsed flatCloneFromStr (strEntries (d.wire : Opts ω)) "clone" =
      .ok d.clone := by
    rw [RootDisk.wire, optParsed_map_str (lookup_wireOf_clone _ _ _ _ _ _)]
    cases d.clone with
    | none => rfl
    | some clone =>
      change (flatCloneFromStr clone.name).map some = _
      rw [flatCloneFromStr_name]
      rfl
  have hsize : optU32 (strEntries (d.wire : Opts ω)) "size_mib" =
      .ok (d.sizeMib.map fun n => UInt32.ofNat n.1.toNat) := by
    have hlookup : (d.wire : Opts ω).lookup "size_mib" = (d.sizeMib.map Subtype.val).map .int :=
      lookup_wireOf_sizeMib _ _ _ _ _ _
    cases hsize : d.sizeMib with
    | none =>
      rw [hsize] at hlookup
      exact opt_eq_none hlookup
    | some n =>
      rw [hsize] at hlookup
      exact opt_eq_some hlookup rfl (tryU32_int n.2)
  have hfstype : optString (strEntries (d.wire : Opts ω)) "fstype" = .ok d.fstype :=
    optString_map_str (lookup_wireOf_fstype _ _ _ _ _ _)
  have hformat : optParsed (diskFormatFromStr parseFormat) (strEntries (d.wire : Opts ω))
      "format" = d.formatRead parseFormat :=
    optParsed_map_str (lookup_wireOf_format _ _ _ _ _ _)
  -- Field by field, what is read is what was written.
  change (do
    let kind ← parseRootDiskKind hostPaths process (strEntries (d.wire : Opts ω))
    let format ← optParsed (diskFormatFromStr parseFormat) (strEntries (d.wire : Opts ω)) "format"
    let clone ← optParsed flatCloneFromStr (strEntries (d.wire : Opts ω)) "clone"
    let sizeMib ← optU32 (strEntries (d.wire : Opts ω)) "size_mib"
    let fstype ← optString (strEntries (d.wire : Opts ω)) "fstype"
    return (⟨kind, sizeMib, format, fstype, clone⟩ : RootDiskSpec)) = _
  rw [parseRootDiskKind_wire, hformat, hclone, hsize, hfstype]
  rfl

variable [Methods ω]

/-- The kind without its path. -/
def RootDiskKindSpec.kind : RootDiskKindSpec → RootDiskKind
  | .managed => .managed
  | .tmpfs => .tmpfs
  | .disk _ => .disk
  | .flat => .flat

/-- What is given is present in what is read. A value that is not truthy counts as absent. -/
structure Kept (es : Entries ω) (spec : RootDiskSpec) : Prop where
  kind : RootDiskKind.ofName? (kindGiven es) = some spec.kind.kind
  path : (setting es "path").truthy = true → ∃ path, spec.kind = .disk path ∧
    hostPaths.pin process (setting es "path").toS "root disk image path" = .ok path
  sizeMib : (setting es "size_mib").truthy = true → ∃ mib : UInt32, spec.sizeMib = some mib ∧
    0 < mib.toNat ∧ integer (setting es "size_mib") = .ok mib.toNat
  format : (setting es "format").truthy = true → ∃ format, spec.format = some format ∧
    parseFormat (setting es "format").toS = some format
  fstype : (setting es "fstype").truthy = true → spec.fstype = some (setting es "fstype").toS
  clone : spec.kind = .flat → (setting es "clone").truthy = true →
    ∃ clone, spec.clone = some clone ∧ clone.name = (setting es "clone").toS

/-- An error of the native parser for a wire form: the path of a disk cannot be resolved, or the
core does not know the format. -/
def RefusedNatively (es : Entries ω) (e : Exception) : Prop :=
  RootDiskKind.ofName? (kindGiven es) = some .disk ∧
      hostPaths.pin process (setting es "path").toS "root disk image path" = .error e ∨
    (setting es "format").truthy = true ∧
      diskFormatFromStr parseFormat (setting es "format").toS = .error e

omit [Numeric ω] in
/-- A text that is given has been written. -/
theorem eq_some_of_strIf {v : Value ω} {o : Option String} (h : o.map .str = strIf v)
    (htruthy : v.truthy = true) : o = some v.toS := by
  rw [strIf, if_pos htruthy] at h
  obtain ⟨s, rfl, hs⟩ := Option.map_eq_some_iff.mp h
  rw [Value.str.inj hs]

variable {parseFormat hostPaths process}

omit [Numeric ω] [Methods ω] in
/-- The kind that is read is the one that was written, with the path resolved. -/
theorem kindRead_eq_ok {d : RootDisk} {kind : RootDiskKindSpec}
    (h : d.kindRead hostPaths process = .ok kind) :
    kind.kind = d.kind ∧ ∀ path, d.path = some path → d.kind = .disk → ∃ q, kind = .disk q ∧
      hostPaths.pin process path.1 "root disk image path" = .ok q := by
  unfold RootDisk.kindRead at h
  split at h
  · rename_i hkind
    obtain rfl := Except.ok.inj h
    exact ⟨hkind.symm, fun _ _ hdisk => by rw [hdisk] at hkind; cases hkind⟩
  · rename_i hkind
    obtain rfl := Except.ok.inj h
    exact ⟨hkind.symm, fun _ _ hdisk => by rw [hdisk] at hkind; cases hkind⟩
  · rename_i hkind
    obtain rfl := Except.ok.inj h
    exact ⟨hkind.symm, fun _ _ hdisk => by rw [hdisk] at hkind; cases hkind⟩
  · rename_i path hkind hpath
    obtain ⟨q, hq, rfl⟩ := Except.map_eq_ok_iff.mp h
    refine ⟨hkind.symm, fun path' hpath' _ => ⟨q, rfl, ?_⟩⟩
    rw [← Option.some.inj (hpath.symm.trans hpath')]
    exact hq
  · cases h

omit [Numeric ω] [Methods ω] in
/-- Only a path that cannot be resolved stops the reading of a kind. -/
theorem kindRead_eq_error {d : RootDisk} {e : Exception}
    (h : d.kindRead hostPaths process = .error e) : d.kind = .disk ∧ ∃ path, d.path = some path ∧
      hostPaths.pin process path.1 "root disk image path" = .error e := by
  unfold RootDisk.kindRead at h
  split at h
  · cases h
  · cases h
  · cases h
  · rename_i path hkind hpath
    refine ⟨hkind, path, hpath, ?_⟩
    cases hpin : hostPaths.pin process path.1 "root disk image path" with
    | error e' =>
      rw [hpin] at h
      exact congrArg Except.error (Except.error.inj h)
    | ok q =>
      rw [hpin] at h
      cases h
  · -- a disk has a path
    rename_i hkind hpath
    have hsome := d.path_isSome
    rw [hpath, decide_eq_true hkind] at hsome
    cases hsome

omit [Numeric ω] in
/-- A format that is given is one that the core knows. -/
theorem formatRead_eq_ok {d : RootDisk} {v : Value ω} {o : Option DiskImageFormat}
    (hgiven : d.format.map .str = strIf v) (h : d.formatRead parseFormat = .ok o)
    (htruthy : v.truthy = true) : ∃ format, o = some format ∧ parseFormat v.toS = some format := by
  rw [RootDisk.formatRead, eq_some_of_strIf hgiven htruthy, Option.elim_some] at h
  obtain ⟨format, hformat, rfl⟩ := Except.map_eq_ok_iff.mp h
  exact ⟨format, rfl, diskFormatFromStr_eq_ok_iff.mp hformat⟩

omit [Numeric ω] in
/-- A format is refused because the core does not know it. -/
theorem formatRead_eq_error {d : RootDisk} {v : Value ω} {e : Exception}
    (hgiven : d.format.map .str = strIf v) (h : d.formatRead parseFormat = .error e) :
    v.truthy = true ∧ diskFormatFromStr parseFormat v.toS = .error e := by
  have htruthy : v.truthy = true := by
    by_contra hfalse
    rw [strIf, if_neg hfalse, Option.map_eq_none_iff] at hgiven
    rw [RootDisk.formatRead, hgiven] at h
    cases h
  rw [RootDisk.formatRead, eq_some_of_strIf hgiven htruthy, Option.elim_some] at h
  refine ⟨htruthy, ?_⟩
  cases hformat : diskFormatFromStr parseFormat v.toS with
  | error e' =>
    rw [hformat] at h
    exact congrArg Except.error (Except.error.inj h)
  | ok format =>
    rw [hformat] at h
    cases h

/-- A size that fits 32 bits is kept. -/
theorem toNat_ofNat_of_fitsMib {n : ℤ} (h : FitsMib n) :
    ((UInt32.ofNat n.toNat).toNat : ℤ) = n := by
  obtain ⟨hpos, hle⟩ := h
  rw [UInt32.toNat_ofNat']
  omega

/-- Every field that is given is read. -/
theorem kept_of_fields {es : Entries ω} {d : RootDisk} {kind : RootDiskKindSpec}
    {format : Option DiskImageFormat} (hgiven : RootDiskKind.ofName? (kindGiven es) = some d.kind)
    (h : RootDisk.Fields (setting es) d) (hkind : d.kindRead hostPaths process = .ok kind)
    (hformat : d.formatRead parseFormat = .ok format) :
    Kept parseFormat hostPaths process es {
      kind, format, fstype := d.fstype, clone := d.clone,
      sizeMib := d.sizeMib.map fun n => UInt32.ofNat n.1.toNat } := by
  obtain ⟨hsame, hpinned⟩ := kindRead_eq_ok hkind
  constructor
  · rw [hgiven, hsame]
  · intro htruthy
    -- A path is given for a disk image only.
    have hdisk : d.kind = .disk := by
      by_contra hne
      rw [h.path_truthy hne] at htruthy
      cases htruthy
    obtain ⟨path, hpath, htext⟩ := Option.map_eq_some_iff.mp (h.path hdisk)
    obtain ⟨q, hq, hpin⟩ := hpinned path hpath hdisk
    exact ⟨q, hq, by rw [← htext]; exact hpin⟩
  · intro htruthy
    have hsize := h.sizeMib
    rw [RootDisk.SizeGiven, if_pos htruthy] at hsize
    obtain ⟨n, hn, hint⟩ := hsize
    have hnat := toNat_ofNat_of_fitsMib n.2
    refine ⟨UInt32.ofNat n.1.toNat, by rw [hn]; rfl, ?_, ?_⟩
    · have hpos := n.2.1
      omega
    · rw [hnat]
      exact hint
  · exact formatRead_eq_ok h.format hformat
  · exact eq_some_of_strIf h.fstype
  · intro hflat htruthy
    have hclone := h.clone (by rw [← hsame]; exact congrArg RootDiskKindSpec.kind hflat)
    exact Option.map_eq_some_iff.mp (eq_some_of_strIf hclone htruthy)

/-- The native layer reads every field, or refuses the disk with an error. -/
theorem read_of_fields {es : Entries ω} {d : RootDisk}
    (hkind : RootDiskKind.ofName? (kindGiven es) = some d.kind)
    (h : RootDisk.Fields (setting es) d) :
    (∃ spec, parseRootDisk parseFormat hostPaths process (strHash (d.wire : Opts ω)) = .ok spec ∧
        Kept parseFormat hostPaths process es spec) ∨
      ∃ e, parseRootDisk parseFormat hostPaths process (strHash (d.wire : Opts ω)) = .error e ∧
        RefusedNatively parseFormat hostPaths process es e := by
  rw [parseRootDisk_wire]
  cases hread : d.kindRead hostPaths process with
  | error e =>
    obtain ⟨hdisk, path, hpath, hpin⟩ := kindRead_eq_error hread
    obtain ⟨path', hpath', htext⟩ := Option.map_eq_some_iff.mp (h.path hdisk)
    obtain rfl := Option.some.inj (hpath.symm.trans hpath')
    refine Or.inr ⟨e, rfl, Or.inl ⟨by rw [hkind, hdisk], ?_⟩⟩
    rw [← htext]
    exact hpin
  | ok k =>
    cases hformat : d.formatRead parseFormat with
    | error e => exact Or.inr ⟨e, rfl, Or.inr (formatRead_eq_error h.format hformat)⟩
    | ok format => exact Or.inl ⟨_, rfl, kept_of_fields hkind h hread hformat⟩

end Read

open RootDisk in
/-- A size is taken for a managed disk or refused. For a Hash, normalization raises an
`ArgumentError`, or what the conversion of the size raises, or its result is its own normalization,
and the native layer either refuses that result with an error or reads every field that is given.
What a factory builds is its own normalization. -/
theorem root_disk_settings_kept [Methods ω] [Numeric ω]
    (parseFormat : String → Option DiskImageFormat) (hostPaths : HostPaths) (process : Process) :
    (∀ n : ℤ, FitsMib n → normalizeRootDisk (.int n : Value ω) = .ok (.int n) ∧
      ∃ mib : UInt32, (mib.toNat : ℤ) = n ∧
        parseRootDisk parseFormat hostPaths process (.int n : Value ω) =
          .ok ⟨.managed, some mib, none, none, none⟩) ∧
    (∀ n : ℤ, ¬FitsMib n → RaisesArgumentError (normalizeRootDisk (.int n : Value ω))) ∧
    (∀ (es : Entries ω) (e : Exception), normalizeRootDisk (.hash es) = .error e →
      SizeError (setting es "size_mib") e) ∧
    (∀ (es : Entries ω) (v : Value ω), normalizeRootDisk (.hash es) = .ok v →
      normalizeRootDisk v = .ok v ∧
        ((∃ spec, parseRootDisk parseFormat hostPaths process v = .ok spec ∧
            Kept parseFormat hostPaths process es spec) ∨
          ∃ e, parseRootDisk parseFormat hostPaths process v = .error e ∧
            RefusedNatively parseFormat hostPaths process es e)) ∧
    ∀ (h : Opts ω) (v : Value ω), BuiltByFactory h → normalizeRootDisk (strHash h) = .ok v →
      v = strHash h := by
  refine ⟨?_, ?_, fun es e => normalizeRootDisk_eq_error, ?_, fun h v =>
    eq_of_normalizeRootDisk_factory⟩
  · intro n hfits
    have hcoerce : coerceRootDiskSize (.int n : Value ω) "root_disk:" = .ok n :=
      coerceRootDiskSize_eq_ok_iff.mpr ⟨rfl, hfits⟩
    refine ⟨congrArg (Except.map Value.int) hcoerce, UInt32.ofNat n.toNat, ?_, ?_⟩
    · exact toNat_ofNat_of_fitsMib hfits
    · rw [parseRootDisk, tryU32_int hfits]
  · intro n hfits
    have hraises : coerceRootDiskSize (.int n : Value ω) "root_disk:" = .error (.argumentError
        (s!"root_disk: must be a positive size in MiB that fits in 32 bits " ++
          s!"(got {n})")) := if_neg hfits
    exact ⟨_, congrArg (Except.map Value.int) hraises⟩
  · intro es v hok
    -- what is accepted is the wire form of a root disk, which both layers read back
    obtain ⟨d, hkind, hfields, rfl⟩ := normalizeRootDisk_eq_ok_iff.mp hok
    exact ⟨normalizeRootDisk_wire d, read_of_fields hkind hfields⟩

/-- The formats that the core knows. -/
def coreFormats : String → Option DiskImageFormat
  | "qcow2" => some .qcow2
  | "raw" => some .raw
  | "vmdk" => some .vmdk
  | _ => none

/-- A flat disk with every field that its kind allows. -/
theorem root_disk_settings_kept_flat :
    ∃ v : Value Unit,
      normalizeRootDisk (.hash [(.sym "kind", .sym "flat"), (.str "size_mib", .str "8192"),
        (.sym "fstype", .str "ext4"), (.sym "clone", .sym "reflink")]) = .ok v ∧
      normalizeRootDisk v = .ok v ∧
      parseRootDisk coreFormats ⟨false⟩ ⟨.ok [], fun _ => ""⟩ v =
        .ok ⟨.flat, some 8192, none, some "ext4", some .reflink⟩ ∧
      Kept (ω := Unit) coreFormats ⟨false⟩ ⟨.ok [], fun _ => ""⟩ [(.sym "kind", .sym "flat"),
        (.str "size_mib", .str "8192"), (.sym "fstype", .str "ext4"),
        (.sym "clone", .sym "reflink")] ⟨.flat, some 8192, none, some "ext4", some .reflink⟩ := by
  obtain ⟨-, -, -, hkept, -⟩ :=
    root_disk_settings_kept (ω := Unit) coreFormats ⟨false⟩ ⟨.ok [], fun _ => ""⟩
  obtain ⟨hagain, hread⟩ := hkept [(.sym "kind", .sym "flat"), (.str "size_mib", .str "8192"),
    (.sym "fstype", .str "ext4"), (.sym "clone", .sym "reflink")] _ rfl
  have hspec := parseRootDisk_wire (ω := Unit) coreFormats ⟨false⟩ ⟨.ok [], fun _ => ""⟩
    { kind := .flat, path := none, sizeMib := some ⟨8192, by decide⟩, format := none
      fstype := some "ext4", clone := some .reflink, path_isSome := rfl
      sizeMib_eq_none := by rintro ⟨⟩
      format_eq_none := fun _ => rfl
      fstype_eq_none := by rintro (h | h) <;> cases h
      clone_eq_none := fun h => absurd rfl h }
  refine ⟨_, rfl, hagain, hspec, ?_⟩
  obtain ⟨spec, hok, hkept⟩ | ⟨e, herror, -⟩ := hread
  · obtain rfl := Except.ok.inj (hspec.symm.trans hok)
    exact hkept
  · cases hspec.symm.trans herror

/-- A size of another class raises a `TypeError`, and a format that the core does not know is only
refused by the native layer. -/
theorem normalizeRootDisk_not_only_argument_errors :
    normalizeRootDisk (.hash [(.sym "size_mib", .arr [])] : Value Unit) =
        .error (.typeError "Integer") ∧
      ∃ (v : Value Unit) (e : Exception),
        normalizeRootDisk (.hash [(.sym "kind", .str "disk"), (.sym "path", .str "/x.img"),
          (.sym "format", .str "vhdx")]) = .ok v ∧
        parseRootDisk coreFormats ⟨true⟩ ⟨.ok [], fun _ => ""⟩ v = .error e :=
  ⟨rfl, _, _, rfl, rfl⟩

end MicrosandboxRb.Native
