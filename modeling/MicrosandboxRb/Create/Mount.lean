import MicrosandboxRb.Create.HostPath
import MicrosandboxRb.Lib.ExceptList
import MicrosandboxRb.Network.Native

/-!
# Volume mounts: the native layer

The `volumes` option of `build_builder` (`sandbox.rs`): each mount is read from a Hash with String
keys, and the builder of the core is told about it in a closure, whose calls are listed in order.

## Main definitions

* `parseMount`: what is read of one mount;
* `MountSpec.apply`: the calls on the core's `MountBuilder`.
-/

namespace MicrosandboxRb.Native

open Ruby Conv RustPath

variable {ω : Type}

/-! ## Enums -/

/-- The formats of a disk image. -/
inductive DiskImageFormat where
  | qcow2
  | raw
  | vmdk
deriving DecidableEq, Repr

/-- How strictly the ownership of files is virtualized. -/
inductive StatVirtualization where
  | strict
  | relaxed
  | off
deriving DecidableEq, Repr

/-- How permissions are written to the host. -/
inductive HostPermissions where
  | onlyOwner
  | mirror
deriving DecidableEq, Repr

/-- `s.parse::<DiskImageFormat>()` of the core, with an error that lists the options. -/
def diskFormatFromStr (parse : String → Option DiskImageFormat) (s : String) :
    Except Exception DiskImageFormat :=
  match parse s with
  | some format => .ok format
  | none => .error (baseError s!"unknown disk format {RustStr.debug s} (expected qcow2/raw/vmdk)")

/-- A format is parsed by the core. -/
theorem diskFormatFromStr_eq_ok_iff {parse : String → Option DiskImageFormat} {s : String}
    {format : DiskImageFormat} : diskFormatFromStr parse s = .ok format ↔ parse s = some format := by
  unfold diskFormatFromStr
  cases parse s with
  | some f => simp
  | none => simp

/-- `stat_virtualization_from_str`. -/
def statVirtualizationFromStr (s : String) : Except Exception StatVirtualization :=
  match s with
  | "strict" => .ok .strict
  | "relaxed" => .ok .relaxed
  | "off" => .ok .off
  | other =>
    .error (baseError
      s!"unknown stat_virtualization {RustStr.debug other} (expected strict/relaxed/off)")

/-- `host_permissions_from_str`. -/
def hostPermissionsFromStr (s : String) : Except Exception HostPermissions :=
  match s with
  | "private" => .ok .onlyOwner
  | "mirror" => .ok .mirror
  | other =>
    .error (baseError s!"unknown host_permissions {RustStr.debug other} (expected private/mirror)")

/-- `opt_string(..)?.map(parse).transpose()?` -/
def optParsed {α : Type} (parse : String → Except Exception α) (hash : RHash ω) (key : String) :
    Except Exception (Option α) := do
  match ← optString hash key with
  | some s => (parse s).map some
  | none => .ok none

/-! ## Mounts -/

/-- What backs a volume mount, with any host path already pinned. -/
inductive MountBacking where
  | bind (host : Path)
  | disk (host : Path)
  | named (name : String)
  | tmpfs
deriving DecidableEq, Repr

/-- What is read of one mount. -/
structure MountSpec where
  guest : String
  backing : MountBacking
  sizeMib : Option UInt32
  quotaMib : Option UInt32
  fstype : Option String
  readonly : Bool
  noexec : Bool
  nosuid : Bool
  nodev : Bool
  format : Option DiskImageFormat
  statVirt : Option StatVirtualization
  hostPerms : Option HostPermissions
  overrideUid : Option UInt32
  overrideGid : Option UInt32
  followRootSymlinks : Option Bool

/-- A method of the core's `MountBuilder`. -/
inductive MountCall where
  | bind (host : Path)
  | disk (host : Path)
  | named (name : String)
  | tmpfs
  | size (mib : UInt32)
  | quota (mib : UInt32)
  | format (format : DiskImageFormat)
  | fstype (fstype : String)
  | readonly
  | noexec
  | nosuid
  | nodev
  | statVirtualization (policy : StatVirtualization)
  | hostPermissions (policy : HostPermissions)
  | owner (uid gid : UInt32)
  | followRootSymlinks (follow : Bool)
deriving DecidableEq, Repr

/-- A bind or a disk source is a host path; a named source is a volume name and is never
resolved. -/
def mountBacking (hostPaths : HostPaths) (process : Process) (kind : String)
    (source : Option String) : Except Exception MountBacking :=
  match kind, source with
  | "bind", some host => (hostPaths.pin process host "bind mount host path").map .bind
  | "disk", some host => (hostPaths.pin process host "disk mount host path").map .disk
  | "named", some name => .ok (.named name)
  -- these kinds cannot do without a source
  | "bind", none | "named", none | "disk", none =>
    .error (baseError s!"volume mount kind {RustStr.debug kind} requires a source")
  -- a source that comes with it is not looked at
  | "tmpfs", _ => .ok .tmpfs
  | other, _ =>
    .error (baseError
      s!"unknown volume mount kind {RustStr.debug other} (expected bind/named/tmpfs/disk)")

/-- Read a required string of a mount. -/
def mountStr (m : RHash ω) (key : String) : Except Exception String := do
  match ← optString m key with
  | some s => return s
  | none => throw (baseError s!"volume mount is missing :{key}")

/-- Read one mount. -/
def parseMount [Numeric ω] (parseFormat : String → Option DiskImageFormat) (hostPaths : HostPaths)
    (process : Process) (m : RHash ω) : Except Exception MountSpec := do
  let guest ← mountStr m "guest"
  let kind ← mountStr m "kind"
  let source ← optString m "source"
  let sizeMib ← optU32 m "size_mib"
  let quotaMib ← optU32 m "quota_mib"
  let fstype ← optString m "fstype"
  let readonly ← optBool m "readonly"
  let noexec ← optBool m "noexec"
  let nosuid ← optBool m "nosuid"
  let nodev ← optBool m "nodev"
  let format ← optParsed (diskFormatFromStr parseFormat) m "format"
  let statVirt ← optParsed statVirtualizationFromStr m "stat_virtualization"
  let hostPerms ← optParsed hostPermissionsFromStr m "host_permissions"
  let overrideUid ← optU32 m "override_uid"
  let overrideGid ← optU32 m "override_gid"
  let followRootSymlinks ← opt tryBool m "follow_root_symlinks"
  -- the source is resolved after every option has been read
  let backing ← mountBacking hostPaths process kind source
  return { guest, backing, sizeMib, quotaMib, fstype, readonly, noexec, nosuid, nodev, format,
           statVirt, hostPerms, overrideUid, overrideGid, followRootSymlinks }

/-- The call that names what backs a mount. -/
def MountBacking.call : MountBacking → MountCall
  | .bind host => .bind host
  | .disk host => .disk host
  | .named name => .named name
  | .tmpfs => .tmpfs

/-- A call that is made under a condition. -/
def callIf (b : Bool) (call : MountCall) : List MountCall := if b then [call] else []

/-- `if let (Some(uid), Some(gid)) = … { mb = mb.owner(uid, gid) }` -/
def MountSpec.ownerCalls (spec : MountSpec) : List MountCall :=
  match spec.overrideUid, spec.overrideGid with
  | some uid, some gid => [.owner uid gid]
  | _, _ => []

/-- The calls on the `MountBuilder`. -/
def MountSpec.apply (spec : MountSpec) : List MountCall :=
  [spec.backing.call] ++ (spec.sizeMib.map .size).toList ++ (spec.quotaMib.map .quota).toList ++
    (spec.format.map .format).toList ++ (spec.fstype.map .fstype).toList ++
    callIf spec.readonly .readonly ++ callIf spec.noexec .noexec ++ callIf spec.nosuid .nosuid ++
    callIf spec.nodev .nodev ++ (spec.statVirt.map .statVirtualization).toList ++
    (spec.hostPerms.map .hostPermissions).toList ++ spec.ownerCalls ++
    (spec.followRootSymlinks.map .followRootSymlinks).toList

/-! ## What a mount reads -/

/-- Each field is what its key holds. -/
structure MountSpec.Of [Numeric ω] (parseFormat : String → Option DiskImageFormat)
    (hostPaths : HostPaths) (process : Process) (m : RHash ω) (k : String) (src : Option String)
    (spec : MountSpec) : Prop where
  guest : optString m "guest" = .ok (some spec.guest)
  kind : optString m "kind" = .ok (some k)
  source : optString m "source" = .ok src
  sizeMib : optU32 m "size_mib" = .ok spec.sizeMib
  quotaMib : optU32 m "quota_mib" = .ok spec.quotaMib
  fstype : optString m "fstype" = .ok spec.fstype
  readonly : optBool m "readonly" = .ok spec.readonly
  noexec : optBool m "noexec" = .ok spec.noexec
  nosuid : optBool m "nosuid" = .ok spec.nosuid
  nodev : optBool m "nodev" = .ok spec.nodev
  format : optParsed (diskFormatFromStr parseFormat) m "format" = .ok spec.format
  statVirt : optParsed statVirtualizationFromStr m "stat_virtualization" = .ok spec.statVirt
  hostPerms : optParsed hostPermissionsFromStr m "host_permissions" = .ok spec.hostPerms
  overrideUid : optU32 m "override_uid" = .ok spec.overrideUid
  overrideGid : optU32 m "override_gid" = .ok spec.overrideGid
  followRootSymlinks : opt tryBool m "follow_root_symlinks" = .ok spec.followRootSymlinks
  backing : mountBacking hostPaths process k src = .ok spec.backing

/-- A text that has to be there is an optional one that is there. -/
theorem optString_of_mountStr {m : RHash ω} {key s : String} (h : mountStr m key = .ok s) :
    optString m key = .ok (some s) := by
  obtain ⟨o, ho, h⟩ := Except.bind_eq_ok_iff.mp h
  cases o with
  | none => cases h
  | some s' =>
    obtain rfl := Except.ok.inj h
    exact ho

/-- What is read of a mount, field by field. -/
theorem exists_of_parseMount [Numeric ω] {parseFormat : String → Option DiskImageFormat}
    {hostPaths : HostPaths} {process : Process} {m : RHash ω} {spec : MountSpec}
    (h : parseMount parseFormat hostPaths process m = .ok spec) :
    ∃ kind source, spec.Of parseFormat hostPaths process m kind source := by
  unfold parseMount at h
  obtain ⟨guest, hguest, h⟩ := Except.bind_eq_ok_iff.mp h
  obtain ⟨kind, hkind, h⟩ := Except.bind_eq_ok_iff.mp h
  obtain ⟨source, hsource, h⟩ := Except.bind_eq_ok_iff.mp h
  obtain ⟨sizeMib, hsizeMib, h⟩ := Except.bind_eq_ok_iff.mp h
  obtain ⟨quotaMib, hquotaMib, h⟩ := Except.bind_eq_ok_iff.mp h
  obtain ⟨fstype, hfstype, h⟩ := Except.bind_eq_ok_iff.mp h
  obtain ⟨readonly, hreadonly, h⟩ := Except.bind_eq_ok_iff.mp h
  obtain ⟨noexec, hnoexec, h⟩ := Except.bind_eq_ok_iff.mp h
  obtain ⟨nosuid, hnosuid, h⟩ := Except.bind_eq_ok_iff.mp h
  obtain ⟨nodev, hnodev, h⟩ := Except.bind_eq_ok_iff.mp h
  obtain ⟨format, hformat, h⟩ := Except.bind_eq_ok_iff.mp h
  obtain ⟨statVirt, hstatVirt, h⟩ := Except.bind_eq_ok_iff.mp h
  obtain ⟨hostPerms, hhostPerms, h⟩ := Except.bind_eq_ok_iff.mp h
  obtain ⟨overrideUid, hoverrideUid, h⟩ := Except.bind_eq_ok_iff.mp h
  obtain ⟨overrideGid, hoverrideGid, h⟩ := Except.bind_eq_ok_iff.mp h
  obtain ⟨followRootSymlinks, hfollow, h⟩ := Except.bind_eq_ok_iff.mp h
  obtain ⟨backing, hbacking, h⟩ := Except.bind_eq_ok_iff.mp h
  obtain rfl := Except.ok.inj h
  exact ⟨kind, source, {
    guest := optString_of_mountStr hguest, kind := optString_of_mountStr hkind, source := hsource
    sizeMib := hsizeMib, quotaMib := hquotaMib, fstype := hfstype, readonly := hreadonly
    noexec := hnoexec, nosuid := hnosuid, nodev := hnodev, format := hformat
    statVirt := hstatVirt, hostPerms := hhostPerms, overrideUid := hoverrideUid
    overrideGid := hoverrideGid, followRootSymlinks := hfollow, backing := hbacking }⟩

end MicrosandboxRb.Native
