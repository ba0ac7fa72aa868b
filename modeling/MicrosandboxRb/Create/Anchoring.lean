import MicrosandboxRb.Create.Builder
import MicrosandboxRb.Lib.RubySplit
import MicrosandboxRb.Lib.TwoRuns

/-!
# Host paths of a create call

A create call on a local backend against the same call on a cloud backend, which hands every path
over as it is written. The two make the same calls of the core's builder, where the local one has
anchored the host paths, and nothing else, to the working directory.

## Main definitions

* `anchor`: a path of this host, seen from a directory;
* `BuilderCall.anchor`: a call of the builder with the host paths in it anchored;
* `BuilderCall.hostPaths`: the host paths in a call.

## Main results

* `host_paths_anchored`: the calls of a local backend are those of a cloud backend, anchored, and no
  later directory changes them.
-/

namespace MicrosandboxRb.Native

open Ruby Conv RustPath TwoRuns Secrets
open Patches (Patch parsePatch parsePatches patchOf)

variable {ω : Type} {T : BuilderTypes}

/-! ## Paths -/

/-- A path of this host: an empty or an absolute one stays, a relative one is put after `dir`. -/
def anchor (dir p : Path) : Path := if p = [] ∨ isAbsolute p = true then p else anchored dir p

/-- A path that is not relative is not moved. -/
theorem anchor_of_nil_or_isAbsolute {p : Path} (h : p = [] ∨ isAbsolute p = true) (dir : Path) :
    anchor dir p = p :=
  if_pos h

section Directory

variable {dir : Path}

/-- What `anchor` makes of a path is what the core takes it for. -/
theorem anchored_anchor (hdir : isAbsolute dir = true) (p : Path) :
    Anchored dir p (anchor dir p) := by
  unfold anchor
  split
  · exact .unchanged ‹_› rfl
  · rename_i h
    rw [not_or, Bool.not_eq_true] at h
    refine .resolved h.1 h.2 (absolute_eq_anchored h.1 h.2) (isAbsolute_anchored hdir p) ?_
    rw [components_anchored hdir, stripCurDir_components h.2]

/-- An anchored path is not relative. -/
theorem anchor_nil_or_isAbsolute (hdir : isAbsolute dir = true) (p : Path) :
    anchor dir p = [] ∨ isAbsolute (anchor dir p) = true :=
  (anchored_anchor hdir p).nil_or_isAbsolute

/-- An anchored path is not anchored again. -/
theorem anchor_anchor (hdir : isAbsolute dir = true) (dir' p : Path) :
    anchor dir' (anchor dir p) = anchor dir p :=
  anchor_of_nil_or_isAbsolute (anchor_nil_or_isAbsolute hdir p) dir'

end Directory

/-! ### Text -/

/-- A path that is valid UTF-8. -/
def IsText (p : Path) : Prop := ∃ s, ofString s = p

/-- A String is valid UTF-8. -/
theorem isText_ofString (s : String) : IsText (ofString s) := ⟨s, rfl⟩

/-- A path has no text if and only if it is not valid UTF-8. -/
theorem toString?_eq_none_iff {p : Path} : toString? p = none ↔ ¬IsText p := by
  constructor
  · rintro h ⟨s, rfl⟩
    rw [toString?_ofString] at h
    cases h
  · intro h
    rw [Option.eq_none_iff_forall_ne_some]
    exact fun s hs => h ⟨s, ofString_of_toString?_eq_some hs⟩

/-- Texts put together are a text. -/
theorem IsText.append {p q : Path} (hp : IsText p) (hq : IsText q) : IsText (p ++ q) := by
  obtain ⟨s, rfl⟩ := hp
  obtain ⟨t, rfl⟩ := hq
  exact ⟨s ++ t, ofString_append s t⟩

/-- A text pushed onto a text gives a text. -/
theorem IsText.push {p q : Path} (hp : IsText p) (hq : IsText q) : IsText (push p q) := by
  unfold RustPath.push
  split
  · exact hq
  · split
    · exact hp.append hq
    · exact hp.append (IsText.append ⟨"/", rfl⟩ hq)

/-- A component of a text is one, since a slash is a character of its own. -/
theorem isText_bytes {s : String} {c : Component} (h : c ∈ parts (ofString s)) :
    IsText c.bytes := by
  obtain ⟨chunk, hmem, hc⟩ := List.mem_filterMap.mp h
  rw [splitOn_ofString] at hmem
  obtain ⟨segment, -, rfl⟩ := List.mem_map.mp hmem
  exact ⟨segment, (bytes_of_ofChunk hc).symm⟩

/-- A text that is anchored to a directory that is one is a text. -/
theorem IsText.anchor {dir : Path} (hdir : IsText dir) (s : String) :
    IsText (anchor dir (ofString s)) := by
  have hfold : ∀ (cs : List Component) (p : Path), (∀ c ∈ cs, IsText c.bytes) → IsText p →
      IsText (cs.foldl (fun q c => RustPath.push q c.bytes) p) := by
    intro cs
    induction cs with
    | nil => exact fun p _ hp => hp
    | cons c cs ih =>
      intro p hcs hp
      exact ih _ (fun d hd => hcs d (List.mem_cons_of_mem c hd))
        (hp.push (hcs c List.mem_cons_self))
  have hparts := hfold (parts (ofString s)) dir (fun _ => isText_bytes) hdir
  unfold Native.anchor
  split
  · exact isText_ofString s
  · unfold anchored
    split
    · exact hparts.push ⟨"", rfl⟩
    · exact hparts

/-! ## Calls -/

/-- Whether the core takes an image text for a relative path of this host. -/
def relativeLocal (intoRootfsSource : String → Except String RootfsSource) (s : String) : Bool :=
  match intoRootfsSource s with
  | .ok source => source.localPath?.any fun path => !isAbsolute path
  | .error _ => false

section Anchor

variable (intoRootfsSource : String → Except String RootfsSource) (dir : Path)

/-- An image that the core takes for a relative path is handed over as a path. -/
def Image.anchor : Image → Image
  | .text s =>
    if relativeLocal intoRootfsSource s then .path (Native.anchor dir (ofString s)) else .text s
  | .path p => .path (Native.anchor dir p)

/-- A snapshot that is a path, rather than a name or a digest. An anchored path that is not valid
UTF-8 has no text; no call is made for it. -/
def anchorSnapshot (snapshot : String) : String :=
  if HostPaths.pathLike snapshot then (toString? (anchor dir (ofString snapshot))).getD ""
  else snapshot

/-- The sources of bind and disk mounts are on this host. -/
def MountBacking.anchor : MountBacking → MountBacking
  | .bind host => .bind (Native.anchor dir host)
  | .disk host => .disk (Native.anchor dir host)
  | backing => backing

/-- So they are in the calls on the builder of a mount. -/
def MountCall.anchor : MountCall → MountCall
  | .bind host => .bind (Native.anchor dir host)
  | .disk host => .disk (Native.anchor dir host)
  | call => call

/-- The source of a copy is on this host, its destination is not. -/
def anchorPatch : Patch → Patch
  | .copyFile src dst mode replace => .copyFile (anchor dir src) dst mode replace
  | .copyDir src dst replace => .copyDir (anchor dir src) dst replace
  | patch => patch

/-- The three certificate files are on this host. -/
def TlsCall.anchor : TlsCall → TlsCall
  | .upstreamCaCert path => .upstreamCaCert (Native.anchor dir path)
  | .interceptCaCert path => .interceptCaCert (Native.anchor dir path)
  | .interceptCaKey path => .interceptCaKey (Native.anchor dir path)
  | call => call

/-- Of the network settings, those of TLS name files. -/
def NetworkCall.anchor : NetworkCall T → NetworkCall T
  | .tls calls => .tls (calls.map (TlsCall.anchor dir))
  | call => call

/-- Of the root disks, a disk image is a file. -/
def RootDiskKindSpec.anchor : RootDiskKindSpec → RootDiskKindSpec
  | .disk path => .disk (Native.anchor dir path)
  | kind => kind

/-- And so it is in the calls on the builder of a root disk. -/
def RootDiskCall.anchor : RootDiskCall → RootDiskCall
  | .diskImage path => .diskImage (Native.anchor dir path)
  | call => call

/-- A call with the host paths in it anchored. -/
def BuilderCall.anchor : BuilderCall T → BuilderCall T
  | .imageDisk path fstype => .imageDisk (Native.anchor dir path) fstype
  | .image i => .image (i.anchor intoRootfsSource dir)
  | .fromSnapshot snapshot => .fromSnapshot (anchorSnapshot dir snapshot)
  | .volume guest calls => .volume guest (calls.map (MountCall.anchor dir))
  | .addPatch patch => .addPatch (anchorPatch dir patch)
  | .network calls => .network (calls.map (NetworkCall.anchor dir))
  | .rootDiskWith calls => .rootDiskWith (calls.map (RootDiskCall.anchor dir))
  | call => call

/-! ### The host paths of a call -/

/-- The path that the core takes an image for. -/
def Image.hostPaths : Image → List Path
  | .text s =>
    match intoRootfsSource s with
    | .ok source => source.localPath?.toList
    | .error _ => []
  | .path p => [p]

/-- The host path in a call on the builder of a mount. -/
def MountCall.hostPaths : MountCall → List Path
  | .bind host | .disk host => [host]
  | _ => []

/-- The source of a copy. -/
def patchHostPaths : Patch → List Path
  | .copyFile src _ _ _ | .copyDir src _ _ => [src]
  | _ => []

/-- The certificate file in a call. -/
def TlsCall.hostPaths : TlsCall → List Path
  | .upstreamCaCert path | .interceptCaCert path | .interceptCaKey path => [path]
  | _ => []

/-- The certificate files of a network setting. -/
def NetworkCall.hostPaths : NetworkCall T → List Path
  | .tls calls => calls.flatMap TlsCall.hostPaths
  | _ => []

/-- The file of a disk image. -/
def RootDiskCall.hostPaths : RootDiskCall → List Path
  | .diskImage path => [path]
  | _ => []

/-- The host paths in a call of the builder. -/
def BuilderCall.hostPaths : BuilderCall T → List Path
  | .imageDisk path _ => [path]
  | .image i => i.hostPaths intoRootfsSource
  | .fromSnapshot snapshot =>
    if HostPaths.pathLike snapshot then [ofString snapshot] else []
  | .volume _ calls => calls.flatMap MountCall.hostPaths
  | .addPatch patch => patchHostPaths patch
  | .network calls => calls.flatMap NetworkCall.hostPaths
  | .rootDiskWith calls => calls.flatMap RootDiskCall.hostPaths
  | _ => []

end Anchor

/-! ## The two backends -/

section Backends

variable {process : Process} {dir : Path} {here there : HostPaths}

/-- A snapshot path is refused where the working directory is not valid UTF-8. -/
def SnapshotRefused (process : Process) (dir : Path) (e : Exception) : Prop :=
  ¬IsText dir ∧ ∃ path, e = invalidConfig (
    s!"cannot resolve snapshot path {process.display path}: " ++
      "the current directory is not valid UTF-8")

/-- What a part of the builder does on this host, against what it does on a cloud backend. -/
abbrev Pinned {α : Type} (process : Process) (dir : Path) (anchor : α → α)
    (here there : Except Exception α) : Prop :=
  AgreeUnless (SnapshotRefused process dir) (fun handed given => handed = anchor given) here there

/-- A call for an option that may be absent, which names no host path. -/
theorem map_toList_map {α β : Type} (f : β → β) (call : α → β) (o : Option α)
    (h : ∀ a, f (call a) = call a) : (o.map call).toList.map f = (o.map call).toList := by
  cases o with
  | none => rfl
  | some a => exact congrArg (fun b => [b]) (h a)

/-- A list is pinned element by element. -/
theorem pinned_mapM {α β : Type} {f : β → β} {g g' : α → Except Exception β} {xs : List α}
    (h : ∀ a, Pinned process dir f (g a) (g' a)) :
    Pinned process dir (List.map f) (xs.mapM g) (xs.mapM g') := by
  refine (agree_mapM (List.forall₂_same.mpr fun a _ => h a)).mono (fun _ he => he) ?_
  intro handed given hall
  induction hall with
  | nil => rfl
  | cons hb _ ih => rw [hb, ih, List.map_cons]

variable (hcur : process.currentDir = .ok dir) (hlocal : here.isLocal = true)
  (hremote : there.isLocal = false)

include hcur hlocal

omit hremote in
/-- On a local backend a path is anchored to the working directory. -/
theorem pin_of_isLocal (raw label : String) :
    here.pin process raw label = .ok (anchor dir (ofString raw)) := by
  rw [HostPaths.pin, hlocal, anchor]
  by_cases hkept : ofString raw = [] ∨ isAbsolute (ofString raw) = true
  · rw [if_pos hkept, if_pos (by rcases hkept with h | h <;> simp [h])]
  · rw [if_neg hkept]
    rw [not_or, Bool.not_eq_true] at hkept
    rw [if_neg (by simp [hkept.1, hkept.2]), hcur, absolute_eq_anchored hkept.1 hkept.2]

include hremote

/-- An image is anchored where the core takes it for a relative path. -/
theorem pinned_pinImage (intoRootfsSource : String → Except String RootfsSource) (raw : String) :
    Pinned process dir (Image.anchor intoRootfsSource dir)
      (here.pinImage process intoRootfsSource raw)
      (there.pinImage process intoRootfsSource raw) := by
  have hthere : there.pinImage process intoRootfsSource raw = .ok (.text raw) := by
    rw [HostPaths.pinImage, hremote]
    rfl
  have hhere : here.pinImage process intoRootfsSource raw =
      if relativeLocal intoRootfsSource raw then (here.pin process raw "rootfs path").map .path
      else .ok (.text raw) := by
    rw [HostPaths.pinImage, hlocal]
    rfl
  rw [hthere, hhere, pin_of_isLocal hcur hlocal]
  by_cases hrelative : relativeLocal intoRootfsSource raw = true
  · rw [if_pos hrelative]
    exact .ok (if_pos hrelative).symm
  · rw [if_neg hrelative]
    exact .ok (if_neg hrelative).symm

/-- A snapshot is anchored where it is a path, and refused where that has no text. -/
theorem pinned_pinSnapshot (raw : String) :
    Pinned process dir (anchorSnapshot dir) (here.pinSnapshot process raw)
      (there.pinSnapshot process raw) := by
  have hthere : there.pinSnapshot process raw = .ok raw := by
    rw [HostPaths.pinSnapshot, hremote]
    rfl
  rw [hthere, HostPaths.pinSnapshot, hlocal]
  by_cases hpath : HostPaths.pathLike raw = true
  · rw [if_neg (by simp [hpath]), pin_of_isLocal hcur hlocal, Except.ok_bind]
    cases htext : toString? (anchor dir (ofString raw)) with
    | some s =>
      refine .ok ?_
      rw [anchorSnapshot, if_pos hpath, htext, Option.getD_some]
    | none =>
      have hdir : ¬IsText dir := fun h => toString?_eq_none_iff.mp htext (h.anchor raw)
      exact .refused ⟨hdir, _, rfl⟩ _
  · rw [if_pos (by simp [hpath])]
    exact .ok (if_neg hpath).symm

/-! ### Mounts -/

/-- The backing of a mount. -/
theorem pinned_mountBacking (kind : String) (source : Option String) :
    Pinned process dir (MountBacking.anchor dir) (mountBacking here process kind source)
      (mountBacking there process kind source) := by
  unfold mountBacking
  split
  · rw [pin_of_isLocal hcur hlocal, HostPaths.pin_of_not_isLocal hremote]
    exact .ok rfl
  · rw [pin_of_isLocal hcur hlocal, HostPaths.pin_of_not_isLocal hremote]
    exact .ok rfl
  · exact .ok rfl
  · exact .error _
  · exact .error _
  · exact .error _
  · exact .ok rfl
  · exact .error _

/-- A mount differs in its backing alone. -/
theorem pinned_parseMount [Numeric ω] (parseFormat : String → Option DiskImageFormat)
    (m : RHash ω) :
    Pinned process dir (fun spec => { spec with backing := spec.backing.anchor dir })
      (parseMount parseFormat here process m) (parseMount parseFormat there process m) := by
  unfold parseMount
  -- every key is read alike, and the backing is made last
  iterate 16 refine AgreeUnless.bind_same fun _ => ?_
  refine (pinned_mountBacking hcur hlocal hremote _ _).bind ?_
  rintro _ backing rfl
  exact .ok rfl

omit hcur hlocal hremote in
/-- Of the calls for a mount, the first one names what backs it. -/
theorem apply_anchor (spec : MountSpec) :
    ({ spec with backing := spec.backing.anchor dir } : MountSpec).apply =
      spec.apply.map (MountCall.anchor dir) := by
  -- only the backing of a mount holds a host path
  have hcall : (spec.backing.anchor dir).call = spec.backing.call.anchor dir := by
    cases spec.backing <;> rfl
  have howner : spec.ownerCalls.map (MountCall.anchor dir) = spec.ownerCalls := by
    unfold MountSpec.ownerCalls
    split <;> rfl
  have hflag : ∀ (b : Bool) (call : MountCall), call.anchor dir = call →
      (callIf b call).map (MountCall.anchor dir) = callIf b call := by
    intro b call h
    cases b with
    | false => rfl
    | true => exact congrArg (fun c => [c]) h
  have hopt {α : Type} := map_toList_map (α := α) (MountCall.anchor dir)
  unfold MountSpec.apply
  rw [List.map_append, List.map_append, List.map_append, List.map_append, List.map_append,
    List.map_append, List.map_append, List.map_append, List.map_append, List.map_append,
    List.map_append, List.map_append, howner, hflag _ .readonly rfl, hflag _ .noexec rfl,
    hflag _ .nosuid rfl, hflag _ .nodev rfl, hopt .size _ fun _ => rfl,
    hopt .quota _ fun _ => rfl, hopt .format _ fun _ => rfl, hopt .fstype _ fun _ => rfl,
    hopt .statVirtualization _ fun _ => rfl, hopt .hostPermissions _ fun _ => rfl,
    hopt .followRootSymlinks _ fun _ => rfl, hcall]
  rfl

/-! ### Patches -/

/-- A patch differs in the source of a copy alone. -/
theorem pinned_patchOf (h : RHash ω) (kind : String) (mode : Option UInt32) (replace : Bool) :
    Pinned process dir (anchorPatch dir) (patchOf here process h kind mode replace)
      (patchOf there process h kind mode replace) := by
  have hpin : ∀ raw label, here.pin process raw label = .ok (anchor dir (ofString raw)) :=
    pin_of_isLocal hcur hlocal
  have hgiven : ∀ raw label, there.pin process raw label = .ok (ofString raw) :=
    HostPaths.pin_of_not_isLocal hremote
  unfold patchOf
  split
  · exact .bind_same fun _ => .bind_same fun _ => .ok rfl
  · exact .bind_same fun _ => .bind_same fun _ => .ok rfl
  · exact .bind_same fun _ => .bind_same fun _ => .ok rfl
  · refine .bind_same fun raw => ?_
    rw [hpin, hgiven, Except.ok_bind, Except.ok_bind]
    exact .bind_same fun _ => .ok rfl
  · refine .bind_same fun raw => ?_
    rw [hpin, hgiven, Except.ok_bind, Except.ok_bind]
    exact .bind_same fun _ => .ok rfl
  · exact .bind_same fun _ => .bind_same fun _ => .ok rfl
  · exact .bind_same fun _ => .ok rfl
  · exact .bind_same fun _ => .ok rfl
  · exact .error _

/-- The patches, in their order. -/
theorem pinned_parsePatches [Numeric ω] (opts : RHash ω) :
    Pinned process dir (List.map (anchorPatch dir)) (parsePatches here process opts)
      (parsePatches there process opts) := by
  refine .bind_same fun hashes => pinned_mapM fun h => ?_
  refine .bind_same fun kind => .bind_same fun mode => .bind_same fun replace => ?_
  exact pinned_patchOf hcur hlocal hremote h kind mode replace

/-! ### Certificates -/

/-- An optional text that names a host path. -/
theorem pinned_optParsed_pin (h : RHash ω) (key label : String) :
    Pinned process dir (Option.map (anchor dir))
      (optParsed (fun path => here.pin process path label) h key)
      (optParsed (fun path => there.pin process path label) h key) := by
  refine .bind_same fun o => ?_
  cases o with
  | none => exact .ok rfl
  | some raw =>
    dsimp only
    rw [pin_of_isLocal hcur hlocal, HostPaths.pin_of_not_isLocal hremote]
    exact .ok rfl

/-- The TLS settings differ in three files. -/
theorem pinned_parseTls [Numeric ω] (t : RHash ω) :
    Pinned process dir (List.map (TlsCall.anchor dir)) (parseTls here process t)
      (parseTls there process t) := by
  have hopt {α : Type} := map_toList_map (α := α) (TlsCall.anchor dir)
  have hpath : ∀ (call : Path → TlsCall) (o : Option Path),
      (∀ p, (call p).anchor dir = call (anchor dir p)) →
        (o.map call).toList.map (TlsCall.anchor dir) = ((o.map (anchor dir)).map call).toList := by
    intro call o h
    cases o with
    | none => rfl
    | some p => exact congrArg (fun c => [c]) (h p)
  unfold parseTls
  -- the first four settings hold no path, the last three do
  refine .bind_same fun bypass => .bind_same fun verifyUpstream => .bind_same fun ports =>
    .bind_same fun blockQuic => ?_
  refine (pinned_optParsed_pin hcur hlocal hremote _ _ _).bind ?_
  rintro _ upstreamCaCert rfl
  refine (pinned_optParsed_pin hcur hlocal hremote _ _ _).bind ?_
  rintro _ interceptCaCert rfl
  refine (pinned_optParsed_pin hcur hlocal hremote _ _ _).bind ?_
  rintro _ interceptCaKey rfl
  refine .ok ?_
  have hbypass : (bypass.map TlsCall.bypass).map (TlsCall.anchor dir) = bypass.map .bypass := by
    rw [List.map_map]
    rfl
  rw [List.map_append, List.map_append, List.map_append, List.map_append, List.map_append,
    List.map_append, hbypass, hopt .verifyUpstream _ fun _ => rfl,
    hopt .interceptedPorts _ fun _ => rfl, hopt .blockQuic _ fun _ => rfl,
    hpath .upstreamCaCert _ fun _ => rfl, hpath .interceptCaCert _ fun _ => rfl,
    hpath .interceptCaKey _ fun _ => rfl]

/-! ### Root disks -/

/-- The kind of a root disk. -/
theorem pinned_parseRootDiskKind (h : RHash ω) :
    Pinned process dir (RootDiskKindSpec.anchor dir) (parseRootDiskKind here process h)
      (parseRootDiskKind there process h) := by
  refine .bind_same fun kind => ?_
  split
  case h_4 | h_5 | h_6 =>
    refine .bind_same fun path => ?_
    cases path with
    | none => exact .error _
    | some path =>
      dsimp only
      rw [pin_of_isLocal hcur hlocal, HostPaths.pin_of_not_isLocal hremote]
      exact .ok rfl
  case h_8 => exact .error _
  all_goals exact .ok rfl

/-- A root disk differs in the file of a disk image alone. -/
theorem pinned_parseRootDisk [Numeric ω] (parseFormat : String → Option DiskImageFormat)
    (v : Value ω) :
    Pinned process dir (fun spec => { spec with kind := spec.kind.anchor dir })
      (parseRootDisk parseFormat here process v) (parseRootDisk parseFormat there process v) := by
  unfold parseRootDisk
  split
  · exact .ok rfl
  · split
    · exact .error _
    · refine (pinned_parseRootDiskKind hcur hlocal hremote _).bind ?_
      rintro _ kind rfl
      exact .bind_same fun format => .bind_same fun clone => .bind_same fun sizeMib =>
        .bind_same fun fstype => .ok rfl

omit hcur hlocal hremote in
/-- The calls for an anchored root disk are the anchored calls. -/
theorem rootDisk_apply_anchor (spec : RootDiskSpec) :
    ({ spec with kind := spec.kind.anchor dir } : RootDiskSpec).apply =
      spec.apply.map (RootDiskCall.anchor dir) := by
  have hopt {α : Type} := map_toList_map (α := α) (RootDiskCall.anchor dir)
  obtain ⟨kind, sizeMib, format, fstype, clone⟩ := spec
  unfold RootDiskSpec.apply
  dsimp only
  rw [List.map_append, List.map_append, List.map_append, List.map_append, hopt .size _ fun _ => rfl,
    hopt .format _ fun _ => rfl, hopt .fstype _ fun _ => rfl, hopt .cloneStrategy _ fun _ => rfl]
  cases kind <;> rfl

/-! ### The builder -/

section Builder

variable [Numeric ω] (core : BuilderCore T ω)

/-- The calls of one option, against those that a cloud backend makes. -/
abbrev PinnedCalls (core : BuilderCore T ω) (process : Process) (dir : Path)
    (handed given : Calls T) : Prop :=
  Pinned process dir (List.map (BuilderCall.anchor core.intoRootfsSource dir)) handed given

omit [Numeric ω] hcur hlocal hremote in
/-- A call for an option without host paths is the same on both backends. -/
theorem pinned_callOpt {α : Type} (x : Except Exception (Option α)) (call : α → BuilderCall T)
    (h : ∀ a, (call a).anchor core.intoRootfsSource dir = call a) :
    PinnedCalls core process dir (callOpt x call) (callOpt x call) := by
  cases x with
  | error e => exact .error e
  | ok o => exact .ok (map_toList_map _ call o h).symm

omit [Numeric ω] hcur hlocal hremote in
/-- So are the calls for a list of them. -/
theorem pinned_callEach {α : Type} (x : Except Exception (List α)) (call : α → BuilderCall T)
    (h : ∀ a, (call a).anchor core.intoRootfsSource dir = call a) :
    PinnedCalls core process dir (callEach x call) (callEach x call) := by
  cases x with
  | error e => exact .error e
  | ok xs =>
    refine .ok ?_
    rw [List.map_map]
    exact List.map_congr_left fun a _ => (h a).symm

omit [Numeric ω] hcur hlocal hremote in
/-- And a call for a flag. -/
theorem pinned_callFlag (x : Except Exception Bool) (call : BuilderCall T)
    (h : call.anchor core.intoRootfsSource dir = call) :
    PinnedCalls core process dir (callFlag x call) (callFlag x call) := by
  cases x with
  | error e => exact .error e
  | ok b =>
    cases b with
    | false => exact .ok rfl
    | true => exact .ok (congrArg (fun c => [c]) h.symm)

omit [Numeric ω] in
/-- The image, or the path of its disk. -/
theorem pinned_imageCalls (opts : RHash ω) :
    PinnedCalls core process dir (imageCalls core here process opts)
      (imageCalls core there process opts) := by
  refine .bind_same fun image => ?_
  cases image with
  | none => exact .ok rfl
  | some v =>
    refine .bind_same fun fstype => ?_
    cases fstype with
    | some fstype =>
      dsimp only
      rw [pin_of_isLocal hcur hlocal, HostPaths.pin_of_not_isLocal hremote]
      exact .ok rfl
    | none =>
      refine (pinned_pinImage hcur hlocal hremote core.intoRootfsSource v).bind ?_
      rintro _ image rfl
      exact .ok rfl

omit [Numeric ω] in
/-- The snapshot to start from. -/
theorem pinned_snapshot (opts : RHash ω) :
    PinnedCalls core process dir
      (callOpt (optParsed (here.pinSnapshot process) opts "from_snapshot") .fromSnapshot)
      (callOpt (optParsed (there.pinSnapshot process) opts "from_snapshot") .fromSnapshot) := by
  have hread : Pinned process dir (Option.map (anchorSnapshot dir))
      (optParsed (here.pinSnapshot process) opts "from_snapshot")
      (optParsed (there.pinSnapshot process) opts "from_snapshot") := by
    refine .bind_same fun o => ?_
    cases o with
    | none => exact .ok rfl
    | some raw =>
      refine (pinned_pinSnapshot hcur hlocal hremote raw).map ?_
      rintro _ s rfl
      rfl
  refine hread.map ?_
  rintro _ o rfl
  cases o <;> rfl

/-- The mounts. -/
theorem pinned_volumes (opts : RHash ω) :
    PinnedCalls core process dir
      (callEach (do
        (← optHashVec opts "volumes").mapM (parseMount core.parseFormat here process))
        fun spec => .volume spec.guest spec.apply)
      (callEach (do
        (← optHashVec opts "volumes").mapM (parseMount core.parseFormat there process))
        fun spec => .volume spec.guest spec.apply) := by
  have hread : Pinned process dir
      (List.map fun spec : MountSpec => { spec with backing := spec.backing.anchor dir })
      (do (← optHashVec opts "volumes").mapM (parseMount core.parseFormat here process))
      (do (← optHashVec opts "volumes").mapM (parseMount core.parseFormat there process)) :=
    .bind_same fun _ => pinned_mapM fun m =>
      pinned_parseMount hcur hlocal hremote core.parseFormat m
  refine hread.map ?_
  rintro _ specs rfl
  rw [List.map_map, List.map_map]
  refine List.map_congr_left fun spec _ => ?_
  exact congrArg (BuilderCall.volume spec.guest) (apply_anchor spec)

/-- The patches. -/
theorem pinned_patches (opts : RHash ω) :
    PinnedCalls core process dir (callEach (parsePatches here process opts) .addPatch)
      (callEach (parsePatches there process opts) .addPatch) := by
  refine (pinned_parsePatches hcur hlocal hremote opts).map ?_
  rintro _ patches rfl
  rw [List.map_map, List.map_map]
  rfl

/-- The root disk. -/
theorem pinned_rootDisk (opts : RHash ω) :
    PinnedCalls core process dir (rootDiskCalls core here process opts)
      (rootDiskCalls core there process opts) := by
  refine .bind_same fun o => ?_
  cases o with
  | none => exact .ok rfl
  | some v =>
    refine (pinned_parseRootDisk hcur hlocal hremote core.parseFormat v).bind ?_
    rintro _ spec rfl
    refine .ok ?_
    rw [rootDisk_apply_anchor]
    rfl

/-- The advanced network settings, of which TLS names files. -/
theorem pinned_advanced (opts : RHash ω) :
    PinnedCalls core process dir (advancedCalls core here process opts)
      (advancedCalls core there process opts) := by
  have hopt {α : Type} := map_toList_map (α := α) (NetworkCall.anchor (T := T) dir)
  -- Only the TLS settings hold paths; the other six parts are read alike.
  have htls : Pinned process dir (Option.map (List.map (TlsCall.anchor dir)))
      (optHash (parseTls here process) opts "tls") (optHash (parseTls there process) opts "tls") := by
    refine .bind_same fun o => ?_
    cases o with
    | none => exact .ok rfl
    | some t =>
      refine (pinned_parseTls hcur hlocal hremote t).map ?_
      rintro _ calls rfl
      rfl
  refine .bind_same fun dns => ?_
  refine htls.bind ?_
  rintro _ tls rfl
  refine .bind_same fun ipv4Pool => .bind_same fun ipv6Pool => .bind_same fun maxConnections =>
    .bind_same fun trustHostCas => .bind_same fun strict => .ok ?_
  have htlsCall : ((tls.map (List.map (TlsCall.anchor dir))).map (NetworkCall.tls (T := T))).toList =
      (tls.map .tls).toList.map (NetworkCall.anchor dir) := by
    cases tls <;> rfl
  -- Anchoring keeps the number of calls, so the network builder is called in both or in neither.
  have hcalls : ∀ calls : List (NetworkCall T),
      (if (calls.map (NetworkCall.anchor dir)).isEmpty then []
        else [BuilderCall.network (calls.map (NetworkCall.anchor dir))]) =
      (if calls.isEmpty then [] else [BuilderCall.network calls]).map
        (BuilderCall.anchor core.intoRootfsSource dir) := by
    intro calls
    rw [List.isEmpty_map]
    split <;> rfl
  rw [← hcalls, List.map_append, List.map_append, List.map_append, List.map_append,
    List.map_append, List.map_append, hopt .dns dns fun _ => rfl,
    hopt .ipv4Pool ipv4Pool fun _ => rfl, hopt .ipv6Pool ipv6Pool fun _ => rfl,
    hopt .maxConnections maxConnections fun _ => rfl,
    hopt .trustHostCas trustHostCas fun _ => rfl, hopt .strict strict fun _ => rfl, htlsCall]

omit hcur hlocal hremote in
/-- The socket of a vsock route is not anchored: the core refuses a relative one. -/
theorem pinned_routes (opts : RHash ω) :
    PinnedCalls core process dir (do (← optHashVec opts "vsock").mapM parseRoute)
      (do (← optHashVec opts "vsock").mapM parseRoute) := by
  refine .bind_same fun _ => pinned_mapM fun route => ?_
  refine .bind_same fun socket => .bind_same fun hostSocket => .bind_same fun given =>
    .bind_same fun port => .bind_same fun socketType => ?_
  split
  · exact .ok rfl
  · exact .ok rfl
  · exact .ok rfl
  · exact .error _

omit [Numeric ω] hcur hlocal hremote in
/-- Replacing a sandbox names no host path. -/
theorem pinned_replaceCalls (opts : RHash ω) :
    PinnedCalls core process dir (replaceCalls core opts) (replaceCalls core opts) := by
  refine .bind_same fun o => ?_
  cases o with
  | none => exact pinned_callFlag core _ .replace rfl
  | some secs => exact .bind_same fun _ => .ok rfl

/-- Every part of the builder. -/
theorem pinned_builderParts (opts : RHash ω) :
    List.Forall₂ (PinnedCalls core process dir) (builderParts core here process opts)
      (builderParts core there process opts) := by
  have hsetting : ∀ setting : NetworkSetting T.toCoreTypes,
      (settingCall setting).anchor core.intoRootfsSource dir = settingCall setting := by
    intro setting
    cases setting <;> rfl
  unfold builderParts
  repeat' apply List.Forall₂.cons
  -- most parts are the same on both sides and name no host path
  any_goals (with_reducible refine pinned_callOpt core _ _ ?_); intro _; rfl
  any_goals (with_reducible refine pinned_callEach core _ _ ?_); intro _; rfl
  any_goals (with_reducible refine pinned_callFlag core _ _ ?_); rfl
  · exact pinned_imageCalls hcur hlocal hremote core opts
  · exact pinned_snapshot hcur hlocal hremote core opts
  · exact pinned_routes core opts
  · exact pinned_volumes hcur hlocal hremote core opts
  · exact pinned_patches hcur hlocal hremote core opts
  · exact pinned_callOpt core _ _ hsetting
  · exact pinned_callOpt core _ _ hsetting
  · exact pinned_rootDisk hcur hlocal hremote core opts
  · exact pinned_advanced hcur hlocal hremote core opts
  · exact pinned_replaceCalls core opts
  · exact .nil

/-- The parts, one after another. -/
theorem pinned_buildBuilder (opts : RHash ω) :
    PinnedCalls core process dir (buildBuilder core here process opts)
      (buildBuilder core there process opts) := by
  have hparts := agree_mapM (f := id) (g := id) (pinned_builderParts hcur hlocal hremote core opts)
  refine hparts.map ?_
  intro handed given hall
  induction hall with
  | nil => rfl
  | cons hcalls _ ih => rw [List.flatten_cons, List.flatten_cons, List.map_append, hcalls, ih]

omit hcur hlocal in
/-- What a cloud backend is told does not depend on where the process is. -/
theorem buildBuilder_of_not_isLocal (opts : RHash ω) (process' : Process) :
    buildBuilder core there process' opts = buildBuilder core there process opts := by
  -- every part resolves its paths by `pin`, which leaves them alone for a remote backend
  have hpin : there.pin process' = there.pin process := by
    funext raw label
    rw [HostPaths.pin_of_not_isLocal hremote, HostPaths.pin_of_not_isLocal hremote]
  have himage : there.pinImage process' = there.pinImage process := by
    funext intoRootfsSource raw
    rw [HostPaths.pinImage, HostPaths.pinImage, hpin]
  have hsnapshot : there.pinSnapshot process' = there.pinSnapshot process := by
    funext raw
    rw [HostPaths.pinSnapshot, HostPaths.pinSnapshot, hremote]
    rfl
  have hmount : parseMount core.parseFormat there process' (ω := ω) =
      parseMount core.parseFormat there process := by
    funext m
    unfold parseMount mountBacking
    rw [hpin]
  have hpatches : parsePatches (ω := ω) there process' = parsePatches there process := by
    funext opts
    unfold parsePatches parsePatch patchOf
    rw [hpin]
  have hrootDisk : parseRootDisk (ω := ω) core.parseFormat there process' =
      parseRootDisk core.parseFormat there process := by
    funext v
    unfold parseRootDisk parseRootDiskKind
    rw [hpin]
  have htls : parseTls (ω := ω) there process' = parseTls there process := by
    funext t
    unfold parseTls
    rw [hpin]
  unfold buildBuilder builderParts imageCalls rootDiskCalls advancedCalls
  rw [hpin, himage, hsnapshot, hmount, hpatches, hrootDisk, htls]

end Builder

end Backends

/-! ## Anchored calls -/

section Anchored

variable {dir : Path} (hdir : isAbsolute dir = true) (dir' : Path)
  (intoRootfsSource : String → Except String RootfsSource)

include hdir

/-- An anchored image stays. -/
theorem Image.anchor_anchor (image : Image) :
    (image.anchor intoRootfsSource dir).anchor intoRootfsSource dir' =
      image.anchor intoRootfsSource dir := by
  cases image with
  | path p => exact congrArg Image.path (Native.anchor_anchor hdir dir' p)
  | text s =>
    by_cases hrelative : relativeLocal intoRootfsSource s = true
    · have hpath : (Image.text s).anchor intoRootfsSource dir = .path (Native.anchor dir _) :=
        if_pos hrelative
      rw [hpath]
      exact congrArg Image.path (Native.anchor_anchor hdir dir' _)
    · have htext : ∀ dir, (Image.text s).anchor intoRootfsSource dir = .text s :=
        fun _ => if_neg hrelative
      rw [htext, htext]

/-- An anchored snapshot stays. -/
theorem anchorSnapshot_anchorSnapshot (s : String) :
    anchorSnapshot dir' (anchorSnapshot dir s) = anchorSnapshot dir s := by
  by_cases hpath : HostPaths.pathLike s = true
  · rw [show anchorSnapshot dir s = _ from if_pos hpath]
    cases htext : toString? (anchor dir (ofString s)) with
    | none => rfl
    | some s' =>
      have hs' := ofString_of_toString?_eq_some htext
      rw [Option.getD_some, anchorSnapshot]
      split
      · rw [hs', Native.anchor_anchor hdir, htext, Option.getD_some]
      · rfl
  · rw [show anchorSnapshot dir s = s from if_neg hpath]
    exact if_neg hpath

omit hdir in
/-- Where every element is a fixed point, a list is. -/
theorem map_map_eq {α : Type} {f g : α → α} (h : ∀ a, f (g a) = g a) (xs : List α) :
    (xs.map g).map f = xs.map g := by
  rw [List.map_map]
  exact List.map_congr_left fun a _ => h a

/-- No later directory changes a call whose host paths are anchored. -/
theorem BuilderCall.anchor_anchor (call : BuilderCall T) :
    (call.anchor intoRootfsSource dir).anchor intoRootfsSource dir' =
      call.anchor intoRootfsSource dir := by
  have hpath : ∀ p, Native.anchor dir' (Native.anchor dir p) = Native.anchor dir p :=
    Native.anchor_anchor hdir dir'
  -- Builder by builder: a call holds a path, or calls of another builder, or neither.
  have hmount : ∀ c : MountCall, (c.anchor dir).anchor dir' = c.anchor dir := by
    intro c
    cases c with
    | bind host => exact congrArg MountCall.bind (hpath host)
    | disk host => exact congrArg MountCall.disk (hpath host)
    | _ => rfl
  have htls : ∀ c : TlsCall, (c.anchor dir).anchor dir' = c.anchor dir := by
    intro c
    cases c with
    | upstreamCaCert path => exact congrArg TlsCall.upstreamCaCert (hpath path)
    | interceptCaCert path => exact congrArg TlsCall.interceptCaCert (hpath path)
    | interceptCaKey path => exact congrArg TlsCall.interceptCaKey (hpath path)
    | _ => rfl
  have hnetwork : ∀ c : NetworkCall T, (c.anchor dir).anchor dir' = c.anchor dir := by
    intro c
    cases c with
    | tls calls => exact congrArg NetworkCall.tls (map_map_eq htls calls)
    | _ => rfl
  have hrootDisk : ∀ c : RootDiskCall, (c.anchor dir).anchor dir' = c.anchor dir := by
    intro c
    cases c with
    | diskImage path => exact congrArg RootDiskCall.diskImage (hpath path)
    | _ => rfl
  cases call with
  | imageDisk path fstype => exact congrArg (BuilderCall.imageDisk · fstype) (hpath path)
  | image i => exact congrArg BuilderCall.image (i.anchor_anchor hdir dir' intoRootfsSource)
  | fromSnapshot s =>
    exact congrArg BuilderCall.fromSnapshot (anchorSnapshot_anchorSnapshot hdir dir' s)
  | volume guest calls => exact congrArg (BuilderCall.volume guest) (map_map_eq hmount calls)
  | addPatch patch =>
    cases patch with
    | copyFile src dst mode replace =>
      exact congrArg (fun p => BuilderCall.addPatch (.copyFile p dst mode replace)) (hpath src)
    | copyDir src dst replace =>
      exact congrArg (fun p => BuilderCall.addPatch (.copyDir p dst replace)) (hpath src)
    | _ => rfl
  | network calls => exact congrArg BuilderCall.network (map_map_eq hnetwork calls)
  | rootDiskWith calls => exact congrArg BuilderCall.rootDiskWith (map_map_eq hrootDisk calls)
  | _ => rfl

omit hdir in
/-- What holds of the paths of each element holds of those of a list. -/
theorem forall_mem_flatMap_map {α : Type} {f : α → α} {paths : α → List Path} {P : Path → Prop}
    (h : ∀ a, ∀ p ∈ paths (f a), P p) (xs : List α) : ∀ p ∈ (xs.map f).flatMap paths, P p := by
  intro p hp
  obtain ⟨_, hmem, hp⟩ := List.mem_flatMap.mp hp
  obtain ⟨a, -, rfl⟩ := List.mem_map.mp hmem
  exact h a p hp

/-- The path of an anchored image is not relative. -/
theorem Image.hostPaths_anchor (image : Image) :
    ∀ p ∈ (image.anchor intoRootfsSource dir).hostPaths intoRootfsSource,
      p = [] ∨ isAbsolute p = true := by
  have hpinned : ∀ q, ∀ p ∈ (Image.path (Native.anchor dir q)).hostPaths intoRootfsSource,
      p = [] ∨ isAbsolute p = true := by
    intro q p hp
    rw [List.mem_singleton.mp hp]
    exact anchor_nil_or_isAbsolute hdir q
  cases image with
  | path p => exact hpinned p
  | text s =>
    by_cases hrelative : relativeLocal intoRootfsSource s = true
    · have hpath : (Image.text s).anchor intoRootfsSource dir = .path (Native.anchor dir _) :=
        if_pos hrelative
      rw [hpath]
      exact hpinned _
    · have htext : (Image.text s).anchor intoRootfsSource dir = .text s := if_neg hrelative
      rw [htext]
      unfold Image.hostPaths
      unfold relativeLocal at hrelative
      dsimp only
      intro p hp
      cases hsource : intoRootfsSource s with
      | error e =>
        rw [hsource] at hp
        exact absurd hp List.not_mem_nil
      | ok source =>
        rw [hsource] at hp hrelative
        -- what the core takes for a path is not relative
        have hlocal := Option.mem_toList.mp hp
        dsimp only at hrelative
        rw [Option.mem_def.mp hlocal] at hrelative
        exact Or.inr (by simpa using hrelative)

/-- An anchored snapshot that is a path is not relative. -/
theorem anchorSnapshot_nil_or_isAbsolute (s : String)
    (hpath : HostPaths.pathLike (anchorSnapshot dir s) = true) :
    ofString (anchorSnapshot dir s) = [] ∨ isAbsolute (ofString (anchorSnapshot dir s)) = true := by
  by_cases hgiven : HostPaths.pathLike s = true
  · rw [show anchorSnapshot dir s = _ from if_pos hgiven] at hpath ⊢
    cases htext : toString? (anchor dir (ofString s)) with
    | none => exact Or.inl rfl
    | some s' =>
      rw [Option.getD_some, ofString_of_toString?_eq_some htext]
      exact anchor_nil_or_isAbsolute hdir _
  · rw [show anchorSnapshot dir s = s from if_neg hgiven] at hpath
    exact absurd hpath hgiven

/-- Every host path in an anchored call is empty or absolute. -/
theorem BuilderCall.hostPaths_anchor (call : BuilderCall T) :
    ∀ p ∈ (call.anchor intoRootfsSource dir).hostPaths intoRootfsSource,
      p = [] ∨ isAbsolute p = true := by
  have hpath : ∀ q, ∀ p ∈ [Native.anchor dir q], p = [] ∨ isAbsolute p = true := by
    intro q p hp
    rw [List.mem_singleton.mp hp]
    exact anchor_nil_or_isAbsolute hdir q
  have hnone : ∀ p ∈ ([] : List Path), p = [] ∨ isAbsolute p = true :=
    fun p hp => absurd hp List.not_mem_nil
  -- Builder by builder: the paths of a call are those of its own setters.
  have hmount : ∀ c : MountCall, ∀ p ∈ (c.anchor dir).hostPaths, p = [] ∨ isAbsolute p = true := by
    intro c
    cases c with
    | bind host | disk host => exact hpath host
    | _ => exact hnone
  have htls : ∀ c : TlsCall, ∀ p ∈ (c.anchor dir).hostPaths, p = [] ∨ isAbsolute p = true := by
    intro c
    cases c with
    | upstreamCaCert path | interceptCaCert path | interceptCaKey path => exact hpath path
    | _ => exact hnone
  have hnetwork : ∀ c : NetworkCall T, ∀ p ∈ (c.anchor dir).hostPaths,
      p = [] ∨ isAbsolute p = true := by
    intro c
    cases c with
    | tls calls => exact forall_mem_flatMap_map htls calls
    | _ => exact hnone
  have hrootDisk : ∀ c : RootDiskCall, ∀ p ∈ (c.anchor dir).hostPaths,
      p = [] ∨ isAbsolute p = true := by
    intro c
    cases c with
    | diskImage path => exact hpath path
    | _ => exact hnone
  cases call with
  | imageDisk path fstype => exact hpath path
  | image i => exact i.hostPaths_anchor hdir intoRootfsSource
  | fromSnapshot s =>
    intro p hp
    change p ∈ (if HostPaths.pathLike (anchorSnapshot dir s) then [_] else []) at hp
    split at hp
    · rw [List.mem_singleton.mp hp]
      exact anchorSnapshot_nil_or_isAbsolute hdir s ‹_›
    · exact hnone p hp
  | volume guest calls => exact forall_mem_flatMap_map hmount calls
  | addPatch patch =>
    cases patch with
    | copyFile src | copyDir src => exact hpath src
    | _ => exact hnone
  | network calls => exact forall_mem_flatMap_map hnetwork calls
  | rootDiskWith calls => exact forall_mem_flatMap_map hrootDisk calls
  | _ => exact hnone

end Anchored

/-- On a local backend the core is told what a cloud backend is told, with every host path anchored
to the working directory: it is empty or absolute, and no later directory changes it. A relative
path is put after the directory, component by component. On a cloud backend the working directory
does not matter. -/
theorem host_paths_anchored [Numeric ω] (core : BuilderCore T ω) {process : Process} {dir : Path}
    (hcur : process.currentDir = .ok dir) (hdir : isAbsolute dir = true) {here there : HostPaths}
    (hlocal : here.isLocal = true) (hremote : there.isLocal = false) (opts : RHash ω) :
    AgreeUnless (SnapshotRefused process dir)
        (fun handed given => handed = given.map (BuilderCall.anchor core.intoRootfsSource dir))
        (buildBuilder core here process opts) (buildBuilder core there process opts) ∧
      (∀ calls, buildBuilder core here process opts = .ok calls → ∀ call ∈ calls,
        (∀ p ∈ call.hostPaths core.intoRootfsSource, p = [] ∨ isAbsolute p = true) ∧
          ∀ dir', call.anchor core.intoRootfsSource dir' = call) ∧
      (∀ p, Anchored dir p (anchor dir p)) ∧
      ∀ process', buildBuilder core there process' opts = buildBuilder core there process opts := by
  have hpinned := pinned_buildBuilder hcur hlocal hremote core opts
  refine ⟨hpinned, ?_, anchored_anchor hdir, buildBuilder_of_not_isLocal hremote core opts⟩
  intro calls hcalls call hcall
  obtain ⟨given, -, rfl⟩ := hpinned.exists_of_ok hcalls
  obtain ⟨c, -, rfl⟩ := List.mem_map.mp hcall
  exact ⟨c.hostPaths_anchor hdir core.intoRootfsSource, fun dir' =>
    c.anchor_anchor hdir dir' core.intoRootfsSource⟩

/-! ### A relative directory as the image -/

/-- Networks, numbers and durations as simple as they can be. -/
abbrev smallBuilderTypes : BuilderTypes where
  toCoreTypes := smallTypes
  Nameserver := String
  Ipv4Network := String
  Ipv6Network := String
  F64 := ℕ
  Duration := ℕ

/-- A core that takes a text with a leading dot or slash for a directory. -/
def smallBuilderCore : BuilderCore smallBuilderTypes Unit where
  network := smallCore
  parseFormat s := if s = "raw" then some .raw else none
  intoRootfsSource s :=
    .ok (if s.startsWith "." || s.startsWith "/" then .bind (ofString s) else .oci s)
  parseNameserver := .ok
  parseIpv4Network := .ok
  parseIpv6Network := .ok
  tryF64
    | .int n => .ok n.toNat
    | _ => .error (.typeError "Float")
  displayF64 := toString
  tryFromSecsF64 := .ok

/-- A process in its home directory. -/
def homeProcess : Process where
  currentDir := .ok (ofString "/home")
  display p := (toString? p).getD ""

/-- A directory and a snapshot, both relative. -/
def relativeImage : RHash Unit :=
  [(.str "image", .str "./rootfs"), (.str "from_snapshot", .str "snapshots/base")]

/-- A relative image and a relative snapshot, seen from the home directory. -/
theorem host_paths_anchored_relative :
    AgreeUnless (SnapshotRefused homeProcess (ofString "/home"))
        (fun handed given => handed =
          given.map (BuilderCall.anchor smallBuilderCore.intoRootfsSource (ofString "/home")))
        (buildBuilder smallBuilderCore ⟨true⟩ homeProcess relativeImage)
        (buildBuilder smallBuilderCore ⟨false⟩ homeProcess relativeImage) ∧
      (∀ calls, buildBuilder smallBuilderCore ⟨true⟩ homeProcess relativeImage = .ok calls →
        ∀ call ∈ calls,
          (∀ p ∈ call.hostPaths smallBuilderCore.intoRootfsSource,
            p = [] ∨ isAbsolute p = true) ∧
          ∀ dir', call.anchor smallBuilderCore.intoRootfsSource dir' = call) ∧
      (∀ p, Anchored (ofString "/home") p (anchor (ofString "/home") p)) ∧
      ∀ process', buildBuilder smallBuilderCore ⟨false⟩ process' relativeImage =
        buildBuilder smallBuilderCore ⟨false⟩ homeProcess relativeImage :=
  host_paths_anchored smallBuilderCore rfl (by decide) rfl rfl relativeImage

end MicrosandboxRb.Native
