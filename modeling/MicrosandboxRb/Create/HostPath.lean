import MicrosandboxRb.Backend.Model
import MicrosandboxRb.Lib.RubyValue
import MicrosandboxRb.Lib.RustPath

/-!
# Host paths

The resolution of the host paths of a create call (`host_path.rs`): a relative path is anchored to
the working directory once, before the core persists it. Which backend is the default one, the
working directory, and the core's classification of an image text are given.

## Main definitions

* `HostPaths.pin`, `HostPaths.pinImage`, `HostPaths.pinSnapshot`: the resolution;
* `Anchored`: what becomes of a path that names something on this host.
-/

namespace MicrosandboxRb.Native

open Ruby RustPath

/-- The process that makes a create call. -/
structure Process where
  -- `std::env::current_dir`, with the text of its error
  currentDir : Except String Path
  -- `Path::display`, for a path that is not valid UTF-8
  display : Path → String

/-- What the core takes an image text for. -/
inductive RootfsSource where
  | bind (path : Path)
  | diskImage (path : Path)
  -- a reference to an OCI image, as the core parses it
  | oci (reference : String)
deriving DecidableEq, Repr

/-- The path of a local rootfs. -/
def RootfsSource.localPath? : RootfsSource → Option Path
  | .bind path => some path
  | .diskImage path => some path
  | .oci _ => none

/-- How the `image:` text is handed to the builder. -/
inductive Image where
  /-- An OCI reference, an already-absolute path, or text the core rejects. -/
  | text (text : String)
  /-- A relative local rootfs path, anchored to the current directory. -/
  | path (path : Path)
deriving DecidableEq, Repr

/-- Resolves host paths for one create call. -/
structure HostPaths where
  -- `local`
  isLocal : Bool
deriving DecidableEq, Repr

namespace HostPaths

/-- The paths of a call on the default backend. -/
def forDefaultBackend (kind : BackendRecord.BackendKind) : HostPaths where
  isLocal := kind == .localBackend

/-- Anchor a relative host path to the current directory. Absolute paths and the empty string pass
through. -/
def pin (self : HostPaths) (process : Process) (raw label : String) : Except Exception Path :=
  let path := ofString raw
  if !self.isLocal || path.isEmpty || isAbsolute path then .ok path
  else
    match absolute process.currentDir path with
    | .ok path => .ok path
    | .error e => .error (invalidConfig s!"cannot resolve {label} {raw}: {e}")

/-- Classify `image:` text the way the core does and pin it when it names a relative local path. -/
def pinImage (self : HostPaths) (process : Process)
    (intoRootfsSource : String → Except String RootfsSource) (text : String) :
    Except Exception Image :=
  if !self.isLocal then .ok (.text text)
  else
    -- an image that the core would refuse is left for it to refuse
    let relativeLocal :=
      match intoRootfsSource text with
      | .ok source => source.localPath?.any fun path => !isAbsolute path
      | .error _ => false
    if relativeLocal then (self.pin process text "rootfs path").map .path
    else .ok (.text text)

/-- The core's name-vs-path split. -/
def pathLike (raw : String) : Bool :=
  RustStr.contains '/' raw || RustStr.startsWith '.' raw || RustStr.startsWith '~' raw

/-- Pin a `from_snapshot:` value when it is a path rather than a snapshot name or digest. -/
def pinSnapshot (self : HostPaths) (process : Process) (raw : String) :
    Except Exception String :=
  if !self.isLocal || !pathLike raw then .ok raw
  else do
    let path ← self.pin process raw "snapshot path"
    match toString? path with
    | some s => .ok s
    | none =>
      .error (invalidConfig (s!"cannot resolve snapshot path {process.display path}: " ++
        "the current directory is not valid UTF-8"))

end HostPaths

/-! ## Anchored paths -/

/-- `q` is what a path `p` of this host becomes in the directory `dir`: an empty or an absolute path
stays, and a relative one is put after the directory, component by component. -/
inductive Anchored (dir p q : Path) : Prop where
  | unchanged (kept : p = [] ∨ isAbsolute p = true) (eq : q = p)
  | resolved (ne_nil : p ≠ []) (relative : isAbsolute p = false)
      (eq : absolute (.ok dir) p = .ok q) (isAbsolute : isAbsolute q = true)
      (components : components q = components dir ++ stripCurDir (components p))

/-- What an anchored path becomes is not relative. -/
theorem Anchored.nil_or_isAbsolute {dir p q : Path} (h : Anchored dir p q) :
    q = [] ∨ RustPath.isAbsolute q = true := by
  cases h with
  | unchanged kept eq => rwa [eq]
  | resolved _ _ _ isAbsolute _ => exact Or.inr isAbsolute

namespace HostPaths

/-- On a cloud backend every path is handed over as it is. -/
theorem pin_of_not_isLocal {self : HostPaths} {process : Process} (h : self.isLocal = false)
    (raw label : String) : self.pin process raw label = .ok (ofString raw) := by
  rw [pin, h]
  rfl

end HostPaths

end MicrosandboxRb.Native
