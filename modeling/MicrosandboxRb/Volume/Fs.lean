import MicrosandboxRb.Lib.RubySplit
import MicrosandboxRb.Lib.RubyValue
import MicrosandboxRb.Lib.StateError
import MicrosandboxRb.Runtime.ForkGuarded

/-!
# The file system view of a volume

The operations of `VolumeFs`, in the Ruby wrapper (`volume.rb`) and on the native object
(`volume.rs`). Both refuse a path with a `..` segment, each with its own reading of the path.

The core and `block_on` are a parameter: what a call returns or raises, and what it makes of the
volume. The calls that reach the core are recorded.

## Main results

* `contained_iff`: the two guards refuse the same paths;
* `not_above_of_contained`: a path that is not refused stays below the root of the volume;
* `volume_paths_are_contained`: no operation reaches the core with a path that is refused.
-/

namespace MicrosandboxRb.Volume

open Ruby RustPath

/-! ## The native object -/

/-- A call of the core on a volume. -/
inductive CoreCall where
  | read (path : String)
  | readToString (path : String)
  | write (path : String) (data : List UInt8)
  | list (path : String)
  | mkdir (path : String)
  | remove (path : String)
  | removeDir (path : String)
  | exists (path : String)
  | copy (src dst : String)
  | rename (src dst : String)
  | stat (path : String)
deriving DecidableEq, Repr

/-- The core: a call on the volume of a backend with a given name. -/
abbrev Core (β σ ρ : Type) := β → String → CoreCall → σ → Except RubyError ρ × σ

/-- A volume, and the calls that reached the core. -/
structure World (σ : Type) where
  volume : σ
  calls : List CoreCall

/-- An operation. Exceptions that are not of this library are those of Ruby. -/
abbrev Op (σ α : Type) := EStateM (Exc Exception) (World σ) α

/-- The native handle: a backend of its process and the name of the volume. -/
structure VolumeFs (β : Type) where
  backend : ForkGuarded β
  name : String

/-- The error of a path that leaves the volume. -/
def traversal : RubyError :=
  .toRuby (.other "FilesystemError"
    "path traversal outside volume root (`..` segments are not allowed in volume paths)")

/-- The result of a call, or its exception. -/
def lift {σ α : Type} (x : Except RubyError α) : Op σ α :=
  EStateM.ofExcept (x.mapError Exc.microsandbox)

namespace Native

variable {β σ ρ : Type}

/-- `contained` of the native layer. -/
def contained (path : String) : Except RubyError String :=
  if (components (ofString path)).any fun part => part == .parentDir then .error traversal
  else .ok path

/-- `block_on` of a call of the core. -/
def blockOn (core : Core β σ ρ) (backend : β) (name : String) (call : CoreCall) : Op σ ρ := fun w =>
  match core backend name call w.volume with
  | (.ok r, volume) => .ok r { volume, calls := w.calls ++ [call] }
  | (.error e, volume) => .error (.microsandbox e) { volume, calls := w.calls ++ [call] }

variable (core : Core β σ ρ) (self : VolumeFs β) (p : ForkTree.Proc ProcessIdentity)

/-- An operation on one path. -/
def onPath (call : String → CoreCall) (path : String) : Op σ ρ := do
  let backend ← lift (self.backend.get p)
  let path ← lift (contained path)
  blockOn core backend self.name (call path)

/-- An operation on two paths. -/
def onPaths (call : String → String → CoreCall) (src dst : String) : Op σ ρ := do
  let backend ← lift (self.backend.get p)
  let src ← lift (contained src)
  let dst ← lift (contained dst)
  blockOn core backend self.name (call src dst)

/-- `read`. -/
def read : String → Op σ ρ := onPath core self p .read

/-- `read_text`. -/
def readText : String → Op σ ρ := onPath core self p .readToString

/-- `write`. -/
def write (path : String) (data : List UInt8) : Op σ ρ :=
  onPath core self p (fun path => .write path data) path

/-- `list`. -/
def list : String → Op σ ρ := onPath core self p .list

/-- `mkdir`. -/
def mkdir : String → Op σ ρ := onPath core self p .mkdir

/-- `remove_file`. -/
def removeFile : String → Op σ ρ := onPath core self p .remove

/-- `remove_dir`. -/
def removeDir : String → Op σ ρ := onPath core self p .removeDir

/-- `exists`. -/
def «exists» : String → Op σ ρ := onPath core self p .exists

/-- `copy`. -/
def copy : String → String → Op σ ρ := onPaths core self p .copy

/-- `rename`. -/
def rename : String → String → Op σ ρ := onPaths core self p .rename

/-- `stat`. -/
def stat : String → Op σ ρ := onPath core self p .stat

end Native

/-! ## The Ruby wrapper -/

/-- The `data` of a write, as `String.try_convert` reads it: bytes, or an object of a class that is
not a String. -/
inductive Data where
  | string (bytes : List UInt8)
  | other (className : String)
deriving DecidableEq, Repr

namespace Wrapper

variable {ω β σ ρ : Type} [Methods ω]

/-- `contained` of the wrapper. -/
def contained (path : Value ω) : Except RubyError String :=
  let s := path.toS
  if (split s).contains ".." then .error traversal else .ok s

/-- `Microsandbox.coerce_write_bytes`. -/
def coerceWriteBytes (data : Data) : Op σ (List UInt8) :=
  match data with
  | .string bytes => pure bytes
  | .other className =>
    throw (.other (.custom "TypeError" s!"data must be a String (got {className})"))

variable (core : Core β σ ρ) (self : VolumeFs β) (p : ForkTree.Proc ProcessIdentity)

/-- A method that returns what the native object returns. -/
def reader (native : String → Op σ ρ) (path : Value ω) : Op σ (Option ρ) := do
  return some (← native (← lift (contained path)))

/-- A method that returns `nil`. -/
def mutator (native : String → Op σ ρ) (path : Value ω) : Op σ (Option ρ) := do
  let _ ← native (← lift (contained path))
  return none

/-- A method on two paths, which returns `nil`. -/
def mutator₂ (native : String → String → Op σ ρ) (src dst : Value ω) : Op σ (Option ρ) := do
  let src ← lift (contained src)
  let dst ← lift (contained dst)
  let _ ← native src dst
  return none

/-- `read`. -/
def read : Value ω → Op σ (Option ρ) := reader (Native.read core self p)

/-- `read_text`. -/
def readText : Value ω → Op σ (Option ρ) := reader (Native.readText core self p)

/-- `write`, which converts the data first. -/
def write (path : Value ω) (data : Data) : Op σ (Option ρ) := do
  let bytes ← coerceWriteBytes data
  mutator (fun path => Native.write core self p path bytes) path

/-- `list`. -/
def list : Value ω → Op σ (Option ρ) := reader (Native.list core self p)

/-- `mkdir`. -/
def mkdir : Value ω → Op σ (Option ρ) := mutator (Native.mkdir core self p)

/-- `remove_file`. -/
def removeFile : Value ω → Op σ (Option ρ) := mutator (Native.removeFile core self p)

/-- `remove_dir`. -/
def removeDir : Value ω → Op σ (Option ρ) := mutator (Native.removeDir core self p)

/-- `exists?`. -/
def «exists» : Value ω → Op σ (Option ρ) := reader (Native.exists core self p)

/-- `copy`. -/
def copy : Value ω → Value ω → Op σ (Option ρ) := mutator₂ (Native.copy core self p)

/-- `rename`. -/
def rename : Value ω → Value ω → Op σ (Option ρ) := mutator₂ (Native.rename core self p)

/-- `stat`. -/
def stat : Value ω → Op σ (Option ρ) := reader (Native.stat core self p)

end Wrapper

/-! ## The operations -/

/-- The operations of a `VolumeFs`, on paths of the type `π`. -/
inductive Operation (π : Type) where
  | read (path : π)
  | readText (path : π)
  | write (path : π) (data : Data)
  | list (path : π)
  | mkdir (path : π)
  | removeFile (path : π)
  | removeDir (path : π)
  | exists (path : π)
  | copy (src dst : π)
  | rename (src dst : π)
  | stat (path : π)

namespace Operation

variable {π ω β σ ρ : Type}

/-- The paths of an operation. -/
def paths : Operation π → List π
  | read path | readText path | write path _ | list path | mkdir path | removeFile path
  | removeDir path | .exists path | stat path => [path]
  | copy src dst | rename src dst => [src, dst]

/-- Whether the operation writes something that is not a String. -/
def WritesOther : Operation π → Prop
  | write _ (.other _) => True
  | _ => False

variable (core : Core β σ ρ) (self : VolumeFs β) (p : ForkTree.Proc ProcessIdentity)

/-- A call of the native object. The conversion of its arguments comes before its body. -/
def runNative : Operation String → Op σ ρ
  | read path => Native.read core self p path
  | readText path => Native.readText core self p path
  | write path (.string bytes) => Native.write core self p path bytes
  -- the arguments are converted before the method looks at the path
  | write _ (.other _) => throw (.other (.typeError "String"))
  | list path => Native.list core self p path
  | mkdir path => Native.mkdir core self p path
  | removeFile path => Native.removeFile core self p path
  | removeDir path => Native.removeDir core self p path
  | .exists path => Native.exists core self p path
  | copy src dst => Native.copy core self p src dst
  | rename src dst => Native.rename core self p src dst
  | stat path => Native.stat core self p path

/-- A call of the Ruby wrapper. -/
def runWrapper [Methods ω] : Operation (Value ω) → Op σ (Option ρ)
  | read path => Wrapper.read core self p path
  | readText path => Wrapper.readText core self p path
  | write path data => Wrapper.write core self p path data
  | list path => Wrapper.list core self p path
  | mkdir path => Wrapper.mkdir core self p path
  | removeFile path => Wrapper.removeFile core self p path
  | removeDir path => Wrapper.removeDir core self p path
  | .exists path => Wrapper.exists core self p path
  | copy src dst => Wrapper.copy core self p src dst
  | rename src dst => Wrapper.rename core self p src dst
  | stat path => Wrapper.stat core self p path

end Operation

/-! ## The guards -/

/-- A path with a `..` segment. -/
def Rejected (path : String) : Prop := ".." ∈ segments path

instance (path : String) : Decidable (Rejected path) := inferInstanceAs (Decidable (_ ∈ _))

/-- The native side rejects the same paths. -/
theorem nativeContained_eq (path : String) :
    Native.contained path = if Rejected path then .error traversal else .ok path := by
  unfold Native.contained
  have hany : ((components (ofString path)).any fun part => part == .parentDir) = true ↔
      Rejected path := by
    rw [Rejected, ← parentDir_mem_components_iff, List.any_eq_true]
    simp
  simp only [hany]

/-- The wrapper rejects a path by its text. -/
theorem wrapperContained_eq {ω : Type} [Methods ω] (path : Value ω) :
    Wrapper.contained path =
      if Rejected path.toS then .error traversal else .ok path.toS := by
  unfold Wrapper.contained
  have hmem : (split path.toS).contains ".." = true ↔ Rejected path.toS := by
    rw [Rejected, List.contains_iff_mem, mem_split_iff (by decide)]
  simp only [hmem]

/-- The two guards refuse the same texts. -/
theorem contained_iff {ω : Type} [Methods ω] (path : Value ω) :
    Wrapper.contained path = .error traversal ↔ Native.contained path.toS = .error traversal := by
  rw [wrapperContained_eq, nativeContained_eq]

/-- The error means a path that is rejected. -/
theorem nativeContained_eq_error_iff {path : String} :
    Native.contained path = .error traversal ↔ Rejected path := by
  rw [nativeContained_eq]
  by_cases h : Rejected path
  · simp [h]
  · simp [h]

/-! ## Lexical resolution -/

/-- A directory that is named from the root of a volume: so many levels above the root, and then down
through the directories listed last first. -/
structure Position where
  above : ℕ
  below : List String
deriving DecidableEq, Repr

/-- The root of the volume. -/
def Position.root : Position := ⟨0, []⟩

/-- Where a segment leads. An empty segment, as in front of a leading slash, stays where it is. -/
def Position.walk (here : Position) (segment : String) : Position :=
  if segment = "" ∨ segment = "." then here
  else if segment = ".." then
    match here.below with
    | [] => { here with above := here.above + 1 }
    | _ :: below => { here with below }
  else { here with below := segment :: here.below }

/-- Only `..` walks up. -/
theorem above_walk {here : Position} {segment : String} (h : segment ≠ "..") :
    (here.walk segment).above = here.above := by
  unfold Position.walk
  split
  · rfl
  · rfl

/-- Without `..`, no number of segments leads out of the root. -/
theorem above_foldl_walk {here : Position} {segs : List String} (h : ".." ∉ segs) :
    (segs.foldl Position.walk here).above = here.above := by
  induction segs generalizing here with
  | nil => rfl
  | cons segment segs ih =>
    rw [List.mem_cons, not_or] at h
    rw [List.foldl_cons, ih h.2, above_walk (Ne.symm h.1)]

/-- A path that is not refused is below the root of the volume after every prefix of its segments. -/
theorem not_above_of_contained {path : String} (h : ¬Rejected path) {segs : List String}
    (hsegs : segs <+: segments path) : (segs.foldl Position.walk Position.root).above = 0 :=
  above_foldl_walk fun hmem => h (hsegs.subset hmem)

/-! ## Refused operations -/

section Refused

variable {ω β σ ρ α δ : Type}

/-- The exceptions of a refused path, and of a handle that crossed a fork. -/
def Refusal (e : RubyError) : Prop :=
  e.className = "FilesystemError" ∨ e.className = "ForkedHandleError"

/-- An operation that raises such an exception and leaves the volume as it is. -/
def Refused (x : Op σ α) : Prop := ∀ w, ∃ e, x.run w = .error (.microsandbox e) w ∧ Refusal e

/-- What is refused first is refused. -/
theorem refused_lift_bind {e : RubyError} (he : Refusal e) (f : δ → Op σ α) :
    Refused (lift (.error e) >>= f) := fun _ => ⟨e, rfl, he⟩

/-- A check that passed changes nothing. -/
theorem lift_ok_bind (a : δ) (f : δ → Op σ α) : lift (.ok a) >>= f = f a := rfl

/-- A traversal is a refusal. -/
theorem refusal_traversal : Refusal traversal := Or.inl rfl

/-- So is a handle of another process. -/
theorem refusal_of_get {g : ForkGuarded β} {p : ForkTree.Proc ProcessIdentity} {e : RubyError}
    (h : g.get p = .error e) : Refusal e := by
  unfold ForkGuarded.get ForkGuarded.getIn at h
  split at h
  · cases h
  · obtain rfl := Except.error.inj h
    exact Or.inr rfl

variable {core : Core β σ ρ} {self : VolumeFs β} {p : ForkTree.Proc ProcessIdentity}

/-- A rejected path raises. -/
theorem nativeContained_of_rejected {path : String} (h : Rejected path) :
    Native.contained path = .error traversal := by
  rw [nativeContained_eq, if_pos h]

/-- An operation on it is refused. -/
theorem refused_onPath {call : String → CoreCall} {path : String} (h : Rejected path) :
    Refused (Native.onPath core self p call path) := by
  unfold Native.onPath
  cases hget : self.backend.get p with
  | error e => exact refused_lift_bind (refusal_of_get hget) _
  | ok backend =>
    rw [lift_ok_bind, nativeContained_of_rejected h]
    exact refused_lift_bind refusal_traversal _

/-- So is one on two paths if one is rejected. -/
theorem refused_onPaths {call : String → String → CoreCall} {src dst : String}
    (h : Rejected src ∨ Rejected dst) : Refused (Native.onPaths core self p call src dst) := by
  unfold Native.onPaths
  cases hget : self.backend.get p with
  | error e => exact refused_lift_bind (refusal_of_get hget) _
  | ok backend =>
    rw [lift_ok_bind]
    by_cases hsrc : Rejected src
    · rw [nativeContained_of_rejected hsrc]
      exact refused_lift_bind refusal_traversal _
    · rw [nativeContained_eq, if_neg hsrc, lift_ok_bind,
        nativeContained_of_rejected (h.resolve_left hsrc)]
      exact refused_lift_bind refusal_traversal _

variable [Methods ω]

/-- The wrapper raises as well. -/
theorem wrapperContained_of_rejected {path : Value ω} (h : Rejected path.toS) :
    Wrapper.contained path = .error traversal := by
  rw [wrapperContained_eq, if_pos h]

/-- So its readers refuse. -/
theorem refused_reader {native : String → Op σ ρ} {path : Value ω} (h : Rejected path.toS) :
    Refused (Wrapper.reader native path) := by
  rw [Wrapper.reader, wrapperContained_of_rejected h]
  exact refused_lift_bind refusal_traversal _

/-- And its mutators. -/
theorem refused_mutator {native : String → Op σ ρ} {path : Value ω} (h : Rejected path.toS) :
    Refused (Wrapper.mutator native path) := by
  rw [Wrapper.mutator, wrapperContained_of_rejected h]
  exact refused_lift_bind refusal_traversal _

/-- And the ones with two paths. -/
theorem refused_mutator₂ {native : String → String → Op σ ρ} {src dst : Value ω}
    (h : Rejected src.toS ∨ Rejected dst.toS) : Refused (Wrapper.mutator₂ native src dst) := by
  rw [Wrapper.mutator₂]
  by_cases hsrc : Rejected src.toS
  · rw [wrapperContained_of_rejected hsrc]
    exact refused_lift_bind refusal_traversal _
  · rw [wrapperContained_eq, if_neg hsrc, lift_ok_bind,
      wrapperContained_of_rejected (h.resolve_left hsrc)]
    exact refused_lift_bind refusal_traversal _

/-- Every native operation on a rejected path is refused. -/
theorem refused_runNative {op : Operation String} (h : ∃ path ∈ op.paths, Rejected path)
    (hdata : ¬op.WritesOther) : Refused (op.runNative core self p) := by
  obtain ⟨path, hmem, hpath⟩ := h
  cases op with
  | write path' data =>
    obtain rfl := List.mem_singleton.mp hmem
    cases data with
    | string bytes => exact refused_onPath hpath
    | other className => exact absurd trivial hdata
  | copy src dst | rename src dst =>
    refine refused_onPaths ?_
    rcases List.mem_pair.mp hmem with rfl | rfl
    · exact Or.inl hpath
    · exact Or.inr hpath
  | _ =>
    obtain rfl := List.mem_singleton.mp hmem
    exact refused_onPath hpath

/-- So is every operation of the wrapper. -/
theorem refused_runWrapper {op : Operation (Value ω)} (h : ∃ path ∈ op.paths, Rejected path.toS)
    (hdata : ¬op.WritesOther) : Refused (op.runWrapper core self p) := by
  obtain ⟨path, hmem, hpath⟩ := h
  cases op with
  | write path' data =>
    obtain rfl := List.mem_singleton.mp hmem
    cases data with
    | string bytes => exact refused_mutator hpath
    | other className => exact absurd trivial hdata
  | copy src dst | rename src dst =>
    refine refused_mutator₂ ?_
    rcases List.mem_pair.mp hmem with rfl | rfl
    · exact Or.inl hpath
    · exact Or.inr hpath
  | read path' | readText path' | list path' | «exists» path' | stat path' =>
    obtain rfl := List.mem_singleton.mp hmem
    exact refused_reader hpath
  | mkdir path' | removeFile path' | removeDir path' =>
    obtain rfl := List.mem_singleton.mp hmem
    exact refused_mutator hpath

end Refused

/-- A `TypeError`, by either side. -/
def IsTypeError : Exc Exception → Prop
  | .other (.typeError _) => True
  | .other (.custom className _) => className = "TypeError"
  | _ => False

/-- An operation on a refused path raises one of the two exceptions and changes nothing. A write of
something that is not a String raises a `TypeError`, with nothing changed either. -/
def RaisesUnchanged {σ α : Type} (x : Op σ α) (writesOther : Prop) : Prop :=
  ∀ w, ∃ e, x.run w = .error e w ∧
    ((∃ err, e = .microsandbox err ∧ Refusal err) ∨ writesOther ∧ IsTypeError e)

/-- A refusal raises and leaves the volume as it was. -/
theorem Refused.raisesUnchanged {σ α : Type} {x : Op σ α} (h : Refused x) (writesOther : Prop) :
    RaisesUnchanged x writesOther := by
  intro w
  obtain ⟨err, hrun, herr⟩ := h w
  exact ⟨.microsandbox err, hrun, Or.inl ⟨err, rfl, herr⟩⟩

/-- Data that is neither text nor bytes is written by `write` only. -/
theorem exists_of_writesOther {π : Type} {op : Operation π} (h : op.WritesOther) :
    ∃ path className, op = .write path (.other className) := by
  cases op with
  | write path data =>
    cases data with
    | string bytes => exact h.elim
    | other className => exact ⟨path, className, rfl⟩
  | _ => exact h.elim

/-- The two guards refuse the same paths, what they accept stays below the root of the volume, and
an operation with a path that is refused raises before the core is called. -/
theorem volume_paths_are_contained {ω β σ ρ : Type} [Methods ω] :
    (∀ path : Value ω, Wrapper.contained path = .error traversal ↔
      Native.contained path.toS = .error traversal) ∧
    (∀ path : String, Native.contained path ≠ .error traversal → ∀ segs, segs <+: segments path →
      (segs.foldl Position.walk Position.root).above = 0) ∧
    (∀ (core : Core β σ ρ) (self : VolumeFs β) (p : ForkTree.Proc ProcessIdentity)
      (op : Operation String), (∃ path ∈ op.paths, Native.contained path = .error traversal) →
      RaisesUnchanged (op.runNative core self p) op.WritesOther) ∧
    ∀ (core : Core β σ ρ) (self : VolumeFs β) (p : ForkTree.Proc ProcessIdentity)
      (op : Operation (Value ω)), (∃ path ∈ op.paths, Wrapper.contained path = .error traversal) →
      RaisesUnchanged (op.runWrapper core self p) op.WritesOther := by
  refine ⟨contained_iff, ?_, ?_, ?_⟩
  -- The paths that are let through never climb above the root, prefix by prefix.
  · intro path h segs hsegs
    exact not_above_of_contained (mt nativeContained_eq_error_iff.mpr h) hsegs
  · intro core self p op h
    simp only [nativeContained_eq_error_iff] at h
    by_cases hdata : op.WritesOther
    · obtain ⟨path, className, rfl⟩ := exists_of_writesOther hdata
      exact fun w => ⟨_, rfl, Or.inr ⟨hdata, trivial⟩⟩
    · exact (refused_runNative h hdata).raisesUnchanged _
  · intro core self p op h
    simp only [contained_iff, nativeContained_eq_error_iff] at h
    by_cases hdata : op.WritesOther
    · obtain ⟨path, className, rfl⟩ := exists_of_writesOther hdata
      exact fun w => ⟨_, rfl, Or.inr ⟨hdata, rfl⟩⟩
    · exact (refused_runWrapper h hdata).raisesUnchanged _

/-- A volume of a handle that was created in this process. -/
def ownVolume (p : ForkTree.Proc ProcessIdentity) : VolumeFs Unit where
  backend := .new p "Microsandbox::VolumeFs" ()
  name := "data"

/-- A copy whose target climbs, in the process that holds the handle. -/
theorem volume_paths_are_contained_copy :
    RaisesUnchanged (Operation.runNative (σ := List String) (ρ := Unit)
      (fun _ _ _ volume => (.ok (), volume)) (ownVolume ⟨0, .fromParts 1 0⟩)
      ⟨0, .fromParts 1 0⟩ (.copy "a" "b/../../c")) False :=
  (volume_paths_are_contained (ω := Unit)).2.2.1 _ _ _ _
    ⟨"b/../../c", List.mem_pair.mpr (Or.inr rfl), by decide⟩

/-- Writing an Integer to a path that climbs is refused for the Integer. -/
theorem write_integer_raises_type_error :
    ¬∀ (core : Core Unit Unit Unit) (p : ForkTree.Proc ProcessIdentity)
      (op : Operation (Value Unit)), (∃ path ∈ op.paths, Rejected path.toS) →
      Refused (op.runWrapper core (ownVolume p) p) := by
  intro h
  obtain ⟨e, hrun, -⟩ := h (fun _ _ _ volume => (.ok (), volume)) ⟨0, .fromParts 1 0⟩
    (.write (.str "..") (.other "Integer")) ⟨.str "..", List.mem_singleton.mpr rfl, by decide⟩
    ⟨(), []⟩
  cases hrun

end MicrosandboxRb.Volume
