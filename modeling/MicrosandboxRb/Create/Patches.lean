import MicrosandboxRb.Create.RootDisk
import MicrosandboxRb.Create.Wire

/-!
# Patches

Modifications of the root filesystem before the boot: the factories (`patch.rb`), the normalization
of `patches:` (`sandbox.rb`) and the native parser (`parse_patches`, `sandbox.rs`). A String is valid
UTF-8 text, the `content:` of a file among them; the native layer takes the bytes of any String
there, and refuses a String that is not UTF-8 elsewhere.

## Main definitions

* `PatchCall.build`: what a factory returns;
* `normalizePatches`: the Hashes that the native layer receives;
* `parsePatches`: the operations of the core.

## Main results

* `patches_round_trip`: what the factories build is read back as the operations they stand for, with
  keys of either spelling.
-/

namespace MicrosandboxRb.Patches

open Ruby Conv Native RustPath AList

variable {ω : Type}

/-! ## Factories -/

section Factories

variable [Methods ω] [Numeric ω]

/-- `h["mode"] = Integer(mode) unless mode.nil?`. -/
def withMode (h : Opts ω) (mode : Value ω) : Except Exception (Opts ω) :=
  if mode.isNil then .ok h else (integer mode).map fun n => h.insert "mode" (.int n)

/-- A Hash of a kind with texts. -/
def kindHash (kind : String) (texts : List (String × Value ω)) : Opts ω :=
  texts.foldl (fun h t => h.insert t.1 (.str t.2.toS)) (AList.insert "kind" (.str kind) ∅)

/-- `"replace" => replace ? true : false`. -/
def withReplace (h : Opts ω) (replace : Value ω) : Opts ω :=
  h.insert "replace" (.bool replace.truthy)

/-- `Patch.text`. -/
def text (path content mode replace : Value ω) : Except Exception (Opts ω) :=
  withMode (withReplace (kindHash "text" [("path", path), ("content", content)]) replace) mode

/-- `Patch.file`. -/
def file (path content mode replace : Value ω) : Except Exception (Opts ω) :=
  withMode (withReplace (kindHash "file" [("path", path), ("content", content)]) replace) mode

omit [Numeric ω] in
/-- `Patch.append`. -/
def append (path content : Value ω) : Opts ω :=
  kindHash "append" [("path", path), ("content", content)]

/-- `Patch.copy_file`. -/
def copyFile (src dst mode replace : Value ω) : Except Exception (Opts ω) :=
  withMode (withReplace (kindHash "copy_file" [("src", src), ("dst", dst)]) replace) mode

omit [Numeric ω] in
/-- `Patch.copy_dir`. -/
def copyDir (src dst replace : Value ω) : Opts ω :=
  withReplace (kindHash "copy_dir" [("src", src), ("dst", dst)]) replace

omit [Numeric ω] in
/-- `Patch.symlink`. -/
def symlink (target link replace : Value ω) : Opts ω :=
  withReplace (kindHash "symlink" [("target", target), ("link", link)]) replace

/-- `Patch.mkdir`. -/
def mkdir (path mode : Value ω) : Except Exception (Opts ω) :=
  withMode (kindHash "mkdir" [("path", path)]) mode

omit [Numeric ω] in
/-- `Patch.remove`. -/
def remove (path : Value ω) : Opts ω :=
  kindHash "remove" [("path", path)]

omit [Numeric ω] in
/-- The patches, where a bare Hash stands for a list of one. -/
def patchList (patches : Value ω) : List (Value ω) :=
  match patches with
  | .hash es => [.hash es]
  | patches => patches.array

omit [Numeric ω] in
/-- One element of `patches:`. -/
def normalizePatch (p : Value ω) : Except Exception (Opts ω) :=
  match p with
  | .hash es => .ok (transformKeys Value.toS es)
  | p =>
    .error (.argumentError
      s!"patch must be a Hash (use Microsandbox::Patch.*), got {p.className}")

omit [Numeric ω] in
/-- Normalize `patches:`. -/
def normalizePatches (patches : Value ω) : Except Exception (List (Opts ω)) :=
  (patchList patches).mapM normalizePatch

end Factories

/-! ## The native layer -/

/-- A `Patch` of the core. -/
inductive Patch where
  | text (path content : String) (mode : Option UInt32) (replace : Bool)
  | file (path : String) (content : List UInt8) (mode : Option UInt32) (replace : Bool)
  | append (path content : String)
  | copyFile (src : Path) (dst : String) (mode : Option UInt32) (replace : Bool)
  | copyDir (src : Path) (dst : String) (replace : Bool)
  | symlink (target link : String) (replace : Bool)
  | mkdir (path : String) (mode : Option UInt32)
  | remove (path : String)
deriving DecidableEq, Repr

/-- Read a required string of a patch. -/
def patchStr (h : RHash ω) (key : String) : Except Exception String := do
  match ← optString h key with
  | some s => return s
  | none => throw (baseError s!"patch is missing required key :{key}")

/-- Read a required string of a patch as raw bytes. -/
def patchBytes (h : RHash ω) (key : String) : Except Exception (List UInt8) :=
  (patchStr h key).map fun s => s.toByteArray.data.toList

/-- The operation of a kind. -/
def patchOf (hostPaths : HostPaths) (process : Process) (h : RHash ω) (kind : String)
    (mode : Option UInt32) (replace : Bool) : Except Exception Patch := do
  match kind with
  | "text" => return .text (← patchStr h "path") (← patchStr h "content") mode replace
  | "file" => return .file (← patchStr h "path") (← patchBytes h "content") mode replace
  | "append" => return .append (← patchStr h "path") (← patchStr h "content")
  | "copy_file" =>
    return .copyFile (← hostPaths.pin process (← patchStr h "src") "patch source path")
      (← patchStr h "dst") mode replace
  | "copy_dir" =>
    return .copyDir (← hostPaths.pin process (← patchStr h "src") "patch source path")
      (← patchStr h "dst") replace
  | "symlink" => return .symlink (← patchStr h "target") (← patchStr h "link") replace
  | "mkdir" => return .mkdir (← patchStr h "path") mode
  | "remove" => return .remove (← patchStr h "path")
  | other =>
    throw (baseError (s!"unknown patch kind {RustStr.debug other} (expected one of " ++
      "text/file/append/copy_file/copy_dir/symlink/mkdir/remove)"))

/-- One iteration of the loop of `parse_patches`. -/
def parsePatch [Numeric ω] (hostPaths : HostPaths) (process : Process) (h : RHash ω) :
    Except Exception Patch := do
  let kind ← patchStr h "kind"
  let mode ← optU32 h "mode"
  let replace ← optBool h "replace"
  patchOf hostPaths process h kind mode replace

/-- Parse the `patches` option. -/
def parsePatches [Numeric ω] (hostPaths : HostPaths) (process : Process) (opts : RHash ω) :
    Except Exception (List Patch) := do
  (← optHashVec opts "patches").mapM (parsePatch hostPaths process)

/-! ## What the factories stand for -/

section RoundTrip

variable [Methods ω]

/-- A call of a factory. -/
inductive PatchCall (ω : Type) where
  | text (path content mode replace : Value ω)
  | file (path content mode replace : Value ω)
  | append (path content : Value ω)
  | copyFile (src dst mode replace : Value ω)
  | copyDir (src dst replace : Value ω)
  | symlink (target link replace : Value ω)
  | mkdir (path mode : Value ω)
  | remove (path : Value ω)

namespace PatchCall

/-- What a factory returns. -/
def build [Numeric ω] : PatchCall ω → Except Exception (Opts ω)
  | text path content mode replace => Patches.text path content mode replace
  | file path content mode replace => Patches.file path content mode replace
  | append path content => .ok (Patches.append path content)
  | copyFile src dst mode replace => Patches.copyFile src dst mode replace
  | copyDir src dst replace => .ok (Patches.copyDir src dst replace)
  | symlink target link replace => .ok (Patches.symlink target link replace)
  | mkdir path mode => Patches.mkdir path mode
  | remove path => .ok (Patches.remove path)

/-- The mode that a factory is given, if it takes one. -/
def mode : PatchCall ω → Value ω
  | text _ _ mode _ | file _ _ mode _ | copyFile _ _ mode _ | mkdir _ mode => mode
  | _ => .nil

/-- The operation that a call stands for, in a mode. A source is a path of the host. -/
def operation (hostPaths : HostPaths) (process : Process) (mode : Option UInt32) :
    PatchCall ω → Except Exception Patch
  | text path content _ replace => .ok (.text path.toS content.toS mode replace.truthy)
  | file path content _ replace =>
    .ok (.file path.toS content.toS.toByteArray.data.toList mode replace.truthy)
  | append path content => .ok (.append path.toS content.toS)
  | copyFile src dst _ replace =>
    (hostPaths.pin process src.toS "patch source path").map fun src =>
      .copyFile src dst.toS mode replace.truthy
  | copyDir src dst replace =>
    (hostPaths.pin process src.toS "patch source path").map fun src =>
      .copyDir src dst.toS replace.truthy
  | symlink target link replace => .ok (.symlink target.toS link.toS replace.truthy)
  | mkdir path _ => .ok (.mkdir path.toS mode)
  | remove path => .ok (.remove path.toS)

end PatchCall

/-- A Hash whose keys, as texts, hold what `h` holds: `h` itself, or `h` with Symbols for keys. -/
def Spells (es : Entries ω) (h : Opts ω) : Prop := ∀ key, last es key = h.lookup key

variable [Numeric ω]

/-- The mode as the native layer reads it. -/
def modeRead (mode : Value ω) : Except Exception (Option UInt32) :=
  if mode.isNil then .ok none
  else do
    let n ← integer mode
    (tryU32 (.int n : Value ω)).map some

/-- What a call stands for, if its mode fits in 32 bits. -/
def PatchCall.meant (hostPaths : HostPaths) (process : Process) (call : PatchCall ω) :
    Except Exception Patch := do
  let mode ← modeRead call.mode
  call.operation hostPaths process mode

omit [Methods ω] [Numeric ω] in
/-- A text of a patch reads back as it was written. -/
theorem patchStr_of_lookup {m : Opts ω} {key s : String} (h : m.lookup key = some (.str s)) :
    patchStr (strEntries m) key = .ok s := by
  rw [patchStr, optString_map_str (s := some s) h]
  rfl

omit [Methods ω] [Numeric ω] in
/-- A flag that is set reads back as it was written. -/
theorem optBool_of_lookup {m : Opts ω} {key : String} {b : Bool}
    (h : m.lookup key = some (.bool b)) : optBool (strEntries m) key = .ok b := by
  rw [optBool, opt_eq_some (a := b) h rfl rfl]
  rfl

omit [Methods ω] [Numeric ω] in
/-- A flag that is not set is off. -/
theorem optBool_of_lookup_eq_none {m : Opts ω} {key : String} (h : m.lookup key = none) :
    optBool (strEntries m) key = .ok false := by
  rw [optBool, opt_eq_none h]
  rfl

omit [Methods ω] in
/-- What reads the same under every key is the same patch. -/
theorem parsePatch_congr {hostPaths : HostPaths} {process : Process} {m m' : Opts ω}
    (h : ∀ key, m.lookup key = m'.lookup key) :
    parsePatch hostPaths process (strEntries m) = parsePatch hostPaths process (strEntries m') := by
  have hstr : patchStr (strEntries m) = patchStr (strEntries m') := by
    funext key
    rw [patchStr, patchStr, optString, optString, opt_congr (h key)]
  have hbytes : patchBytes (strEntries m) = patchBytes (strEntries m') := by
    funext key
    rw [patchBytes, patchBytes, hstr]
  have hof : patchOf hostPaths process (strEntries m) = patchOf hostPaths process (strEntries m') := by
    funext kind mode replace
    unfold patchOf
    rw [hstr, hbytes]
  rw [parsePatch, parsePatch, hstr, optU32, optU32, opt_congr (h "mode"), optBool, optBool,
    opt_congr (h "replace"), hof]

/-- A Hash of a kind, with or without a mode and `replace`. -/
structure Holds (kind : String) (mode : Value ω) (replace : Bool) (texts : List (String × Value ω))
    (m : Opts ω) : Prop where
  kindName : m.lookup "kind" = some (.str kind)
  modeOf : optU32 (strEntries m) "mode" = modeRead mode
  replaceOf : optBool (strEntries m) "replace" = .ok replace
  text : ∀ t ∈ texts, patchStr (strEntries m) t.1 = .ok t.2.toS

omit [Numeric ω] in
/-- Texts under distinct keys, put after one another. -/
theorem lookup_foldl_texts {texts : List (String × Value ω)} (hnodup : (texts.map Prod.fst).Nodup)
    (m : Opts ω) :
    (∀ t ∈ texts, (texts.foldl (fun h t => h.insert t.1 (.str t.2.toS)) m).lookup t.1 =
        some (.str t.2.toS)) ∧
      ∀ key ∉ texts.map Prod.fst,
        (texts.foldl (fun h t => h.insert t.1 (.str t.2.toS)) m).lookup key = m.lookup key := by
  induction texts generalizing m with
  | nil => exact ⟨by simp, fun key _ => rfl⟩
  | cons t texts ih =>
    obtain ⟨hfirst, hrest⟩ := List.nodup_cons.mp hnodup
    obtain ⟨hmem, hother⟩ := ih hrest (m.insert t.1 (.str t.2.toS))
    refine ⟨List.forall_mem_cons.mpr ⟨?_, hmem⟩, ?_⟩
    · rw [List.foldl_cons, hother t.1 hfirst, AList.lookup_insert]
    · intro key hkey
      rw [List.map_cons, List.mem_cons, not_or] at hkey
      rw [List.foldl_cons, hother key hkey.2, AList.lookup_insert_ne hkey.1]

/-- The Hash of a kind holds the kind and its texts. -/
theorem holds_kindHash (kind : String) (texts : List (String × Value ω))
    (hnodup : ("kind" :: "mode" :: "replace" :: texts.map Prod.fst).Nodup) :
    Holds kind .nil false texts (kindHash kind texts) := by
  simp only [List.nodup_cons, List.mem_cons, not_or] at hnodup
  obtain ⟨⟨-, -, hkind⟩, ⟨-, hmode⟩, hreplace, htexts⟩ := hnodup
  obtain ⟨hmem, hother⟩ := lookup_foldl_texts htexts (AList.insert "kind" (.str kind) ∅)
  constructor
  · exact (hother "kind" hkind).trans (AList.lookup_insert _)
  · exact opt_eq_none ((hother "mode" hmode).trans (AList.lookup_insert_ne (by decide)))
  · exact optBool_of_lookup_eq_none
      ((hother "replace" hreplace).trans (AList.lookup_insert_ne (by decide)))
  · exact fun t ht => patchStr_of_lookup (hmem t ht)

/-- `replace:` is written under a key of its own. -/
theorem Holds.withReplace {kind : String} {mode : Value ω} {b : Bool}
    {texts : List (String × Value ω)} {m : Opts ω} (h : Holds kind mode b texts m)
    (replace : Value ω) (htexts : "replace" ∉ texts.map Prod.fst) :
    Holds kind mode replace.truthy texts (Patches.withReplace m replace) := by
  have hne : ∀ key, key ≠ "replace" →
      (Patches.withReplace m replace).lookup key = m.lookup key :=
    fun key hkey => AList.lookup_insert_ne hkey
  constructor
  · rw [hne "kind" (by decide), h.kindName]
  · rw [optU32, opt_congr (hne "mode" (by decide))]
    exact h.modeOf
  · exact optBool_of_lookup (AList.lookup_insert _)
  · intro t ht
    have hkey : t.1 ≠ "replace" := by
      rintro heq
      exact htexts (heq ▸ List.mem_map_of_mem ht)
    rw [patchStr, optString, opt_congr (hne t.1 hkey)]
    exact h.text t ht

/-- So is `mode:`. -/
theorem Holds.withMode {kind : String} {b : Bool} {texts : List (String × Value ω)}
    {m m' : Opts ω} (h : Holds kind .nil b texts m) {mode : Value ω}
    (hm' : Patches.withMode m mode = .ok m') (htexts : "mode" ∉ texts.map Prod.fst) :
    Holds kind mode b texts m' := by
  unfold Patches.withMode at hm'
  by_cases hnil : mode.isNil = true
  · rw [if_pos hnil] at hm'
    obtain rfl := Except.ok.inj hm'
    rw [eq_nil_of_isNil hnil]
    exact h
  · rw [if_neg hnil] at hm'
    obtain ⟨n, hn, rfl⟩ := Except.map_eq_ok_iff.mp hm'
    -- Nothing but `mode` is written.
    have hne : ∀ key, key ≠ "mode" → (m.insert "mode" (.int n)).lookup key = m.lookup key :=
      fun key hkey => AList.lookup_insert_ne hkey
    constructor
    · rw [hne "kind" (by decide), h.kindName]
    · rw [modeRead, if_neg hnil, hn, optU32, opt, get_strEntries, AList.lookup_insert]
      rfl
    · rw [optBool, opt_congr (hne "replace" (by decide))]
      exact h.replaceOf
    · intro t ht
      have hkey : t.1 ≠ "mode" := by
        rintro heq
        exact htexts (heq ▸ List.mem_map_of_mem ht)
      rw [patchStr, optString, opt_congr (hne t.1 hkey)]
      exact h.text t ht

variable {hostPaths : HostPaths} {process : Process}

/-- What a Hash holds decides what is read of it. -/
theorem Holds.parsePatch_eq {kind : String} {mode : Value ω} {replace : Bool}
    {texts : List (String × Value ω)} {m : Opts ω} (h : Holds kind mode replace texts m)
    {meant : Option UInt32 → Except Exception Patch}
    (hmeant : ∀ mode, patchOf hostPaths process (strEntries m) kind mode replace = meant mode) :
    parsePatch hostPaths process (strEntries m) = modeRead mode >>= meant := by
  rw [parsePatch, patchStr_of_lookup h.kindName, Except.ok_bind, h.modeOf, h.replaceOf,
    ← funext hmeant]
  rfl

/-- What a factory builds is read as the operation it stands for. -/
theorem parsePatch_build {call : PatchCall ω} {h : Opts ω} (hbuild : call.build = .ok h) :
    parsePatch hostPaths process (strEntries h) = call.meant hostPaths process := by
  -- Factory by factory: what it wrote holds the texts, and the rest is settled by `parsePatch_eq`.
  cases call with
  | text path content mode replace =>
    have hholds := ((holds_kindHash "text" [("path", path), ("content", content)] (by simp)).withReplace
      replace (by simp)).withMode hbuild (by simp)
    refine hholds.parsePatch_eq fun mode => ?_
    rw [patchOf, hholds.text ("path", path) (by simp), hholds.text ("content", content) (by simp)]
    rfl
  | file path content mode replace =>
    have hholds := ((holds_kindHash "file" [("path", path), ("content", content)] (by simp)).withReplace
      replace (by simp)).withMode hbuild (by simp)
    refine hholds.parsePatch_eq fun mode => ?_
    rw [patchOf, patchBytes, hholds.text ("path", path) (by simp),
      hholds.text ("content", content) (by simp)]
    rfl
  | append path content =>
    obtain rfl := Except.ok.inj hbuild
    have hholds := holds_kindHash "append" [("path", path), ("content", content)] (by simp)
    refine hholds.parsePatch_eq fun mode => ?_
    rw [patchOf, hholds.text ("path", path) (by simp), hholds.text ("content", content) (by simp)]
    rfl
  | copyFile src dst mode replace =>
    have hholds := ((holds_kindHash "copy_file" [("src", src), ("dst", dst)] (by simp)).withReplace
      replace (by simp)).withMode hbuild (by simp)
    refine hholds.parsePatch_eq fun mode => ?_
    rw [patchOf, hholds.text ("src", src) (by simp), hholds.text ("dst", dst) (by simp)]
    rfl
  | copyDir src dst replace =>
    obtain rfl := Except.ok.inj hbuild
    have hholds := (holds_kindHash "copy_dir" [("src", src), ("dst", dst)] (by simp)).withReplace
      replace (by simp)
    refine hholds.parsePatch_eq fun mode => ?_
    rw [patchOf, hholds.text ("src", src) (by simp), hholds.text ("dst", dst) (by simp)]
    rfl
  | symlink target link replace =>
    obtain rfl := Except.ok.inj hbuild
    have hholds := (holds_kindHash "symlink" [("target", target), ("link", link)] (by simp)).withReplace
      replace (by simp)
    refine hholds.parsePatch_eq fun mode => ?_
    rw [patchOf, hholds.text ("target", target) (by simp), hholds.text ("link", link) (by simp)]
    rfl
  | mkdir path mode =>
    have hholds := (holds_kindHash "mkdir" [("path", path)] (by simp)).withMode hbuild (by simp)
    refine hholds.parsePatch_eq fun mode => ?_
    rw [patchOf, hholds.text ("path", path) (by simp)]
    rfl
  | remove path =>
    obtain rfl := Except.ok.inj hbuild
    have hholds := holds_kindHash "remove" [("path", path)] (by simp)
    refine hholds.parsePatch_eq fun mode => ?_
    rw [patchOf, hholds.text ("path", path) (by simp)]
    rfl

omit [Numeric ω] in
/-- The keys may be Strings or Symbols. -/
theorem spells_keys (spell : String → Value ω) (hspell : ∀ key, (spell key).toS = key) (h : Opts ω) :
    Spells (h.entries.map fun e => (spell e.1, e.2)) h := by
  intro key
  obtain ⟨entries, hnodup⟩ := h
  change last (entries.map _) key = entries.dlookup key
  induction entries with
  | nil => rfl
  | cons e es ih =>
    obtain ⟨k, v⟩ := e
    have htail : last (es.map fun e => (spell e.1, e.2)) key = es.dlookup key :=
      ih (List.nodupKeys_of_nodupKeys_cons hnodup)
    rw [last] at htail
    rw [List.map_cons, last, lastValue, htail, hspell]
    by_cases hk : k = key
    · subst hk
      rw [List.dlookup_cons_eq, List.dlookup_eq_none.mpr (List.notMem_keys_of_nodupKeys_cons hnodup),
        Option.none_or, beq_self_eq_true, if_pos rfl]
    · rw [List.dlookup_cons_ne _ _ (Ne.symm hk), if_neg (by simpa using hk), Option.or_none]

/-- The Hashes that factories return, in either spelling, are taken and read back as what the
factories stand for: a patch is refused only where its mode does not fit in 32 bits or its source
cannot be resolved. -/
theorem patches_round_trip (hostPaths : HostPaths) (process : Process)
    (calls : List (PatchCall ω)) (given : List (Entries ω))
    (hgiven : List.Forall₂ (fun call es => ∃ h, call.build = .ok h ∧ Spells es h) calls given) :
    ∃ hashes, normalizePatches (.arr (given.map .hash)) = .ok hashes ∧
      ∀ opts : Opts ω, opts.lookup "patches" = some (.arr (hashes.map strHash)) →
        parsePatches hostPaths process (strEntries opts) =
          calls.mapM (PatchCall.meant hostPaths process) := by
  refine ⟨given.map (transformKeys Value.toS), ?_, ?_⟩
  · refine Except.mapM_eq_ok_iff.mpr ?_
    rw [List.forall₂_map_right_iff]
    refine List.forall₂_map_left_iff.mpr (List.forall₂_same.mpr ?_)
    intro es _
    rfl
  · intro opts hopts
    rw [parsePatches, optHashVec_map_strHash hopts, Except.ok_bind, List.map_map, List.mapM_map]
    refine Except.mapM_congr_forall₂ (hgiven.flip.imp ?_)
    rintro es call ⟨h, hbuild, hspells⟩
    refine (parsePatch_congr ?_).trans (parsePatch_build hbuild)
    intro key
    rw [lookup_transformKeys_toS, hspells key]

end RoundTrip

/-- A text with Symbols for keys, and a file of the host. -/
theorem patches_round_trip_symbols :
    ∃ text copy hashes, (PatchCall.text (.str "/etc/motd") (.str "hi") (.int 420) .nil).build =
        .ok text ∧
      (PatchCall.copyFile (.str "a.pem") (.str "/a.pem") .nil (.bool true)).build = .ok copy ∧
      normalizePatches (.arr ([text.entries.map fun e => (.sym e.1, e.2),
        strEntries copy].map .hash) : Value Unit) = .ok hashes ∧
      parsePatches ⟨true⟩ ⟨.ok (ofString "/w"), fun _ => ""⟩
        (strEntries (AList.singleton "patches" (.arr (hashes.map strHash)) : Opts Unit)) =
          .ok [.text "/etc/motd" "hi" (some 420) false,
            .copyFile (ofString "/w/a.pem") "/a.pem" none true] := by
  obtain ⟨text, htext⟩ : ∃ h, (PatchCall.text (.str "/etc/motd") (.str "hi") (.int 420)
    .nil : PatchCall Unit).build = .ok h := ⟨_, rfl⟩
  obtain ⟨copy, hcopy⟩ : ∃ h, (PatchCall.copyFile (.str "a.pem") (.str "/a.pem") .nil
    (.bool true) : PatchCall Unit).build = .ok h := ⟨_, rfl⟩
  obtain ⟨hashes, hhashes, hread⟩ := patches_round_trip (ω := Unit) ⟨true⟩
    ⟨.ok (ofString "/w"), fun _ => ""⟩
    [.text (.str "/etc/motd") (.str "hi") (.int 420) .nil,
      .copyFile (.str "a.pem") (.str "/a.pem") .nil (.bool true)] _
    (.cons ⟨text, htext, spells_keys .sym (fun _ => rfl) text⟩
      (.cons ⟨copy, hcopy, spells_keys .str (fun _ => rfl) copy⟩ .nil))
  exact ⟨text, copy, hashes, htext, hcopy, hhashes, (hread _ rfl).trans rfl⟩

end MicrosandboxRb.Patches
