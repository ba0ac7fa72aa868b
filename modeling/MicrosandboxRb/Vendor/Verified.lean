import MicrosandboxRb.Vendor.Vendored

/-!
# What a verified tree is

`verify_manifest!` is to accept the trees that their manifest describes: nothing but the manifest and
the listed files, each with its recorded digest. It compares in two ways. Every listed path is
joined to the vendor directory and looked up there, and what a glob of the directory finds has to be
listed. The glob passes over names that start with a dot, the lookup of the manifest follows links, and
a listed path may be spelled in more than one way or lead through a link that the glob does not see.

## Main results

* `looks_verifyManifest!`: what `verify_manifest!` checks;
* `describes_of_passes`, `passes_of_describes`: the checks, with what they leave out, describe the
  tree;
* `verify_manifest_exact_iff`: exactly when `verify_manifest!` accepts just the described trees.
-/

namespace MicrosandboxRb.Vendor

open Ruby Posix
open EStateM (Looks)

variable {lib : Stdlib} {fs : FileSystem} {p : Path} {platform runtimeVersion : String}
  {document : Json} {files : List (String × Json)}

/-! ### The manifest -/

/-- The document is a manifest for the platform and the runtime version, and the files that it lists
are a complete runtime. -/
structure ManifestFor (platform runtimeVersion : String) (es files : List (String × Json)) : Prop where
  schema : ∃ schema, es.lookup "schema" = some schema ∧ schema.isOne = true
  forPlatform : es.lookup "platform" = some (.str platform)
  fromRuntime : es.lookup "runtime_version" = some (.str runtimeVersion)
  listed : es.lookup "files" = some (.hash files)
  msb : "bin/msb" ∈ files.map Prod.fst
  firmware : ∃ key ∈ files.map Prod.fst, "lib/libkrunfw".toList <+: key.toList

/-- A value that is missing is not one. -/
theorem isOne_getD {value : Option Json} :
    (value.getD .null).isOne = true ↔ ∃ v, value = some v ∧ v.isOne = true := by
  cases value with
  | none => simp [Json.isOne]
  | some v => simp

/-- Nor is it a String. -/
theorem isStr_getD {value : Option Json} {s : String} :
    (value.getD .null).isStr s = true ↔ value = some (.str s) := by
  rcases value with _ | (_ | _ | _ | _ | t | _ | _) <;> simp [Json.isStr]

/-- The files of a manifest are a Hash under their key. -/
theorem fetchFiles_eq_ok_iff {es : List (String × Json)} :
    fetchFiles (.hash es) = .ok files ↔ es.lookup "files" = some (.hash files) := by
  rw [fetchFiles]
  rcases es.lookup "files" with _ | (_ | _ | _ | _ | _ | _ | files') <;> simp

/-- One of the keys is a firmware. -/
theorem any_isFirmware_iff :
    (files.map Prod.fst).any isFirmware = true ↔
      ∃ key ∈ files.map Prod.fst, "lib/libkrunfw".toList <+: key.toList := by
  simp only [List.any_eq_true, isFirmware, List.isPrefixOf_iff_prefix]

/-- Which Hashes pass for a manifest. -/
theorem checkManifest_hash {es : List (String × Json)} :
    checkManifest lib (.hash es) platform runtimeVersion = .ok files ↔
      ManifestFor platform runtimeVersion es files := by
  simp only [checkManifest, index, Except.ok_bind, Except.guard_eq_ok_iff, Except.bind_eq_ok_iff,
    Bool.not_eq_true', Bool.not_eq_false, not_not, isOne_getD, isStr_getD, fetchFiles_eq_ok_iff,
    any_isFirmware_iff]
  constructor
  · rintro ⟨hschema, hplatform, hruntime, files', hfiles, hmsb, hfirmware, hreturn⟩
    obtain rfl := Except.ok.inj hreturn
    exact ⟨hschema, hplatform, hruntime, hfiles, hmsb, hfirmware⟩
  · rintro ⟨hschema, hplatform, hruntime, hfiles, hmsb, hfirmware⟩
    exact ⟨hschema, hplatform, hruntime, files, hfiles, hmsb, hfirmware, rfl⟩

/-- No other document does. -/
theorem checkManifest_eq_ok_iff :
    checkManifest lib document platform runtimeVersion = .ok files ↔
      ∃ es, document = .hash es ∧ ManifestFor platform runtimeVersion es files := by
  constructor
  · intro h
    obtain ⟨es, rfl⟩ : ∃ es, document = .hash es := by
      rw [checkManifest] at h
      obtain ⟨schema, hschema, h⟩ := Except.bind_eq_ok_iff.mp h
      rw [Except.guard_eq_ok_iff] at h
      cases document with
      | hash es => exact ⟨es, rfl⟩
      | str s =>
        -- a part of a String is a String, or `nil`
        obtain rfl := Except.ok.inj hschema
        refine absurd ?_ h.1
        split_ifs <;> rfl
      | _ => cases hschema
    exact ⟨es, rfl, checkManifest_hash.mp h⟩
  · rintro ⟨es, rfl, h⟩
    exact checkManifest_hash.mpr h

/-! ### The checks -/

/-- No call fails by itself. -/
def Quiet (w : World) : Prop := ∀ c n, (w.faults c n).raises = none

/-- A query looks at the file system. -/
theorem looks_query {α : Type} (c : Call) (q : FileSystem → Except Errno α) :
    Looks World.fs Quiet (query c q) fun fs a => q fs = .ok a where
  returns := by
    intro w a w' hrun
    rw [EStateM.run, query] at hrun
    cases hfault : (w.fault c).raises with
    | some e =>
      rw [hfault] at hrun
      cases hrun
    | none =>
      rw [hfault] at hrun
      cases hq : q w.fs with
      | error e =>
        rw [hq] at hrun
        cases hrun
      | ok b =>
        rw [hq] at hrun
        cases hrun
        exact ⟨rfl, rfl⟩
  total := by
    intro w a hw hq
    refine ⟨w.called c, ?_, rfl, hw⟩
    have hfault : (w.fault c).raises = none := hw c (w.calls c)
    rw [EStateM.run, query, hfault]
    dsimp only
    rw [hq]

/-- So does a test. -/
theorem looks_test (q : FileSystem → Bool) :
    Looks World.fs Quiet (test q) fun fs b => q fs = b where
  returns := by
    intro w b w' hrun
    cases hrun
    exact ⟨rfl, rfl⟩
  total := by
    rintro w b hw rfl
    exact ⟨w, rfl, rfl, hw⟩

variable (lib) in
/-- The manifest records the digest of the data. -/
def Recorded (data : Bytes) (expected : Json) : Prop :=
  ∃ digest, expected = .str digest ∧ lib.hexdigest data = downcase digest

/-- Data passes if it has the digest that is recorded. -/
theorem verifyRecorded_eq_ok {data : Bytes} {expected : Json} {label : String} :
    (∃ digest, verifyRecorded lib data expected label = .ok digest) ↔ Recorded lib data expected := by
  constructor
  · rintro ⟨digest, h⟩
    cases expected with
    | str s => exact ⟨s, rfl, (verifySha256!_eq_ok h).2⟩
    | _ => cases h
  · rintro ⟨digest, rfl, h⟩
    exact ⟨lib.hexdigest data, if_pos h⟩

variable (lib) in
/-- The checks on one listed file. -/
def FilePasses (fs : FileSystem) (vendorDir : List Component) (file : String × Json) : Prop :=
  ∃ path, join vendorDir file.1 = .ok path ∧ lstatFile fs path = .ok true ∧
    ∃ data, fs.read path = .ok data ∧ Recorded lib data file.2

/-- Verifying a file looks at the file system. -/
theorem looks_verifyFile (vendorDir : List Component) (file : String × Json) :
    Looks World.fs Quiet (verifyFile lib vendorDir file)
      fun fs _ => FilePasses lib fs vendorDir file := by
  have hdigest : ∀ path, Looks World.fs Quiet
      (do
        let data ← query (.read path) fun fs => fs.read path
        let _ ← EStateM.ofExcept (verifyRecorded lib data file.2 file.1) : Run Unit)
      fun fs _ => ∃ data, fs.read path = .ok data ∧ Recorded lib data file.2 := fun path =>
    ((looks_query _ fun fs => fs.read path).bind fun data =>
      ((EStateM.looks_ofExcept (verifyRecorded lib data file.2 file.1)).bind fun _ =>
        EStateM.looks_pure ()).congr fun _ _ => by simpa using verifyRecorded_eq_ok)
  refine ((EStateM.looks_ofExcept (join vendorDir file.1)).bind fun path =>
    (looks_query _ fun fs => lstatFile fs path).bind fun b =>
      (hdigest path).guard (b = true) _).congr fun fs _ => ?_
  simp [FilePasses]

variable (lib) in
/-- The checks on the tree. `files` is the map of the files of the manifest `document`. -/
structure Passes (fs : FileSystem) (vendorDir : List Component) (platform runtimeVersion : String)
    (document : Json) (files : List (String × Json)) : Prop where
  manifest : ∃ path, join vendorDir MANIFEST = .ok path ∧ fs.file? path = true ∧
    ∃ data, fs.read path = .ok data ∧ lib.parse data = .ok document
  checked : checkManifest lib document platform runtimeVersion = .ok files
  listed : ∀ file ∈ files, FilePasses lib fs vendorDir file
  present : ∃ present, presentFiles vendorDir fs = .ok present ∧
    ∀ f ∈ present, f = MANIFEST ∨ f ∈ files.map Prod.fst

/-- The verification returns the manifest of a tree that passes the checks. -/
theorem looks_verifyManifest! (vendorDir : List Component) (platform runtimeVersion : String) :
    Looks World.fs Quiet (verifyManifest! lib vendorDir platform runtimeVersion)
      fun fs document => ∃ files, Passes lib fs vendorDir platform runtimeVersion document files := by
  -- the last part: what is there besides the files that are listed
  have hpresent : ∀ (document : Json) (files : List (String × Json)), Looks World.fs Quiet
      (do
        let present ← query (.glob vendorDir) (presentFiles vendorDir)
        let extra := present.filter fun f => f ≠ MANIFEST ∧ f ∉ files.map Prod.fst
        if extra = [] then return document
        else throw (runtimeError s!"unexpected files in {pathText vendorDir}: {commaList extra}"))
      fun fs document' => (∃ present, presentFiles vendorDir fs = .ok present ∧
        ∀ f ∈ present, f = MANIFEST ∨ f ∈ files.map Prod.fst) ∧ document' = document :=
    fun document files => ((looks_query _ (presentFiles vendorDir)).bind fun present =>
      (EStateM.looks_pure document).guard
        ((present.filter fun f => f ≠ MANIFEST ∧ f ∉ files.map Prod.fst) = []) _).congr
          fun fs document' => by
    simp only [List.filter_eq_nil_iff, decide_eq_true_eq, not_and_or, not_not]
    grind
  refine ((EStateM.looks_ofExcept (join vendorDir MANIFEST)).bind fun path =>
    (looks_test fun fs => fs.file? path).bind fun b =>
      ((looks_query _ fun fs => fs.read path).bind fun data =>
        (EStateM.looks_ofExcept (lib.parse data)).bind fun document =>
          (EStateM.looks_ofExcept (checkManifest lib document platform runtimeVersion)).bind
            fun files => (Looks.forM files (looks_verifyFile vendorDir)).bind
              fun _ => hpresent document files).guard (b = true) _).congr fun fs document => ?_
  constructor
  · rintro ⟨path, hpath, _, hfile, rfl, data, hdata, document', hparse, files, hchecked, -, hlisted,
      hpresent, rfl⟩
    exact ⟨files, ⟨path, hpath, hfile, data, hdata, hparse⟩, hchecked, hlisted, hpresent⟩
  · rintro ⟨files, ⟨path, hpath, hfile, data, hdata, hparse⟩, hchecked, hlisted, hpresent⟩
    exact ⟨path, hpath, true, hfile, rfl, data, hdata, document, hparse, files, hchecked, (), hlisted,
      hpresent, rfl⟩

/-! ### Listed paths -/

/-- The text of a path, joined by slashes. -/
theorem toList_relText (r : Path) :
    (relText r).toList = ['/'].intercalate (r.map fun n => n.val.toList) := by
  rw [relText, String.toList_intercalate, List.map_map]
  rfl

/-- The relative path of an entry is parsed back. -/
theorem parse_relText {r : Path} (hr : r ≠ []) : Component.parse (relText r) = spell r :=
  Component.parse_of_toList hr (toList_relText r)

/-- Paths of one text are one path. -/
theorem relText_inj {r s : Path} (hr : r ≠ []) (hs : s ≠ []) (h : relText r = relText s) : r = s := by
  have hspell : spell r = spell s := by rw [← parse_relText hr, ← parse_relText hs, h]
  exact List.map_injective_iff.mpr (fun _ _ => Component.down.inj) hspell

theorem relText_manifestName : relText [manifestName] = MANIFEST := rfl

/-- The text of a path has no NUL. -/
theorem nul_notMem_relText (r : Path) : '\x00' ∉ (relText r).toList := by
  rw [toList_relText]
  induction r with
  | nil => simp
  | cons n r ih =>
    have hn : '\x00' ∉ n.val.toList := n.property.2.2.2.2
    cases r with
    | nil => simpa using hn
    | cons m r =>
      rw [List.map_cons] at ih
      rw [List.map_cons, List.map_cons, List.intercalate_cons_cons, List.mem_append, List.mem_append]
      rintro ((h | h) | h)
      · exact hn h
      · simp at h
      · exact ih h

/-- A text joined to the directory is the path below it. -/
theorem join_relText (vendorDir : List Component) {r : Path} (hr : r ≠ []) :
    join vendorDir (relText r) = .ok (vendorDir ++ spell r) := by
  rw [join, if_neg (nul_notMem_relText r), parse_relText hr]

/-- So is the name of the manifest. -/
theorem join_MANIFEST (vendorDir : List Component) :
    join vendorDir MANIFEST = .ok (vendorDir ++ spell [manifestName]) := by
  rw [← relText_manifestName, join_relText vendorDir (by simp)]

section Below

variable {vendorDir : List Component}

/-- The names of an entry below the vendor directory mean the entry. -/
theorem resolve_below (hresolve : fs.resolve true vendorDir = .ok p) (follow : Bool) {q : Path}
    {n : Name} (h : fs.node (p ++ q) = some .dir)
    (hn : follow = true → fs.link? (p ++ q ++ [n]) = false) :
    fs.resolve follow (vendorDir ++ spell (q ++ [n])) = .ok (p ++ q ++ [n]) := by
  obtain ⟨links, hlinks⟩ := FileSystem.resolve_append hresolve
  rw [hlinks follow _ (by simp [spell]), FileSystem.resolveFrom_spell follow links h hn]

/-- A file is no link. -/
theorem link?_of_file {r : Path} {data : Bytes} {mode : ℕ} (h : fs.node r = some (.file data mode)) :
    fs.link? r = false := by
  rw [FileSystem.link?, h]

/-- A file below the directory is read. -/
theorem read_below (hresolve : fs.resolve true vendorDir = .ok p) {r : Path} {data : Bytes} {mode : ℕ}
    (hr : r ≠ []) (h : fs.node (p ++ r) = some (.file data mode)) :
    fs.read (vendorDir ++ spell r) = .ok data := by
  induction r using List.reverseRecOn with
  | nil => exact absurd rfl hr
  | append_singleton q n _ =>
    rw [← List.append_assoc] at h
    have hdir : fs.node (p ++ q) = some .dir := fs.parent _ _ (by rw [h]; simp)
    rw [FileSystem.read, resolve_below hresolve true hdir fun _ => link?_of_file h, Except.ok_bind, h]

/-- For an entry of the tree, `lstat` tells whether it is a regular file. -/
theorem lstatFile_below (hresolve : fs.resolve true vendorDir = .ok p) {r : Path} (hr : r ≠ [])
    (h : fs.node (p ++ r) ≠ none) :
    lstatFile fs (vendorDir ++ spell r) = .ok true ↔
      ∃ data mode, fs.node (p ++ r) = some (.file data mode) := by
  induction r using List.reverseRecOn with
  | nil => exact absurd rfl hr
  | append_singleton q n _ =>
    rw [← List.append_assoc] at h ⊢
    have hdir : fs.node (p ++ q) = some .dir := fs.parent _ _ h
    -- the last name is not followed, so what is there is what `lstat` sees
    have hlstat : ∀ nd, fs.node (p ++ q ++ [n]) = some nd →
        fs.lstat (vendorDir ++ spell (q ++ [n])) = .ok nd := by
      intro nd hnode
      rw [FileSystem.lstat, resolve_below hresolve false hdir (by simp), Except.ok_bind, hnode]
    rw [lstatFile]
    constructor
    · intro hfile
      obtain ⟨nd, hnode⟩ := Option.ne_none_iff_exists'.mp h
      rw [hlstat nd hnode] at hfile
      cases nd with
      | file data mode => exact ⟨data, mode, hnode⟩
      | _ => split_ifs at hfile <;> cases hfile
    · rintro ⟨data, mode, hnode⟩
      have hexist : fs.exist? (vendorDir ++ spell (q ++ [n])) = true := by
        rw [FileSystem.exist?, FileSystem.find,
          resolve_below hresolve true hdir fun _ => link?_of_file hnode]
        dsimp only
        rw [hnode]
        rfl
      rw [if_pos hexist, hlstat _ hnode]
      rfl

/-- The manifest is found below the directory. -/
theorem find_manifest (hresolve : fs.resolve true vendorDir = .ok p) (hdir : fs.node p = some .dir)
    (hlink : fs.link? (p ++ [manifestName]) = false) :
    fs.find true (vendorDir ++ spell [manifestName]) = fs.node (p ++ [manifestName]) := by
  have hdir' : fs.node (p ++ []) = some .dir := by rwa [List.append_nil]
  have hlink' : fs.link? (p ++ [] ++ [manifestName]) = false := by rwa [List.append_nil]
  have hto := resolve_below hresolve true hdir' fun _ => hlink'
  rw [List.append_nil, List.nil_append] at hto
  rw [FileSystem.find, hto]

/-- The manifest that the code reads is the entry of that name, unless the entry is a link. -/
theorem file?_manifest_iff (hresolve : fs.resolve true vendorDir = .ok p)
    (hdir : fs.node p = some .dir) (hlink : fs.link? (p ++ [manifestName]) = false) :
    fs.file? (vendorDir ++ spell [manifestName]) = true ↔
      ∃ data mode, fs.node (p ++ [manifestName]) = some (.file data mode) := by
  rw [FileSystem.file?, find_manifest hresolve hdir hlink]
  rcases fs.node (p ++ [manifestName]) with _ | (_ | ⟨data, mode⟩ | ⟨absolute, target⟩) <;> simp

end Below

/-! ### The described tree -/

/-- What is below `p` and is not a directory, relative to `p`. -/
def entries (fs : FileSystem) (p : Path) : Set Path :=
  {r | r ≠ [] ∧ fs.node (p ++ r) ≠ none ∧ fs.node (p ++ r) ≠ some .dir}

/-- A name on the way starts with a dot. -/
def Hidden (r : Path) : Prop := ∃ n ∈ r, n.val.toList.head? = some '.'

/-- The glob finds everything that is not hidden. -/
theorem mem_presentFiles {vendorDir : List Component} (hresolve : fs.resolve true vendorDir = .ok p)
    (hdir : fs.node p = some .dir) :
    ∃ present, presentFiles vendorDir fs = .ok present ∧
      ∀ f, f ∈ present ↔ ∃ r ∈ entries fs p, ¬Hidden r ∧ relText r = f := by
  refine ⟨_, by rw [presentFiles, hresolve, Except.ok_bind, if_pos hdir], fun f => ?_⟩
  simp only [List.mem_map, List.mem_filter, FileSystem.mem_glob, decide_eq_true_eq, entries,
    Set.mem_ofPred_eq, Hidden]
  push Not
  refine exists_congr fun r => ?_
  tauto

variable (lib) in
/-- The tree at `p` is the one that its manifest describes. The manifest is for the platform and the
runtime version, nothing but itself and the files that it lists is there, and each listed path is
that of a regular file of the tree with the recorded digest. -/
structure Describes (fs : FileSystem) (p : Path) (platform runtimeVersion : String) (document : Json)
    (files : List (String × Json)) : Prop where
  manifest : ∃ data mode, fs.node (p ++ [manifestName]) = some (.file data mode) ∧
    lib.parse data = .ok document
  forRuntime : ∃ es, document = .hash es ∧ ManifestFor platform runtimeVersion es files
  paths : relText '' entries fs p = insert MANIFEST {key | key ∈ files.map Prod.fst}
  digests : ∀ file ∈ files, ∃ r ∈ entries fs p, ∃ data mode, file.1 = relText r ∧
    fs.node (p ++ r) = some (.file data mode) ∧ Recorded lib data file.2

/-- What the checks leave out: the manifest is not a link, hidden entries are listed, and the listed
paths are those of entries of the tree. -/
structure Plain (fs : FileSystem) (p : Path) (files : List (String × Json)) : Prop where
  manifest : fs.link? (p ++ [manifestName]) = false
  hidden : ∀ r ∈ entries fs p, Hidden r → relText r ∈ files.map Prod.fst
  spelled : ∀ key ∈ files.map Prod.fst, ∃ r, r ≠ [] ∧ fs.node (p ++ r) ≠ none ∧ key = relText r

section Described

variable {vendorDir : List Component}

/-- A file is listed. -/
theorem mem_entries_of_file {r : Path} {data : Bytes} {mode : ℕ} (hr : r ≠ [])
    (h : fs.node (p ++ r) = some (.file data mode)) : r ∈ entries fs p :=
  ⟨hr, by rw [h]; simp, by rw [h]; simp⟩

/-- The manifest is not hidden. -/
theorem not_hidden_manifest : ¬Hidden [manifestName] := by
  rintro ⟨n, hn, hdot⟩
  rw [List.mem_singleton.mp hn] at hdot
  exact absurd hdot (by decide)

/-- A manifest that passes in a plain tree describes it. -/
theorem describes_of_passes (hresolve : fs.resolve true vendorDir = .ok p)
    (hdir : fs.node p = some .dir)
    (h : Passes lib fs vendorDir platform runtimeVersion document files) (hplain : Plain fs p files) :
    Describes lib fs p platform runtimeVersion document files := by
  -- every file of the manifest is there, and has its digest
  have hdigests : ∀ file ∈ files, ∃ r ∈ entries fs p, ∃ data mode, file.1 = relText r ∧
      fs.node (p ++ r) = some (.file data mode) ∧ Recorded lib data file.2 := by
    intro file hfile
    obtain ⟨r, hr, hnode, hkey⟩ := hplain.spelled file.1 (List.mem_map_of_mem hfile)
    obtain ⟨path, hpath, hlstat, data, hdata, hrecorded⟩ := h.listed file hfile
    rw [hkey, join_relText vendorDir hr] at hpath
    obtain rfl := Except.ok.inj hpath
    obtain ⟨data', mode, hnode⟩ := (lstatFile_below hresolve hr hnode).mp hlstat
    rw [read_below hresolve hr hnode] at hdata
    obtain rfl := Except.ok.inj hdata
    exact ⟨r, mem_entries_of_file hr hnode, data', mode, hkey, hnode, hrecorded⟩
  obtain ⟨path, hpath, hfile, data, hdata, hparse⟩ := h.manifest
  rw [join_MANIFEST] at hpath
  obtain rfl := Except.ok.inj hpath
  obtain ⟨data', mode, hnode⟩ :=
    (file?_manifest_iff hresolve hdir hplain.manifest).mp hfile
  rw [read_below hresolve (by simp) hnode] at hdata
  obtain rfl := Except.ok.inj hdata
  refine ⟨⟨data', mode, hnode, hparse⟩, checkManifest_eq_ok_iff.mp h.checked, ?_, hdigests⟩
  obtain ⟨present, hpresent, hlisted⟩ := h.present
  obtain ⟨present', hpresent', hmem⟩ := mem_presentFiles hresolve hdir
  rw [hpresent'] at hpresent
  obtain rfl := Except.ok.inj hpresent
  apply Set.Subset.antisymm
  · -- every file that is there is listed, the hidden ones by the condition
    rintro - ⟨r, hr, rfl⟩
    by_cases hhidden : Hidden r
    · exact Or.inr (hplain.hidden r hr hhidden)
    · exact hlisted _ ((hmem _).mpr ⟨r, hr, hhidden, rfl⟩)
  · rintro key (rfl | hkey)
    · exact ⟨[manifestName], mem_entries_of_file (by simp) hnode, relText_manifestName⟩
    · obtain ⟨file, hfile, rfl⟩ := List.mem_map.mp hkey
      obtain ⟨r, hr, -, -, hkey, -⟩ := hdigests file hfile
      exact ⟨r, hr, hkey.symm⟩

/-- A tree that is described is plain. -/
theorem plain_of_describes (h : Describes lib fs p platform runtimeVersion document files) :
    Plain fs p files := by
  obtain ⟨data, mode, hnode, -⟩ := h.manifest
  refine ⟨link?_of_file hnode, fun r hr hhidden => ?_, fun key hkey => ?_⟩
  · have hmem : relText r ∈ insert MANIFEST {key | key ∈ files.map Prod.fst} := by
      rw [← h.paths]
      exact ⟨r, hr, rfl⟩
    rcases hmem with heq | hlisted
    · rw [← relText_manifestName] at heq
      rw [relText_inj hr.1 (by simp) heq] at hhidden
      exact absurd hhidden not_hidden_manifest
    · exact hlisted
  · obtain ⟨file, hfile, rfl⟩ := List.mem_map.mp hkey
    obtain ⟨r, hr, -, -, hkey, -⟩ := h.digests file hfile
    exact ⟨r, hr.1, hr.2.1, hkey⟩

/-- And its manifest passes. -/
theorem passes_of_describes (hresolve : fs.resolve true vendorDir = .ok p)
    (hdir : fs.node p = some .dir)
    (h : Describes lib fs p platform runtimeVersion document files) :
    Passes lib fs vendorDir platform runtimeVersion document files := by
  obtain ⟨data, mode, hnode, hparse⟩ := h.manifest
  have hfile : fs.file? (vendorDir ++ spell [manifestName]) = true :=
    (file?_manifest_iff hresolve hdir (link?_of_file hnode)).mpr ⟨data, mode, hnode⟩
  refine ⟨⟨_, join_MANIFEST vendorDir, hfile, data,
    read_below hresolve (by simp) hnode, hparse⟩, checkManifest_eq_ok_iff.mpr h.forRuntime, ?_, ?_⟩
  · intro file hfile
    obtain ⟨r, hr, data, mode, hkey, hnode, hrecorded⟩ := h.digests file hfile
    refine ⟨vendorDir ++ spell r, ?_, ?_, data, read_below hresolve hr.1 hnode, hrecorded⟩
    · rw [hkey, join_relText vendorDir hr.1]
    · exact (lstatFile_below hresolve hr.1 hr.2.1).mpr ⟨data, mode, hnode⟩
  · obtain ⟨present, hpresent, hmem⟩ := mem_presentFiles hresolve hdir
    refine ⟨present, hpresent, fun f hf => ?_⟩
    obtain ⟨r, hr, -, rfl⟩ := (hmem f).mp hf
    have hlisted : relText r ∈ insert MANIFEST {key | key ∈ files.map Prod.fst} := by
      rw [← h.paths]
      exact ⟨r, hr, rfl⟩
    exact hlisted

end Described

/-! ### What is accepted -/

/-- The document and its files are those that the code reads. -/
theorem Passes.unique {vendorDir : List Component} {document' : Json} {files' : List (String × Json)}
    (h : Passes lib fs vendorDir platform runtimeVersion document files)
    (h' : Passes lib fs vendorDir platform runtimeVersion document' files') :
    document = document' ∧ files = files' := by
  obtain ⟨path, hpath, -, data, hdata, hparse⟩ := h.manifest
  obtain ⟨path', hpath', -, data', hdata', hparse'⟩ := h'.manifest
  obtain rfl := Except.ok.inj (hpath.symm.trans hpath')
  obtain rfl := Except.ok.inj (hdata.symm.trans hdata')
  obtain rfl := Except.ok.inj (hparse.symm.trans hparse')
  exact ⟨rfl, Except.ok.inj (h.checked.symm.trans h'.checked)⟩

variable (lib) in
/-- `verify_manifest!` returns. -/
def Accepts (w : World) (vendorDir : List Component) (platform runtimeVersion : String) : Prop :=
  ∃ document w', (verifyManifest! lib vendorDir platform runtimeVersion).run w = .ok document w'

variable (lib) in
/-- The tree at `p` is the one that its manifest describes. -/
def Described (fs : FileSystem) (p : Path) (platform runtimeVersion : String) : Prop :=
  ∃ document files, Describes lib fs p platform runtimeVersion document files

variable (lib) in
/-- A tree that passes the checks is plain. -/
def PlainIfPasses (fs : FileSystem) (vendorDir : List Component) (p : Path)
    (platform runtimeVersion : String) : Prop :=
  ∀ document files, Passes lib fs vendorDir platform runtimeVersion document files → Plain fs p files

/-- So the condition holds of it. -/
theorem plainIfPasses_of_described {vendorDir : List Component}
    (hresolve : fs.resolve true vendorDir = .ok p) (hdir : fs.node p = some .dir)
    (h : Described lib fs p platform runtimeVersion) :
    PlainIfPasses lib fs vendorDir p platform runtimeVersion := by
  obtain ⟨document, files, h⟩ := h
  intro document' files' hpasses
  obtain ⟨-, rfl⟩ := (passes_of_describes hresolve hdir h).unique hpasses
  exact plain_of_describes h

/-- `verify_manifest!` accepts exactly the trees that their manifest describes, unless a tree passes
its checks with a manifest that is a link, a hidden entry that is not listed, or a listed path that is
not that of an entry of the tree. What it accepts is described if it is none of these. -/
theorem verify_manifest_exact_iff (lib : Stdlib) {w : World} {vendorDir : List Component} {p : Path}
    (platform runtimeVersion : String) (hresolve : w.fs.resolve true vendorDir = .ok p)
    (hdir : w.fs.node p = some .dir) :
    (Accepts lib w vendorDir platform runtimeVersion →
      (Described lib w.fs p platform runtimeVersion ↔
        PlainIfPasses lib w.fs vendorDir p platform runtimeVersion)) ∧
    (Quiet w →
      (Described lib w.fs p platform runtimeVersion →
        Accepts lib w vendorDir platform runtimeVersion) ∧
      ((Accepts lib w vendorDir platform runtimeVersion ↔
          Described lib w.fs p platform runtimeVersion) ↔
        PlainIfPasses lib w.fs vendorDir p platform runtimeVersion)) := by
  have hlooks : Looks World.fs Quiet (verifyManifest! lib vendorDir platform runtimeVersion) _ :=
    looks_verifyManifest! vendorDir platform runtimeVersion
  have hexact : Accepts lib w vendorDir platform runtimeVersion →
      (Described lib w.fs p platform runtimeVersion ↔
        PlainIfPasses lib w.fs vendorDir p platform runtimeVersion) := by
    rintro ⟨document, w', hrun⟩
    obtain ⟨⟨files, hpasses⟩, -⟩ := hlooks.returns w document w' hrun
    constructor
    · exact plainIfPasses_of_described hresolve hdir
    · intro hplain
      exact ⟨document, files, describes_of_passes hresolve hdir hpasses (hplain document files hpasses)⟩
  refine ⟨hexact, fun hquiet => ?_⟩
  -- in a quiet world nothing but the tree decides
  have haccepts : Described lib w.fs p platform runtimeVersion →
      Accepts lib w vendorDir platform runtimeVersion := by
    rintro ⟨document, files, h⟩
    obtain ⟨w', hrun, -⟩ :=
      hlooks.total w document hquiet ⟨files, passes_of_describes hresolve hdir h⟩
    exact ⟨document, w', hrun⟩
  refine ⟨haccepts, fun hiff document files hpasses => ?_, fun hplain => ?_⟩
  · obtain ⟨w', hrun, -⟩ := hlooks.total w document hquiet ⟨files, hpasses⟩
    have hdescribed := hiff.mp ⟨document, w', hrun⟩
    exact plainIfPasses_of_described hresolve hdir hdescribed document files hpasses
  · exact ⟨fun h => (hexact h).mpr hplain, haccepts⟩

/-! ### A hidden file -/

namespace Sample

/-- The name of a hidden file. -/
def hidden : Name := ⟨".hidden", by decide⟩

/-- The name of the firmware. -/
def firmware : Name := ⟨"libkrunfw.5.dylib", by decide⟩

/-- The directory of the executable. -/
def bin : Name := Place.msb.path.headD hidden

/-- The executable. -/
def msb : Name := Place.msb.path.getLastD hidden

/-- The directory of the firmware. -/
def libDir : Name := (Place.firmware firmware (by decide)).path.headD hidden

/-- The sample's tree, and a file that the manifest does not list. -/
def hiddenTree : FileSystem :=
  (((((((FileSystem.empty.put [vendor] .dir (by decide)).put
    [vendor, manifestName] (.file Sample.document 0o644) (by decide)).put
    [vendor, bin] .dir (by decide)).put
    [vendor, bin, msb] (.file (ascii "m") 0o755) (by decide)).put
    [vendor, bin, hidden] (.file (ascii "x") 0o755) (by decide)).put
    [vendor, libDir] .dir (by decide)).put
    [vendor, libDir, firmware] (.file (ascii "k") 0o755) (by decide))

/-- A world with this tree. -/
def hiddenWorld : World := { world with fs := hiddenTree }

end Sample

/-- The tree passes. -/
theorem accepts_hiddenWorld :
    Accepts Sample.stdlib Sample.hiddenWorld (spell [Sample.vendor]) "arm64-darwin" "v0.6.9" :=
  EStateM.Result.exists_ok_of_isOk (by decide +kernel)

/-- It is not described. -/
theorem not_described_hiddenWorld :
    ¬Described Sample.stdlib Sample.hiddenTree [Sample.vendor] "arm64-darwin" "v0.6.9" := by
  rintro ⟨document, files, h⟩
  obtain ⟨data, mode, -, hparse⟩ := h.manifest
  obtain rfl := Except.ok.inj hparse
  obtain ⟨es, hes, hmanifest⟩ := h.forRuntime
  obtain rfl := Json.hash.inj hes
  have hlisted : Json.hash _ = Json.hash files := Option.some.inj hmanifest.listed
  obtain rfl := Json.hash.inj hlisted
  have hhidden := (plain_of_describes h).hidden [Sample.bin, Sample.hidden]
    ⟨by decide, by decide, by decide⟩ ⟨Sample.hidden, by decide, by decide⟩
  exact absurd hhidden (by decide)

/-- A hidden file that the manifest does not list is accepted. -/
theorem exists_hidden_accepted :
    ∃ document w',
      (verifyManifest! Sample.stdlib (spell [Sample.vendor]) "arm64-darwin" "v0.6.9").run
        Sample.hiddenWorld = .ok document w' ∧
      ¬Described Sample.stdlib Sample.hiddenTree [Sample.vendor] "arm64-darwin" "v0.6.9" := by
  obtain ⟨document, w', hrun⟩ := accepts_hiddenWorld
  exact ⟨document, w', hrun, not_described_hiddenWorld⟩

/-- The hidden file is what the condition excludes. -/
theorem verify_manifest_exact_iff_hiddenWorld :
    Accepts Sample.stdlib Sample.hiddenWorld (spell [Sample.vendor]) "arm64-darwin" "v0.6.9" ∧
      ¬PlainIfPasses Sample.stdlib Sample.hiddenTree (spell [Sample.vendor]) [Sample.vendor]
        "arm64-darwin" "v0.6.9" := by
  have hresolve : Sample.hiddenWorld.fs.resolve true (spell [Sample.vendor]) = .ok [Sample.vendor] := by
    decide
  have hexact := (verify_manifest_exact_iff Sample.stdlib "arm64-darwin" "v0.6.9" hresolve
    (by decide)).1 accepts_hiddenWorld
  exact ⟨accepts_hiddenWorld, fun hplain => not_described_hiddenWorld (hexact.mpr hplain)⟩

end MicrosandboxRb.Vendor
