import MicrosandboxRb.Vendor.Extract

/-!
# What a successful `vendor!` leaves

The digest of the bundle is the one that both checksum documents publish, and the vendor directory is
the tree of the bundle's files with their manifest. Everything outside the vendor directory and the
staging directory is as before.

The directory that contains the vendor directory exists: it is the gem's own directory.

## Main results

* `triple_stageBundle`: staging writes only below the staging directory;
* `triple_swapTrees`: a successful replacement moves the staged tree;
* `nothing_unverified_is_vendored`: the guarantee for `vendor!`.
-/

namespace MicrosandboxRb.Vendor

open Ruby Posix Std.Do
open FileSystem (EqOutside Holds)

set_option mvcgen.warning false

/-! ### Checksums -/

/-- `digest` is published for `asset`: the first line whose last field is `asset` starts with it. -/
def PublishedDigest (checksumsText asset digest : String) : Prop :=
  ∃ before line after, eachLine checksumsText = before ++ line :: after ∧
    (∀ l ∈ before, (split l).getLast? ≠ some asset) ∧ (split line).getLast? = some asset ∧
    ∃ first, (split line).head? = some first ∧ isDigest first = true ∧ digest = downcase first

variable {lib : Stdlib}

/-- A digest that was found was published. -/
theorem publishedDigest_of_expectedSha256! {checksumsText asset digest : String}
    (h : expectedSha256! lib checksumsText asset = .ok digest) :
    PublishedDigest checksumsText asset digest := by
  rw [expectedSha256!] at h
  cases hfind : (eachLine checksumsText).find? (lists asset) with
  | none =>
    rw [hfind] at h
    cases h
  | some line =>
    rw [hfind] at h
    dsimp only at h
    split_ifs at h with hdigest
    -- The first line that lists the asset decides, whatever the later ones say.
    obtain ⟨hline, before, after, hlines, hbefore⟩ := List.find?_eq_some_iff_append.mp hfind
    have hlast : (split line).getLast? = some asset := by simpa [lists] using hline
    refine ⟨before, line, after, hlines, fun l hl => ?_, hlast, ?_⟩
    · simpa [lists] using hbefore l hl
    · cases hsplit : split line with
      | nil =>
        rw [hsplit] at hlast
        cases hlast
      | cons first rest =>
        rw [hsplit] at h hdigest
        exact ⟨first, rfl, hdigest, (Except.ok.inj h).symm⟩

/-- It is in lower case. -/
theorem downcase_of_expectedSha256! {checksumsText asset digest : String}
    (h : expectedSha256! lib checksumsText asset = .ok digest) : downcase digest = digest := by
  obtain ⟨-, -, -, -, -, -, first, -, -, rfl⟩ := publishedDigest_of_expectedSha256! h
  exact downcase_downcase first

/-- Data that was verified has the digest. -/
theorem verifySha256!_eq_ok {data : Bytes} {expected label digest : String}
    (h : verifySha256! lib data expected label = .ok digest) :
    digest = lib.hexdigest data ∧ lib.hexdigest data = downcase expected := by
  rw [verifySha256!] at h
  split_ifs at h with heq
  exact ⟨(Except.ok.inj h).symm, heq⟩

/-- A live digest that was accepted is the pinned one. -/
theorem checkLive_eq_ok {args : VendorArgs} {asset live expected : String} {u : Unit}
    (h : checkLive args asset live expected = .ok u) : live = expected := by
  rw [checkLive] at h
  split_ifs at h with heq
  · exact heq
  · obtain ⟨committed, -, h⟩ := Except.bind_eq_ok_iff.mp h
    cases h

/-! ### The staging directory -/

/-- The staging directory has a name of its own. -/
theorem VendorDir.stagingName_ne (dir : VendorDir) (pid : ℕ) : dir.stagingName pid ≠ dir.name := by
  intro h
  have hlength := congrArg (fun n : Name => n.val.toList.length) h
  simp [VendorDir.stagingName] at hlength

/-- Nothing is below both the staging directory and the vendor directory. -/
theorem VendorDir.not_below_path (dir : VendorDir) (pid : ℕ) (r : Path)
    (h : dir.staging pid <+: r) : ¬dir.path <+: r := by
  obtain ⟨s, rfl⟩ := h
  intro h
  rw [VendorDir.path, VendorDir.staging, List.append_assoc, List.prefix_append_right_inj] at h
  exact dir.stagingName_ne pid (List.cons_prefix_cons.mp h).1.symm

/-- The name of the manifest. -/
def manifestName : Name := ⟨MANIFEST, by decide⟩

/-- The manifest fits beside the files. -/
theorem fits_manifest (contents : Contents) : Fits contents.tree [manifestName] := by
  apply fits_of_incomparable
  intro g hg
  obtain ⟨f, -, rfl⟩ := List.mem_map.mp hg
  obtain ⟨place, data⟩ := f
  cases place <;> simp [Place.path, manifestName, MANIFEST, List.cons_prefix_cons]

/-- Its path. -/
theorem join_manifest (p : Path) : join (spell p) MANIFEST = .ok (spell (p ++ [manifestName])) := by
  have hparse : Component.parse MANIFEST = spell [manifestName] := by decide
  rw [join, if_neg (by decide), hparse, spell, spell, spell, List.map_append]

/-- The files of the vendored tree: those of the bundle, and the manifest. -/
def vendoredFiles (contents : Contents) (document : Bytes) : List (Path × Node) :=
  contents.tree ++ [([manifestName], .file (document ++ [10]) 0o644)]

section Staging

variable {fs₀ : FileSystem} {q : Path} {m : Name} {contents : Contents}

/-- A tree with files in it is a directory. -/
theorem dir_of_holds {p : Path} (h : fs₀.Holds p contents.tree) (hmsb : "bin/msb" ∈ contents.rels) :
    fs₀.node p = some .dir := by
  obtain ⟨f, hf, -⟩ := List.mem_map.mp hmsb
  have hroot := h []
  rw [List.append_nil] at hroot
  rw [hroot]
  apply treeOf_eq_dir (List.mem_map_of_mem hf) List.nil_prefix
  intro g hg
  obtain ⟨f', -, rfl⟩ := List.mem_map.mp hg
  intro hnil
  have hlength := f'.1.length_path
  rw [show f'.1.path = [] from hnil] at hlength
  cases hlength

/-- A complete tree has a firmware. -/
theorem Complete.exists_firmware (h : Complete contents) :
    ∃ name h content, (Place.firmware name h, content) ∈ contents := by
  obtain ⟨rel, hrel, hfirmware⟩ := List.any_eq_true.mp h.2
  obtain ⟨⟨place, content⟩, hmem, rfl⟩ := List.mem_map.mp hrel
  cases place with
  | msb =>
    have hmsb : isFirmware "bin/msb" = false := by decide
    exact absurd (hfirmware.symm.trans hmsb) (by decide)
  | firmware name hname => exact ⟨name, hname, content, hmem⟩

/-- The manifest is written beside the files. -/
theorem triple_writeManifest! (platform runtimeVersion asset bundleSha256 : String)
    (files : List (String × String)) {p : Path} (hholds : fs₀.Holds p contents.tree)
    (hdir : fs₀.node p = some .dir) :
    ⦃fun w => ⌜w.fs = fs₀⌝⦄
    writeManifest! lib (spell p) platform runtimeVersion asset bundleSha256 files
    ⦃post⟨fun _ w => ⌜EqOutside p fs₀ w.fs ∧
        ∃ document,
          lib.prettyGenerate (manifest platform runtimeVersion asset bundleSha256 files) =
            .ok document ∧
          w.fs.Holds p (vendoredFiles contents document)⌝,
      fun _ w => ⌜EqOutside p fs₀ w.fs⌝⟩⦄ := by
  rw [writeManifest!, join_manifest, EStateM.ofExcept_ok_bind]
  cases hdocument : lib.prettyGenerate (manifest platform runtimeVersion asset bundleSha256 files) with
  | error e =>
    rw [EStateM.ofExcept_error_bind]
    apply EStateM.triple_throw
    rintro w rfl
    exact EqOutside.refl _ _
  | ok document =>
    -- Nothing vendored has the name of the manifest, so writing it replaces no file.
    have hbelow : p <+: p ++ [manifestName] := List.prefix_append p _
    have hnone : fs₀.node (p ++ [manifestName]) = none := by
      rw [hholds, (fits_manifest contents).1]
    rw [EStateM.ofExcept_ok_bind]
    refine EStateM.triple_bind (EStateM.triple_conseq (triple_binwrite (document ++ [10]) hdir hnone)
      (fun _ _ => id) fun _ w hw r hr => hw r fun hr' => hr (hbelow.trans hr')) fun _ => ?_
    apply EStateM.triple_pure
    rintro w ⟨hput, hw⟩
    rw [hw]
    refine ⟨FileSystem.eqOutside_put hbelow _ hput, document, rfl, ?_⟩
    have hmade : FileSystem.MadeDirs (p ++ []) fs₀ fs₀ := by
      rw [List.append_nil]
      exact FileSystem.madeDirs_of_dir hdir
    have hput' : fs₀.Puttable (p ++ [] ++ [manifestName]) := by rwa [List.append_nil]
    refine (hholds.put (fits_manifest contents) hmade hput').of_eq fun r => ?_
    simp only [FileSystem.node_put, List.append_nil]

end Staging

/-! ### The guarantee -/

variable (lib) in
/-- The bundle was fetched, and both documents publish its digest. -/
structure Verified (args : VendorArgs) (asset : String) (data : Bytes) : Prop where
  named : bundleAsset lib args.platform = .ok asset
  pinned : PublishedDigest args.pinnedChecksums asset (lib.hexdigest data)
  live : ∃ document, args.fetch (assetUrl args.runtimeVersion CHECKSUMS_ASSET) = .ok document ∧
    PublishedDigest (text document) asset (lib.hexdigest data)
  fetched : args.fetch (assetUrl args.runtimeVersion asset) = .ok data

variable (lib) in
/-- The tree at `p` is the tree of the bundle's files with their manifest, and nothing else. -/
structure RuntimeTree (args : VendorArgs) (asset : String) (data : Bytes) (contents : Contents)
    (fs : FileSystem) (p : Path) : Prop where
  extracted : ExtractedFrom lib (lib.untar data).1 contents
  unbroken : (lib.untar data).2 = none
  msb : contents.rels.count "bin/msb" = 1
  firmware : ∃ name h content, (Place.firmware name h, content) ∈ contents
  holds : ∃ document, ∃ files : List (String × String), files.Perm (contents.digests lib) ∧
    lib.prettyGenerate (.hash [("schema", .int 1), ("platform", .str args.platform),
      ("runtime_version", .str args.runtimeVersion), ("bundle_asset", .str asset),
      ("bundle_sha256", .str (lib.hexdigest data)),
      ("files", .hash (files.map fun f => (f.1, .str f.2)))]) = .ok document ∧
    fs.Holds p (vendoredFiles contents document)

variable {args : VendorArgs} {asset : String} {data : Bytes} {fs₀ : FileSystem}

/-- A tree that is the same below its root is as good. -/
theorem RuntimeTree.of_eq {contents : Contents} {p : Path} {fs : FileSystem}
    (h : RuntimeTree lib args asset data contents fs₀ p)
    (heq : ∀ r, fs.node (p ++ r) = fs₀.node (p ++ r)) :
    RuntimeTree lib args asset data contents fs p := by
  obtain ⟨document, files, hperm, hdocument, hholds⟩ := h.holds
  exact { h with holds := ⟨document, files, hperm, hdocument, hholds.of_eq heq⟩ }

/-- There is a manifest in the tree. -/
theorem RuntimeTree.dir {contents : Contents} {p : Path}
    (h : RuntimeTree lib args asset data contents fs₀ p) : fs₀.node p = some .dir := by
  obtain ⟨document, -, -, -, hholds⟩ := h.holds
  apply fs₀.parent p manifestName
  rw [hholds, vendoredFiles, treeOf_concat (fits_manifest contents), if_pos rfl]
  simp

variable (lib args) in
/-- The fetching part touches no file, and what it returns is verified. -/
theorem triple_fetchVerified :
    ⦃fun w => ⌜w.fs = fs₀⌝⦄ fetchVerified lib args
    ⦃post⟨fun r w => ⌜w.fs = fs₀ ∧ Verified lib args r.1 r.2.2 ∧ r.2.1 = lib.hexdigest r.2.2⌝,
      fun _ w => ⌜w.fs = fs₀⌝⟩⦄ := by
  mvcgen [fetchVerified]
  case vc1 w₀ hw₀ asset w₁ hasset expected w₂ hexpected _ w₃ hw₃ document w₄ hdocument live w₅ hlive
      _ w₆ hcheck _ w₇ hw₇ data w₈ hdata digest w₉ hdigest _ w₁₀ hw₁₀ =>
    obtain ⟨hactual, hmatch⟩ := verifySha256!_eq_ok hdigest.1
    rw [downcase_of_expectedSha256! hexpected.1] at hmatch
    have hpinned := publishedDigest_of_expectedSha256! hexpected.1
    have hpublished := publishedDigest_of_expectedSha256! hlive.1
    rw [checkLive_eq_ok hcheck.1] at hpublished
    rw [← hmatch] at hpinned hpublished
    refine ⟨?_, ⟨hasset.1, hpinned, ⟨document, hdocument.1, hpublished⟩, hdata.1⟩, hactual⟩
    rw [hw₁₀, hdigest.2, hdata.2, hw₇, hcheck.2, hlive.2, hdocument.2, hw₃, hexpected.2, hasset.2, hw₀]
  all_goals grind

variable (lib args asset data) in
/-- A successful staging leaves the tree of a complete bundle, and any staging writes nowhere else. -/
theorem triple_stageBundle (hq : fs₀.node args.vendorDir.parent = some .dir) :
    ⦃fun w => ⌜w.fs = fs₀⌝⦄ stageBundle lib args asset (lib.hexdigest data) data
    ⦃post⟨fun files w => ⌜EqOutside (args.vendorDir.staging args.pid) fs₀ w.fs ∧
        ∃ contents, files = contents.digests lib ∧
          RuntimeTree lib args asset data contents w.fs (args.vendorDir.staging args.pid)⌝,
      fun _ w => ⌜EqOutside (args.vendorDir.staging args.pid) fs₀ w.fs⌝⟩⦄ := by
  rw [stageBundle, VendorDir.staging]
  refine EStateM.triple_bind (EStateM.triple_conseq (triple_rmRf hq) (fun _ _ => id)
    fun _ _ h => h.elim) fun _ => ?_
  refine triple_of_fs fun w₁ hw₁ => ?_
  obtain ⟨stuck, hfs₁⟩ := hw₁
  have heq₁ : EqOutside (args.vendorDir.parent ++ [args.vendorDir.stagingName args.pid]) fs₀ w₁.fs := by
    rw [hfs₁]
    exact FileSystem.eqOutside_rmRf stuck _
  refine EStateM.triple_bind (EStateM.triple_conseq
    (triple_extractBundle! data (dir_of_eqOutside hq heq₁)) (fun _ _ => id)
    fun _ _ => heq₁.trans) fun files => ?_
  refine triple_of_fs fun w₂ hw₂ => ?_
  -- From here on the staging tree holds the files of the bundle.
  obtain ⟨heq₂, contents, hunbroken, hextracted, hcomplete, hholds, rfl⟩ := hw₂
  have hdir := dir_of_holds hholds hcomplete.1
  refine EStateM.triple_bind (EStateM.triple_conseq
    (triple_writeManifest! args.platform args.runtimeVersion asset (lib.hexdigest data)
      (contents.digests lib) hholds hdir) (fun _ _ => id)
    fun _ _ h => heq₁.trans (heq₂.trans h)) fun _ => ?_
  refine triple_of_fs fun w₃ hw₃ => ?_
  obtain ⟨heq₃, document, hdocument, hholds₃⟩ := hw₃
  have heq := heq₁.trans (heq₂.trans heq₃)
  refine EStateM.triple_bind (EStateM.triple_conseq
    (triple_verifyManifest! lib _ _ args.platform args.runtimeVersion) (fun _ _ => id) ?_) fun _ => ?_
  · intro _ w hw
    rw [hw]
    exact heq
  · apply EStateM.triple_pure
    intro w hw
    rw [hw]
    exact ⟨heq, contents, rfl, hextracted, hunbroken,
      List.count_eq_one_of_mem hextracted.nodup hcomplete.1, hcomplete.exists_firmware,
      document, sortFiles (contents.digests lib), List.perm_insertionSort _ _, hdocument, hholds₃⟩

/-- A successful replacement moves the staged tree, and any replacement touches nothing else. -/
theorem triple_swapTrees {files : List (Path × Node)}
    (hq : fs₀.node args.vendorDir.parent = some .dir)
    (hholds : fs₀.Holds (args.vendorDir.staging args.pid) files) :
    ⦃fun w => ⌜w.fs = fs₀⌝⦄ swapTrees args
    ⦃post⟨fun _ w => ⌜w.fs.Holds args.vendorDir.path files ∧
        w.fs.node (args.vendorDir.staging args.pid) = none ∧
        ∀ r, ¬args.vendorDir.path <+: r → ¬args.vendorDir.staging args.pid <+: r →
          w.fs.node r = fs₀.node r⌝,
      fun _ w => ⌜EqOutside args.vendorDir.path fs₀ w.fs⌝⟩⦄ := by
  have hne := args.vendorDir.stagingName_ne args.pid
  have hapart := args.vendorDir.not_below_path args.pid
  refine EStateM.triple_bind (EStateM.triple_conseq (triple_rmRf hq) (fun _ _ => id)
    fun _ _ h => h.elim) fun _ => ?_
  refine triple_of_fs fun w₁ hw₁ => ?_
  generalize w₁.fs = fs₁ at hw₁ ⊢
  obtain ⟨stuck, rfl⟩ := hw₁
  have hq₁ := dir_of_eqOutside hq (FileSystem.eqOutside_rmRf stuck (args.vendorDir.path))
  -- The old tree and the staging tree are apart, so clearing the one keeps the other.
  have hkept : ∀ r, args.vendorDir.staging args.pid <+: r →
      (fs₀.rmRf stuck args.vendorDir.path).node r = fs₀.node r := fun r hr =>
    FileSystem.node_rmRf_elsewhere stuck (hapart r hr)
  have hholds₁ : (fs₀.rmRf stuck args.vendorDir.path).Holds (args.vendorDir.staging args.pid) files :=
    hholds.of_eq fun r => hkept _ (List.prefix_append _ r)
  -- a rename that fails leaves what the removal left
  refine EStateM.triple_conseq (triple_rename hq₁ hne) ?_ ?_
  · rintro _ w ⟨hmove, hw⟩
    rw [hw]
    refine ⟨hholds₁.move hmove, ?_, fun r hpath hstaging => ?_⟩
    · rw [FileSystem.node_move]
      exact (if_neg (hapart _ List.prefix_rfl)).trans (if_pos List.prefix_rfl)
    · rw [FileSystem.node_move]
      refine (if_neg hpath).trans ((if_neg hstaging).trans ?_)
      exact FileSystem.node_rmRf_elsewhere stuck hpath
  · intro _ w hw
    rw [hw]
    exact FileSystem.eqOutside_rmRf stuck _

variable (lib) in
/-- The bundle has the files of a runtime, each once, and nothing else but directories. -/
structure WellFormed (entries : List TarEntry) : Prop where
  regular : ∀ entry ∈ entries, entry.directory? = false → entry.file? = true
  routed : ∀ entry ∈ entries, entry.directory? = false →
    ∃ rel, route lib entry.fullName = .ok rel
  distinct : ((entries.filter fun entry => !entry.directory?).map fun entry =>
    route lib entry.fullName).Nodup
  msb : ∃ entry ∈ entries, entry.directory? = false ∧ route lib entry.fullName = .ok "bin/msb"
  firmware : ∃ entry ∈ entries, entry.directory? = false ∧
    ∃ rel, route lib entry.fullName = .ok rel ∧ isFirmware rel = true

/-- A tree that was extracted came from a well formed archive. -/
theorem wellFormed_of_runtimeTree {contents : Contents} {p : Path}
    (h : RuntimeTree lib args asset data contents fs₀ p) : WellFormed lib (lib.untar data).1 := by
  obtain ⟨heach, hnodup⟩ := h.extracted
  set files := (lib.untar data).1.filter fun entry => !entry.directory? with hfiles
  have hmem : ∀ entry, entry ∈ files ↔
      entry ∈ (lib.untar data).1 ∧ entry.directory? = false := by
    intro entry
    rw [hfiles, List.mem_filter, Bool.not_eq_true']
  have hfile : ∀ entry ∈ files, entry.file? = true :=
    (List.forall₂_and_left (p := fun entry => entry.file? = true) files contents).mp
      (heach.imp fun _ _ h => ⟨h.file, h⟩) |>.1
  have hroutes : files.map (fun entry => route lib entry.fullName) =
      contents.map fun f => Except.ok f.1.rel := by
    rw [← List.forall₂_eq_eq_eq, List.forall₂_map_left_iff, List.forall₂_map_right_iff]
    exact heach.imp fun _ _ h => h.route
  -- Each file that was written comes from an entry of the bundle.
  have hback : ∀ f ∈ contents, ∃ entry ∈ (lib.untar data).1, entry.directory? = false ∧
      route lib entry.fullName = .ok f.1.rel := by
    intro f hf
    have hroute : Except.ok f.1.rel ∈ files.map fun entry => route lib entry.fullName := by
      rw [hroutes]
      exact List.mem_map_of_mem (f := fun f : Place × Bytes => Except.ok f.1.rel) hf
    obtain ⟨entry, hentry, hroute⟩ := List.mem_map.mp hroute
    exact ⟨entry, ((hmem entry).mp hentry).1, ((hmem entry).mp hentry).2, hroute⟩
  constructor
  · exact fun entry hentry hdir => hfile entry ((hmem entry).mpr ⟨hentry, hdir⟩)
  · intro entry hentry hdir
    have hroute := List.mem_map_of_mem (f := fun entry => route lib entry.fullName)
      ((hmem entry).mpr ⟨hentry, hdir⟩)
    rw [hroutes] at hroute
    obtain ⟨f, -, hf⟩ := List.mem_map.mp hroute
    exact ⟨f.1.rel, hf.symm⟩
  · rw [hroutes]
    have hinj : Function.Injective (Except.ok : String → Except Exception String) :=
      fun _ _ h => Except.ok.inj h
    have hmap := hnodup.map hinj
    rwa [Contents.rels, List.map_map] at hmap
  · have hmsb : "bin/msb" ∈ contents.rels := by
      rw [← List.count_pos_iff, h.msb]
      exact Nat.one_pos
    obtain ⟨f, hf, hrel⟩ := List.mem_map.mp hmsb
    rw [← hrel]
    exact hback f hf
  · obtain ⟨name, hname, content, hf⟩ := h.firmware
    obtain ⟨entry, hentry, hdir, hroute⟩ := hback _ hf
    refine ⟨entry, hentry, hdir, _, hroute, ?_⟩
    rw [isFirmware, List.isPrefixOf_iff_prefix, Place.rel, String.toList_append]
    obtain ⟨rest, hrest⟩ := hname
    exact ⟨'.' :: rest, by rw [← hrest]; rfl⟩

variable (args) in
/-- Outside the vendor directory and the staging directory nothing differs. -/
def SameElsewhere (fs fs' : FileSystem) : Prop :=
  ∀ r, ¬args.vendorDir.path <+: r → ¬args.vendorDir.staging args.pid <+: r → fs'.node r = fs.node r

/-- The parent directory stays. -/
theorem SameElsewhere.parent {fs : FileSystem} (h : SameElsewhere args fs₀ fs)
    (hq : fs₀.node args.vendorDir.parent = some .dir) : fs.node args.vendorDir.parent = some .dir := by
  rw [h _ (not_prefix_of_append _ _) (not_prefix_of_append _ _), hq]

/-- Changes in the staging directory are none elsewhere. -/
theorem sameElsewhere_of_staging {fs : FileSystem}
    (h : EqOutside (args.vendorDir.staging args.pid) fs₀ fs) : SameElsewhere args fs₀ fs :=
  fun r _ hr => h r hr

variable (lib args asset data) in
/-- A successful replacement leaves the runtime's tree. One that fails on a bundle that is not
well-formed has not touched the vendor directory. -/
theorem triple_replaceTree (hq : fs₀.node args.vendorDir.parent = some .dir) :
    ⦃fun w => ⌜w.fs = fs₀⌝⦄ replaceTree lib args asset (lib.hexdigest data) data
    ⦃post⟨fun files w => ⌜∃ contents, files = contents.digests lib ∧
        RuntimeTree lib args asset data contents w.fs args.vendorDir.path ∧
        w.fs.node (args.vendorDir.staging args.pid) = none ∧ SameElsewhere args fs₀ w.fs⌝,
      fun _ w => ⌜SameElsewhere args fs₀ w.fs ∧
        (WellFormed lib (lib.untar data).1 ∨
          EqOutside (args.vendorDir.staging args.pid) fs₀ w.fs)⌝⟩⦄ := by
  rw [replaceTree]
  refine EStateM.triple_bind (EStateM.triple_conseq (triple_stageBundle lib args asset data hq)
    (fun _ _ => id) fun _ _ h => ⟨sameElsewhere_of_staging h, Or.inr h⟩) fun files => ?_
  refine triple_of_fs fun w₁ hw₁ => ?_
  obtain ⟨heq, contents, rfl, htree⟩ := hw₁
  -- a tree that was staged shows that the archive is well formed
  have hwell := wellFormed_of_runtimeTree htree
  obtain ⟨document, files, hperm, hdocument, hholds⟩ := htree.holds
  refine EStateM.triple_bind (EStateM.triple_conseq
    (triple_swapTrees (dir_of_eqOutside hq heq) hholds) (fun _ _ => id)
    fun _ w hw => ⟨?_, Or.inl hwell⟩) fun _ => ?_
  · intro r hpath hstaging
    rw [hw r hpath, heq r hstaging]
  refine triple_of_fs fun w₂ hw₂ => ?_
  obtain ⟨hholds₂, hnone, hsame₂⟩ := hw₂
  have hsame : SameElsewhere args fs₀ w₂.fs := by
    intro r hpath hstaging
    rw [hsame₂ r hpath hstaging, heq r hstaging]
  refine EStateM.triple_bind (EStateM.triple_conseq (triple_puts w₂.fs _) (fun _ _ => id)
    fun _ w hw => ⟨by rwa [hw], Or.inl hwell⟩) fun _ => ?_
  apply EStateM.triple_pure
  intro w hw
  rw [hw]
  have htree₂ : RuntimeTree lib args asset data contents w₂.fs args.vendorDir.path :=
    { htree with holds := ⟨document, files, hperm, hdocument, hholds₂⟩ }
  exact ⟨contents, rfl, htree₂, hnone, hsame⟩

/-- The `ensure` clause removes what it finds of the staging directory. -/
theorem run_removeStaging {w : World} {q : Path} {m : Name} (hq : w.fs.node q = some .dir) :
    (removeStaging (spell (q ++ [m]))).run w =
      .ok () (if w.fs.exist? (spell (q ++ [m])) then
        { w.called (.rmRf (spell (q ++ [m]))) with
          fs := w.fs.rmRf (w.fault (.rmRf (spell (q ++ [m])))).stuck (q ++ [m]) } else w) := by
  rw [removeStaging, EStateM.run_bind]
  show (if w.fs.exist? (spell (q ++ [m])) then rmRf (spell (q ++ [m])) else pure ()).run w = _
  by_cases h : w.fs.exist? (spell (q ++ [m])) = true
  · rw [if_pos h, if_pos h, run_rmRf hq]
  · rw [if_neg h, if_neg h]
    rfl

/-- What a removal of the staging directory keeps, the `ensure` clause keeps. -/
theorem triple_removeStaging {P : World → Prop} {Q : World → Prop}
    (hq : ∀ w, P w → w.fs.node args.vendorDir.parent = some .dir) (hkept : ∀ w, P w → Q w)
    (hremoved : ∀ w c stuck, P w →
      Q { w.called c with fs := w.fs.rmRf stuck (args.vendorDir.staging args.pid) }) :
    ⦃fun w => ⌜P w⌝⦄ removeStaging (spell (args.vendorDir.staging args.pid))
    ⦃post⟨fun _ w => ⌜Q w⌝, fun _ _ => ⌜False⌝⟩⦄ := by
  rw [EStateM.triple_iff]
  intro w hw
  rw [VendorDir.staging, run_removeStaging (hq w hw)]
  show Q _
  split_ifs
  · exact hremoved w _ _ hw
  · exact hkept w hw

/-- Nor is its removal. -/
theorem SameElsewhere.rmRf {fs : FileSystem} (h : SameElsewhere args fs₀ fs) (stuck : Path → Bool) :
    SameElsewhere args fs₀ (fs.rmRf stuck (args.vendorDir.staging args.pid)) := by
  intro r hpath hstaging
  rw [FileSystem.node_rmRf_elsewhere stuck hstaging, h r hpath hstaging]

variable (lib args) in
/-- `vendor!` leaves a verified tree of the runtime, or it raises. It raises on a bundle that is not
well-formed, before it touches the vendor directory. -/
theorem triple_vendor! (hq : fs₀.node args.vendorDir.parent = some .dir) :
    ⦃fun w => ⌜w.fs = fs₀⌝⦄ vendor! lib args
    ⦃post⟨fun files w => ⌜∃ asset data contents, Verified lib args asset data ∧
        RuntimeTree lib args asset data contents w.fs args.vendorDir.path ∧
        files = contents.digests lib ∧
        w.fs.node (args.vendorDir.staging args.pid) = none ∧ SameElsewhere args fs₀ w.fs⌝,
      fun _ w => ⌜SameElsewhere args fs₀ w.fs ∧
        ((∃ asset data, Verified lib args asset data ∧ WellFormed lib (lib.untar data).1) ∨
          EqOutside (args.vendorDir.staging args.pid) fs₀ w.fs)⌝⟩⦄ := by
  rw [vendor!]
  refine EStateM.triple_bind
    (EStateM.triple_conseq (triple_fetchVerified lib args) (fun _ _ => id) ?_) ?_
  · intro _ w hw
    rw [hw]
    exact ⟨fun _ _ _ => rfl, Or.inr (EqOutside.refl _ _)⟩
  rintro ⟨asset, digest, data⟩
  refine triple_of_fs fun w₁ hw₁ => ?_
  obtain ⟨hfs₁, hverified, hdigest⟩ := hw₁
  obtain rfl : digest = lib.hexdigest data := hdigest
  have hapart := args.vendorDir.not_below_path args.pid
  rw [hfs₁]
  -- the `ensure` runs after either outcome, and only the staging tree is removed by it
  refine EStateM.triple_ensure (triple_replaceTree lib args asset data hq) (fun files => ?_) fun e => ?_
  · refine triple_removeStaging ?_ ?_ ?_
    · exact fun w ⟨_, _, _, _, hsame⟩ => hsame.parent hq
    · rintro w ⟨contents, hfiles, htree, hnone, hsame⟩
      exact ⟨asset, data, contents, hverified, htree, hfiles, hnone, hsame⟩
    · rintro w - stuck ⟨contents, hfiles, htree, hnone, hsame⟩
      refine ⟨asset, data, contents, hverified, htree.of_eq fun r => ?_, hfiles, ?_, hsame.rmRf stuck⟩
      · apply FileSystem.node_rmRf_elsewhere
        exact fun hst => hapart _ hst (List.prefix_append _ r)
      · -- what was gone before the removal is gone after it
        by_contra hne
        exact hne ((FileSystem.node_rmRf_eq stuck hne).trans hnone)
  · refine triple_removeStaging ?_ ?_ ?_
    · exact fun w ⟨hsame, _⟩ => hsame.parent hq
    · exact fun w ⟨hsame, hor⟩ => ⟨hsame, hor.imp_left fun h => ⟨asset, data, hverified, h⟩⟩
    · rintro w - stuck ⟨hsame, hor⟩
      refine ⟨hsame.rmRf stuck, hor.imp (fun h => ⟨asset, data, hverified, h⟩) fun h => ?_⟩
      exact h.trans (FileSystem.eqOutside_rmRf stuck _)

/-- Nothing unverified is vendored. If `vendor!` returns, both documents publish the digest of the
fetched bundle, the vendor directory holds exactly the files of the bundle and their manifest, and
nothing changed elsewhere. On any other bundle it raises and leaves the vendor directory alone. -/
theorem nothing_unverified_is_vendored (lib : Stdlib) (args : VendorArgs) (w : World)
    (hparent : w.fs.node args.vendorDir.parent = some .dir) :
    (∀ files w', (vendor! lib args).run w = .ok files w' →
      ∃ asset data contents, Verified lib args asset data ∧
        RuntimeTree lib args asset data contents w'.fs args.vendorDir.path ∧
        files = contents.digests lib ∧
        w'.fs.node (args.vendorDir.staging args.pid) = none ∧ SameElsewhere args w.fs w'.fs) ∧
    ∀ asset data, bundleAsset lib args.platform = .ok asset →
      args.fetch (assetUrl args.runtimeVersion asset) = .ok data →
      ¬WellFormed lib (lib.untar data).1 →
      ∃ e w', (vendor! lib args).run w = .error e w' ∧
        ∀ r, args.vendorDir.path <+: r → w'.fs.node r = w.fs.node r := by
  have htriple := EStateM.triple_iff.mp (triple_vendor! lib args hparent) w rfl
  constructor
  · intro files w' hrun
    rw [hrun] at htriple
    exact htriple
  · intro asset data hasset hfetch hbad
    -- the fetcher is a function, so the data verified is the data fetched
    have heq : ∀ asset' data', Verified lib args asset' data' → asset' = asset ∧ data' = data := by
      intro asset' data' hverified
      have hsame := Except.ok.inj (hverified.named.symm.trans hasset)
      refine ⟨hsame, ?_⟩
      have hfetched := hverified.fetched
      rw [hsame, hfetch] at hfetched
      exact (Except.ok.inj hfetched).symm
    rcases hrun : (vendor! lib args).run w with ⟨files, w'⟩ | ⟨e, w'⟩ <;> rw [hrun] at htriple
    · obtain ⟨asset', data', contents, hverified, htree, -⟩ := htriple
      obtain ⟨rfl, rfl⟩ := heq asset' data' hverified
      exact absurd (wellFormed_of_runtimeTree htree) hbad
    · refine ⟨e, w', rfl, fun r hr => ?_⟩
      rcases htriple.2 with ⟨asset', data', hverified, hwell⟩ | houtside
      · obtain ⟨rfl, rfl⟩ := heq asset' data' hverified
        exact absurd hwell hbad
      · exact houtside r fun hst => args.vendorDir.not_below_path args.pid r hst hr

/-! ### A run -/

namespace Sample

/-- A bundle with `msb` and `libkrunfw.5.dylib`, of one byte each. -/
def bundle : Bytes :=
  [31, 139, 8, 0, 0, 0, 0, 0, 2, 255, 237, 211, 61, 14, 130, 64, 16, 6, 208, 61, 138, 39, 32,
  172, 176, 122, 30, 137, 49, 33, 252, 20, 32, 49, 222, 222, 213, 202, 216, 75, 52, 188, 215,
  124, 51, 211, 76, 245, 13, 115, 19, 190, 173, 204, 142, 41, 189, 50, 251, 204, 44, 190, 205,
  207, 251, 161, 174, 171, 176, 43, 195, 10, 150, 249, 122, 154, 242, 203, 176, 77, 67, 96, 203,
  250, 182, 233, 166, 101, 188, 220, 138, 84, 156, 239, 121, 251, 133, 254, 199, 24, 171, 189,
  254, 175, 161, 83, 1, 0, 0, 0, 0, 0, 0, 0, 128, 191, 246, 0, 210, 35, 8, 101, 0, 40, 0, 0]

/-- The digest of the bundle. -/
def bundleDigest : String := "d85f29ab2632f13f49adc57ee3f8b84a76c3453c327470c84999c8782143b358"

/-- The digest of its executable. -/
def msbDigest : String := "62c66a7a5dd70c3146618063c344e531e6d4b59e379808443ce962b3abd63c5a"

/-- The digest of its firmware. -/
def firmwareDigest : String := "8254c329a92850f6d539dd376f4816ee2764517da5e0235514af433164480d7a"

/-- The bytes of an ASCII text. -/
def ascii (s : String) : Bytes := s.toList.map fun c => UInt8.ofNat c.toNat

/-- The checksums that are published. -/
def checksums : String := bundleDigest ++ "  microsandbox-darwin-aarch64.tar.gz\n"

/-- The files and their digests. -/
def files : List (String × String) :=
  [("bin/msb", msbDigest), ("lib/libkrunfw.5.dylib", firmwareDigest)]

/-- The manifest, printed. -/
def document : Bytes := ascii
  ("\x7b\n  \"schema\": 1,\n  \"platform\": \"arm64-darwin\",\n  \"runtime_version\": \"v0.6.9\",\n" ++
    "  \"bundle_asset\": \"microsandbox-darwin-aarch64.tar.gz\",\n  \"bundle_sha256\": \"" ++
    bundleDigest ++ "\",\n  \"files\": \x7b\n    \"bin/msb\": \"" ++ msbDigest ++
    "\",\n    \"lib/libkrunfw.5.dylib\": \"" ++ firmwareDigest ++ "\"\n  \x7d\n\x7d")

/-- A library that knows these digests and this archive. -/
def stdlib : Stdlib where
  hexdigest data :=
    if data = bundle then bundleDigest else if data = ascii "m" then msbDigest else firmwareDigest
  untar data :=
    if data = bundle then
      ([⟨"msb", '0', .ok (some (ascii "m"))⟩, ⟨"libkrunfw.5.dylib", '0', .ok (some (ascii "k"))⟩],
        none)
    else ([], some (.custom "Zlib::GzipFile::Error" "not in gzip format"))
  prettyGenerate _ := .ok document
  parse _ := .ok (manifest "arm64-darwin" "v0.6.9" "microsandbox-darwin-aarch64.tar.gz" bundleDigest
    files)
  inspect _ := ""
  toS _ := ""

/-- The directory of the gem. -/
def gem : Name := ⟨"gem", by decide⟩

/-- The directory of the runtime. -/
def vendor : Name := ⟨"vendor", by decide⟩

/-- A file of the earlier tree. -/
def old : Name := ⟨"old", by decide⟩

/-- The gem's directory, with an earlier tree of one file. -/
def fs : FileSystem :=
  ((FileSystem.empty.put [gem] .dir (by decide)).put [gem, vendor] .dir (by decide)).put
    [gem, vendor, old] (.file [1] 0o644) (by decide)

/-- A call that vendors into it. -/
def arguments : VendorArgs where
  platform := "arm64-darwin"
  runtimeVersion := "v0.6.9"
  vendorDir := ⟨[gem], vendor⟩
  fetch url :=
    if url = assetUrl "v0.6.9" CHECKSUMS_ASSET then .ok (ascii checksums) else .ok bundle
  pinnedChecksums := checksums
  checksumsDir := [gem]
  pid := 7

/-- No call fails by itself. -/
def world : World := ⟨fs, fun _ _ => ⟨none, none, fun _ => false⟩, fun _ => 0, []⟩

end Sample

/-- The sample bundle replaces the earlier tree. -/
theorem nothing_unverified_is_vendored_sample :
    ∃ files w', (vendor! Sample.stdlib Sample.arguments).run Sample.world = .ok files w' ∧
      ∃ asset data contents, Verified Sample.stdlib Sample.arguments asset data ∧
        RuntimeTree Sample.stdlib Sample.arguments asset data contents w'.fs
          Sample.arguments.vendorDir.path := by
  obtain ⟨files, w', hrun⟩ := EStateM.Result.exists_ok_of_isOk
    (show ((vendor! Sample.stdlib Sample.arguments).run Sample.world).isOk = true by decide +kernel)
  have hparent : Sample.world.fs.node Sample.arguments.vendorDir.parent = some .dir := by decide
  obtain ⟨asset, data, contents, hverified, htree, -⟩ :=
    (nothing_unverified_is_vendored Sample.stdlib Sample.arguments Sample.world hparent).1
      files w' hrun
  exact ⟨files, w', hrun, asset, data, contents, hverified, htree⟩

end MicrosandboxRb.Vendor
