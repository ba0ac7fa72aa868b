import MicrosandboxRb.Vendor.Spec

/-!
# Extracting a bundle

The files of a runtime have two kinds of places, `bin/msb` and `lib/libkrunfw.…`. What a successful
extraction writes is a list of places with their contents, one for each entry that is not a directory,
and the staging directory holds exactly the tree of this list.

The staging path is a name in a directory that exists. What was there before the extraction is gone, or
it is a dangling link, which a removal could not remove and which `File.exist?` does not see.

## Main results

* `route_eq_ok`: what `route` accepts;
* `triple_extractEntry`: one entry adds one file, or nothing;
* `triple_extractBundle!`: the extraction leaves the tree of a well-formed bundle, or it raises.
-/

namespace MicrosandboxRb.Vendor

open Ruby Posix Std.Do
open FileSystem (EqOutside Holds)

/-! ### Places -/

/-- Where a file of the runtime is, relative to the vendor directory. -/
inductive Place where
  | msb
  | firmware (name : Name) (h : "libkrunfw.".toList <+: name.val.toList)

namespace Place

/-- The file's own name. -/
def base : Place → String
  | msb => "msb"
  | firmware name _ => name.val

/-- Where a file stands in the tree, as text. -/
def rel : Place → String
  | msb => "bin/msb"
  | firmware name _ => "lib/" ++ name.val

/-- And as a path. -/
def path : Place → Path
  | msb => [⟨"bin", by decide⟩, ⟨"msb", by decide⟩]
  | firmware name _ => [⟨"lib", by decide⟩, name]

/-- Every file stands two levels deep. -/
theorem length_path (place : Place) : place.path.length = 2 := by cases place <;> rfl

/-- The directory that the file is in, and its name there. -/
theorem exists_path_eq (place : Place) : ∃ d n, place.path = d ++ [n] := by
  cases place with
  | msb => exact ⟨[⟨"bin", by decide⟩], ⟨"msb", by decide⟩, rfl⟩
  | firmware name _ => exact ⟨[⟨"lib", by decide⟩], name, rfl⟩

/-- The text is the path, joined by slashes. -/
theorem toList_rel (place : Place) :
    place.rel.toList = ['/'].intercalate (place.path.map fun n => n.val.toList) := by
  cases place with
  | msb => decide
  | firmware name h =>
    rw [rel, path, String.toList_append]
    simp [List.intercalate]

/-- Files of one path have one text. -/
theorem rel_eq_of_path_eq {place place' : Place} (h : place.path = place'.path) :
    place.rel = place'.rel := by
  rw [← String.toList_inj, toList_rel, toList_rel, h]

/-- `File.join(dest_dir, rel)` -/
theorem join_rel (p : Path) (place : Place) :
    join (spell p) place.rel = .ok (spell (p ++ place.path)) := by
  have hparse : Component.parse place.rel = spell place.path := by
    apply Component.parse_of_toList _ place.toList_rel
    intro hnil
    have := place.length_path
    rw [hnil] at this
    cases this
  have hnul : '\x00' ∉ place.rel.toList := by
    cases place with
    | msb => decide
    | firmware name h =>
      rw [rel, String.toList_append, List.mem_append, not_or]
      exact ⟨by decide, name.property.2.2.2.2⟩
  rw [join, if_neg hnul, hparse, spell, spell, spell, List.map_append]

end Place

/-- What follows the last slash has none. -/
theorem not_mem_afterSlash (cs : List Char) : '/' ∉ afterSlash cs := by
  intro h
  rw [afterSlash, List.mem_reverse] at h
  simpa using List.mem_takeWhile_imp h

/-- It is part of the text. -/
theorem mem_of_mem_afterSlash {c : Char} {cs : List Char} (h : c ∈ afterSlash cs) : c ∈ cs := by
  rw [afterSlash, List.mem_reverse] at h
  exact List.mem_reverse.mp ((List.takeWhile_sublist _).subset h)

variable {lib : Stdlib}

/-- An accepted entry has a place of its name. -/
theorem route_eq_ok {entryName rel : String} (h : route lib entryName = .ok rel) :
    ∃ place : Place, rel = place.rel ∧ basename entryName = .ok place.base := by
  obtain ⟨base, hbase, h⟩ := Except.bind_eq_ok_iff.mp h
  split_ifs at h with hmsb hfirmware
  · exact ⟨.msb, (Except.ok.inj h).symm, by rw [hbase, hmsb]; rfl⟩
  · rw [List.isPrefixOf_iff_prefix] at hfirmware
    -- the name is long enough not to be special, and it has no slash
    have hname : IsName base := by
      have hlength := hfirmware.length_le
      have hne : ∀ s : String, s.toList.length ≤ 2 → base ≠ s := by
        rintro s hs rfl
        exact absurd (hlength.trans hs) (by decide)
      rw [basename] at hbase
      dsimp only at hbase
      split_ifs at hbase with hnul hroot
      · exact absurd (Except.ok.inj hbase).symm (hne "/" (by decide))
      · rw [← Except.ok.inj hbase] at hne ⊢
        refine ⟨hne "" (by decide), hne "." (by decide), hne ".." (by decide), ?_, ?_⟩
        · rw [String.toList_ofList]
          exact not_mem_afterSlash _
        · rw [String.toList_ofList]
          intro hmem
          have hmem := mem_of_mem_afterSlash hmem
          rw [List.mem_reverse] at hmem
          exact hnul (List.mem_reverse.mp ((List.dropWhile_sublist _).subset hmem))
    exact ⟨.firmware ⟨base, hname⟩ hfirmware, (Except.ok.inj h).symm, hbase⟩

/-! ### What an extraction writes -/

/-- The files written so far, with what is in them. -/
abbrev Contents := List (Place × Bytes)

namespace Contents

/-- The texts of all files. -/
def rels (contents : Contents) : List String := contents.map fun f => f.1.rel

/-- The tree of the files. -/
def tree (contents : Contents) : List (Path × Node) :=
  contents.map fun f => (f.1.path, .file f.2 0o755)

variable (lib) in
/-- The Hash that `extract_bundle!` builds. -/
def digests (contents : Contents) : List (String × String) :=
  contents.map fun f => (f.1.rel, lib.hexdigest f.2)

/-- The digests are listed under these texts. -/
theorem map_fst_digests (contents : Contents) :
    (contents.digests lib).map Prod.fst = contents.rels := by
  rw [digests, List.map_map]
  rfl

/-- A file that is not there yet fits in. -/
theorem fits {contents : Contents} {place : Place} (h : place.rel ∉ contents.rels) :
    Fits contents.tree place.path := by
  have hne : ∀ f ∈ contents, f.1.path ≠ place.path := by
    intro f hf heq
    apply h
    rw [← Place.rel_eq_of_path_eq heq]
    exact List.mem_map_of_mem hf
  apply fits_of_incomparable
  intro g hg
  obtain ⟨f, hf, rfl⟩ := List.mem_map.mp hg
  have hlength : f.1.path.length = place.path.length := by
    rw [Place.length_path, Place.length_path]
  exact ⟨fun hp => hne f hf (hp.eq_of_length hlength),
    fun hp => hne f hf (hp.eq_of_length hlength.symm).symm⟩

end Contents

variable (lib) in
/-- The file that an entry becomes. -/
structure EntryOf (entry : TarEntry) (f : Place × Bytes) : Prop where
  file : entry.file? = true
  route : route lib entry.fullName = .ok f.1.rel
  base : basename entry.fullName = .ok f.1.base
  read : ∃ data, entry.read = .ok data ∧ f.2 = data.getD []

variable (lib) in
/-- One file for each entry that is not a directory, in order, each at a place of its own. -/
structure ExtractedFrom (entries : List TarEntry) (contents : Contents) : Prop where
  each : List.Forall₂ (EntryOf lib) (entries.filter fun entry => !entry.directory?) contents
  nodup : contents.rels.Nodup

/-- The staging directory while the loop runs. -/
def Started (fs : FileSystem) (p : Path) (contents : Contents) : Prop :=
  fs.Holds p contents.tree ∨ contents = [] ∧ Blocked fs p

section Loop

variable {fs₀ : FileSystem} {q : Path} {m : Name} {contents : Contents}

/-- A child of a directory is anchored. -/
theorem anchored_of_dir (h : fs₀.node q = some .dir) : Anchored fs₀ (q ++ [m]) := by
  intro r hr hne
  rcases List.prefix_concat_iff.mp hr with heq | hr
  · exact absurd heq hne
  · by_cases hrq : r = q
    · rw [hrq, h]
    · exact FileSystem.node_eq_dir_above hr hrq (by rw [h]; simp)

/-- A path is not below its own child. -/
theorem not_prefix_of_append (q : Path) (m : Name) : ¬q ++ [m] <+: q := by
  intro h
  have := h.length_le
  simp at this

/-- The directory above stays a directory. -/
theorem dir_of_eqOutside {fs : FileSystem} (h : fs₀.node q = some .dir)
    (heq : EqOutside (q ++ [m]) fs₀ fs) : fs.node q = some .dir := by
  rw [heq q (not_prefix_of_append q m), h]

/-- What `File.exist?` misses is nothing, or a dangling link. -/
theorem started_of_not_exist (h : fs₀.exist? (spell (q ++ [m])) = false) :
    Started fs₀ (q ++ [m]) [] := by
  by_cases hnone : fs₀.node (q ++ [m]) = none
  · exact Or.inl (FileSystem.holds_nil_iff.mpr hnone)
  · refine Or.inr ⟨rfl, hnone, ?_⟩
    rw [FileSystem.exist?, Option.isSome_eq_false_iff, Option.isNone_iff_eq_none] at h
    rw [FileSystem.directory?, h]
    rfl

/-- One file more, or an error. -/
theorem triple_install_started (place : Place) (data : Bytes) (hq : fs₀.node q = some .dir)
    (hstarted : Started fs₀ (q ++ [m]) contents) (hnew : place.rel ∉ contents.rels) :
    ⦃fun w => ⌜w.fs = fs₀⌝⦄ install (spell (q ++ [m])) place.rel data
    ⦃post⟨fun _ w => ⌜w.fs.Holds (q ++ [m]) (Contents.tree (contents ++ [(place, data)])) ∧
        EqOutside (q ++ [m]) fs₀ w.fs⌝,
      fun _ w => ⌜EqOutside (q ++ [m]) fs₀ w.fs⌝⟩⦄ := by
  obtain ⟨d, n, hpath⟩ := place.exists_path_eq
  have hjoin := place.join_rel (q ++ [m])
  rw [hpath, ← List.append_assoc] at hjoin
  rcases hstarted with hholds | ⟨rfl, hblocked⟩
  · have hfits := Contents.fits hnew
    rw [hpath] at hfits
    have htree : Contents.tree (contents ++ [(place, data)]) =
        contents.tree ++ [(d ++ [n], .file data 0o755)] := by
      rw [Contents.tree, List.map_append, List.map_singleton, hpath]
      rfl
    rw [htree]
    exact triple_install _ data (anchored_of_dir hq) hholds hfits hjoin
  · refine EStateM.triple_conseq (triple_install_blocked _ data hq hblocked hjoin) ?_ ?_
    · exact fun _ _ h => h.elim
    · intro _ w hw
      rw [hw]
      exact EqOutside.refl _ _

/-- An entry adds its file, or it is a directory and adds nothing. -/
theorem triple_extractEntry (entry : TarEntry) (hq : fs₀.node q = some .dir)
    (hstarted : Started fs₀ (q ++ [m]) contents) :
    ⦃fun w => ⌜w.fs = fs₀⌝⦄
    extractEntry lib (spell (q ++ [m])) (contents.digests lib) entry
    ⦃post⟨fun files w => ⌜EqOutside (q ++ [m]) fs₀ w.fs ∧
        (entry.directory? = true ∧ Started w.fs (q ++ [m]) contents ∧ files = contents.digests lib ∨
          ∃ f, entry.directory? = false ∧ EntryOf lib entry f ∧ f.1.rel ∉ contents.rels ∧
            Started w.fs (q ++ [m]) (contents ++ [f]) ∧
            files = Contents.digests lib (contents ++ [f]))⌝,
      fun _ w => ⌜EqOutside (q ++ [m]) fs₀ w.fs⌝⟩⦄ := by
  have hsame : ∀ w : World, w.fs = fs₀ → EqOutside (q ++ [m]) fs₀ w.fs := by
    rintro w rfl
    exact EqOutside.refl _ _
  rw [extractEntry]
  by_cases hdir : entry.directory? = true
  · rw [if_pos hdir]
    apply EStateM.triple_pure
    rintro w rfl
    exact ⟨EqOutside.refl _ _, Or.inl ⟨hdir, hstarted, rfl⟩⟩
  rw [if_neg hdir]
  -- a link or a device is refused before anything is written
  by_cases hfile : entry.file? = true
  swap
  · rw [if_pos (by simpa using hfile)]
    exact EStateM.triple_throw hsame
  rw [if_neg (by simpa using hfile)]
  cases hroute : route lib entry.fullName with
  | error e =>
    rw [EStateM.ofExcept_error_bind]
    exact EStateM.triple_throw hsame
  | ok rel =>
    rw [EStateM.ofExcept_ok_bind, Contents.map_fst_digests]
    obtain ⟨place, rfl, hbase⟩ := route_eq_ok hroute
    -- so is a second file of the same name
    by_cases hdup : place.rel ∈ contents.rels
    · rw [if_pos hdup]
      exact EStateM.triple_throw hsame
    rw [if_neg hdup]
    cases hread : entry.read with
    | error e =>
      rw [EStateM.ofExcept_error_bind]
      exact EStateM.triple_throw hsame
    | ok data =>
      rw [EStateM.ofExcept_ok_bind]
      -- what is installed is what the entry holds
      have hentry : EntryOf lib entry (place, data.getD []) := 
        ⟨hfile, hroute, hbase, data, hread, rfl⟩
      refine EStateM.triple_bind
        (triple_install_started place (data.getD []) hq hstarted hdup) fun _ => ?_
      apply EStateM.triple_pure
      rintro w ⟨hholds, heq⟩
      rw [Bool.not_eq_true] at hdir
      refine ⟨heq, Or.inr ⟨_, hdir, hentry, hdup, Or.inl hholds, ?_⟩⟩
      rw [Contents.digests, Contents.digests, List.map_append]
      rfl

/-- The loop extends what was written by one file for each of its entries. -/
theorem triple_extractEntries (entries : List TarEntry) (hq : fs₀.node q = some .dir)
    (hstarted : Started fs₀ (q ++ [m]) contents) (hnodup : contents.rels.Nodup) :
    ⦃fun w => ⌜w.fs = fs₀⌝⦄
    entries.foldlM (extractEntry lib (spell (q ++ [m]))) (contents.digests lib)
    ⦃post⟨fun files w => ⌜EqOutside (q ++ [m]) fs₀ w.fs ∧
        ∃ new, List.Forall₂ (EntryOf lib) (entries.filter fun entry => !entry.directory?) new ∧
          (Contents.rels (contents ++ new)).Nodup ∧ Started w.fs (q ++ [m]) (contents ++ new) ∧
          files = Contents.digests lib (contents ++ new)⌝,
      fun _ w => ⌜EqOutside (q ++ [m]) fs₀ w.fs⌝⟩⦄ := by
  induction entries generalizing contents fs₀ with
  | nil =>
    apply EStateM.triple_pure
    rintro w rfl
    refine ⟨EqOutside.refl _ _, [], List.Forall₂.nil, ?_⟩
    rw [List.append_nil]
    exact ⟨hnodup, hstarted, rfl⟩
  | cons entry entries ih =>
    rw [List.foldlM_cons]
    refine EStateM.triple_bind (triple_extractEntry entry hq hstarted) fun files => ?_
    refine triple_of_fs fun w₁ hw₁ => ?_
    generalize w₁.fs = fs₁ at hw₁ ⊢
    -- the entry was a directory, or one more file
    obtain ⟨heq, hstep⟩ := hw₁
    have hq₁ := dir_of_eqOutside hq heq
    rcases hstep with ⟨hdir, hstarted₁, rfl⟩ | ⟨f, hdir, hentry, hnew, hstarted₁, rfl⟩
    · refine EStateM.triple_conseq (ih hq₁ hstarted₁ hnodup) ?_ fun _ _ => heq.trans
      rintro files w ⟨heq', new, heach, hrest⟩
      refine ⟨heq.trans heq', new, ?_, hrest⟩
      rwa [List.filter_cons_of_neg (by simpa using hdir)]
    · have hnodup₁ : (Contents.rels (contents ++ [f])).Nodup := by
        rw [Contents.rels, List.map_append]
        rw [List.map_singleton, ← List.concat_eq_append]
        exact List.Nodup.concat hnew hnodup
      refine EStateM.triple_conseq (ih hq₁ hstarted₁ hnodup₁) ?_ fun _ _ => heq.trans
      rintro files w ⟨heq', new, heach, hrest⟩
      refine ⟨heq.trans heq', f :: new, ?_, ?_⟩
      · rw [List.filter_cons_of_pos (by simpa using hdir)]
        exact List.Forall₂.cons hentry heach
      · rwa [List.append_cons]

variable (lib) in
/-- The bundle has `bin/msb` and firmware. -/
def Complete (contents : Contents) : Prop :=
  "bin/msb" ∈ contents.rels ∧ contents.rels.any isFirmware = true

/-- A successful extraction leaves the tree of a complete bundle. -/
theorem triple_extractBundle! (tgzBytes : Bytes) (hq : fs₀.node q = some .dir) :
    ⦃fun w => ⌜w.fs = fs₀⌝⦄ extractBundle! lib tgzBytes (spell (q ++ [m]))
    ⦃post⟨fun files w => ⌜EqOutside (q ++ [m]) fs₀ w.fs ∧
        ∃ contents, (lib.untar tgzBytes).2 = none ∧
          ExtractedFrom lib (lib.untar tgzBytes).1 contents ∧ Complete contents ∧
          w.fs.Holds (q ++ [m]) contents.tree ∧ files = contents.digests lib⌝,
      fun _ w => ⌜EqOutside (q ++ [m]) fs₀ w.fs⌝⟩⦄ := by
  rw [extractBundle!]
  refine EStateM.triple_bind (Q := fun b w => b = fs₀.exist? (spell (q ++ [m])) ∧ w.fs = fs₀)
    (EStateM.triple_conseq (triple_test fs₀ _) (fun _ _ => id) fun _ _ h => h.elim) fun b => ?_
  refine triple_of_fs fun w₁ hw₁ => ?_
  obtain ⟨hb, hfs⟩ := hw₁
  rw [hfs]
  have hsame : ∀ w : World, w.fs = fs₀ → EqOutside (q ++ [m]) fs₀ w.fs := by
    rintro w rfl
    exact EqOutside.refl _ _
  cases b with
  | true => exact EStateM.triple_throw hsame
  | false =>
    rw [if_neg Bool.false_ne_true]
    -- the extraction starts with nothing in place
    have hstarted := started_of_not_exist hb.symm
    refine EStateM.triple_bind
      (triple_extractEntries (lib.untar tgzBytes).1 hq hstarted List.nodup_nil) fun files => ?_
    -- a broken archive raises after its last good entry
    cases herror : (lib.untar tgzBytes).2 with
    | some e => exact EStateM.triple_throw fun w hw => hw.1
    | none =>
      -- both parts of the runtime have to be there
      by_cases hmsb : "bin/msb" ∈ files.map Prod.fst
      swap
      · simp only [if_pos hmsb]
        exact EStateM.triple_throw fun w hw => hw.1
      rw [if_neg (not_not_intro hmsb)]
      by_cases hfirmware : (files.map Prod.fst).any isFirmware = true
      swap
      · rw [if_pos (by simpa using hfirmware)]
        exact EStateM.triple_throw fun w hw => hw.1
      rw [if_neg (by simpa using hfirmware)]
      apply EStateM.triple_pure
      rintro w ⟨heq, contents, heach, hnodup, hstarted', rfl⟩
      rw [List.nil_append] at hnodup hstarted' hmsb hfirmware
      rw [Contents.map_fst_digests] at hmsb hfirmware
      refine ⟨heq, contents, rfl, ⟨heach, hnodup⟩, ⟨hmsb, hfirmware⟩, ?_, rfl⟩
      rcases hstarted' with hholds | ⟨rfl, -⟩
      · exact hholds
      · cases hmsb

end Loop

end MicrosandboxRb.Vendor
