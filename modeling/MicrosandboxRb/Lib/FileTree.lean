import MicrosandboxRb.Lib.FileSystem

/-!
# Trees of files

The tree that a list of files at relative paths makes: the files, and the directories they are in,
and nothing else. `FileSystem.Holds` says that a file system has exactly this tree below a path.

## Main results

* `FileSystem.Holds.put`: a file that fits is added by making its directories and putting it there;
* `FileSystem.Holds.move`: a rename carries the tree along.
-/

namespace Posix

variable {files : List (Path × Node)} {fs fs' : FileSystem}

/-- What is at the relative path `r` in the tree of `files`. -/
def treeOf (files : List (Path × Node)) (r : Path) : Option Node :=
  match files.lookup r with
  | some nd => some nd
  | none => if ∃ f ∈ files, r <+: f.1 then some .dir else none

@[simp] theorem treeOf_nil (r : Path) : treeOf [] r = none := by simp [treeOf]

/-- A file can be added at `q`: nothing is there, and only directories are above it. -/
def Fits (files : List (Path × Node)) (q : Path) : Prop :=
  treeOf files q = none ∧ ∀ r, r <+: q → treeOf files r = none ∨ treeOf files r = some .dir

/-- A path that no file has is not found. -/
theorem lookup_eq_none_of_forall {r : Path} (h : ∀ f ∈ files, f.1 ≠ r) : files.lookup r = none := by
  rw [List.lookup_eq_none_iff]
  intro f hf
  simpa using (h f hf).symm

/-- A path that no file is above or below fits. -/
theorem fits_of_incomparable {q : Path} (h : ∀ f ∈ files, ¬f.1 <+: q ∧ ¬q <+: f.1) :
    Fits files q := by
  have hlookup : ∀ r, r <+: q → files.lookup r = none := by
    intro r hr
    apply lookup_eq_none_of_forall
    rintro f hf rfl
    exact (h f hf).1 hr
  constructor
  · rw [treeOf, hlookup q List.prefix_rfl]
    apply if_neg
    rintro ⟨f, hf, hq⟩
    exact (h f hf).2 hq
  · intro r hr
    rw [treeOf, hlookup r hr]
    simp only
    split_ifs
    · exact Or.inr rfl
    · exact Or.inl rfl

/-- A file that fits adds itself and the directories above it. -/
theorem treeOf_concat {q : Path} {nd : Node} (h : Fits files q) (r : Path) :
    treeOf (files ++ [(q, nd)]) r =
      if r = q then some nd else if r <+: q then some .dir else treeOf files r := by
  have hlookup : (files ++ [(q, nd)]).lookup r =
      (files.lookup r).or (if r = q then some nd else none) := by
    rw [List.lookup_append]
    congr 1
    by_cases hrq : r = q
    · simp [hrq]
    · rw [List.lookup_cons, beq_false_of_ne hrq, if_neg hrq]
      rfl
  rw [treeOf, hlookup]
  cases hr : files.lookup r with
  | some nd' =>
    have htree : treeOf files r = some nd' := by rw [treeOf, hr]
    -- a file that is there already is not the new one
    have hne : r ≠ q := by
      rintro rfl
      rw [h.1] at htree
      cases htree
    rw [Option.some_or, if_neg hne]
    by_cases hrq : r <+: q
    · rw [if_pos hrq]
      rcases h.2 r hrq with hnone | hdir
      · rw [hnone] at htree
        cases htree
      · rw [← htree, hdir]
    · rw [if_neg hrq, htree]
  | none =>
    rw [Option.none_or]
    by_cases hrq : r = q
    · rw [if_pos hrq, if_pos hrq]
    · rw [if_neg hrq, if_neg hrq, treeOf, hr]
      by_cases hprefix : r <+: q
      · rw [if_pos hprefix]
        exact if_pos ⟨(q, nd), List.mem_append_right files List.mem_cons_self, hprefix⟩
      · rw [if_neg hprefix]
        -- what is not above the new file has the same files below it as before
        refine if_congr (exists_congr fun f => ?_) rfl rfl
        rw [List.mem_append, List.mem_singleton]
        constructor
        · rintro ⟨hf | rfl, hrf⟩
          · exact ⟨hf, hrf⟩
          · exact absurd hrf hprefix
        · rintro ⟨hf, hrf⟩
          exact ⟨Or.inl hf, hrf⟩

/-- A directory is above every file. -/
theorem treeOf_eq_dir {f : Path × Node} {r : Path} (hf : f ∈ files) (hr : r <+: f.1)
    (hne : ∀ g ∈ files, g.1 ≠ r) : treeOf files r = some .dir := by
  rw [treeOf, lookup_eq_none_of_forall hne]
  exact if_pos ⟨f, hf, hr⟩

namespace FileSystem

/-- Below `p` is exactly the tree of `files`. -/
def Holds (fs : FileSystem) (p : Path) (files : List (Path × Node)) : Prop :=
  ∀ r, fs.node (p ++ r) = treeOf files r

/-- A path holds no tree if and only if nothing is there. -/
theorem holds_nil_iff {p : Path} : fs.Holds p [] ↔ fs.node p = none := by
  constructor
  · intro h
    have hroot := h []
    rwa [List.append_nil, treeOf_nil] at hroot
  · intro h r
    rw [treeOf_nil]
    by_cases hr : r = []
    · rw [hr, List.append_nil, h]
    · apply node_eq_none_below (List.prefix_append p r)
      · simpa using hr
      · rw [h]
        simp

/-- The directories from the root to `p` are made. -/
def MadeDirs (p : Path) (fs fs' : FileSystem) : Prop :=
  ∀ r, fs'.node r = if r <+: p then some .dir else fs.node r

/-- A file is added by making its directories and putting it there. -/
theorem Holds.put {p d : Path} {n : Name} {nd : Node} (h : fs.Holds p files)
    (hfits : Fits files (d ++ [n])) (hmade : MadeDirs (p ++ d) fs fs')
    (hput : fs'.Puttable (p ++ d ++ [n])) :
    (fs'.put (p ++ d ++ [n]) nd hput).Holds p (files ++ [(d ++ [n], nd)]) := by
  intro r
  rw [treeOf_concat hfits, node_put, hmade, List.append_assoc]
  by_cases hr : r = d ++ [n]
  · rw [if_pos (by rw [hr]), if_pos hr]
  · rw [if_neg (by simpa using hr), if_neg hr]
    refine if_congr ?_ rfl (h r)
    rw [List.prefix_append_right_inj, List.prefix_concat_iff]
    exact (or_iff_right hr).symm

/-- No directory has to be made where one is. -/
theorem madeDirs_of_dir {p : Path} (h : fs.node p = some .dir) : MadeDirs p fs fs := by
  intro r
  by_cases hr : r <+: p
  · rw [if_pos hr]
    by_cases hne : r = p
    · rw [hne, h]
    · exact node_eq_dir_above hr hne (by rw [h]; simp)
  · rw [if_neg hr]

/-- Whether a path holds a tree depends on what is below it. -/
theorem Holds.of_eq {p : Path} (h : fs.Holds p files)
    (heq : ∀ r, fs'.node (p ++ r) = fs.node (p ++ r)) : fs'.Holds p files := by
  intro r
  rw [heq, h r]

/-- A rename carries the tree along. -/
theorem Holds.move {p q : Path} (h : fs.Holds p files) (hmove : fs.Movable p q) :
    (fs.move p q hmove).Holds q files := by
  intro r
  rw [node_move, if_pos (List.prefix_append q r), List.drop_left, h r]

end FileSystem

end Posix
