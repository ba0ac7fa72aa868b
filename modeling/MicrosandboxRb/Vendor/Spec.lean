import MicrosandboxRb.Lib.FileTree
import MicrosandboxRb.Vendor.Model

/-!
# What each call of the tooling does

One specification for each function of the tooling that touches the file system: what the file system
is when it returns, and what it can be when it raises.

## Main results

* `triple_mkdirP`: `mkdir_p` makes the directories of a path without links;
* `triple_verifyManifest!`: verification changes no file.
-/

namespace MicrosandboxRb.Vendor

open Ruby Posix Std.Do

set_option mvcgen.warning false

variable (lib : Stdlib) (fs₀ : FileSystem)

/-! ### Calls -/

/-- Fix the file system that a step starts from. -/
theorem triple_of_fs {α : Type} {x : Run α} {P : World → Prop} {Q : α → World → Prop}
    {E : Exception → World → Prop}
    (h : ∀ w₀ : World, P w₀ →
      ⦃fun w => ⌜w.fs = w₀.fs⌝⦄ x ⦃post⟨fun a w => ⌜Q a w⌝, fun e w => ⌜E e w⌝⟩⦄) :
    ⦃fun w => ⌜P w⌝⦄ x ⦃post⟨fun a w => ⌜Q a w⌝, fun e w => ⌜E e w⌝⟩⦄ := by
  rw [EStateM.triple_iff]
  intro w hw
  exact EStateM.triple_iff.mp (h w hw) w rfl

section Calls

/-- A system call does what its operation does, or fails and leaves what the fault leaves. -/
theorem triple_syscall (c : Call) (op : FileSystem → Except Errno FileSystem)
    (failed : Fault → FileSystem → FileSystem) :
    ⦃fun w => ⌜w.fs = fs₀⌝⦄ syscall c op failed
    ⦃post⟨fun _ w => ⌜op fs₀ = .ok w.fs⌝,
      fun _ w => ⌜w.fs = fs₀ ∨ ∃ fault, w.fs = failed fault fs₀⌝⟩⦄ := by
  rw [EStateM.triple_iff]
  rintro w rfl
  rw [EStateM.run, syscall]
  cases (w.fault c).raises with
  | some e => exact Or.inr ⟨w.fault c, rfl⟩
  | none =>
    cases hop : op w.fs with
    | error e => exact Or.inl rfl
    | ok fs => rfl

/-- A call that does nothing when it fails. -/
theorem triple_atomic (c : Call) (op : FileSystem → Except Errno FileSystem) :
    ⦃fun w => ⌜w.fs = fs₀⌝⦄ syscall c op (fun _ fs => fs)
    ⦃post⟨fun _ w => ⌜op fs₀ = .ok w.fs⌝, fun _ w => ⌜w.fs = fs₀⌝⟩⦄ := by
  have h := triple_syscall fs₀ c op fun _ fs => fs
  rw [EStateM.triple_iff] at h ⊢
  intro w hw
  specialize h w hw
  split at h
  next => exact h
  next => exact h.elim id fun ⟨_, h⟩ => h

/-- A query returns what the file system says and changes nothing. -/
@[spec] theorem triple_query {α : Type} (c : Call) (q : FileSystem → Except Errno α) :
    ⦃fun w => ⌜w.fs = fs₀⌝⦄ query c q
    ⦃post⟨fun a w => ⌜q fs₀ = .ok a ∧ w.fs = fs₀⌝, fun _ w => ⌜w.fs = fs₀⌝⟩⦄ := by
  rw [EStateM.triple_iff]
  rintro w rfl
  rw [EStateM.run, query]
  cases (w.fault c).raises with
  | some e => rfl
  | none =>
    cases hq : q w.fs with
    | error e => rfl
    | ok a => exact ⟨rfl, rfl⟩

/-- A test never fails. -/
@[spec] theorem triple_test (p : FileSystem → Bool) :
    ⦃fun w => ⌜w.fs = fs₀⌝⦄ test p
    ⦃post⟨fun b w => ⌜b = p fs₀ ∧ w.fs = fs₀⌝, fun _ _ => ⌜False⌝⟩⦄ := by
  rw [EStateM.triple_iff]
  rintro w rfl
  exact ⟨rfl, rfl⟩

/-- Output changes no file. -/
@[spec] theorem triple_puts (line : String) :
    ⦃fun w => ⌜w.fs = fs₀⌝⦄ puts line
    ⦃post⟨fun _ w => ⌜w.fs = fs₀⌝, fun _ w => ⌜w.fs = fs₀⌝⟩⦄ := by
  rw [EStateM.triple_iff]
  rintro w rfl
  rw [EStateM.run, puts]
  cases (w.fault .puts).raises with
  | some e => rfl
  | none => rfl

/-- A computation that returns or raises without touching the world. -/
@[spec] theorem triple_ofExcept {α : Type} (r : Except Exception α) :
    ⦃fun w : World => ⌜w.fs = fs₀⌝⦄ EStateM.ofExcept r
    ⦃post⟨fun a w => ⌜r = .ok a ∧ w.fs = fs₀⌝,
      fun e w => ⌜r = .error e ∧ w.fs = fs₀⌝⟩⦄ := by
  rw [EStateM.triple_iff]
  rintro w rfl
  cases r with
  | ok a => exact ⟨rfl, rfl⟩
  | error e => exact ⟨rfl, rfl⟩

variable {fs₀} {p : Path} {n : Name}

/-- `rm_rf` removes what is not stuck, and raises nothing. -/
theorem run_rmRf {w : World} (h : w.fs.node p = some .dir) :
    (rmRf (spell (p ++ [n]))).run w =
      .ok () { w.called (.rmRf (spell (p ++ [n]))) with
        fs := w.fs.rmRf (w.fault (.rmRf (spell (p ++ [n])))).stuck (p ++ [n]) } := by
  rw [EStateM.run, rmRf, FileSystem.resolve_spell false h (by simp)]

/-- So it leaves some part of the tree. -/
theorem triple_rmRf (h : fs₀.node p = some .dir) :
    ⦃fun w => ⌜w.fs = fs₀⌝⦄ rmRf (spell (p ++ [n]))
    ⦃post⟨fun _ w => ⌜∃ stuck, w.fs = fs₀.rmRf stuck (p ++ [n])⌝, fun _ _ => ⌜False⌝⟩⦄ := by
  rw [EStateM.triple_iff]
  rintro w rfl
  rw [run_rmRf h]
  exact ⟨(w.fault _).stuck, rfl⟩

/-- The directory is made, or it was there. -/
theorem triple_mkdirUnlessThere (dir : List Component) :
    ⦃fun w => ⌜w.fs = fs₀⌝⦄ mkdirUnlessThere dir
    ⦃post⟨fun _ w => ⌜fs₀.mkdir dir = .ok w.fs ∨ fs₀.directory? dir = true ∧ w.fs = fs₀⌝,
      fun _ w => ⌜w.fs = fs₀⌝⟩⦄ := by
  have hattempt := EStateM.triple_attempt (fun (_ : Exception) _ => False)
    (triple_atomic fs₀ (.mkdir dir) fun fs => fs.mkdir dir)
  mvcgen [mkdirUnlessThere, hattempt]
  case vc2.post.success.h_1 w hw =>
    rcases hw with ⟨-, -, hw⟩ | ⟨e, he, -⟩
    · exact Or.inl hw
    · cases he
  case vc3.post.success.h_2.post.success.isTrue w hw _ ht w' hw' =>
    rcases hw with ⟨a, ha, -⟩ | ⟨e, -, hw⟩
    · cases ha
    · rw [ht, hw] at hw'
      exact Or.inr ⟨hw'.1.symm, hw'.2⟩
  case vc4.post.success.h_2.post.success.isFalse w hw _ _ w' hw' =>
    rcases hw with ⟨a, ha, -⟩ | ⟨e, -, hw⟩
    · cases ha
    · rw [hw'.2, hw]

/-- A new directory, made or not made. -/
theorem triple_mkdirUnlessThere_of_none (h : fs₀.node p = some .dir)
    (hn : fs₀.node (p ++ [n]) = none) :
    ⦃fun w => ⌜w.fs = fs₀⌝⦄ mkdirUnlessThere (spell (p ++ [n]))
    ⦃post⟨fun _ w => ⌜∀ r, w.fs.node r = if r = p ++ [n] then some .dir else fs₀.node r⌝,
      fun _ w => ⌜w.fs = fs₀⌝⟩⦄ := by
  have hthere : fs₀.directory? (spell (p ++ [n])) = false := by
    have hlink := FileSystem.link?_eq_false_of_none hn
    rw [FileSystem.directory?_spell (FileSystem.literal_append_singleton h hlink), hn]
    rfl
  apply EStateM.triple_conseq (triple_mkdirUnlessThere (spell (p ++ [n]))) ?_ fun _ _ => id
  rintro - w (hw | ⟨hdir, -⟩)
  · rw [FileSystem.mkdir_spell h hn] at hw
    rw [← Except.ok.inj hw]
    exact fun r => rfl
  · rw [hthere] at hdir
    cases hdir

/-- Nothing but directories is at `p` and above it, as far as anything is. -/
def Clear (fs : FileSystem) (p : Path) : Prop :=
  ∀ r, r <+: p → fs.node r = none ∨ fs.node r = some .dir

/-- A path without links and files on it resolves to itself. -/
theorem Clear.literal {fs : FileSystem} (h : Clear fs p) : fs.Literal p := by
  intro r hr
  rw [FileSystem.link?]
  rcases h r hr with hr | hr <;> rw [hr]

/-- Some of the directories from the root to `p` may have been made. -/
def Grown (p : Path) (fs fs' : FileSystem) : Prop :=
  ∀ r, fs.node r ≠ none ∨ ¬r <+: p → fs'.node r = fs.node r

/-- The missing directories are made from the top. -/
theorem triple_missingDirs (h : Clear fs₀ p) :
    ⦃fun w => ⌜w.fs = fs₀⌝⦄ (missingDirs fs₀ (spell p).reverse).forM mkdirUnlessThere
    ⦃post⟨fun _ w => ⌜FileSystem.MadeDirs p fs₀ w.fs⌝, fun _ w => ⌜Grown p fs₀ w.fs⌝⟩⦄ := by
  induction p using List.reverseRecOn with
  | nil =>
    apply EStateM.triple_pure
    rintro w rfl
    exact FileSystem.madeDirs_of_dir w.fs.root
  | append_singleton q n ih =>
    -- the parents come first, and then the last name
    have hq : Clear fs₀ q := fun r hr => h r (hr.trans (List.prefix_append q [n]))
    have hspell : (spell (q ++ [n])).reverse = .down n :: (spell q).reverse := by
      simp [spell]
    have hback : (Component.down n :: (spell q).reverse).reverse = spell (q ++ [n]) := by
      rw [← hspell, List.reverse_reverse]
    rw [hspell, missingDirs, hback, FileSystem.directory?_spell h.literal]
    by_cases hdir : fs₀.node (q ++ [n]) = some .dir
    · rw [decide_eq_true hdir, if_pos rfl]
      apply EStateM.triple_pure
      rintro w rfl
      exact FileSystem.madeDirs_of_dir hdir
    · have hnone : fs₀.node (q ++ [n]) = none := (h _ List.prefix_rfl).resolve_right hdir
      have hne : ¬q ++ [n] <+: q := by
        intro hp
        have := hp.length_le
        simp at this
      rw [decide_eq_false hdir, if_neg Bool.false_ne_true, List.forM_eq_forM, List.forM_append]
      -- what the parents leave is what the last directory starts from
      have hmake := ih hq
      rw [List.forM_eq_forM] at hmake
      simp only [List.forM_cons, List.forM_nil]
      mvcgen [hmake, triple_mkdirUnlessThere_of_none]
      case vc2.h w hw => rw [hw, if_pos List.prefix_rfl]
      case vc3.hn w hw => rw [hw, if_neg hne, hnone]
      case vc4.neg.post.success.post.success w hw _ w' hw' =>
        intro r
        rw [hw', hw]
        by_cases hr : r = q ++ [n]
        · rw [if_pos hr, if_pos (by rw [hr])]
        · rw [if_neg hr]
          refine if_congr ?_ rfl rfl
          rw [List.prefix_concat_iff]
          exact (or_iff_right hr).symm
      case vc5.neg.post.success.post.except.handle w hw _ w' =>
        intro hw' r hr
        rw [hw', hw]
        by_cases hrq : r <+: q
        · rw [if_pos hrq]
          rcases hr with hr | hr
          · exact ((hq r hrq).resolve_left hr).symm
          · exact absurd (hrq.trans (List.prefix_append q [n])) hr
        · rw [if_neg hrq]
      case vc6.neg.post.except.handle w hw _ w' =>
        intro hgrown r hr
        exact hgrown r (hr.imp_right fun hr hrq => hr (hrq.trans (List.prefix_append q [n])))

/-- `mkdir_p` makes the directory, or grew some of the way to it. -/
theorem triple_mkdirP (h : Clear fs₀ p) :
    ⦃fun w => ⌜w.fs = fs₀⌝⦄ mkdirP (spell p)
    ⦃post⟨fun _ w => ⌜FileSystem.MadeDirs p fs₀ w.fs⌝, fun _ w => ⌜Grown p fs₀ w.fs⌝⟩⦄ := by
  rw [EStateM.triple_iff]
  rintro w rfl
  exact EStateM.triple_iff.mp (triple_missingDirs h) w rfl

/-! ### A blocked directory -/

/-- Something that is not a directory, such as a dangling link, is in the way. -/
def Blocked (fs : FileSystem) (p : Path) : Prop :=
  fs.node p ≠ none ∧ fs.directory? (spell p) = false

/-- What stands above a directory is one. -/
theorem directory?_of_append (fs : FileSystem) (cs : List Component) {c : Component}
    (h : fs.directory? (cs ++ [c]) = true) : fs.directory? cs = true := by
  rw [FileSystem.directory?, decide_eq_true_eq, FileSystem.find] at h ⊢
  cases hresolve : fs.resolve true (cs ++ [c]) with
  | error e =>
    rw [hresolve] at h
    cases h
  | ok q =>
    have hdir := FileSystem.find_dir_of_resolve_append hresolve
    rwa [FileSystem.find] at hdir

/-- What is in the way is the first directory to be made. -/
theorem missingDirs_of_blocked (h : fs₀.node p = some .dir) (hblocked : Blocked fs₀ (p ++ [n]))
    (d : Path) :
    fs₀.directory? (spell (p ++ [n] ++ d)) = false ∧
      ∃ more, missingDirs fs₀ (spell (p ++ [n] ++ d)).reverse = spell (p ++ [n]) :: more := by
  induction d using List.reverseRecOn with
  | nil =>
    rw [List.append_nil]
    have hspell : (spell (p ++ [n])).reverse = .down n :: (spell p).reverse := by simp [spell]
    have hback : (Component.down n :: (spell p).reverse).reverse = spell (p ++ [n]) := by
      rw [← hspell, List.reverse_reverse]
    -- above what blocks everything is there
    have hp : missingDirs fs₀ (spell p).reverse = [] := by
      have hdir := FileSystem.directory?_spell (FileSystem.literal_of_dir h)
      rw [decide_eq_true h] at hdir
      cases hcs : (spell p).reverse with
      | nil => rfl
      | cons c cs =>
        rw [missingDirs, ← hcs, List.reverse_reverse, hdir]
        rfl
    refine ⟨hblocked.2, [], ?_⟩
    rw [hspell, missingDirs, hback, hblocked.2, hp]
    rfl
  | append_singleton d m ih =>
    obtain ⟨hdir, more, hmore⟩ := ih
    have hspell : spell (p ++ [n] ++ (d ++ [m])) = spell (p ++ [n] ++ d) ++ [.down m] := by
      simp [spell]
    -- nothing below what blocks is a directory
    have hdir' : fs₀.directory? (spell (p ++ [n] ++ (d ++ [m]))) = false := by
      rw [hspell]
      by_contra htrue
      rw [Bool.not_eq_false] at htrue
      rw [directory?_of_append fs₀ _ htrue] at hdir
      cases hdir
    refine ⟨hdir', more ++ [spell (p ++ [n] ++ (d ++ [m]))], ?_⟩
    have hback : (Component.down m :: (spell (p ++ [n] ++ d)).reverse).reverse =
        spell (p ++ [n] ++ (d ++ [m])) := by
      rw [hspell, List.reverse_cons, List.reverse_reverse]
    rw [hspell, List.reverse_append, List.reverse_singleton, List.singleton_append, missingDirs,
      hback, hdir', hmore, ← hspell]
    rfl

/-- `mkdir_p` cannot get past it. -/
theorem triple_mkdirP_blocked (h : fs₀.node p = some .dir) (hblocked : Blocked fs₀ (p ++ [n]))
    (d : Path) :
    ⦃fun w => ⌜w.fs = fs₀⌝⦄ mkdirP (spell (p ++ [n] ++ d))
    ⦃post⟨fun _ _ => ⌜False⌝, fun _ w => ⌜w.fs = fs₀⌝⟩⦄ := by
  obtain ⟨-, more, hmore⟩ := missingDirs_of_blocked h hblocked d
  have hmake : ⦃fun w => ⌜w.fs = fs₀⌝⦄ mkdirUnlessThere (spell (p ++ [n]))
      ⦃post⟨fun _ _ => ⌜False⌝, fun _ w => ⌜w.fs = fs₀⌝⟩⦄ := by
    apply EStateM.triple_conseq (triple_mkdirUnlessThere (spell (p ++ [n]))) ?_ fun _ _ => id
    rintro - w (hw | ⟨hdir, -⟩)
    · rw [FileSystem.mkdir_spell_of_exists h hblocked.1] at hw
      cases hw
    · rw [hblocked.2] at hdir
      cases hdir
  have hloop : ⦃fun w => ⌜w.fs = fs₀⌝⦄ (spell (p ++ [n]) :: more).forM mkdirUnlessThere
      ⦃post⟨fun _ _ => ⌜False⌝, fun _ w => ⌜w.fs = fs₀⌝⟩⦄ := by
    rw [List.forM_eq_forM, List.forM_cons]
    exact Triple.bind _ _ hmake fun _ => EStateM.triple_iff.mpr fun _ h => h.elim
  rw [EStateM.triple_iff]
  rintro w rfl
  rw [← hmore] at hloop
  exact EStateM.triple_iff.mp hloop w rfl

/-! ### Files -/

open FileSystem (EqOutside MadeDirs Holds)

/-- A new file, written or not written. -/
theorem triple_binwrite (data : Bytes) (h : fs₀.node p = some .dir)
    (hn : fs₀.node (p ++ [n]) = none) :
    ⦃fun w => ⌜w.fs = fs₀⌝⦄ binwrite (spell (p ++ [n])) data
    ⦃post⟨fun _ w => ⌜∃ hput, w.fs = fs₀.put (p ++ [n]) (.file data 0o644) hput⌝,
      fun _ w => ⌜EqOutside (p ++ [n]) fs₀ w.fs⌝⟩⦄ := by
  refine EStateM.triple_conseq (triple_syscall fs₀ _ _ _) ?_ ?_
  · intro _ w hw
    rw [FileSystem.write_spell data h hn] at hw
    exact ⟨_, (Except.ok.inj hw).symm⟩
  · rintro - w (hw | ⟨fault, hw⟩)
    · rw [hw]
      exact EqOutside.refl _ _
    · rw [hw, partialWrite]
      cases fault.written with
      | none => exact EqOutside.refl _ _
      | some k =>
        simp only [FileSystem.write_spell (data.take k) h hn]
        exact FileSystem.eqOutside_put List.prefix_rfl _ _

/-- `chmod` changes the mode of the file. -/
theorem triple_chmod (mode : ℕ) (data : Bytes) (mode' : ℕ) (h : fs₀.node p = some .dir)
    (hn : fs₀.node (p ++ [n]) = some (.file data mode')) :
    ⦃fun w => ⌜w.fs = fs₀⌝⦄ chmod mode (spell (p ++ [n]))
    ⦃post⟨fun _ w => ⌜∃ hput, w.fs = fs₀.put (p ++ [n]) (.file data mode) hput⌝,
      fun _ w => ⌜w.fs = fs₀⌝⟩⦄ := by
  have hput : fs₀.Puttable (p ++ [n]) := FileSystem.puttable_append_singleton h (by rw [hn]; simp)
  refine EStateM.triple_conseq (triple_atomic fs₀ _ _) ?_ fun _ _ => id
  intro _ w hw
  rw [FileSystem.chmod_spell mode h hn hput] at hw
  exact ⟨hput, (Except.ok.inj hw).symm⟩

/-- `rename` moves the tree, or changes nothing. -/
theorem triple_rename {m : Name} (h : fs₀.node p = some .dir) (hmn : m ≠ n) :
    ⦃fun w => ⌜w.fs = fs₀⌝⦄ rename (spell (p ++ [m])) (spell (p ++ [n]))
    ⦃post⟨fun _ w => ⌜∃ hmove, w.fs = fs₀.move (p ++ [m]) (p ++ [n]) hmove⌝,
      fun _ w => ⌜w.fs = fs₀⌝⟩⦄ := by
  refine EStateM.triple_conseq (triple_atomic fs₀ _ _) ?_ fun _ _ => id
  intro _ w hw
  exact FileSystem.rename_spell h hmn hw

end Calls

/-! ### Installing a file -/

section Install

open FileSystem (EqOutside MadeDirs Holds)

variable {fs₀ : FileSystem} {p d : Path} {n : Name} {files : List (Path × Node)}

/-- Every directory above `p` is there. -/
def Anchored (fs : FileSystem) (p : Path) : Prop := ∀ r, r <+: p → r ≠ p → fs.node r = some .dir

/-- Directories that grew below a path change nothing outside it. -/
theorem eqOutside_of_grown {fs : FileSystem} (h : Anchored fs₀ p) (hgrown : Grown (p ++ d) fs₀ fs) :
    EqOutside p fs₀ fs := by
  intro r hr
  apply hgrown r
  by_cases hrd : r <+: p ++ d
  · left
    rcases List.prefix_or_prefix_of_prefix hrd (List.prefix_append p d) with hrp | hpr
    · rw [h r hrp (fun heq => hr (by rw [heq]))]
      simp
    · exact absurd hpr hr
  · exact Or.inr hrd

/-- Directories that were made have grown. -/
theorem grown_of_madeDirs {fs : FileSystem} (h : Clear fs₀ p) (hmade : MadeDirs p fs₀ fs) :
    Grown p fs₀ fs := by
  intro r hr
  rw [hmade]
  by_cases hrp : r <+: p
  · rw [if_pos hrp]
    exact ((h r hrp).resolve_left (hr.resolve_right (not_not_intro hrp))).symm
  · rw [if_neg hrp]

/-- The directories of a file that fits can be made. -/
theorem clear_of_fits (h : Anchored fs₀ p) (hholds : fs₀.Holds p files)
    (hfits : Fits files (d ++ [n])) : Clear fs₀ (p ++ d) := by
  intro r hr
  rcases List.prefix_or_prefix_of_prefix hr (List.prefix_append p d) with hrp | ⟨e, rfl⟩
  · by_cases hne : r = p
    · have hroot := hholds []
      rw [List.append_nil] at hroot
      rw [hne, hroot]
      exact hfits.2 [] List.nil_prefix
    · exact Or.inr (h r hrp hne)
  · rw [hholds e]
    rw [List.prefix_append_right_inj] at hr
    exact hfits.2 e (hr.trans (List.prefix_append d [n]))

/-- `dirname` drops the last name. -/
theorem dirname_spell (p : Path) (n : Name) : dirname (spell (p ++ [n])) = spell p := by
  rw [dirname, spell, List.map_append, List.map_singleton, List.dropLast_concat, spell]

/-- A file is installed beside the others, and nothing changes outside the tree. -/
theorem triple_install (rel : String) (data : Bytes) (h : Anchored fs₀ p)
    (hholds : fs₀.Holds p files) (hfits : Fits files (d ++ [n]))
    (hjoin : join (spell p) rel = .ok (spell (p ++ d ++ [n]))) :
    ⦃fun w => ⌜w.fs = fs₀⌝⦄ install (spell p) rel data
    ⦃post⟨fun _ w => ⌜w.fs.Holds p (files ++ [(d ++ [n], .file data 0o755)]) ∧
        EqOutside p fs₀ w.fs⌝,
      fun _ w => ⌜EqOutside p fs₀ w.fs⌝⟩⦄ := by
  -- neither a link nor a file is on the way, and the name is free
  have hclear := clear_of_fits h hholds hfits
  have hnode : fs₀.node (p ++ d ++ [n]) = none := by
    rw [List.append_assoc, hholds, hfits.1]
  have hprefix : ¬p ++ d ++ [n] <+: p ++ d := by
    intro h
    have := h.length_le
    simp at this
  have hbelow : p <+: p ++ d ++ [n] := by
    rw [List.append_assoc]
    exact List.prefix_append p _
  rw [install, hjoin, EStateM.ofExcept_ok_bind, dirname_spell]
  -- the directories
  refine EStateM.triple_bind (Q := fun _ w => MadeDirs (p ++ d) fs₀ w.fs)
    (EStateM.triple_conseq (triple_mkdirP hclear) (fun _ _ => id)
      fun _ _ => eqOutside_of_grown h) fun _ => ?_
  refine triple_of_fs fun w₁ hmade => ?_
  generalize w₁.fs = fs₁ at hmade ⊢
  have hdir : fs₁.node (p ++ d) = some .dir := by rw [hmade, if_pos List.prefix_rfl]
  have hnone : fs₁.node (p ++ d ++ [n]) = none := by rw [hmade, if_neg hprefix, hnode]
  have hsame : EqOutside p fs₀ fs₁ := eqOutside_of_grown h (grown_of_madeDirs hclear hmade)
  -- the content
  refine EStateM.triple_bind
    (Q := fun _ w => ∃ hput, w.fs = fs₁.put (p ++ d ++ [n]) (.file data 0o644) hput)
    (EStateM.triple_conseq (triple_binwrite data hdir hnone) (fun _ _ => id) ?_) fun _ => ?_
  · intro _ w hw
    exact hsame.trans fun r hr => hw r fun hr' => hr (hbelow.trans hr')
  refine triple_of_fs fun w₂ hput => ?_
  generalize w₂.fs = fs₂ at hput ⊢
  obtain ⟨hput, rfl⟩ := hput
  have hsame' := hsame.trans (FileSystem.eqOutside_put hbelow (.file data 0o644) hput)
  have hne : p ++ d ≠ p ++ d ++ [n] := by simp
  -- the mode
  refine EStateM.triple_conseq (triple_chmod 0o755 data 0o644 ?_ ?_) ?_ ?_
  · rw [FileSystem.node_put, if_neg hne, hdir]
  · rw [FileSystem.node_put, if_pos rfl]
  · rintro - w ⟨hput', hw⟩
    have hfinal : (fs₁.put _ (.file data 0o755) hput).Holds p
        (files ++ [(d ++ [n], .file data 0o755)]) := hholds.put hfits hmade hput
    refine ⟨hfinal.of_eq fun r => ?_, ?_⟩
    · rw [hw]
      simp only [FileSystem.node_put]
      split_ifs <;> rfl
    · rw [hw]
      exact hsame'.trans (FileSystem.eqOutside_put hbelow _ _)
  · intro _ w hw
    rw [hw]
    exact hsame'

/-- Where a link or a file is in the way nothing is installed. -/
theorem triple_install_blocked {q : Path} {m : Name} (rel : String) (data : Bytes)
    (h : fs₀.node q = some .dir) (hblocked : Blocked fs₀ (q ++ [m]))
    (hjoin : join (spell (q ++ [m])) rel = .ok (spell (q ++ [m] ++ d ++ [n]))) :
    ⦃fun w => ⌜w.fs = fs₀⌝⦄ install (spell (q ++ [m])) rel data
    ⦃post⟨fun _ _ => ⌜False⌝, fun _ w => ⌜w.fs = fs₀⌝⟩⦄ := by
  rw [install, hjoin, EStateM.ofExcept_ok_bind, dirname_spell]
  exact EStateM.triple_bind (triple_mkdirP_blocked h hblocked d)
    fun _ => EStateM.triple_iff.mpr fun _ h => h.elim

end Install

/-! ### Verification -/

section Verification

/-- Verifying a file changes nothing. -/
theorem triple_verifyFile (vendorDir : List Component) (file : String × Json) :
    ⦃fun w => ⌜w.fs = fs₀⌝⦄ verifyFile lib vendorDir file
    ⦃post⟨fun _ w => ⌜w.fs = fs₀⌝, fun _ w => ⌜w.fs = fs₀⌝⟩⦄ := by
  mvcgen [verifyFile]
  all_goals grind

/-- Verification changes no file. -/
theorem triple_verifyManifest! (vendorDir : List Component) (platform runtimeVersion : String) :
    ⦃fun w => ⌜w.fs = fs₀⌝⦄ verifyManifest! lib vendorDir platform runtimeVersion
    ⦃post⟨fun _ w => ⌜w.fs = fs₀⌝, fun _ w => ⌜w.fs = fs₀⌝⟩⦄ := by
  have hfiles := fun files : List (String × Json) =>
    EStateM.triple_forM files fun f _ => triple_verifyFile lib fs₀ vendorDir f
  mvcgen [verifyManifest!, hfiles]
  all_goals grind

end Verification

end MicrosandboxRb.Vendor
