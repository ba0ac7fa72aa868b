import MicrosandboxRb.Vendor.Vendored

/-!
# When a failed `vendor!` leaves the vendor directory whole

`vendor!` removes the old tree before it renames the new one into place. When the removal removes
something and the rename then fails, the vendor directory is missing or incomplete. The staging
directory is left behind when the `ensure` clause cannot remove it.

Whether that happens is settled by the file system before the call and by how the two removals of the
staging directory, the removal of the old tree and the rename behave: `Withstands` says when it does
not. Every other call may fail at any time.

## Main results

* `vendor_all_or_nothing`: when a call that raises leaves the old tree or the new one;
* `exists_missing_tree`: a failed rename leaves no vendor directory.
-/

namespace MicrosandboxRb.Vendor

open Ruby Posix Std.Do
open FileSystem (EqOutside Holds)

variable (lib : Stdlib) (args : VendorArgs)

/-- The vendor directory is as before, or it is the complete new tree. -/
def Whole (fs fs' : FileSystem) : Prop :=
  (∀ r, args.vendorDir.path <+: r → fs'.node r = fs.node r) ∨
    ∃ asset data contents, Verified lib args asset data ∧
      RuntimeTree lib args asset data contents fs' args.vendorDir.path

/-- The vendor directory is whole, and there is no staging directory. -/
def AllOrNothing (w w' : World) : Prop :=
  Whole lib args w.fs w'.fs ∧ w'.fs.node (args.vendorDir.staging args.pid) = none

/-! ### The calls that matter -/

/-- The removal of the staging directory. It is made before the extraction and by the `ensure`
clause. -/
def unstage : Call := .rmRf (spell (args.vendorDir.staging args.pid))

/-- The removal of the old tree. -/
def uproot : Call := .rmRf (spell args.vendorDir.path)

/-- The rename of the staging directory. -/
def promote : Call :=
  .rename (spell (args.vendorDir.staging args.pid)) (spell args.vendorDir.path)

/-- How `c` behaves after `n` more calls of it. -/
def World.upcoming (w : World) (c : Call) (n : ℕ) : Fault := w.faults c (w.calls c + n)

/-- The bundle is published and fetched, and the three lines that `vendor!` logs about it are
written. -/
def Fetches (w : World) (asset : String) (data : Bytes) : Prop :=
  Verified lib args asset data ∧ ∀ n < 3, (w.upcoming .puts n).raises = none

/-- A call from `w` withstands every failure. -/
structure Withstands (w : World) : Prop where
  /-- Without a bundle nothing is staged, nor is an earlier staging directory removed. -/
  unstaged : (¬∃ asset data, Fetches lib args w asset data) →
    w.fs.node (args.vendorDir.staging args.pid) = none
  /-- The rename succeeds, onto nothing or an empty directory, or there is nothing to lose. -/
  swap : ∀ asset data, Fetches lib args w asset data → WellFormed lib (lib.untar data).1 →
    (w.fault (promote args)).raises = none ∧
        w.fs.Clears (w.fault (uproot args)).stuck args.vendorDir.path ∨
      w.fs.RemovesNothing (w.fault (uproot args)).stuck args.vendorDir.path
  /-- A dangling link, which `File.exist?` does not see, is removed before the extraction. -/
  seen : ∀ asset data, Fetches lib args w asset data →
    w.fs.link? (args.vendorDir.staging args.pid) = true →
    w.fs.exist? (spell (args.vendorDir.staging args.pid)) = true ∨
      (w.fault (unstage args)).stuck (args.vendorDir.staging args.pid) = false
  /-- The `ensure` clause can remove whatever is staged. -/
  cleanup : ∀ asset data, Fetches lib args w asset data →
    ∀ r, args.vendorDir.staging args.pid <+: r → (w.upcoming (unstage args) 1).stuck r = false

variable {lib args}

/-! ### Calls that do not matter -/

/-- A removal or a rename. -/
def Call.Moves : Call → Prop
  | .rmRf _ | .rename .. => True
  | _ => False

/-- From `w₀` to `w` nothing was removed or renamed, and no link was made. -/
structure Undisturbed (w₀ w : World) : Prop where
  faults : w.faults = w₀.faults
  calls : ∀ c, c.Moves → w.calls c = w₀.calls c
  links : ∀ p, w.fs.link? p = true → w₀.fs.link? p = true

/-- A world is not disturbed by itself. -/
theorem Undisturbed.refl (w : World) : Undisturbed w w := ⟨rfl, fun _ _ => rfl, fun _ => id⟩

/-- The faults that lie ahead of a moving call are those it had. -/
theorem Undisturbed.upcoming {w₀ w : World} (h : Undisturbed w₀ w) {c : Call} (hc : c.Moves) (n : ℕ) :
    w.upcoming c n = w₀.upcoming c n := by
  rw [World.upcoming, World.upcoming, h.faults, h.calls c hc]

/-- So is the next one. -/
theorem Undisturbed.fault {w₀ w : World} (h : Undisturbed w₀ w) {c : Call} (hc : c.Moves) :
    w.fault c = w₀.fault c := h.upcoming hc 0

/-- A call that moves nothing disturbs nothing. -/
theorem Undisturbed.called {w₀ w : World} {c : Call} (hc : ¬c.Moves) (h : Undisturbed w₀ w) :
    Undisturbed w₀ (w.called c) where
  faults := h.faults
  calls c' hc' := by
    have hne : c' ≠ c := fun heq => hc (heq ▸ hc')
    rw [World.called]
    exact (if_neg hne).trans (h.calls c' hc')
  links := h.links

section Keeps

open EStateM (Keeps)

variable {w₀ : World} {c : Call}

/-- A system call that makes no link and moves no tree. -/
theorem keeps_syscall {op : FileSystem → Except Errno FileSystem}
    {failed : Fault → FileSystem → FileSystem} (hc : ¬c.Moves)
    (hop : ∀ fs fs' p, op fs = .ok fs' → fs'.link? p = true → fs.link? p = true)
    (hfailed : ∀ fault fs p, (failed fault fs).link? p = true → fs.link? p = true) :
    Keeps (Undisturbed w₀) (syscall c op failed) := by
  rw [EStateM.keeps_iff]
  intro w hw
  have hcalled := hw.called hc
  rw [EStateM.run, syscall]
  cases (w.fault c).raises with
  | some e =>
    exact ⟨hcalled.faults, hcalled.calls, fun p hp => hw.links p (hfailed _ _ p hp)⟩
  | none =>
    cases hw' : op w.fs with
    | error e => exact hcalled
    | ok fs => exact ⟨hcalled.faults, hcalled.calls, fun p hp => hw.links p (hop _ _ p hw' hp)⟩

/-- A call that only reads. -/
theorem keeps_query {α : Type} (q : FileSystem → Except Errno α) (hc : ¬c.Moves) :
    Keeps (Undisturbed w₀) (query c q) := by
  rw [EStateM.keeps_iff]
  intro w hw
  rw [EStateM.run, query]
  cases (w.fault c).raises with
  | some e => exact hw.called hc
  | none => cases q w.fs <;> exact hw.called hc

/-- A test. -/
theorem keeps_test (p : FileSystem → Bool) : Keeps (Undisturbed w₀) (test p) :=
  EStateM.keeps_iff.mpr fun _ hw => hw

/-- A line of output. -/
theorem keeps_puts (line : String) : Keeps (Undisturbed w₀) (puts line) := by
  rw [EStateM.keeps_iff]
  intro w hw
  have hcalled := hw.called (c := .puts) not_false
  rw [EStateM.run, puts]
  cases (w.fault .puts).raises with
  | some e => exact hcalled
  | none => exact ⟨hcalled.faults, hcalled.calls, hw.links⟩

/-- Directories that are made. -/
theorem keeps_mkdirP (path : List Component) : Keeps (Undisturbed w₀) (mkdirP path) := by
  rw [EStateM.keeps_iff]
  intro w hw
  refine EStateM.Keeps.state (Keeps.forM _ fun dir => ?_) hw
  refine (keeps_syscall (c := .mkdir dir) not_false (fun _ _ _ => FileSystem.link?_of_mkdir)
    fun _ _ _ => id).attempt.bind fun r => ?_
  cases r with
  | ok u => exact EStateM.keeps_pure ()
  | error e =>
    refine (keeps_test _).bind fun there => ?_
    cases there with
    | true => exact EStateM.keeps_pure ()
    | false => exact EStateM.keeps_throw e

/-- A file that is written. -/
theorem keeps_binwrite (path : List Component) (data : Bytes) :
    Keeps (Undisturbed w₀) (binwrite path data) := by
  refine keeps_syscall (c := .write path) not_false (fun _ _ _ => FileSystem.link?_of_write)
    fun fault fs p hp => ?_
  rw [partialWrite] at hp
  cases hwritten : fault.written with
  | none => rwa [hwritten] at hp
  | some n =>
    rw [hwritten] at hp
    dsimp only at hp
    cases hwrite : fs.write path (data.take n) with
    | error e => rwa [hwrite] at hp
    | ok fs' =>
      rw [hwrite] at hp
      exact FileSystem.link?_of_write hwrite hp

/-- A mode that is changed. -/
theorem keeps_chmod (mode : ℕ) (path : List Component) :
    Keeps (Undisturbed w₀) (chmod mode path) :=
  keeps_syscall (c := .chmod path) not_false (fun _ _ _ => FileSystem.link?_of_chmod) fun _ _ _ => id

/-- One entry of the archive. -/
theorem keeps_extractEntry (destDir : List Component) (files : List (String × String))
    (entry : TarEntry) : Keeps (Undisturbed w₀) (extractEntry lib destDir files entry) := by
  rw [extractEntry]
  split_ifs
  · exact EStateM.keeps_pure files
  · exact EStateM.keeps_throw _
  · refine (EStateM.keeps_ofExcept _).bind fun rel => ?_
    split_ifs
    · exact EStateM.keeps_throw _
    · refine (EStateM.keeps_ofExcept _).bind fun data => ?_
      refine Keeps.bind ?_ fun _ => EStateM.keeps_pure _
      exact (EStateM.keeps_ofExcept _).bind fun target =>
        (keeps_mkdirP _).bind fun _ => (keeps_binwrite target _).bind fun _ => keeps_chmod _ target

/-- The archive. -/
theorem keeps_extractBundle! (tgzBytes : Bytes) (destDir : List Component) :
    Keeps (Undisturbed w₀) (extractBundle! lib tgzBytes destDir) := by
  refine (keeps_test _).bind fun exists? => ?_
  split_ifs
  · exact EStateM.keeps_throw _
  · refine (Keeps.foldlM _ (fun files entry => keeps_extractEntry destDir files entry) []).bind
      fun files => ?_
    cases (lib.untar tgzBytes).2 with
    | some e => exact EStateM.keeps_throw e
    | none =>
      dsimp only
      split_ifs
      · exact EStateM.keeps_throw _
      · exact EStateM.keeps_pure files
      · exact EStateM.keeps_throw _

/-- The manifest. -/
theorem keeps_writeManifest! (dir : List Component)
    (platform runtimeVersion asset bundleSha256 : String) (files : List (String × String)) :
    Keeps (Undisturbed w₀)
      (writeManifest! lib dir platform runtimeVersion asset bundleSha256 files) :=
  (EStateM.keeps_ofExcept _).bind fun path => (EStateM.keeps_ofExcept _).bind fun document =>
    (keeps_binwrite path (document ++ [10])).bind fun _ => EStateM.keeps_pure _

/-- A file that is verified. -/
theorem keeps_verifyFile (vendorDir : List Component) (file : String × Json) :
    Keeps (Undisturbed w₀) (verifyFile lib vendorDir file) := by
  refine (EStateM.keeps_ofExcept _).bind fun path => ?_
  refine (keeps_query (c := .lstat path) _ not_false).bind fun regular => ?_
  split_ifs
  · exact (keeps_query (c := .read path) _ not_false).bind fun data =>
      (EStateM.keeps_ofExcept _).bind fun _ => EStateM.keeps_pure ()
  · exact EStateM.keeps_throw _

/-- The tree that is verified. -/
theorem keeps_verifyManifest! (vendorDir : List Component) (platform runtimeVersion : String) :
    Keeps (Undisturbed w₀) (verifyManifest! lib vendorDir platform runtimeVersion) := by
  refine (EStateM.keeps_ofExcept _).bind fun path => (keeps_test _).bind fun there => ?_
  split_ifs
  · refine (keeps_query (c := .read path) _ not_false).bind fun data => (EStateM.keeps_ofExcept _).bind
      fun document => (EStateM.keeps_ofExcept _).bind fun files =>
        (Keeps.forM _ fun file => keeps_verifyFile vendorDir file).bind fun _ =>
          (keeps_query (c := .glob vendorDir) _ not_false).bind fun present => ?_
    dsimp only
    split_ifs
    · exact EStateM.keeps_pure document
    · exact EStateM.keeps_throw _
  · exact EStateM.keeps_throw _

variable (lib args) in
/-- The bundle that is fetched. -/
theorem keeps_fetchVerified : Keeps (Undisturbed w₀) (fetchVerified lib args) :=
  (EStateM.keeps_ofExcept _).bind fun _ => (EStateM.keeps_ofExcept _).bind fun _ =>
    (keeps_puts _).bind fun _ => (EStateM.keeps_ofExcept _).bind fun _ =>
      (EStateM.keeps_ofExcept _).bind fun _ => (EStateM.keeps_ofExcept _).bind fun _ =>
        (keeps_puts _).bind fun _ => (EStateM.keeps_ofExcept _).bind fun _ =>
          (EStateM.keeps_ofExcept _).bind fun _ => (keeps_puts _).bind fun _ =>
            EStateM.keeps_pure _

end Keeps

/-! ### Fetching -/

/-- A digest that was published is found. -/
theorem expectedSha256!_eq_ok {checksumsText asset digest : String}
    (h : PublishedDigest checksumsText asset digest) :
    expectedSha256! lib checksumsText asset = .ok digest := by
  obtain ⟨before, line, after, hlines, hbefore, hline, first, hfirst, hdigest, rfl⟩ := h
  have hfind : (eachLine checksumsText).find? (lists asset) = some line := by
    rw [List.find?_eq_some_iff_append]
    refine ⟨by simpa [lists] using hline, before, after, hlines, fun l hl => ?_⟩
    simpa [lists] using hbefore l hl
  have hhead : (split line).headD "" = first := by
    rw [List.headD_eq_head?_getD, hfirst]
    rfl
  rw [expectedSha256!, hfind]
  dsimp only
  rw [hhead, if_pos hdigest]

/-- It is in lower case already. -/
theorem downcase_of_publishedDigest {checksumsText asset digest : String}
    (h : PublishedDigest checksumsText asset digest) : downcase digest = digest := by
  obtain ⟨-, -, -, -, -, -, first, -, -, rfl⟩ := h
  exact downcase_downcase first

/-- After a call the faults ahead of it move up by one. -/
theorem World.upcoming_called (w : World) (c : Call) (n : ℕ) :
    (w.called c).upcoming c n = w.upcoming c (n + 1) := by
  rw [World.upcoming, World.upcoming, World.called]
  dsimp only
  rw [if_pos rfl, Nat.add_assoc, Nat.add_comm 1 n]

/-- A line is written unless a fault hits it. -/
theorem run_puts_eq_ok_iff {w w' : World} {line : String} :
    (puts line).run w = .ok () w' ↔
      (w.upcoming .puts 0).raises = none ∧ w' = { w.called .puts with log := w.log ++ [line] } := by
  change _ ↔ (w.fault .puts).raises = none ∧ _
  rw [EStateM.run, puts]
  cases (w.fault .puts).raises with
  | some e => simp
  | none => simp [eq_comm]

/-- A line that is written leaves the later ones as they were to be. -/
theorem run_puts {w : World} (line : String) (h : (w.upcoming .puts 0).raises = none) :
    ∃ w', (puts line).run w = .ok () w' ∧
      ∀ n, w'.upcoming .puts n = w.upcoming .puts (n + 1) :=
  ⟨_, run_puts_eq_ok_iff.mpr ⟨h, rfl⟩, w.upcoming_called .puts⟩

/-- And moves its own faults up. -/
theorem of_run_puts {w w' : World} {line : String} (h : (puts line).run w = .ok () w') :
    (w.upcoming .puts 0).raises = none ∧
      ∀ n, w'.upcoming .puts n = w.upcoming .puts (n + 1) := by
  obtain ⟨hraises, rfl⟩ := run_puts_eq_ok_iff.mp h
  exact ⟨hraises, w.upcoming_called .puts⟩

/-- A fetch that returned met no fault and was answered with what was verified. -/
theorem fetches_of_run {w w' : World} {asset digest : String} {data : Bytes}
    (h : (fetchVerified lib args).run w = .ok (asset, digest, data) w')
    (hverified : Verified lib args asset data) : Fetches lib args w asset data := by
  simp only [fetchVerified, EStateM.run_bind_eq_ok_iff, EStateM.run_ofExcept_eq_ok_iff] at h
  obtain ⟨_, _, ⟨-, rfl⟩, _, _, ⟨-, rfl⟩, _, w₁, hrun₁, _, _, ⟨-, rfl⟩, _, _, ⟨-, rfl⟩, _, _,
    ⟨-, rfl⟩, _, w₂, hrun₂, _, _, ⟨-, rfl⟩, _, _, ⟨-, rfl⟩, _, w₃, hrun₃, -⟩ := h
  obtain ⟨h₀, hlater₁⟩ := of_run_puts hrun₁
  obtain ⟨h₁, hlater₂⟩ := of_run_puts hrun₂
  obtain ⟨h₂, -⟩ := of_run_puts hrun₃
  rw [hlater₁] at h₁
  rw [hlater₂, hlater₁] at h₂
  refine ⟨hverified, fun n hn => ?_⟩
  rcases n with _ | _ | _ | n
  · exact h₀
  · exact h₁
  · exact h₂
  · omega

/-- Nothing stops the fetching part, then. -/
theorem exists_run_fetchVerified {w : World} {asset : String} {data : Bytes}
    (h : Fetches lib args w asset data) :
    ∃ w', (fetchVerified lib args).run w = .ok (asset, lib.hexdigest data, data) w' := by
  obtain ⟨hverified, hlog⟩ := h
  obtain ⟨document, hdocument, hlive⟩ := hverified.live
  have hdigest : verifySha256! lib data (lib.hexdigest data) asset = .ok (lib.hexdigest data) := by
    rw [verifySha256!, if_pos (downcase_of_publishedDigest hlive).symm]
  have hagree : checkLive args asset (lib.hexdigest data) (lib.hexdigest data) = .ok () :=
    if_pos rfl
  rw [fetchVerified, hverified.named, EStateM.ofExcept_ok_bind, expectedSha256!_eq_ok hverified.pinned,
    EStateM.ofExcept_ok_bind]
  -- nothing but the three lines touches the world
  obtain ⟨w₁, hrun₁, hlog₁⟩ := run_puts
    s!"[binaries] fetching {CHECKSUMS_ASSET} for {args.runtimeVersion}" (hlog 0 (by omega))
  obtain ⟨w₂, hrun₂, hlog₂⟩ := run_puts s!"[binaries] fetching {asset}"
    (by rw [hlog₁]; exact hlog 1 (by omega))
  obtain ⟨w₃, hrun₃, -⟩ := run_puts
    s!"[binaries] verified {asset} sha256={lib.hexdigest data}"
    (by rw [hlog₂, hlog₁]; exact hlog 2 (by omega))
  refine ⟨w₃, ?_⟩
  rw [EStateM.run_bind, hrun₁]
  dsimp only
  rw [hdocument, EStateM.ofExcept_ok_bind, expectedSha256!_eq_ok hlive, EStateM.ofExcept_ok_bind,
    hagree, EStateM.ofExcept_ok_bind, EStateM.run_bind, hrun₂]
  dsimp only
  rw [hverified.fetched, EStateM.ofExcept_ok_bind, hdigest, EStateM.ofExcept_ok_bind,
    EStateM.run_bind, hrun₃]
  rfl

/-! ### Staging -/

/-- A call does not move the faults of another. -/
theorem World.upcoming_called_of_ne (w : World) {c c' : Call} (h : c' ≠ c) (n : ℕ) :
    (w.called c).upcoming c' n = w.upcoming c' n := by
  rw [World.upcoming, World.upcoming, World.called]
  dsimp only
  rw [if_neg h]

variable (args) in
/-- The world after the first removal of the staging directory. -/
def afterUnstage (w : World) : World :=
  { w.called (unstage args) with
    fs := w.fs.rmRf (w.fault (unstage args)).stuck (args.vendorDir.staging args.pid) }

variable (args) in
/-- `File.exist?` sees the staging directory, if there is one. -/
def Seen (fs : FileSystem) : Prop :=
  fs.node (args.vendorDir.staging args.pid) = none ∨
    fs.exist? (spell (args.vendorDir.staging args.pid)) = true

/-- It does not see a dangling link only. -/
theorem seen_of_not_link {fs : FileSystem} (hq : fs.node args.vendorDir.parent = some .dir)
    (hlink : fs.link? (args.vendorDir.staging args.pid) = false) : Seen args fs := by
  rw [Seen, FileSystem.exist?, FileSystem.find_spell true, ← Option.not_isSome_iff_eq_none]
  · exact (em _).symm
  · exact FileSystem.literal_append_singleton hq hlink

variable {asset : String} {data : Bytes}

/-- After the first removal, the staging removes and renames nothing. -/
theorem undisturbed_stageBundle (lib : Stdlib) (asset digest : String) (data : Bytes) {w : World}
    (hq : w.fs.node args.vendorDir.parent = some .dir) :
    Undisturbed (afterUnstage args w) ((stageBundle lib args asset digest data).run w).state := by
  rw [stageBundle, VendorDir.staging, EStateM.run_bind, run_rmRf hq, ← VendorDir.staging]
  refine EStateM.Keeps.state ?_ (Undisturbed.refl (afterUnstage args w))
  exact (keeps_extractBundle! data _).bind fun files =>
    (keeps_writeManifest! _ _ _ _ _ files).bind fun _ =>
      (keeps_verifyManifest! _ _ _).bind fun _ => EStateM.keeps_pure files

/-- An existing staging directory stops the extraction. -/
theorem run_extractBundle!_of_exist (lib : Stdlib) {w : World} {destDir : List Component}
    (h : w.fs.exist? destDir = true) (tgzBytes : Bytes) :
    ∃ e, (extractBundle! lib tgzBytes destDir).run w = .error e w := by
  refine ⟨runtimeError s!"staging dir already exists: {pathText destDir}", ?_⟩
  rw [extractBundle!, EStateM.run_bind]
  show (if w.fs.exist? destDir then throw _ else _ : Run _).run w = _
  rw [if_pos h]
  rfl

/-- A link is left by a removal that removes nothing. -/
theorem removesNothing_of_link {fs : FileSystem} {stuck : Path → Bool} {p : Path}
    (hp : p ≠ []) (h : (fs.rmRf stuck p).link? p = true) :
    fs.RemovesNothing stuck p ∧ stuck p = true ∧ fs.link? p = true := by
  have hnode : (fs.rmRf stuck p).node p = fs.node p :=
    FileSystem.node_rmRf_eq stuck fun hnone => by
      rw [FileSystem.link?, hnone] at h
      cases h
  have hlink : fs.link? p = true := by rwa [FileSystem.link?, hnode] at h
  have hbelow : ∀ r, p <+: r → fs.node r ≠ none → r = p := by
    intro r hr hsome
    by_contra hne
    rw [FileSystem.link?, FileSystem.node_eq_dir_above hr (Ne.symm hne) hsome] at hlink
    cases hlink
  have hstuck : stuck p = true := by
    by_contra hfree
    rw [FileSystem.link?, FileSystem.node_rmRf_of_free List.prefix_rfl hp fun s hs hsome => ?_] at h
    · cases h
    · rw [hbelow s hs hsome]
      exact Bool.eq_false_of_not_eq_true hfree
  refine ⟨fun r hr hsome => ?_, hstuck, hlink⟩
  obtain rfl := hbelow r hr hsome
  exact FileSystem.stays_iff.mpr ⟨r, List.prefix_rfl, hsome, hstuck⟩

/-- However the staging ends, the `ensure` clause sees what it has staged. -/
theorem seen_stageBundle (lib : Stdlib) (asset : String) (data : Bytes) {w : World}
    (hq : w.fs.node args.vendorDir.parent = some .dir)
    (hseen : w.fs.link? (args.vendorDir.staging args.pid) = true →
      w.fs.exist? (spell (args.vendorDir.staging args.pid)) = true ∨
        (w.fault (unstage args)).stuck (args.vendorDir.staging args.pid) = false) :
    Seen args ((stageBundle lib args asset (lib.hexdigest data) data).run w).state.fs := by
  by_cases hlink : (afterUnstage args w).fs.link? (args.vendorDir.staging args.pid) = true
  · -- the link is still there, and it leads somewhere, which stops the extraction
    have hne : args.vendorDir.staging args.pid ≠ [] := by simp [VendorDir.staging]
    obtain ⟨hnothing, hstuck, hlink₀⟩ := removesNothing_of_link hne hlink
    have hexist := (hseen hlink₀).resolve_right (by rw [hstuck]; simp)
    have hfs : (afterUnstage args w).fs = w.fs := hnothing.rmRf_eq
    rw [← hfs] at hexist
    obtain ⟨e, hrun⟩ := run_extractBundle!_of_exist lib hexist data
    rw [stageBundle, VendorDir.staging, EStateM.run_bind, run_rmRf hq, ← VendorDir.staging]
    show Seen args (EStateM.run (extractBundle! lib data _ >>= _) (afterUnstage args w)).state.fs
    rw [EStateM.run_bind, hrun]
    exact Or.inr hexist
  · -- no link is there, and the staging makes none
    have hundisturbed := undisturbed_stageBundle lib asset (lib.hexdigest data) data hq
    have houtside := EStateM.triple_iff.mp (triple_stageBundle lib args asset data hq) w rfl
    rcases hstaged : (stageBundle lib args asset (lib.hexdigest data) data).run w with
      ⟨files, w₁⟩ | ⟨e, w₁⟩ <;> rw [hstaged] at hundisturbed houtside
    · refine seen_of_not_link (dir_of_eqOutside hq houtside.1) ?_
      exact Bool.eq_false_of_not_eq_true fun h => hlink (hundisturbed.links _ h)
    · refine seen_of_not_link (dir_of_eqOutside hq houtside) ?_
      exact Bool.eq_false_of_not_eq_true fun h => hlink (hundisturbed.links _ h)

/-! ### Replacing -/

/-- A call leaves the other calls as they were to be. -/
theorem upcoming_syscall {w : World} {c c' : Call} (op : FileSystem → Except Errno FileSystem)
    (failed : Fault → FileSystem → FileSystem) (h : c' ≠ c) (n : ℕ) :
    ((syscall c op failed).run w).state.upcoming c' n = w.upcoming c' n := by
  rw [EStateM.run, syscall]
  cases (w.fault c).raises with
  | some e => exact w.upcoming_called_of_ne h n
  | none => cases op w.fs <;> exact w.upcoming_called_of_ne h n

/-- The two removals are different calls. -/
theorem unstage_ne_uproot : unstage args ≠ uproot args := by
  intro h
  have hpath : args.vendorDir.staging args.pid = args.vendorDir.path :=
    List.map_injective_iff.mpr (fun _ _ => Component.down.inj) (Call.rmRf.inj h)
  exact args.vendorDir.not_below_path args.pid _ List.prefix_rfl (hpath ▸ List.prefix_rfl)

/-- The rename is not the removal of the staging tree. -/
theorem promote_ne_unstage : promote args ≠ unstage args := by simp [promote, unstage]

/-- Nor the one of the old tree. -/
theorem promote_ne_uproot : promote args ≠ uproot args := by simp [promote, uproot]

variable (args) in
/-- The world after the removal of the old tree. -/
def afterUproot (w : World) : World :=
  { w.called (uproot args) with
    fs := w.fs.rmRf (w.fault (uproot args)).stuck args.vendorDir.path }

/-- The old tree is removed, then the new one is renamed. -/
theorem run_swapTrees {w : World} (hq : w.fs.node args.vendorDir.parent = some .dir) :
    (swapTrees args).run w =
      (rename (spell (args.vendorDir.staging args.pid)) (spell args.vendorDir.path)).run
        (afterUproot args w) := by
  have hremoval := run_rmRf (n := args.vendorDir.name) hq
  rw [← VendorDir.path] at hremoval
  rw [swapTrees, EStateM.run_bind, hremoval]
  rfl

/-- The rename succeeds on what the removal of the old tree leaves. -/
theorem exists_run_swapTrees {w : World} (hq : w.fs.node args.vendorDir.parent = some .dir)
    (hstaging : w.fs.node (args.vendorDir.staging args.pid) = some .dir)
    (hraises : (w.fault (promote args)).raises = none)
    (hclears : w.fs.Clears (w.fault (uproot args)).stuck args.vendorDir.path) :
    ∃ w', (swapTrees args).run w = .ok () w' := by
  have hapart := args.vendorDir.not_below_path args.pid _ List.prefix_rfl
  have hq' : (afterUproot args w).fs.node args.vendorDir.parent = some .dir :=
    dir_of_eqOutside hq (FileSystem.eqOutside_rmRf _ args.vendorDir.path)
  have hstaging' : (afterUproot args w).fs.node (args.vendorDir.staging args.pid) = some .dir :=
    (FileSystem.node_rmRf_elsewhere _ hapart).trans hstaging
  -- at most the empty vendor directory is left, which the rename replaces
  have hleft : ∀ r, args.vendorDir.path <+: r → (afterUproot args w).fs.node r ≠ none →
      r = args.vendorDir.path ∧ (afterUproot args w).fs.node args.vendorDir.path = some .dir := by
    intro r hr hnode
    obtain ⟨rfl, hdir⟩ := hclears.eq_of_node_rmRf hr (by simp [VendorDir.path]) hnode
    exact ⟨rfl, (FileSystem.node_rmRf_eq _ hnode).trans hdir⟩
  obtain ⟨fs, hrename⟩ := FileSystem.exists_rename_spell hq' (args.vendorDir.stagingName_ne args.pid)
    hstaging' hleft
  have hfault : ((afterUproot args w).fault (promote args)).raises = none := by
    -- the removal before it leaves the schedule of the rename alone
    have hother : (afterUproot args w).fault (promote args) = w.fault (promote args) :=
      w.upcoming_called_of_ne promote_ne_uproot 0
    rw [hother, hraises]
  refine ⟨{ (afterUproot args w).called (promote args) with fs }, ?_⟩
  rw [run_swapTrees hq, EStateM.run, rename, syscall, ← promote, hfault]
  dsimp only
  rw [VendorDir.staging, VendorDir.path, hrename]

/-- A failed rename has lost nothing. -/
theorem fs_of_swapTrees_error {w w' : World} {e : Exception}
    (hq : w.fs.node args.vendorDir.parent = some .dir)
    (hstaging : w.fs.node (args.vendorDir.staging args.pid) = some .dir)
    (hswap : (w.fault (promote args)).raises = none ∧
        w.fs.Clears (w.fault (uproot args)).stuck args.vendorDir.path ∨
      w.fs.RemovesNothing (w.fault (uproot args)).stuck args.vendorDir.path)
    (hrun : (swapTrees args).run w = .error e w') : w'.fs = w.fs := by
  rcases hswap with ⟨hraises, hclears⟩ | hnothing
  · obtain ⟨w'', hok⟩ := exists_run_swapTrees hq hstaging hraises hclears
    rw [hok] at hrun
    cases hrun
  · have hrename := EStateM.triple_iff.mp (triple_atomic (afterUproot args w).fs (promote args)
      fun fs => fs.rename (spell (args.vendorDir.staging args.pid)) (spell args.vendorDir.path))
      (afterUproot args w) rfl
    rw [run_swapTrees hq, rename, ← promote] at hrun
    rw [hrun] at hrename
    exact hrename.trans hnothing.rmRf_eq

/-- The old tree is removed and the new one renamed by calls of their own. -/
theorem fault_swapTrees {w : World} (hq : w.fs.node args.vendorDir.parent = some .dir) :
    ((swapTrees args).run w).state.fault (unstage args) = w.fault (unstage args) := by
  rw [run_swapTrees hq]
  have hrename := upcoming_syscall (w := afterUproot args w) (c := promote args)
    (fun fs => fs.rename (spell (args.vendorDir.staging args.pid)) (spell args.vendorDir.path))
    (fun _ fs => fs) promote_ne_unstage.symm 0
  exact hrename.trans (w.upcoming_called_of_ne unstage_ne_uproot 0)

/-- A line that fails leaves the world as it was. -/
theorem eq_of_puts_error {w w' : World} {line : String} {files : List (String × String)}
    {e : Exception} (h : (puts line >>= fun _ => pure files).run w = .error e w') :
    w' = w.called .puts := by
  rw [EStateM.run_bind, EStateM.run, puts] at h
  cases hraises : (w.fault .puts).raises with
  | some errno =>
    rw [hraises] at h
    cases h
    rfl
  | none =>
    rw [hraises] at h
    cases h

/-- The staging has used up the first removal of the staging directory, and nothing else. -/
theorem Undisturbed.staged {w w₁ : World} (h : Undisturbed (afterUnstage args w) w₁) :
    w₁.fault (unstage args) = w.upcoming (unstage args) 1 ∧
      w₁.fault (uproot args) = w.fault (uproot args) ∧
      w₁.fault (promote args) = w.fault (promote args) :=
  ⟨(h.fault (c := unstage args) trivial).trans (w.upcoming_called (unstage args) 0),
    (h.fault (c := uproot args) trivial).trans (w.upcoming_called_of_ne unstage_ne_uproot.symm 0),
    (h.fault (c := promote args) trivial).trans (w.upcoming_called_of_ne promote_ne_unstage 0)⟩

/-- A replacement that raises leaves the vendor directory whole, and staging that `ensure` sees. -/
theorem replaceTree_error {w w' : World} {e : Exception}
    (hq : w.fs.node args.vendorDir.parent = some .dir) (hverified : Verified lib args asset data)
    (hswap : WellFormed lib (lib.untar data).1 →
      (w.fault (promote args)).raises = none ∧
          w.fs.Clears (w.fault (uproot args)).stuck args.vendorDir.path ∨
        w.fs.RemovesNothing (w.fault (uproot args)).stuck args.vendorDir.path)
    (hseen : w.fs.link? (args.vendorDir.staging args.pid) = true →
      w.fs.exist? (spell (args.vendorDir.staging args.pid)) = true ∨
        (w.fault (unstage args)).stuck (args.vendorDir.staging args.pid) = false)
    (hrun : (replaceTree lib args asset (lib.hexdigest data) data).run w = .error e w') :
    Whole lib args w.fs w'.fs ∧ Seen args w'.fs ∧
      w'.fault (unstage args) = w.upcoming (unstage args) 1 := by
  -- the two trees are apart
  have hpath : ∀ r, args.vendorDir.path <+: r → ¬args.vendorDir.staging args.pid <+: r :=
    fun r hr hst => args.vendorDir.not_below_path args.pid r hst hr
  have hstage := EStateM.triple_iff.mp (triple_stageBundle lib args asset data hq) w rfl
  have hcalls := (undisturbed_stageBundle lib asset (lib.hexdigest data) data hq).staged
  have hvisible := seen_stageBundle lib asset data hq hseen
  rw [replaceTree, EStateM.run_bind] at hrun
  rcases hstaged : (stageBundle lib args asset (lib.hexdigest data) data).run w with
    ⟨files, w₁⟩ | ⟨e₁, w₁⟩ <;> rw [hstaged] at hstage hcalls hvisible hrun
  · obtain ⟨heq, contents, -, htree⟩ := hstage
    obtain ⟨hunstage, huproot, hpromote⟩ := hcalls
    rw [EStateM.Result.state_ok] at hunstage huproot hpromote hvisible
    have hq₁ := dir_of_eqOutside hq heq
    have hsame : ∀ r, args.vendorDir.path <+: r → w₁.fs.node r = w.fs.node r :=
      fun r hr => heq r (hpath r hr)
    have hlast := fault_swapTrees hq₁
    change (swapTrees args >>= fun _ => _).run w₁ = _ at hrun
    rw [EStateM.run_bind] at hrun
    rcases hswapped : (swapTrees args).run w₁ with ⟨u, w₂⟩ | ⟨e₂, w₂⟩ <;>
      rw [hswapped] at hrun hlast
    · -- the tree is replaced, and only the last line of the log is missing
      obtain ⟨document, listed, hperm, hdocument, hholds⟩ := htree.holds
      have hmoved := EStateM.triple_iff.mp (triple_swapTrees hq₁ hholds) w₁ rfl
      rw [hswapped] at hmoved
      obtain ⟨line, hlog⟩ :
          ∃ line, (puts line >>= fun _ => pure files).run w₂ = .error e w' := ⟨_, hrun⟩
      obtain rfl := eq_of_puts_error hlog
      refine ⟨Or.inr ⟨asset, data, contents, hverified,
        { htree with holds := ⟨document, listed, hperm, hdocument, hmoved.1⟩ }⟩, ?_, ?_⟩
      · exact Or.inl hmoved.2.1
      · exact (w₂.upcoming_called_of_ne (by simp [unstage]) 0).trans (hlast.trans hunstage)
    · obtain ⟨-, rfl⟩ : e₂ = e ∧ w₂ = w' := by
        cases hrun
        exact ⟨rfl, rfl⟩
      -- the swap failed: by the condition nothing was removed
      have hfs := fs_of_swapTrees_error hq₁ htree.dir ?_ hswapped
      · refine ⟨Or.inl fun r hr => ?_, ?_, hlast.trans hunstage⟩
        · rw [hfs, hsame r hr]
        · rwa [hfs]
      · rw [huproot, hpromote]
        exact (hswap (wellFormed_of_runtimeTree htree)).imp
          (And.imp_right fun h => h.of_eq hsame) fun h => h.of_eq hsame
  · -- nothing but the staging directory was touched
    obtain ⟨-, rfl⟩ : e₁ = e ∧ w₁ = w' := by
      cases hrun
      exact ⟨rfl, rfl⟩
    exact ⟨Or.inl fun r hr => hstage r (hpath r hr), hvisible, hcalls.1⟩

/-- What the `ensure` clause sees and can remove, it removes, and nothing else. -/
theorem run_removeStaging_of_seen {w : World} (hq : w.fs.node args.vendorDir.parent = some .dir)
    (hseen : Seen args w.fs)
    (hfree : ∀ r, args.vendorDir.staging args.pid <+: r →
      (w.fault (unstage args)).stuck r = false) :
    ∃ w', (removeStaging (spell (args.vendorDir.staging args.pid))).run w = .ok () w' ∧
      EqOutside (args.vendorDir.staging args.pid) w.fs w'.fs ∧
      w'.fs.node (args.vendorDir.staging args.pid) = none := by
  rw [VendorDir.staging, run_removeStaging hq, ← VendorDir.staging]
  refine ⟨_, rfl, ?_⟩
  rcases hseen with hnone | hexist
  · split_ifs
    · refine ⟨FileSystem.eqOutside_rmRf _ _, ?_⟩
      by_contra hne
      exact hne ((FileSystem.node_rmRf_eq _ hne).trans hnone)
    · exact ⟨EqOutside.refl _ _, hnone⟩
  · rw [if_pos hexist]
    refine ⟨FileSystem.eqOutside_rmRf _ _, ?_⟩
    exact FileSystem.node_rmRf_of_free List.prefix_rfl (by simp [VendorDir.staging])
      fun r hr _ => hfree r hr

/-! ### The guarantee -/

/-- Where the vendor directory is unchanged, it stays whole. -/
theorem Whole.of_eq {fs fs' fs'' : FileSystem} (h : Whole lib args fs fs')
    (heq : ∀ r, args.vendorDir.path <+: r → fs''.node r = fs'.node r) : Whole lib args fs fs'' := by
  rcases h with hsame | ⟨asset, data, contents, hverified, htree⟩
  · exact Or.inl fun r hr => (heq r hr).trans (hsame r hr)
  · exact Or.inr ⟨asset, data, contents, hverified,
      htree.of_eq fun r => heq _ (List.prefix_append _ r)⟩

/-- A call that raises is all-or-nothing, wherever else it fails, if the rename is safe and the
staging directory can be removed. -/
theorem vendor_all_or_nothing (lib : Stdlib) (args : VendorArgs) {w w' : World} {e : Exception}
    (hparent : w.fs.node args.vendorDir.parent = some .dir) (hsafe : Withstands lib args w)
    (hrun : (vendor! lib args).run w = .error e w') : AllOrNothing lib args w w' := by
  have hfetch := EStateM.triple_iff.mp (triple_fetchVerified lib args) w rfl
  have hcalls := (keeps_fetchVerified lib args).state (Undisturbed.refl w)
  rw [vendor!, EStateM.run_bind] at hrun
  rcases hfetched : (fetchVerified lib args).run w with ⟨⟨asset, digest, data⟩, w₀⟩ | ⟨e₀, w₀⟩ <;>
    rw [hfetched] at hfetch hcalls hrun
  · obtain ⟨hfs₀, hverified, hdigest⟩ := hfetch
    obtain rfl : digest = lib.hexdigest data := hdigest
    have hfetches := fetches_of_run hfetched hverified
    rw [EStateM.Result.state_ok] at hcalls
    have hq : w₀.fs.node args.vendorDir.parent = some .dir := by rw [hfs₀, hparent]
    change (EStateM.ensure _ _).run w₀ = _ at hrun
    rcases hreplaced : (replaceTree lib args asset (lib.hexdigest data) data).run w₀ with
      ⟨files, w₁⟩ | ⟨e₁, w₁⟩
    · -- the `ensure` clause does not raise
      have hreplace := EStateM.triple_iff.mp (triple_replaceTree lib args asset data hq) w₀ rfl
      rw [hreplaced] at hreplace
      obtain ⟨contents, -, -, -, hsame⟩ := hreplace
      have hclean := run_removeStaging (m := args.vendorDir.stagingName args.pid) (hsame.parent hq)
      rw [VendorDir.staging, EStateM.run_ensure_of_ok hreplaced hclean] at hrun
      cases hrun
    · -- the faults of the three moving calls are those of the first world
      have hfailed := replaceTree_error hq hverified ?_ ?_ hreplaced
      · obtain ⟨hwhole, hseen, hnext⟩ := hfailed
        have hq₁ : w₁.fs.node args.vendorDir.parent = some .dir := by
          have hreplace := EStateM.triple_iff.mp (triple_replaceTree lib args asset data hq) w₀ rfl
          rw [hreplaced] at hreplace
          exact hreplace.1.parent hq
        -- the `ensure` removes the staging tree, if it can be removed
        have hfree := hsafe.cleanup asset data hfetches
        rw [← hcalls.upcoming (c := unstage args) trivial, ← hnext] at hfree
        obtain ⟨w₂, hclean, houtside, hgone⟩ := run_removeStaging_of_seen hq₁ hseen hfree
        rw [EStateM.run_ensure_of_error hreplaced hclean] at hrun
        obtain ⟨-, rfl⟩ : e₁ = e ∧ w₂ = w' := by
          cases hrun
          exact ⟨rfl, rfl⟩
        rw [hfs₀] at hwhole
        refine ⟨hwhole.of_eq fun r hr => houtside r fun hst => ?_, hgone⟩
        exact args.vendorDir.not_below_path args.pid r hst hr
      · rw [hfs₀, hcalls.fault (c := promote args) trivial, hcalls.fault (c := uproot args) trivial]
        exact hsafe.swap asset data hfetches
      · rw [hfs₀, hcalls.fault (c := unstage args) trivial]
        exact hsafe.seen asset data hfetches
  · -- nothing was staged
    obtain ⟨-, rfl⟩ : e₀ = e ∧ w₀ = w' := by
      cases hrun
      exact ⟨rfl, rfl⟩
    rw [AllOrNothing, show w₀.fs = w.fs from hfetch]
    refine ⟨Or.inl fun _ _ => rfl, hsafe.unstaged ?_⟩
    rintro ⟨asset, data, hfetches⟩
    obtain ⟨w₁, hok⟩ := exists_run_fetchVerified hfetches
    rw [hfetched] at hok
    cases hok

/-! ### A failed rename, and a failed write -/

namespace Sample

/-- The rename of the staging directory fails. -/
def brokenWorld : World :=
  { world with faults := fun c _ =>
      ⟨if c = promote arguments then some .eio else none, none, fun _ => false⟩ }

/-- The manifest cannot be written. -/
def fullWorld : World :=
  { world with faults := fun c _ =>
      ⟨if c = .write (spell (arguments.vendorDir.staging arguments.pid ++ [manifestName]))
        then some .eio else none, none, fun _ => false⟩ }

end Sample

/-- The manifest is not written, and the old tree stays. -/
theorem vendor_all_or_nothing_fullWorld :
    ∃ e w', (vendor! Sample.stdlib Sample.arguments).run Sample.fullWorld = .error e w' ∧
      AllOrNothing Sample.stdlib Sample.arguments Sample.fullWorld w' := by
  obtain ⟨e, w', hrun⟩ := EStateM.Result.exists_error_of_isOk_eq_false
    (show ((vendor! Sample.stdlib Sample.arguments).run Sample.fullWorld).isOk = false by
      decide +kernel)
  have hparent : Sample.fullWorld.fs.node Sample.arguments.vendorDir.parent = some .dir := by decide
  refine ⟨e, w', hrun, vendor_all_or_nothing Sample.stdlib Sample.arguments hparent ?_ hrun⟩
  constructor
  · intro _
    decide
  · intro asset data _ _
    refine Or.inl ⟨by decide, ?_⟩
    rintro r - - ⟨⟩
  · intro asset data _ hlink
    exact absurd hlink (by decide)
  · exact fun _ _ _ _ _ => rfl

/-- A vendor directory that was there and is missing is not whole. -/
theorem not_allOrNothing_of_missing {w w' : World} (hbefore : w.fs.node args.vendorDir.path ≠ none)
    (hmissing : w'.fs.node args.vendorDir.path = none) : ¬AllOrNothing lib args w w' := by
  rintro ⟨hsame | ⟨asset, data, contents, -, htree⟩, -⟩
  · exact hbefore ((hsame _ List.prefix_rfl).symm.trans hmissing)
  · rw [htree.dir] at hmissing
    cases hmissing

/-- The old tree is gone, and the new one is not there. -/
theorem exists_missing_tree :
    ∃ e w', (vendor! Sample.stdlib Sample.arguments).run Sample.brokenWorld = .error e w' ∧
      w'.fs.node Sample.arguments.vendorDir.path = none ∧
      ¬AllOrNothing Sample.stdlib Sample.arguments Sample.brokenWorld w' := by
  obtain ⟨hfailed, hmissing⟩ :
      ((vendor! Sample.stdlib Sample.arguments).run Sample.brokenWorld).isOk = false ∧
        ((vendor! Sample.stdlib Sample.arguments).run Sample.brokenWorld).state.fs.node
          Sample.arguments.vendorDir.path = none := by decide +kernel
  obtain ⟨e, w', hrun⟩ := EStateM.Result.exists_error_of_isOk_eq_false hfailed
  rw [hrun] at hmissing
  exact ⟨e, w', hrun, hmissing, not_allOrNothing_of_missing (by decide) hmissing⟩

end MicrosandboxRb.Vendor
