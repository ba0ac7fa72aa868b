import MicrosandboxRb.Lib.FileSystem
import MicrosandboxRb.Lib.RubyValue
import MicrosandboxRb.Lib.StateError

/-!
# Vendoring the runtime

The build-time tooling of the companion gem (`binaries/tasks/vendor.rb`): it downloads a release
bundle, compares it with the pinned and the live checksums, extracts it into a staging directory,
writes and verifies a manifest, and replaces the vendor directory by the staging directory.

Every call on the file system and on the log may fail by itself, as `World.faults` says of each call
and each time that it is made; a removal may leave entries behind. Predicates such as `File.exist?` do
not fail. What the tooling takes from Ruby's standard library without looking inside is in `Stdlib`.

A binary String is a `String` with one character for each byte.
-/

namespace MicrosandboxRb.Vendor

open Ruby Posix

/-- Binary data, byte by byte. -/
abbrev Bytes := List UInt8

/-- The bytes as a binary String. -/
def text (data : Bytes) : String := String.ofList (data.map fun b => Char.ofNat b.toNat)

/-! ### Ruby -/

/-- `raise "message"` -/
def runtimeError (message : String) : Exception := .custom "RuntimeError" message

/-- The class of a `SystemCallError`, with the system's message. -/
def systemCallError : Errno → Exception
  | .enoent => .custom "Errno::ENOENT" "No such file or directory"
  | .enotdir => .custom "Errno::ENOTDIR" "Not a directory"
  | .eisdir => .custom "Errno::EISDIR" "Is a directory"
  | .eexist => .custom "Errno::EEXIST" "File exists"
  | .enotempty => .custom "Errno::ENOTEMPTY" "Directory not empty"
  | .einval => .custom "Errno::EINVAL" "Invalid argument"
  | .eloop => .custom "Errno::ELOOP" "Too many levels of symbolic links"
  | .eio => .custom "Errno::EIO" "Input/output error"

/-- `String#each_line`, the lines without their terminators, which `split` ignores. -/
def eachLine (s : String) : List String :=
  let lines := (s.toList.splitOn '\n').map String.ofList
  if lines.getLast? = some "" then lines.dropLast else lines

/-- The white space of `String#split`. -/
def isSpace (c : Char) : Bool := c = ' ' || (9 ≤ c.toNat && c.toNat ≤ 13)

/-- `String#split` without a separator. -/
def split (s : String) : List String :=
  ((s.toList.splitOnP isSpace).filter (· ≠ [])).map String.ofList

/-- `\h` -/
def isHex (c : Char) : Bool := c.isDigit || ('a' ≤ c && c ≤ 'f') || ('A' ≤ c && c ≤ 'F')

/-- What follows the last slash. -/
def afterSlash (cs : List Char) : List Char := (cs.reverse.takeWhile (· ≠ '/')).reverse

/-- `File.basename` -/
def basename (name : String) : Except Exception String :=
  if '\x00' ∈ name.toList then .error (.argumentError "string contains null byte")
  else
    let stripped := (name.toList.reverse.dropWhile (· = '/')).reverse
    if stripped = [] ∧ name.toList ≠ [] then .ok "/"
    else .ok (String.ofList (afterSlash stripped))

/-- `File.join`, below a directory given by its components. -/
def join (dir : List Component) (rel : String) : Except Exception (List Component) :=
  if '\x00' ∈ rel.toList then .error (.argumentError "string contains null byte")
  else .ok (dir ++ Component.parse rel)

/-- `File.dirname` of a path without a final slash. -/
def dirname (path : List Component) : List Component := path.dropLast

/-- `join(", ")` -/
def commaList (names : List String) : String := ", ".intercalate names

/-- The text of a component. -/
def componentText : Component → String
  | .here => "."
  | .up => ".."
  | .down name => name.val

/-- An absolute path as it is spelled in a message. -/
def pathText (path : List Component) : String := "/" ++ "/".intercalate (path.map componentText)

/-- What `JSON.parse` returns. The entries of a Hash are in insertion order. -/
inductive Json where
  | null
  | bool (b : Bool)
  | int (n : ℤ)
  -- a finite Float
  | float (q : ℚ)
  | str (s : String)
  | arr (xs : List Json)
  | hash (es : List (String × Json))

namespace Json

/-- `value == 1`, which holds of `1.0` too. -/
def isOne : Json → Bool
  | int n => n = 1
  | float q => q = 1
  | _ => false

/-- `value == s` -/
def isStr (s : String) : Json → Bool
  | str s' => s' = s
  | _ => false

end Json

/-- A member of a tar archive. -/
structure TarEntry where
  fullName : String
  -- '0' for a regular file, '5' for a directory
  typeflag : Char
  -- `nil` for an entry without content
  read : Except Exception (Option Bytes)

/-- `TarReader::Entry#directory?` -/
def TarEntry.directory? (entry : TarEntry) : Bool := entry.typeflag = '5'

/-- `TarReader::Entry#file?` -/
def TarEntry.file? (entry : TarEntry) : Bool := entry.typeflag = '0'

/-- What the tooling calls without looking inside. Nothing is assumed of it. -/
structure Stdlib where
  /-- `Digest::SHA256.hexdigest` -/
  hexdigest : Bytes → String
  /-- `Zlib::GzipReader` with `Gem::Package::TarReader`: the entries that `each` yields, and the
  error that ends it, if one does. -/
  untar : Bytes → List TarEntry × Option Exception
  /-- `JSON.pretty_generate` -/
  prettyGenerate : Json → Except Exception Bytes
  /-- `JSON.parse` -/
  parse : Bytes → Except Exception Json
  inspect : Json → String
  toS : Json → String

/-! ### The world -/

/-- A call on the file system or on the log, with the paths that it is given. -/
inductive Call where
  | puts
  | rmRf (path : List Component)
  | mkdir (path : List Component)
  | write (path : List Component)
  | chmod (path : List Component)
  | rename (src dst : List Component)
  | lstat (path : List Component)
  | read (path : List Component)
  | glob (path : List Component)
deriving DecidableEq

/-- How one call behaves, apart from what the file system does with it. -/
structure Fault where
  raises : Option Errno
  -- how many bytes a failing write leaves behind, if it opened the file
  written : Option ℕ
  -- what a removal cannot remove
  stuck : Path → Bool

/-- The file system and the log, with the behaviour of the calls on them. -/
structure World where
  fs : FileSystem
  -- how a call behaves when it is made for the `n`-th time, counted from zero
  faults : Call → ℕ → Fault
  -- how often a call was made before
  calls : Call → ℕ
  log : List String

/-- A computation in the world that may raise. -/
abbrev Run := EStateM Exception World

/-- The world after one more call of `c`. -/
def World.called (w : World) (c : Call) : World :=
  { w with calls := fun c' => if c' = c then w.calls c + 1 else w.calls c' }

/-- How the next call of `c` behaves. -/
def World.fault (w : World) (c : Call) : Fault := w.faults c (w.calls c)

/-- Call the system. `failed` is what a call that fails by itself leaves behind. -/
def syscall (c : Call) (op : FileSystem → Except Errno FileSystem)
    (failed : Fault → FileSystem → FileSystem) : Run Unit := fun w =>
  match (w.fault c).raises with
  | some e => .error (systemCallError e) { w.called c with fs := failed (w.fault c) w.fs }
  | none =>
    match op w.fs with
    | .error e => .error (systemCallError e) (w.called c)
    | .ok fs => .ok () { w.called c with fs }

/-- Ask the system. -/
def query {α : Type} (c : Call) (q : FileSystem → Except Errno α) : Run α := fun w =>
  match (w.fault c).raises with
  | some e => .error (systemCallError e) (w.called c)
  | none =>
    match q w.fs with
    | .error e => .error (systemCallError e) (w.called c)
    | .ok a => .ok a (w.called c)

/-- A predicate on the file system, such as `File.exist?`. -/
def test (p : FileSystem → Bool) : Run Bool := fun w => .ok (p w.fs) w

/-- `log.puts` -/
def puts (line : String) : Run Unit := fun w =>
  match (w.fault .puts).raises with
  | some e => .error (systemCallError e) (w.called .puts)
  | none => .ok () { w.called .puts with log := w.log ++ [line] }

/-- `FileUtils.rm_rf` -/
def rmRf (path : List Component) : Run Unit := fun w =>
  match w.fs.resolve false path with
  | .ok p =>
    .ok () { w.called (.rmRf path) with fs := w.fs.rmRf (w.fault (.rmRf path)).stuck p }
  | .error _ => .ok () (w.called (.rmRf path))

/-- What `FileSystem.write` of the first `n` bytes leaves behind. -/
def partialWrite (path : List Component) (data : Bytes) (fault : Fault) (fs : FileSystem) :
    FileSystem :=
  match fault.written with
  | none => fs
  | some n =>
    match fs.write path (data.take n) with
    | .ok fs' => fs'
    | .error _ => fs

/-- `File.binwrite` and `File.write` -/
def binwrite (path : List Component) (data : Bytes) : Run Unit :=
  syscall (.write path) (fun fs => fs.write path data) (partialWrite path data)

/-- `File.chmod` -/
def chmod (mode : ℕ) (path : List Component) : Run Unit :=
  syscall (.chmod path) (fun fs => fs.chmod path mode) fun _ fs => fs

/-- `File.rename` -/
def rename (src dst : List Component) : Run Unit :=
  syscall (.rename src dst) (fun fs => fs.rename src dst) fun _ fs => fs

/-- The directories that `mkdir_p` makes for the path with the reversed components `path`, the
outermost first. -/
def missingDirs (fs : FileSystem) : List Component → List (List Component)
  | [] => []
  | c :: path =>
    if fs.directory? (c :: path).reverse then []
    else missingDirs fs path ++ [(c :: path).reverse]

/-- `fu_mkdir`, where a failure does not matter if the directory is there. -/
def mkdirUnlessThere (dir : List Component) : Run Unit := do
  match ← EStateM.attempt (syscall (.mkdir dir) (fun fs => fs.mkdir dir) fun _ fs => fs) with
  | .ok _ => pure ()
  | .error e => if ← test fun fs => fs.directory? dir then pure () else throw e

/-- `FileUtils.mkdir_p` -/
def mkdirP (path : List Component) : Run Unit := do
  let stack := missingDirs (← get).fs path.reverse
  stack.forM mkdirUnlessThere

/-! ### Checksums -/

/-- RubyGems platform → upstream release asset triple. -/
def PLATFORMS : List (String × String) :=
  [("arm64-darwin", "darwin-aarch64"), ("x86_64-linux-gnu", "linux-x86_64"),
    ("aarch64-linux-gnu", "linux-aarch64")]

/-- `RELEASE_BASE`. -/
def RELEASE_BASE : String := "https://github.com/superradcompany/microsandbox/releases/download"

/-- `CHECKSUMS_ASSET`. -/
def CHECKSUMS_ASSET : String := "checksums.sha256"

/-- `MANIFEST_SCHEMA`. -/
def MANIFEST_SCHEMA : ℤ := 1

/-- `Binaries::MANIFEST` -/
def MANIFEST : String := "manifest.json"

/-- `platforms`. -/
def platforms : List String := PLATFORMS.map Prod.fst

variable (lib : Stdlib)

/-- `triple_for`. -/
def tripleFor (platform : String) : Except Exception String :=
  match PLATFORMS.lookup platform with
  | some triple => .ok triple
  | none =>
    .error (.argumentError
      s!"unsupported platform {lib.inspect (.str platform)} (expected one of {commaList platforms})")

/-- `bundle_asset`. -/
def bundleAsset (platform : String) : Except Exception String := do
  return s!"microsandbox-{← tripleFor lib platform}.tar.gz"

/-- `asset_url`. -/
def assetUrl (runtimeVersion asset : String) : String := s!"{RELEASE_BASE}/{runtimeVersion}/{asset}"

/-- The last field of the line is `asset`. -/
def lists (asset line : String) : Bool := (split line).getLast? = some asset

/-- `digest.match?(/\A\h{64}\z/)` -/
def isDigest (digest : String) : Bool := digest.toList.length = 64 && digest.toList.all isHex

/-- The published digest for `asset` out of a `checksums.sha256` document. -/
def expectedSha256! (checksumsText asset : String) : Except Exception String :=
  match (eachLine checksumsText).find? (lists asset) with
  | none =>
    .error (runtimeError
      s!"{CHECKSUMS_ASSET} has no entry for {asset} — refusing to vendor unverified binaries")
  | some entry =>
    let digest := (split entry).headD ""
    if isDigest digest then .ok (downcase digest)
    else
      .error (runtimeError
        s!"malformed digest for {asset} in {CHECKSUMS_ASSET}: {lib.inspect (.str digest)}")

/-- `verify_sha256!`. -/
def verifySha256! (data : Bytes) (expected label : String) : Except Exception String :=
  let actual := lib.hexdigest data
  if actual = downcase expected then .ok actual
  else .error (runtimeError s!"sha256 mismatch for {label}: expected {expected}, got {actual}")

/-! ### The bundle -/

/-- Where a bundle entry lands relative to the vendor root. -/
def route (entryName : String) : Except Exception String := do
  let base ← basename entryName
  if base = "msb" then .ok "bin/msb"
  else if "libkrunfw.".toList.isPrefixOf base.toList then .ok ("lib/" ++ base)
  else
    .error (runtimeError
      (s!"unexpected entry {lib.inspect (.str entryName)} in runtime bundle — " ++
        "refusing to vendor unknown files"))

/-- Write one file below `destDir`, and make it executable. -/
def install (destDir : List Component) (rel : String) (data : Bytes) : Run Unit := do
  let target ← EStateM.ofExcept (join destDir rel)
  mkdirP (dirname target)
  binwrite target data
  chmod 0o755 target

/-- One turn of the loop over the entries. `files` is what the turns before have written, with the
digests. -/
def extractEntry (destDir : List Component) (files : List (String × String)) (entry : TarEntry) :
    Run (List (String × String)) :=
  if entry.directory? then pure files
  else if !entry.file? then
    throw (runtimeError
      s!"refusing non-regular entry {lib.inspect (.str entry.fullName)} in runtime bundle")
  else do
    let rel ← EStateM.ofExcept (route lib entry.fullName)
    if rel ∈ files.map Prod.fst then throw (runtimeError s!"duplicate entry {rel} in runtime bundle")
    else do
      -- an empty entry reads as `nil`
      let data := (← EStateM.ofExcept entry.read).getD []
      install destDir rel data
      return files ++ [(rel, lib.hexdigest data)]

/-- `rel.start_with?("lib/libkrunfw")` -/
def isFirmware (rel : String) : Bool := "lib/libkrunfw".toList.isPrefixOf rel.toList

/-- Extract an already-verified bundle into `destDir`. -/
def extractBundle! (tgzBytes : Bytes) (destDir : List Component) : Run (List (String × String)) := do
  if ← test fun fs => fs.exist? destDir then
    throw (runtimeError s!"staging dir already exists: {pathText destDir}")
  else
    let (entries, error) := lib.untar tgzBytes
    let files ← entries.foldlM (extractEntry lib destDir) []
    -- a broken archive raises after the entries that could be read
    match error with
    | some e => throw e
    | none =>
      if "bin/msb" ∉ files.map Prod.fst then throw (runtimeError "runtime bundle is missing bin/msb")
      else if !(files.map Prod.fst).any isFirmware then
        throw (runtimeError "runtime bundle is missing lib/libkrunfw*")
      else return files

/-! ### The manifest -/

/-- `files.sort.to_h` -/
def sortFiles (files : List (String × String)) : List (String × String) :=
  files.insertionSort fun f g => f.1 < g.1 ∨ f.1 = g.1 ∧ f.2 ≤ g.2

/-- The document `write_manifest!` writes. -/
def manifest (platform runtimeVersion bundleAsset bundleSha256 : String)
    (files : List (String × String)) : Json :=
  .hash [("schema", .int MANIFEST_SCHEMA), ("platform", .str platform),
    ("runtime_version", .str runtimeVersion), ("bundle_asset", .str bundleAsset),
    ("bundle_sha256", .str bundleSha256),
    ("files", .hash ((sortFiles files).map fun f => (f.1, .str f.2)))]

/-- `write_manifest!`. -/
def writeManifest! (dir : List Component) (platform runtimeVersion bundleAsset bundleSha256 : String)
    (files : List (String × String)) : Run Json := do
  let manifest := manifest platform runtimeVersion bundleAsset bundleSha256 files
  let path ← EStateM.ofExcept (join dir MANIFEST)
  let document ← EStateM.ofExcept (lib.prettyGenerate manifest)
  binwrite path (document ++ [10])
  return manifest

/-- `document[key]` -/
def index (document : Json) (key : String) : Except Exception Json :=
  match document with
  | .hash es => .ok ((es.lookup key).getD .null)
  | .str s => .ok (if key.toList <:+: s.toList then .str key else .null)
  | .arr _ | .int _ => .error (.typeError "Integer")
  | _ => .error (.noMethodError "[]")

/-- `document.fetch("files")`, which must be a Hash for what follows. -/
def fetchFiles (document : Json) : Except Exception (List (String × Json)) :=
  match document with
  | .hash es =>
    match es.lookup "files" with
    | some (.hash files) => .ok files
    | some _ => .error (.noMethodError "key?")
    | none => .error (.custom "KeyError" "key not found: \"files\"")
  | _ => .error (.noMethodError "fetch")

/-- The checks on the document alone. The result is the map of the files. -/
def checkManifest (document : Json) (platform runtimeVersion : String) :
    Except Exception (List (String × Json)) := do
  let schema ← index document "schema"
  if !schema.isOne then
    throw (runtimeError s!"unsupported manifest schema {lib.inspect schema}")
  else
    let forPlatform ← index document "platform"
    if !forPlatform.isStr platform then
      throw (runtimeError s!"vendored tree is for {lib.toS forPlatform}, not {platform}")
    else
      let fromRuntime ← index document "runtime_version"
      if !fromRuntime.isStr runtimeVersion then
        throw (runtimeError (s!"vendored tree is from runtime {lib.toS fromRuntime}, but " ++
          s!"RUNTIME_VERSION is {runtimeVersion} — re-run `rake vendor[{platform}]`"))
      else
        let files ← fetchFiles document
        if "bin/msb" ∉ files.map Prod.fst then throw (runtimeError "manifest lists no bin/msb")
        else if !(files.map Prod.fst).any isFirmware then
          throw (runtimeError "manifest lists no lib/libkrunfw*")
        else return files

/-- `File.lstat(path).file?` of an existing path. A link to a regular file is not a regular file. -/
def lstatFile (fs : FileSystem) (path : List Component) : Except Errno Bool :=
  if fs.exist? path then do
    match ← fs.lstat path with
    | .file .. => return true
    | _ => return false
  else .ok false

/-- `verify_sha256!` against a value of the manifest. -/
def verifyRecorded (data : Bytes) (expected : Json) (label : String) : Except Exception String :=
  match expected with
  | .str digest => verifySha256! lib data digest label
  | _ => .error (.noMethodError "downcase")

/-- One entry of the manifest, in the loop of `verify_manifest!`. -/
def verifyFile (vendorDir : List Component) (file : String × Json) : Run Unit := do
  let path ← EStateM.ofExcept (join vendorDir file.1)
  if ← query (.lstat path) fun fs => lstatFile fs path then
    let data ← query (.read path) fun fs => fs.read path
    let _ ← EStateM.ofExcept (verifyRecorded lib data file.2 file.1)
  else throw (runtimeError s!"vendored file missing or not a regular file: {file.1}")

/-- The entry's path relative to the directory that was globbed. -/
def relText (r : Path) : String := "/".intercalate (r.map Subtype.val)

/-- `Dir.chdir(vendor_dir) { Dir["**/*"].reject { |f| File.lstat(f).directory? } }` -/
def presentFiles (vendorDir : List Component) (fs : FileSystem) : Except Errno (List String) := do
  let p ← fs.resolve true vendorDir
  if fs.node p = some .dir then
    .ok (((fs.glob p).filter fun r => fs.node (p ++ r) ≠ some .dir).map relText)
  else .error (if fs.node p = none then .enoent else .enotdir)

/-- Check a vendored tree against its manifest. -/
def verifyManifest! (vendorDir : List Component) (platform runtimeVersion : String) : Run Json := do
  let manifestPath ← EStateM.ofExcept (join vendorDir MANIFEST)
  if ← test fun fs => fs.file? manifestPath then
    let document ← EStateM.ofExcept
      (lib.parse (← query (.read manifestPath) fun fs => fs.read manifestPath))
    let files ← EStateM.ofExcept (checkManifest lib document platform runtimeVersion)
    files.forM (verifyFile lib vendorDir)
    let present ← query (.glob vendorDir) (presentFiles vendorDir)
    let extra := present.filter fun f => f ≠ MANIFEST ∧ f ∉ files.map Prod.fst
    if extra = [] then return document
    else throw (runtimeError s!"unexpected files in {pathText vendorDir}: {commaList extra}")
  else
    throw (runtimeError
      s!"no {MANIFEST} in {pathText vendorDir} — run `rake vendor[{platform}]` first")

/-! ### Vendoring -/

/-- `vendor_dir`, below the directory that it is in. -/
structure VendorDir where
  parent : Path
  name : Name

/-- The directory itself. -/
def VendorDir.path (dir : VendorDir) : Path := dir.parent ++ [dir.name]

/-- The name of the staging directory is one. -/
theorem isName_stagingName (name : Name) (pid : ℕ) :
    IsName (name.val ++ ".staging-" ++ pid.repr) := by
  have hdigits : ∀ c ∈ (pid.repr).toList, c.isDigit = true := by
    intro c hc
    rw [Nat.repr_eq_ofList_toDigits, String.toList_ofList] at hc
    exact Nat.isDigit_of_mem_toDigits (by decide) (by decide) hc
  have hlength : 2 < (name.val ++ ".staging-" ++ pid.repr).toList.length := by
    simp
    omega
  have hne : ∀ s : String, s.toList.length ≤ 2 → name.val ++ ".staging-" ++ pid.repr ≠ s := by
    rintro s hs rfl
    omega
  -- the suffix adds letters, a dash and digits
  obtain ⟨-, -, -, hslash, hnul⟩ := name.property
  refine ⟨hne "" (by decide), hne "." (by decide), hne ".." (by decide), ?_, ?_⟩
  · intro hmem
    simp only [String.toList_append, List.mem_append] at hmem
    rcases hmem with (hmem | hmem) | hmem
    · exact hslash hmem
    · exact absurd hmem (by decide)
    · exact absurd (hdigits _ hmem) (by decide)
  · intro hmem
    simp only [String.toList_append, List.mem_append] at hmem
    rcases hmem with (hmem | hmem) | hmem
    · exact hnul hmem
    · exact absurd hmem (by decide)
    · exact absurd (hdigits _ hmem) (by decide)

/-- The name of the staging directory, with the number of the process. -/
def VendorDir.stagingName (dir : VendorDir) (pid : ℕ) : Name :=
  ⟨dir.name.val ++ ".staging-" ++ pid.repr, isName_stagingName dir.name pid⟩

/-- `"#{vendor_dir}.staging-#{Process.pid}"` -/
def VendorDir.staging (dir : VendorDir) (pid : ℕ) : Path := dir.parent ++ [dir.stagingName pid]

/-- The arguments of `vendor!`. -/
structure VendorArgs where
  platform : String
  runtimeVersion : String
  vendorDir : VendorDir
  fetch : String → Except Exception Bytes
  pinnedChecksums : String
  -- `CHECKSUMS_DIR`, and the process id
  checksumsDir : Path
  pid : ℕ

/-- `pinned_checksums_path` -/
def pinnedChecksumsPath (checksumsDir : Path) (runtimeVersion : String) : String :=
  pathText (spell checksumsDir) ++ "/" ++ runtimeVersion ++ ".sha256"

/-- The live document must still agree with the pinned one. -/
def checkLive (args : VendorArgs) (asset live expected : String) : Except Exception Unit :=
  if live = expected then .ok ()
  else do
    let committed ← basename (pinnedChecksumsPath args.checksumsDir args.runtimeVersion)
    .error (runtimeError (s!"upstream {CHECKSUMS_ASSET} now lists {asset} as {live}, but the " ++
      s!"committed {committed} says {expected} — the release asset was changed after review; " ++
      "refusing to vendor"))

/-- Extract the verified bundle into the staging directory, write the manifest and verify both. -/
def stageBundle (args : VendorArgs) (asset bundleSha256 : String) (data : Bytes) :
    Run (List (String × String)) := do
  let staging := spell (args.vendorDir.staging args.pid)
  rmRf staging
  let files ← extractBundle! lib data staging
  let _ ← writeManifest! lib staging args.platform args.runtimeVersion asset bundleSha256 files
  let _ ← verifyManifest! lib staging args.platform args.runtimeVersion
  return files

/-- Remove the vendor directory and rename the staging directory. -/
def swapTrees (args : VendorArgs) : Run Unit := do
  rmRf (spell args.vendorDir.path)
  rename (spell (args.vendorDir.staging args.pid)) (spell args.vendorDir.path)

/-- Stage the verified bundle and replace the vendor directory. -/
def replaceTree (args : VendorArgs) (asset bundleSha256 : String) (data : Bytes) :
    Run (List (String × String)) := do
  let files ← stageBundle lib args asset bundleSha256 data
  swapTrees args
  puts (s!"[binaries] vendored {args.platform} runtime into " ++
    s!"{pathText (spell args.vendorDir.path)}: {commaList (files.map Prod.fst)}")
  return files

/-- The `ensure` clause. -/
def removeStaging (staging : List Component) : Run Unit := do
  if ← test fun fs => fs.exist? staging then rmRf staging

/-- Fetch the bundle and check it against both documents: the asset, the digest and the bytes. -/
def fetchVerified (args : VendorArgs) : Run (String × String × Bytes) := do
  let asset ← EStateM.ofExcept (bundleAsset lib args.platform)
  let expected ← EStateM.ofExcept (expectedSha256! lib args.pinnedChecksums asset)
  puts s!"[binaries] fetching {CHECKSUMS_ASSET} for {args.runtimeVersion}"
  let document ← EStateM.ofExcept (args.fetch (assetUrl args.runtimeVersion CHECKSUMS_ASSET))
  let live ← EStateM.ofExcept (expectedSha256! lib (text document) asset)
  EStateM.ofExcept (checkLive args asset live expected)
  puts s!"[binaries] fetching {asset}"
  let data ← EStateM.ofExcept (args.fetch (assetUrl args.runtimeVersion asset))
  let bundleSha256 ← EStateM.ofExcept (verifySha256! lib data expected asset)
  puts s!"[binaries] verified {asset} sha256={bundleSha256}"
  return (asset, bundleSha256, data)

/-- Download, verify and stage the bundle, then replace `vendorDir`. The `ensure` clause does nothing
before `staging` has its value, which is after the bundle was verified. -/
def vendor! (args : VendorArgs) : Run (List (String × String)) := do
  let (asset, bundleSha256, data) ← fetchVerified lib args
  EStateM.ensure (replaceTree lib args asset bundleSha256 data)
    (removeStaging (spell (args.vendorDir.staging args.pid)))

end MicrosandboxRb.Vendor
