import MicrosandboxRb.Create.Patches
import MicrosandboxRb.Create.Secrets
import MicrosandboxRb.Create.Settings
import MicrosandboxRb.Create.Volumes
import MicrosandboxRb.Modify.Secrets
import MicrosandboxRb.Network.Policy

/-!
# The option builders

`build_create_opts` and `build_modify_opts` (`sandbox.rb`), which turn the keyword arguments of a
caller into the Hash that the native layer reads. The warning that an option is deprecated is left
out.

## Main definitions

* `buildCreateOpts`: the options of a create call;
* `buildModifyOpts`: the options of a modification.
-/

namespace MicrosandboxRb.Create

open Ruby Conv Network

variable {ω : Type}

/-! ## Steps -/

/-- A line of a builder. -/
abbrev Step (ω : Type) := Opts ω → Except Exception (Opts ω)

/-- `opts[key] = value`, where there is a value. -/
def put (key : String) (value : Except Exception (Option (Value ω))) : Step ω :=
  fun opts => value.map (insertSome opts key)

/-- `f(v) if v`. -/
def whenGiven (v : Value ω) (f : Value ω → Except Exception (Value ω)) :
    Except Exception (Option (Value ω)) :=
  if v.truthy then (f v).map some else .ok none

/-- `f(v) unless v.nil?`. -/
def unlessNilM (v : Value ω) (f : Value ω → Except Exception (Value ω)) :
    Except Exception (Option (Value ω)) :=
  if v.isNil then .ok none else (f v).map some

/-- A list of lines, from the first to the last. -/
def runSteps (steps : List (Step ω)) (opts : Opts ω) : Except Exception (Opts ω) :=
  steps.foldlM (fun opts step => step opts) opts

section Coercions

variable [Methods ω]

/-- `v.to_s`. -/
def toStr (v : Value ω) : Except Exception (Value ω) := .ok (.str v.toS)

/-- `Integer(v)`. -/
def toInt [Numeric ω] (v : Value ω) : Except Exception (Value ω) := (integer v).map .int

/-- `opts[key] = true if v`. -/
def putFlag (key : String) (v : Value ω) : Step ω := fun opts => .ok (setFlag opts key v.truthy)

/-- `set_bool(opts, key, v)`. -/
def putBool (key : String) (v : Value ω) : Step ω := put key (.ok (boolUnlessNil v))

/-- Coerce a number of seconds to a finite, non-negative Float. -/
def coerceDuration [Numeric ω] (value : Value ω) (label : String) : Except Exception (Value ω) := do
  let seconds ← Numeric.float value
  if Numeric.isDuration seconds then return .obj seconds
  else throw (.argumentError
    s!"{label} must be a finite, non-negative number of seconds (got {value.inspect})")

end Coercions

/-! ## Disk images -/

/-- The extensions of a disk image. -/
def DISK_IMAGE_EXTENSIONS : List String := ["raw", "qcow2", "vmdk"]

/-- The last component of a path, without the separators at its end. -/
def lastComponent (s : String) : List Char :=
  ((s.toList.reverse.dropWhile (· == '/')).takeWhile (· != '/')).reverse

/-- `File.extname(s).delete_prefix(".")`: what follows the last dot of the last component, unless
only dots stand before it. -/
def extension (s : String) : List Char :=
  let name := (lastComponent s).dropWhile (· == '.')
  if name.contains '.' then (name.reverse.takeWhile (· != '.')).reverse else []

/-- Whether an image names a disk-image rootfs. -/
def isDiskImageRootfs [Methods ω] (image : Value ω) : Bool :=
  let s := image.toS
  (["/", "./", "../"].any fun start => start.toList.isPrefixOf s.toList) &&
    DISK_IMAGE_EXTENSIONS.contains (Proxy.protocolText (String.ofList (extension s)))

/-! ## Create -/

/-- The keyword arguments of `build_create_opts`. -/
structure CreateArgs (ω : Type) where
  image : Value ω := .nil
  cpus : Value ω := .nil
  maxCpus : Value ω := .nil
  memory : Value ω := .nil
  maxMemory : Value ω := .nil
  env : Value ω := .nil
  workdir : Value ω := .nil
  shell : Value ω := .nil
  user : Value ω := .nil
  hostname : Value ω := .nil
  labels : Value ω := .nil
  scripts : Value ω := .nil
  entrypoint : Value ω := .nil
  cmd : Value ω := .nil
  ports : Value ω := .nil
  portsUdp : Value ω := .nil
  volumes : Value ω := .nil
  network : NetworkArg ω := .value .nil
  dns : Value ω := .nil
  tls : Value ω := .nil
  ipv4Pool : Value ω := .nil
  ipv6Pool : Value ω := .nil
  maxConnections : Value ω := .nil
  trustHostCas : Value ω := .nil
  strict : Value ω := .nil
  rateLimiter : Value ω := .nil
  proxy : Value ω := .nil
  vsock : Value ω := .nil
  patches : Value ω := .nil
  fromSnapshot : Value ω := .nil
  fstype : Value ω := .nil
  init : Value ω := .nil
  ephemeral : Value ω := .bool false
  logLevel : Value ω := .nil
  quietLogs : Value ω := .bool false
  security : Value ω := .nil
  rootDisk : Value ω := .nil
  ociUpperSize : Value ω := .nil
  maxDuration : Value ω := .nil
  idleTimeout : Value ω := .nil
  rlimits : Value ω := .nil
  pullPolicy : Value ω := .nil
  registryAuth : Value ω := .nil
  registryInsecure : Value ω := .bool false
  registryCaCerts : Value ω := .nil
  secrets : Value ω := .nil
  onSecretViolation : Value ω := .nil
  detached : Value ω := .bool false
  replace : Value ω := .bool false
  replaceWithTimeout : Value ω := .nil

section Build

variable [Methods ω] [Numeric ω] [Proxy.ProxyObjects ω] [CallerObjects ω]

omit [Numeric ω] [Proxy.ProxyObjects ω] [CallerObjects ω] in
/-- Refuse the pairs that contradict each other. -/
def checkCombinations (args : CreateArgs ω) : Except Exception Unit :=
  if args.image.truthy && args.fromSnapshot.truthy then
    .error (.argumentError "provide either image: or from_snapshot:, not both")
  else if args.rootDisk.truthy && args.ociUpperSize.truthy then
    .error (.argumentError "pass either root_disk: or oci_upper_size:, not both")
  -- an empty list of patches asks for nothing
  else if args.fromSnapshot.truthy && args.patches.truthy && !args.patches.array.isEmpty then
    .error (.argumentError ("patches: cannot be combined with from_snapshot: (a snapshot restores " ++
      "its own root disk; apply changes after boot with sandbox.fs instead)"))
  else if args.fstype.truthy && !isDiskImageRootfs args.image then
    .error (.argumentError ("fstype: only applies to a disk-image rootfs; image: must be a local " ++
      s!"path ending in .raw, .qcow2, or .vmdk (got {args.image.inspect}). " ++
      "OCI references auto-detect their filesystem — drop fstype:."))
  else .ok ()

/-- `normalize_volumes`, which enumerates the pairs of its argument. -/
def volumesOption (volumes : Value ω) : Except Exception (Value ω) := do
  let pairs ← eachPair volumes "map"
  return .arr ((← Volumes.normalizeVolumes pairs).map strHash)

/-- `opts["network"]`, `opts["network_profiles"]` or `opts["network_policy"]`. -/
def putNetwork (network : NetworkArg ω) : Step ω :=
  fun opts =>
    match network with
    | .value .nil => .ok opts
    | network => applyNetworkOpts opts network

/-- The writable root disk. -/
def rootDiskOption (args : CreateArgs ω) : Except Exception (Option (Value ω)) :=
  if args.ociUpperSize.truthy then
    (Native.coerceRootDiskSize args.ociUpperSize "oci_upper_size:").map fun n => some (.int n)
  else whenGiven args.rootDisk Native.normalizeRootDisk

/-- Whether an existing sandbox of the name is replaced. -/
def putReplace (args : CreateArgs ω) : Step ω :=
  if args.replaceWithTimeout.truthy then
    put "replace_with_timeout"
      ((coerceDuration args.replaceWithTimeout "replace_with_timeout").map some)
  else putFlag "replace" args.replace

/-- The lines of `build_create_opts`. -/
def createSteps (args : CreateArgs ω) : List (Step ω) :=
  [put "image" (whenGiven args.image toStr),
    put "from_snapshot" (whenGiven args.fromSnapshot toStr),
    put "fstype" (whenGiven args.fstype toStr),
    put "cpus" (whenGiven args.cpus toInt),
    put "max_cpus" (whenGiven args.maxCpus toInt),
    put "memory" (whenGiven args.memory toInt),
    put "max_memory" (whenGiven args.maxMemory toInt),
    put "workdir" (whenGiven args.workdir toStr),
    put "shell" (whenGiven args.shell toStr),
    put "user" (whenGiven args.user toStr),
    put "hostname" (whenGiven args.hostname toStr),
    put "env" (whenGiven args.env fun v => (stringify v).map strHash),
    put "labels" (whenGiven args.labels fun v => (stringify v).map strHash),
    put "scripts" (whenGiven args.scripts fun v => (stringify v).map strHash),
    -- here only `nil` is left out: a `false` is passed on
    put "entrypoint" (unlessNilM args.entrypoint fun v => .ok (strArray v)),
    put "cmd" (unlessNilM args.cmd fun v => .ok (strArray v)),
    put "ports" (whenGiven args.ports intifyPorts),
    put "ports_udp" (whenGiven args.portsUdp intifyPorts),
    put "volumes" (whenGiven args.volumes volumesOption),
    put "patches" (whenGiven args.patches fun v =>
      (Patches.normalizePatches v).map fun ps => .arr (ps.map strHash)),
    putNetwork args.network,
    put "dns" (whenGiven args.dns fun v => (normalizeDns v).map strHash),
    put "tls" (whenGiven args.tls fun v => (normalizeTls v).map strHash),
    put "ipv4_pool" (whenGiven args.ipv4Pool toStr),
    put "ipv6_pool" (whenGiven args.ipv6Pool toStr),
    put "max_connections" (whenGiven args.maxConnections toInt),
    putBool "trust_host_cas" args.trustHostCas,
    putBool "strict" args.strict,
    put "rate_limiter" (whenGiven args.rateLimiter fun v => (normalizeRateLimiter v).map strHash),
    put "proxy" (unlessNilM args.proxy fun v => (Proxy.OutboundProxy.coerce v).map strHash),
    put "vsock" (whenGiven args.vsock fun v =>
      (normalizeVsock v).map fun routes => .arr (routes.map strHash)),
    put "log_level" (whenGiven args.logLevel toStr),
    putFlag "quiet_logs" args.quietLogs,
    put "security" (whenGiven args.security toStr),
    put "root_disk" (rootDiskOption args),
    put "max_duration" (whenGiven args.maxDuration toInt),
    put "idle_timeout" (whenGiven args.idleTimeout toInt),
    put "rlimits" (whenGiven args.rlimits normalizeRlimits),
    put "pull_policy" (whenGiven args.pullPolicy toStr),
    fun opts => applyRegistryOpts opts args.registryAuth args.registryInsecure
      args.registryCaCerts,
    put "secrets" (whenGiven args.secrets fun v =>
      (Secrets.normalizeSecrets v).map fun specs => .arr (specs.map strHash)),
    put "on_secret_violation" (whenGiven args.onSecretViolation Secrets.normalizeViolation),
    put "init" (unlessNilM args.init fun v => (normalizeInit v).map strHash),
    putFlag "ephemeral" args.ephemeral,
    putFlag "detached" args.detached,
    putReplace args]

/-- The options of a create call. -/
def buildCreateOpts (args : CreateArgs ω) : Except Exception (Opts ω) := do
  checkCombinations args
  runSteps (createSteps args) ∅

/-! ## Modify -/

/-- The keyword arguments of `build_modify_opts`. -/
structure ModifyArgs (ω : Type) where
  cpus : Value ω := .nil
  maxCpus : Value ω := .nil
  memory : Value ω := .nil
  maxMemory : Value ω := .nil
  rootDiskSize : Value ω := .nil
  env : Value ω := .nil
  removeEnv : Value ω := .nil
  labels : Value ω := .nil
  removeLabels : Value ω := .nil
  workdir : Value ω := .nil
  secrets : Value ω := .nil
  removeSecrets : Value ω := .nil
  policy : Value ω := .nil
  dryRun : Value ω := .bool false

omit [Numeric ω] [Proxy.ProxyObjects ω] [CallerObjects ω] in
/-- Normalize `policy:`. -/
def normalizeModifyPolicy (policy : Value ω) : Except Exception (Value ω) :=
  if policy.isNil then .ok (.str "no_restart")
  else if policy.toS ∈ ["no_restart", "next_start", "restart"] then .ok (.str policy.toS)
  else
    .error (.argumentError
      s!"policy: must be :no_restart, :next_start, or :restart (got {policy.inspect})")

/-- The lines of `build_modify_opts`. -/
def modifySteps (args : ModifyArgs ω) : List (Step ω) :=
  [put "cpus" (whenGiven args.cpus toInt),
    put "max_cpus" (whenGiven args.maxCpus toInt),
    put "memory" (whenGiven args.memory toInt),
    put "max_memory" (whenGiven args.maxMemory toInt),
    put "root_disk_size" (whenGiven args.rootDiskSize toInt),
    put "env" (whenGiven args.env fun v => (stringify v).map strHash),
    put "remove_env" (whenGiven args.removeEnv fun v => .ok (strArray v)),
    put "labels" (whenGiven args.labels fun v => (stringify v).map strHash),
    put "remove_labels" (whenGiven args.removeLabels fun v => .ok (strArray v)),
    put "workdir" (whenGiven args.workdir toStr),
    put "secrets" (whenGiven args.secrets fun v =>
      (Modify.normalizeModifySecrets v).map fun specs => .arr (specs.map strHash)),
    put "remove_secrets" (whenGiven args.removeSecrets fun v => .ok (strArray v)),
    put "policy" ((normalizeModifyPolicy args.policy).map some),
    putFlag "dry_run" args.dryRun]

/-- The options of a modification. -/
def buildModifyOpts (args : ModifyArgs ω) : Except Exception (Opts ω) :=
  runSteps (modifySteps args) ∅

end Build

end MicrosandboxRb.Create
