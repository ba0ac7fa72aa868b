import MicrosandboxRb.Create.Patches
import MicrosandboxRb.Create.Secrets
import MicrosandboxRb.Proxy.Model

/-!
# The builder of a sandbox

`build_builder` (`sandbox.rs`): the options of a create call are read from a Hash with String keys,
one after the other, and each of them becomes calls of the core's `SandboxBuilder`. A closure that is
handed to a method of the builder is the list of the calls it makes.

## Main definitions

* `BuilderCall`: a method of the core's `SandboxBuilder`;
* `buildBuilder`: the calls that a create call makes.
-/

namespace MicrosandboxRb.Native

open Ruby Conv RustPath Secrets
open Patches (Patch parsePatches)

variable {ω : Type}

/-! ## Enums -/

/-- The levels of a log. -/
inductive LogLevel where
  | error
  | warn
  | info
  | debug
  | trace
deriving DecidableEq, Repr

/-- When an image is pulled. -/
inductive PullPolicy where
  | always
  | ifMissing
  | never
deriving DecidableEq, Repr

/-- The security profiles of the core. -/
inductive SecurityProfile where
  | default
  | restricted
deriving DecidableEq, Repr

/-- The resources that can be limited. -/
inductive RlimitResource where
  | cpu
  | fsize
  | data
  | stack
  | core
  | rss
  | nproc
  | nofile
  | memlock
  | addressSpace
  | locks
  | sigpending
  | msgqueue
  | nice
  | rtprio
  | rttime
deriving DecidableEq, Repr

/-- `log_level_from_str`. -/
def logLevelFromStr (s : String) : Except Exception LogLevel :=
  match s with
  | "error" => .ok .error
  | "warn" => .ok .warn
  | "info" => .ok .info
  | "debug" => .ok .debug
  | "trace" => .ok .trace
  | other => .error (baseError
      s!"unknown log level {RustStr.debug other} (expected error/warn/info/debug/trace)")

/-- `pull_policy_from_str`. -/
def pullPolicyFromStr (s : String) : Except Exception PullPolicy :=
  match s with
  | "always" => .ok .always
  | "if-missing" | "if_missing" => .ok .ifMissing
  | "never" => .ok .never
  | other => .error (baseError
      s!"unknown pull policy {RustStr.debug other} (expected always/if-missing/never)")

/-- `security_profile_from_str`. -/
def securityProfileFromStr (s : String) : Except Exception SecurityProfile :=
  match s with
  | "default" => .ok .default
  | "restricted" => .ok .restricted
  | other => .error (baseError
      s!"unknown security profile {RustStr.debug other} (expected default/restricted)")

/-- `rlimit_resource_from_str`. -/
def rlimitResourceFromStr (s : String) : Except Exception RlimitResource :=
  match s with
  | "cpu" => .ok .cpu
  | "fsize" => .ok .fsize
  | "data" => .ok .data
  | "stack" => .ok .stack
  | "core" => .ok .core
  | "rss" => .ok .rss
  | "nproc" => .ok .nproc
  | "nofile" => .ok .nofile
  | "memlock" => .ok .memlock
  | "as" => .ok .addressSpace
  | "locks" => .ok .locks
  | "sigpending" => .ok .sigpending
  | "msgqueue" => .ok .msgqueue
  | "nice" => .ok .nice
  | "rtprio" => .ok .rtprio
  | "rttime" => .ok .rttime
  | other => .error (baseError s!"unknown rlimit resource {RustStr.debug other}")

/-! ## The core -/

/-- Types of the core, and of the crates that it takes values of. -/
structure BuilderTypes extends CoreTypes where
  Nameserver : Type
  Ipv4Network : Type
  Ipv6Network : Type
  -- an `f64`, and a `Duration`
  F64 : Type
  Duration : Type

/-- What `build_builder` calls outside of the extension. -/
structure BuilderCore (T : BuilderTypes) (ω : Type) where
  network : Core T.toCoreTypes
  parseFormat : String → Option DiskImageFormat
  intoRootfsSource : String → Except String RootfsSource
  parseNameserver : String → Except String T.Nameserver
  parseIpv4Network : String → Except String T.Ipv4Network
  parseIpv6Network : String → Except String T.Ipv6Network
  -- `f64::try_convert` and `f64`'s `Display`
  tryF64 : Value ω → Except Exception T.F64
  displayF64 : T.F64 → String
  tryFromSecsF64 : T.F64 → Except String T.Duration

variable {T : BuilderTypes}

/-- The builder of a registry configuration. -/
inductive RegistryCall where
  | auth (username password : String)
  | insecure
  | caCerts (pem : String)
deriving DecidableEq, Repr

/-- A method of the core's builder of DNS settings. -/
inductive DnsCall (T : BuilderTypes) where
  | nameservers (nameservers : List T.Nameserver)
  | rebindProtection (enabled : Bool)
  | queryTimeoutMs (ms : UInt64)

/-- A method of the core's builder of TLS settings. -/
inductive TlsCall where
  | bypass (pattern : String)
  | verifyUpstream (enabled : Bool)
  | interceptedPorts (ports : List UInt16)
  | blockQuic (enabled : Bool)
  | upstreamCaCert (path : Path)
  | interceptCaCert (path : Path)
  | interceptCaKey (path : Path)
deriving DecidableEq, Repr

/-- The builder of one direction. A refill time is in milliseconds. -/
inductive LimiterCall where
  | bandwidth (size refill : UInt64)
  | bandwidthBurst (burst : UInt64)
  | ops (count refill : UInt64)
  | opsBurst (burst : UInt64)
deriving DecidableEq, Repr

/-- A method of the core's builder of a rate limiter. -/
inductive RateLimiterCall where
  | egress (calls : List LimiterCall)
  | ingress (calls : List LimiterCall)
deriving DecidableEq, Repr

/-- A method of the core's network builder. -/
inductive NetworkCall (T : BuilderTypes) where
  | policy (policy : NetworkPolicy T.toCoreTypes)
  | onSecretViolation (calls : List ViolationCall)
  | dns (calls : List (DnsCall T))
  | tls (calls : List TlsCall)
  | ipv4Pool (pool : T.Ipv4Network)
  | ipv6Pool (pool : T.Ipv6Network)
  | maxConnections (n : UInt64)
  | trustHostCas (enabled : Bool)
  | strict (enabled : Bool)
  | rateLimiter (calls : List RateLimiterCall)

/-- A method of the core's builder of a root disk. -/
inductive RootDiskCall where
  | tmpfs
  | diskImage (path : Path)
  | flat
  | size (mib : UInt32)
  | format (format : DiskImageFormat)
  | fstype (fstype : String)
  | cloneStrategy (clone : FlatClone)
deriving DecidableEq, Repr

/-- A method of the core's builder of an init system. -/
inductive InitCall where
  | args (args : List String)
  | envs (env : List (String × String))
deriving DecidableEq, Repr

/-- A method of the core's `SandboxBuilder`. -/
inductive BuilderCall (T : BuilderTypes) where
  /-- `image_with(|i| i.disk(path).fstype(fstype))` -/
  | imageDisk (path : Path) (fstype : String)
  | image (image : Image)
  | fromSnapshot (snapshot : String)
  | cpus (n : UInt8)
  | maxCpus (n : UInt8)
  | memory (mib : UInt32)
  | maxMemory (mib : UInt32)
  | workdir (path : String)
  | shell (shell : String)
  | user (user : String)
  | hostname (hostname : String)
  | env (name value : String)
  | label (name value : String)
  | script (name content : String)
  | entrypoint (argv : List String)
  | cmd (argv : List String)
  | port (host guest : UInt16)
  | vsock (hostSocket : String) (port : UInt32)
  | vsockDgram (hostSocket : String) (port : UInt32)
  | volume (guest : String) (calls : List MountCall)
  | addPatch (patch : Patch)
  | disableNetwork
  | network (calls : List (NetworkCall T))
  | logLevel (level : LogLevel)
  | quietLogs
  | security (profile : SecurityProfile)
  | pullPolicy (policy : PullPolicy)
  | rootDiskWith (calls : List RootDiskCall)
  | registry (calls : List RegistryCall)
  | maxDuration (secs : UInt64)
  | idleTimeout (secs : UInt64)
  | portUdp (host guest : UInt16)
  | rlimitRange (resource : RlimitResource) (soft hard : UInt64)
  | secret (calls : List SecretCall)
  | proxy (calls : List Proxy.ProxyCall)
  | initWith (cmd : String) (calls : List InitCall)
  | ephemeral (ephemeral : Bool)
  | detached (detached : Bool)
  | replaceWithTimeout (timeout : T.Duration)
  | replace

/-- The calls that one option makes. -/
abbrev Calls (T : BuilderTypes) := Except Exception (List (BuilderCall T))

/-- At most one call, for an option that may be absent. -/
def callOpt {α : Type} (x : Except Exception (Option α)) (call : α → BuilderCall T) : Calls T :=
  x.map fun o => (o.map call).toList

/-- One call for every element. -/
def callEach {α : Type} (x : Except Exception (List α)) (call : α → BuilderCall T) : Calls T :=
  x.map fun xs => xs.map call

/-- A call that is made where the option is true. -/
def callFlag (x : Except Exception Bool) (call : BuilderCall T) : Calls T :=
  x.map fun b => if b then [call] else []

/-! ## Parsers -/

section Parsers

variable [Numeric ω]

/-- An optional `u64`. -/
def optU64 (hash : RHash ω) (key : String) : Except Exception (Option UInt64) := opt tryU64 hash key

/-- `opt::<Vec<String>>`, for which an empty Array is not an absent one. -/
def optStrings (hash : RHash ω) (key : String) : Except Exception (Option (List String)) :=
  opt (tryVec tryString) hash key

/-- `opt::<RHash>(..)?.map(parse).transpose()?`. -/
def optHash {α : Type} (parse : RHash ω → Except Exception α) (hash : RHash ω) (key : String) :
    Except Exception (Option α) := do
  match ← opt tryHash hash key with
  | some h => (parse h).map some
  | none => return none

/-- `Option::ok_or_else`. -/
def okOrElse {α : Type} (o : Option α) (message : String) : Except Exception α :=
  match o with
  | some a => .ok a
  | none => .error (baseError message)

/-- One route of the `vsock` option. -/
def parseRoute (route : RHash ω) : Except Exception (BuilderCall T) := do
  let hostSocket ← okOrElse (← optString route "host_socket") "vsock route requires host_socket:"
  let port ← okOrElse (← optU32 route "port") "vsock route requires port:"
  match ← optString route "socket_type" with
  | none | some "stream" => return .vsock hostSocket port
  | some "dgram" => return .vsockDgram hostSocket port
  | some other => throw (baseError
      s!"unknown vsock socket_type {RustStr.debug other} (expected stream/dgram)")

/-- A triple of the `rlimits` option. -/
def tryTriple (v : Value ω) : Except Exception (String × UInt64 × UInt64) := do
  match ← tryArray v with
  | [resource, soft, hard] => return (← tryString resource, ← tryU64 soft, ← tryU64 hard)
  | _ => throw (.typeError "Array")

/-- The triples of `rlimits`, with the resources looked up. -/
def parseRlimits (opts : RHash ω) :
    Except Exception (List (RlimitResource × UInt64 × UInt64)) := do
  let triples ← opt (tryVec tryTriple) opts "rlimits"
  (triples.getD []).mapM fun t => (rlimitResourceFromStr t.1).map fun resource => (resource, t.2)

/-- The calls on the root-disk builder. A managed disk is the default. -/
def RootDiskSpec.apply (spec : RootDiskSpec) : List RootDiskCall :=
  (match spec.kind with
    | .managed => []
    | .tmpfs => [.tmpfs]
    | .disk path => [.diskImage path]
    | .flat => [.flat]) ++
  (spec.sizeMib.map .size).toList ++ (spec.format.map .format).toList ++
    (spec.fstype.map .fstype).toList ++ (spec.clone.map .cloneStrategy).toList

omit [Numeric ω] in
/-- The calls on the registry builder, or none when no `registry_*` option is set. -/
def parseRegistryConfig (opts : RHash ω) : Except Exception (Option (List RegistryCall)) := do
  let username ← optString opts "registry_username"
  let password ← optString opts "registry_password"
  let insecure ← optBool opts "registry_insecure"
  let caCerts ← optStringVec opts "registry_ca_certs"
  let auth ←
    match username, password with
    | some username, some password => .ok [.auth username password]
    | none, none => .ok []
    -- a half-specified credential is refused, not taken for none
    | _, _ => .error (baseError "registry_auth requires both :username and :password")
  if auth.isEmpty && !insecure && caCerts.isEmpty then return none
  return some (auth ++ (if insecure then [.insecure] else []) ++ caCerts.map .caCerts)

/-! ### Networks -/

/-- A text that a parser of the core reads. -/
def parseText {α : Type} (what : String) (parse : String → Except String α) (s : String) :
    Except Exception α :=
  (parse s).mapError fun e => baseError s!"invalid {what} {RustStr.debug s}: {e}"

/-- The DNS settings. -/
def parseDns (core : BuilderCore T ω) (d : RHash ω) : Except Exception (List (DnsCall T)) := do
  let names ← optStringVec d "nameservers"
  let nameservers ← names.mapM (parseText "nameserver" core.parseNameserver)
  let rebindProtection ← opt tryBool d "rebind_protection"
  let queryTimeoutMs ← optU64 d "query_timeout_ms"
  return (if nameservers.isEmpty then [] else [.nameservers nameservers]) ++
    (rebindProtection.map .rebindProtection).toList ++
    (queryTimeoutMs.map .queryTimeoutMs).toList

/-- The TLS settings. The three files are paths of this host. -/
def parseTls (hostPaths : HostPaths) (process : Process) (t : RHash ω) :
    Except Exception (List TlsCall) := do
  let pin (key label : String) : Except Exception (Option Path) :=
    optParsed (fun path => hostPaths.pin process path label) t key
  let bypass ← optStringVec t "bypass"
  let verifyUpstream ← opt tryBool t "verify_upstream"
  let interceptedPorts ← opt (tryVec tryU16) t "intercepted_ports"
  let blockQuic ← opt tryBool t "block_quic"
  let upstreamCaCert ← pin "upstream_ca_cert" "upstream CA certificate path"
  let interceptCaCert ← pin "intercept_ca_cert" "interception CA certificate path"
  let interceptCaKey ← pin "intercept_ca_key" "interception CA key path"
  return bypass.map .bypass ++ (verifyUpstream.map .verifyUpstream).toList ++
    (interceptedPorts.map .interceptedPorts).toList ++ (blockQuic.map .blockQuic).toList ++
    (upstreamCaCert.map .upstreamCaCert).toList ++
    (interceptCaCert.map .interceptCaCert).toList ++ (interceptCaKey.map .interceptCaKey).toList

/-- One token bucket: its size, the time of a refill and the burst. -/
def parseTokenBucket (dir dim : String) (b : RHash ω) :
    Except Exception (UInt64 × UInt64 × UInt64) := do
  let size ← okOrElse (← optU64 b "size") s!"rate_limiter {dir} {dim} bucket requires size:"
  let refill ← okOrElse (← optU64 b "refill_time_ms")
    s!"rate_limiter {dir} {dim} bucket requires refill_time_ms:"
  let burst ← optU64 b "one_time_burst"
  return (size, refill, burst.getD 0)

/-- The calls for one bucket. A burst of zero is none. -/
def bucketCalls (bucket : UInt64 → UInt64 → LimiterCall) (burst : UInt64 → LimiterCall)
    (b : UInt64 × UInt64 × UInt64) : List LimiterCall :=
  bucket b.1 b.2.1 :: if 0 < b.2.2 then [burst b.2.2] else []

/-- The limits of one direction. -/
def parseRateLimiterDirection (dir : String) (h : RHash ω) :
    Except Exception (List LimiterCall) := do
  let bandwidth ← optHash (parseTokenBucket dir "bandwidth") h "bandwidth"
  let ops ← optHash (parseTokenBucket dir "ops") h "ops"
  return (bandwidth.map (bucketCalls .bandwidth .bandwidthBurst)).getD [] ++
    (ops.map (bucketCalls .ops .opsBurst)).getD []

/-- The limits of both directions. -/
def parseRateLimiter (h : RHash ω) : Except Exception (List RateLimiterCall) := do
  let egress ← optHash (parseRateLimiterDirection "egress") h "egress"
  let ingress ← optHash (parseRateLimiterDirection "ingress") h "ingress"
  return (egress.map .egress).toList ++ (ingress.map .ingress).toList

/-- The advanced network configuration, in one call if any of it is given. -/
def advancedCalls (core : BuilderCore T ω) (hostPaths : HostPaths) (process : Process)
    (opts : RHash ω) : Calls T := do
  let dns ← optHash (parseDns core) opts "dns"
  let tls ← optHash (parseTls hostPaths process) opts "tls"
  let ipv4Pool ← optParsed (parseText "ipv4_pool" core.parseIpv4Network) opts "ipv4_pool"
  let ipv6Pool ← optParsed (parseText "ipv6_pool" core.parseIpv6Network) opts "ipv6_pool"
  let maxConnections ← optU64 opts "max_connections"
  let trustHostCas ← opt tryBool opts "trust_host_cas"
  let strict ← opt tryBool opts "strict"
  let calls : List (NetworkCall T) := (dns.map .dns).toList ++ (tls.map .tls).toList ++
    (ipv4Pool.map .ipv4Pool).toList ++ (ipv6Pool.map .ipv6Pool).toList ++
    (maxConnections.map .maxConnections).toList ++ (trustHostCas.map .trustHostCas).toList ++
    (strict.map .strict).toList
  return if calls.isEmpty then [] else [.network calls]

/-- What a setting of the network calls. -/
def settingCall : NetworkSetting T.toCoreTypes → BuilderCall T
  | .disabled => .disableNetwork
  | .policy p => .network [.policy p]

/-! ### The rest -/

/-- `secs_to_duration`. -/
def secsToDuration (core : BuilderCore T ω) (secs : T.F64) : Except Exception T.Duration :=
  (core.tryFromSecsF64 secs).mapError fun e =>
    baseError ("duration must be a non-negative, finite number of seconds in range " ++
      s!"(got {core.displayF64 secs}: {e})")

omit [Numeric ω] in
/-- The image. With a file system type it names the path of a disk image. -/
def imageCalls (core : BuilderCore T ω) (hostPaths : HostPaths) (process : Process)
    (opts : RHash ω) : Calls T := do
  match ← optString opts "image" with
  | none => return []
  | some v =>
    match ← optString opts "fstype" with
    | some fstype => return [.imageDisk (← hostPaths.pin process v "root disk image path") fstype]
    | none => return [.image (← hostPaths.pinImage process core.intoRootfsSource v)]

/-- The root disk. -/
def rootDiskCalls (core : BuilderCore T ω) (hostPaths : HostPaths) (process : Process)
    (opts : RHash ω) : Calls T := do
  match ← optValue opts "root_disk" with
  | some v => return [.rootDiskWith (← parseRootDisk core.parseFormat hostPaths process v).apply]
  | none => return []

omit [Numeric ω] in
/-- The command of an init system, and the calls on its builder. -/
def parseInit (h : RHash ω) : Except Exception (String × List InitCall) := do
  let cmd ← okOrElse (← optString h "cmd") "init requires a :cmd"
  let args ← optStringVec h "args"
  let env ← optStringMap h "env"
  return (cmd, [.args args, .envs env])

omit [Numeric ω] in
/-- Replacing a sandbox, with or without a timeout. -/
def replaceCalls (core : BuilderCore T ω) (opts : RHash ω) : Calls T := do
  match ← opt core.tryF64 opts "replace_with_timeout" with
  | some secs => return [.replaceWithTimeout (← secsToDuration core secs)]
  | none => callFlag (optBool opts "replace") .replace

/-- The parts of `build_builder`, in its order. -/
def builderParts (core : BuilderCore T ω) (hostPaths : HostPaths) (process : Process)
    (opts : RHash ω) : List (Calls T) :=
  [imageCalls core hostPaths process opts,
    callOpt (optParsed (hostPaths.pinSnapshot process) opts "from_snapshot") .fromSnapshot,
    callOpt (optU8 opts "cpus") .cpus,
    callOpt (optU8 opts "max_cpus") .maxCpus,
    callOpt (optU32 opts "memory") .memory,
    callOpt (optU32 opts "max_memory") .maxMemory,
    callOpt (optString opts "workdir") .workdir,
    callOpt (optString opts "shell") .shell,
    callOpt (optString opts "user") .user,
    callOpt (optString opts "hostname") .hostname,
    callEach (optStringMap opts "env") fun e => .env e.1 e.2,
    callEach (optStringMap opts "labels") fun e => .label e.1 e.2,
    callEach (optStringMap opts "scripts") fun e => .script e.1 e.2,
    callOpt (optStrings opts "entrypoint") .entrypoint,
    callOpt (optStrings opts "cmd") .cmd,
    callEach (optPortMap opts "ports") fun p => .port p.1 p.2,
    do (← optHashVec opts "vsock").mapM parseRoute,
    callEach (do (← optHashVec opts "volumes").mapM (parseMount core.parseFormat hostPaths process))
      fun spec => .volume spec.guest spec.apply,
    callEach (parsePatches hostPaths process opts) .addPatch,
    callOpt (presetRoute core.network opts) settingCall,
    callOpt (profilesRoute core.network opts) settingCall,
    callOpt (parseNetworkPolicy core.network opts) fun p => settingCall (.policy p),
    callOpt (optParsed logLevelFromStr opts "log_level") .logLevel,
    callFlag (optBool opts "quiet_logs") .quietLogs,
    callOpt (optParsed securityProfileFromStr opts "security") .security,
    callOpt (optParsed pullPolicyFromStr opts "pull_policy") .pullPolicy,
    rootDiskCalls core hostPaths process opts,
    callOpt (parseRegistryConfig opts) .registry,
    callOpt (optU64 opts "max_duration") .maxDuration,
    callOpt (optU64 opts "idle_timeout") .idleTimeout,
    callEach (optPortMap opts "ports_udp") fun p => .portUdp p.1 p.2,
    callEach (parseRlimits opts) fun r => .rlimitRange r.1 r.2.1 r.2.2,
    callEach (buildSecrets opts) .secret,
    callOpt (buildViolation opts) fun calls => .network [.onSecretViolation calls],
    advancedCalls core hostPaths process opts,
    callOpt (optHash parseRateLimiter opts "rate_limiter") fun calls =>
      .network [.rateLimiter calls],
    callOpt (optHash Proxy.applyOutboundProxy opts "proxy") .proxy,
    callOpt (optHash parseInit opts "init") fun i => .initWith i.1 i.2,
    callFlag (optBool opts "ephemeral") (.ephemeral true),
    callFlag (optBool opts "detached") (.detached true),
    replaceCalls core opts]

/-- The calls of a create call, or the error of the first part that fails. -/
def buildBuilder (core : BuilderCore T ω) (hostPaths : HostPaths) (process : Process)
    (opts : RHash ω) : Calls T :=
  ((builderParts core hostPaths process opts).mapM id).map List.flatten

end Parsers

end MicrosandboxRb.Native
