import MicrosandboxRb.Create.Anchoring
import MicrosandboxRb.Create.Options
import MicrosandboxRb.Lib.Writers

/-!
# The options of a create call, one by one

`build_create_opts` writes a Hash line by line, and `build_builder` reads it part by part. The lines
write distinct keys, and each part reads the keys of its own option, so an option is told to the
core as it would be if no other were given.

## Main definitions

* `createWriters`: the lines of `build_create_opts`, with the keys that each of them writes;
* `partKeys`: the keys that each part of `build_builder` reads;
* `alone`: the lines that write the keys of one option, by themselves.

## Main results

* `options_arrive`: the options are accepted together if each of them is, and the builder is then
  told of each of them what it is told of it alone.
-/

namespace MicrosandboxRb.Create

open Ruby Conv Network Native AList TwoRuns Writers
open Secrets (buildSecrets buildViolation optValue optViolation)
open Patches (parsePatches parsePatch)

variable {ω : Type} {T : BuilderTypes}

/-! ## Lines -/

/-- `opts[key] = value`, where there is a value. -/
def putWriter (key : String) (value : Except Exception (Option (Value ω))) :
    Writer Exception String (Value ω) :=
  .ofWritten [key] (put key value) (value.map (atKey key))
    (by
      intro m
      cases value with
      | error e => exact .error e
      | ok o => exact .ok (adds_insertSome m key o))
    (by
      intro f hf k hk
      obtain ⟨o, -, rfl⟩ := Except.map_eq_ok_iff.mp hf
      exact if_neg fun h => hk (List.mem_singleton.mpr h))

/-- `opts[key] = true if given`. -/
def flagWriter (key : String) (given : Bool) : Writer Exception String (Value ω) :=
  .ofWritten [key] (fun opts => .ok (setFlag opts key given))
    (.ok (atKey key (if given then some (.bool true) else none)))
    (fun m => .ok (adds_setFlag m key given))
    (by
      intro f hf k hk
      obtain rfl := Except.ok.inj hf
      exact if_neg fun h => hk (List.mem_singleton.mpr h))

/-- What `apply_network_opts` writes for a wire form. -/
def networkKeys (norm : Wire ω) : String → Option (Value ω) :=
  if norm.keys = [] then fun _ => none
  else if norm.keys = ["preset"] then atKey "network" (some (index norm "preset"))
  else if norm.keys = ["profiles"] then atKey "network_profiles" (some (index norm "profiles"))
  else atKey "network_policy" (some (strHash norm))

/-- The route of a policy writes its own key. -/
theorem adds_routeNetwork (norm m : Wire ω) : Adds (networkKeys norm) m (routeNetwork m norm) := by
  unfold networkKeys routeNetwork
  split
  · exact adds_nothing m
  · split
    · exact adds_insert m _ _
    · split
      · exact adds_insert m _ _
      · exact adds_insert m _ _

/-- A route writes no key but the three of the network. -/
theorem networkKeys_eq_none {norm : Wire ω} {k : String}
    (hk : k ∉ ["network", "network_profiles", "network_policy"]) : networkKeys norm k = none := by
  simp only [List.mem_cons, List.not_mem_nil, or_false, not_or] at hk
  unfold networkKeys
  split
  · rfl
  · split
    · exact if_neg hk.1
    · split
      · exact if_neg hk.2.1
      · exact if_neg hk.2.2

section Lines

variable [Methods ω]

/-- The line of `network:`. -/
def networkWriter (network : NetworkArg ω) : Writer Exception String (Value ω) where
  keys := ["network", "network_profiles", "network_policy"]
  step := putNetwork network
  alone m := by
    unfold putNetwork
    split
    · exact .ok (adds_lookup (adds_nothing ∅) (adds_nothing m))
    · unfold applyNetworkOpts
      cases NetworkPolicy.coerce network with
      | error e => exact .error e
      | ok norm => exact .ok (adds_lookup (adds_routeNetwork norm ∅) (adds_routeNetwork norm m))
  scope w hw k hk := by
    unfold putNetwork at hw
    split at hw
    · obtain rfl := Except.ok.inj hw
      rfl
    · unfold applyNetworkOpts at hw
      cases hnorm : NetworkPolicy.coerce network with
      | error e =>
        rw [hnorm] at hw
        cases hw
      | ok norm =>
        rw [hnorm] at hw
        obtain rfl := Except.ok.inj hw
        rw [adds_routeNetwork norm ∅ k, networkKeys_eq_none hk]
        rfl

/-- What the registry options are, for the credentials. -/
def registryKeys (insecure caCerts : Value ω) (credentials : Option (String × String))
    (key : String) : Option (Value ω) :=
  (atKey "registry_ca_certs" (if caCerts.truthy then some (strArray caCerts) else none) key).or
    ((atKey "registry_insecure" (if insecure.truthy then some (.bool true) else none) key).or
      ((atKey "registry_password" (credentials.map fun c => .str c.2) key).or
        (atKey "registry_username" (credentials.map fun c => .str c.1) key)))

/-- The lines that write the keys of the registry. -/
def registryWriter [CallerObjects ω] (auth insecure caCerts : Value ω) :
    Writer Exception String (Value ω) :=
  .ofWritten ["registry_username", "registry_password", "registry_insecure", "registry_ca_certs"]
    (fun opts => applyRegistryOpts opts auth insecure caCerts)
    ((registryCredentials auth).map (registryKeys insecure caCerts))
    (by
      intro m
      unfold applyRegistryOpts
      cases registryCredentials auth with
      | error e => exact .error e
      | ok credentials =>
        exact .ok ((((adds_insertSome m _ _).trans (adds_insertSome _ _ _)).trans
          (adds_setFlag _ _ _)).trans (adds_insertSome _ _ _)))
    (by
      intro f hf k hk
      obtain ⟨credentials, -, rfl⟩ := Except.map_eq_ok_iff.mp hf
      simp only [List.mem_cons, List.not_mem_nil, or_false, not_or] at hk
      obtain ⟨husername, hpassword, hinsecure, hcaCerts⟩ := hk
      simp [registryKeys, atKey, husername, hpassword, hinsecure, hcaCerts])

end Lines

section Create

variable [Methods ω] [Numeric ω] [Proxy.ProxyObjects ω] [CallerObjects ω]

/-- What the line of `replace:` and `replace_with_timeout:` writes. -/
def replaceWritten (args : CreateArgs ω) : Except Exception (String → Option (Value ω)) :=
  if args.replaceWithTimeout.truthy then
    (coerceDuration args.replaceWithTimeout "replace_with_timeout").map fun seconds =>
      atKey "replace_with_timeout" (some seconds)
  else .ok (atKey "replace" (if args.replace.truthy then some (.bool true) else none))

/-- The lines that write `replace` and `replace_with_timeout`. -/
def replaceWriter (args : CreateArgs ω) : Writer Exception String (Value ω) :=
  .ofWritten ["replace", "replace_with_timeout"] (putReplace args) (replaceWritten args)
    (by
      intro m
      unfold putReplace replaceWritten
      split
      · unfold put
        cases coerceDuration args.replaceWithTimeout "replace_with_timeout" with
        | error e => exact .error e
        | ok seconds => exact .ok (adds_insertSome m _ _)
      · exact .ok (adds_setFlag m _ _))
    (by
      intro f hf k hk
      simp only [List.mem_cons, List.not_mem_nil, or_false, not_or] at hk
      unfold replaceWritten at hf
      split at hf
      · obtain ⟨seconds, -, rfl⟩ := Except.map_eq_ok_iff.mp hf
        exact if_neg hk.2
      · obtain rfl := Except.ok.inj hf
        exact if_neg hk.1)

/-- The lines of `build_create_opts`, with the keys that they write. -/
def createWriters (args : CreateArgs ω) : List (Writer Exception String (Value ω)) :=
  [putWriter "image" (whenGiven args.image toStr),
    putWriter "from_snapshot" (whenGiven args.fromSnapshot toStr),
    putWriter "fstype" (whenGiven args.fstype toStr),
    putWriter "cpus" (whenGiven args.cpus toInt),
    putWriter "max_cpus" (whenGiven args.maxCpus toInt),
    putWriter "memory" (whenGiven args.memory toInt),
    putWriter "max_memory" (whenGiven args.maxMemory toInt),
    putWriter "workdir" (whenGiven args.workdir toStr),
    putWriter "shell" (whenGiven args.shell toStr),
    putWriter "user" (whenGiven args.user toStr),
    putWriter "hostname" (whenGiven args.hostname toStr),
    putWriter "env" (whenGiven args.env fun v => (stringify v).map strHash),
    putWriter "labels" (whenGiven args.labels fun v => (stringify v).map strHash),
    putWriter "scripts" (whenGiven args.scripts fun v => (stringify v).map strHash),
    putWriter "entrypoint" (unlessNilM args.entrypoint fun v => .ok (strArray v)),
    putWriter "cmd" (unlessNilM args.cmd fun v => .ok (strArray v)),
    putWriter "ports" (whenGiven args.ports intifyPorts),
    putWriter "ports_udp" (whenGiven args.portsUdp intifyPorts),
    putWriter "volumes" (whenGiven args.volumes volumesOption),
    putWriter "patches" (whenGiven args.patches fun v =>
      (Patches.normalizePatches v).map fun ps => .arr (ps.map strHash)),
    networkWriter args.network,
    putWriter "dns" (whenGiven args.dns fun v => (normalizeDns v).map strHash),
    putWriter "tls" (whenGiven args.tls fun v => (normalizeTls v).map strHash),
    putWriter "ipv4_pool" (whenGiven args.ipv4Pool toStr),
    putWriter "ipv6_pool" (whenGiven args.ipv6Pool toStr),
    putWriter "max_connections" (whenGiven args.maxConnections toInt),
    putWriter "trust_host_cas" (.ok (boolUnlessNil args.trustHostCas)),
    putWriter "strict" (.ok (boolUnlessNil args.strict)),
    putWriter "rate_limiter" (whenGiven args.rateLimiter fun v =>
      (normalizeRateLimiter v).map strHash),
    putWriter "proxy" (unlessNilM args.proxy fun v =>
      (Proxy.OutboundProxy.coerce v).map strHash),
    putWriter "vsock" (whenGiven args.vsock fun v =>
      (normalizeVsock v).map fun routes => .arr (routes.map strHash)),
    putWriter "log_level" (whenGiven args.logLevel toStr),
    flagWriter "quiet_logs" args.quietLogs.truthy,
    putWriter "security" (whenGiven args.security toStr),
    putWriter "root_disk" (rootDiskOption args),
    putWriter "max_duration" (whenGiven args.maxDuration toInt),
    putWriter "idle_timeout" (whenGiven args.idleTimeout toInt),
    putWriter "rlimits" (whenGiven args.rlimits normalizeRlimits),
    putWriter "pull_policy" (whenGiven args.pullPolicy toStr),
    registryWriter args.registryAuth args.registryInsecure args.registryCaCerts,
    putWriter "secrets" (whenGiven args.secrets fun v =>
      (Secrets.normalizeSecrets v).map fun specs => .arr (specs.map strHash)),
    putWriter "on_secret_violation" (whenGiven args.onSecretViolation Secrets.normalizeViolation),
    putWriter "init" (unlessNilM args.init fun v => (normalizeInit v).map strHash),
    flagWriter "ephemeral" args.ephemeral.truthy,
    flagWriter "detached" args.detached.truthy,
    replaceWriter args]

/-- The writers take the steps of `build_create_opts`. -/
theorem step_createWriters (args : CreateArgs ω) :
    (createWriters args).map Writer.step = createSteps args := rfl

/-- So they build its options. -/
theorem run_createWriters (args : CreateArgs ω) (opts : Opts ω) :
    run (createWriters args) opts = runSteps (createSteps args) opts := by
  rw [← step_createWriters, runSteps, List.foldlM_map]
  rfl

/-- The keys of each line. -/
def createKeys : List (List String) :=
  [["image"], ["from_snapshot"], ["fstype"], ["cpus"], ["max_cpus"], ["memory"], ["max_memory"],
    ["workdir"], ["shell"], ["user"], ["hostname"], ["env"], ["labels"], ["scripts"],
    ["entrypoint"], ["cmd"], ["ports"], ["ports_udp"], ["volumes"], ["patches"],
    ["network", "network_profiles", "network_policy"], ["dns"], ["tls"], ["ipv4_pool"],
    ["ipv6_pool"], ["max_connections"], ["trust_host_cas"], ["strict"], ["rate_limiter"],
    ["proxy"], ["vsock"], ["log_level"], ["quiet_logs"], ["security"], ["root_disk"],
    ["max_duration"], ["idle_timeout"], ["rlimits"], ["pull_policy"],
    ["registry_username", "registry_password", "registry_insecure", "registry_ca_certs"],
    ["secrets"], ["on_secret_violation"], ["init"], ["ephemeral"], ["detached"],
    ["replace", "replace_with_timeout"]]

/-- The keys do not depend on the arguments. -/
theorem keys_createWriters (args : CreateArgs ω) :
    (createWriters args).map Writer.keys = createKeys := rfl

/-- No key is written by two of the lines. -/
theorem nodup_createKeys : createKeys.flatten.Nodup := by decide +kernel

/-- Nor by two of the writers. -/
theorem nodup_createWriters (args : CreateArgs ω) :
    ((createWriters args).flatMap Writer.keys).Nodup := by
  rw [List.flatMap_def, keys_createWriters]
  exact nodup_createKeys

/-- What the lines that write some of the keys write, when no other is there. -/
def alone (args : CreateArgs ω) (keys : List String) : Except Exception (Opts ω) :=
  run (writing keys (createWriters args)) ∅

/-- A call is accepted if no combination is refused and every line runs. -/
theorem buildCreateOpts_eq_ok_iff {args : CreateArgs ω} {opts : Opts ω} :
    buildCreateOpts args = .ok opts ↔
      checkCombinations args = .ok () ∧ run (createWriters args) ∅ = .ok opts := by
  rw [run_createWriters]
  unfold buildCreateOpts
  cases checkCombinations args with
  | error e =>
    constructor
    · intro h
      cases h
    · rintro ⟨h, -⟩
      cases h
  | ok u => exact (and_iff_right rfl).symm

/-- A call is rejected for a combination, or by the first line that raises. -/
theorem buildCreateOpts_eq_error_iff {args : CreateArgs ω} {e : Exception} :
    buildCreateOpts args = .error e ↔ checkCombinations args = .error e ∨
      checkCombinations args = .ok () ∧ run (createWriters args) ∅ = .error e := by
  rw [run_createWriters]
  unfold buildCreateOpts
  cases checkCombinations args with
  | error e' => simp [bind, Except.bind]
  | ok u => simp [bind, Except.bind]

/-- Of an accepted call, the lines of any keys run alone, and write what they wrote. -/
theorem exists_alone {args : CreateArgs ω} {opts : Opts ω} (h : buildCreateOpts args = .ok opts)
    (keys : List String) :
    ∃ w, alone args keys = .ok w ∧ ∀ k ∈ keys, opts.lookup k = w.lookup k :=
  exists_run_writing (nodup_createWriters args) (buildCreateOpts_eq_ok_iff.mp h).2 keys

end Create

/-! ## Parts -/

/-- A reader of a Hash depends on what stands under the keys alone. -/
def Reads {α : Type} (keys : List String) (f : RHash ω → α) : Prop :=
  ∀ h h', (∀ k ∈ keys, get h k = get h' k) → f h = f h'

/-- What is computed from what was read reads no more. -/
theorem Reads.map {α β : Type} {keys : List String} {f : RHash ω → α} (hf : Reads keys f)
    (g : α → β) : Reads keys fun h => g (f h) :=
  fun h h' hkeys => congrArg g (hf h h' hkeys)

section Readers

variable (key : String)

/-- A key that reads alike. -/
theorem get_eq {h h' : RHash ω} (hkeys : ∀ k ∈ [key], get h k = get h' k) :
    get h key = get h' key :=
  hkeys key (List.mem_singleton.mpr rfl)

/-- An option reads its key. -/
theorem reads_opt {α : Type} (f : Value ω → Except Exception α) :
    Reads [key] fun h => opt f h key := by
  intro h h' hkeys
  simp only [opt, get_eq key hkeys]

/-- A list of Strings reads its key. -/
theorem reads_optStringVec : Reads [key] fun h : RHash ω => optStringVec h key := by
  intro h h' hkeys
  simp only [optStringVec, get_eq key hkeys]

/-- A list of Hashes reads its key. -/
theorem reads_optHashVec : Reads [key] fun h : RHash ω => optHashVec h key := by
  intro h h' hkeys
  simp only [optHashVec, get_eq key hkeys]

/-- A Hash of Strings reads its key. -/
theorem reads_optStringMap : Reads [key] fun h : RHash ω => optStringMap h key := by
  intro h h' hkeys
  simp only [optStringMap, get_eq key hkeys]

/-- A Hash of ports reads its key. -/
theorem reads_optPortMap [Numeric ω] : Reads [key] fun h : RHash ω => optPortMap h key := by
  intro h h' hkeys
  simp only [optPortMap, get_eq key hkeys]

/-- A flag reads its key. -/
theorem reads_optBool : Reads [key] fun h : RHash ω => optBool h key :=
  (reads_opt key tryBool).map fun b => b.map fun b => b.getD false

/-- A parsed text reads its key. -/
theorem reads_optParsed {α : Type} (parse : String → Except Exception α) :
    Reads [key] fun h : RHash ω => optParsed parse h key := by
  intro h h' hkeys
  simp only [optParsed, optString, reads_opt key tryString h h' hkeys]

/-- A parsed Hash reads its key. -/
theorem reads_optHash {α : Type} (parse : RHash ω → Except Exception α) :
    Reads [key] fun h => optHash parse h key := by
  intro h h' hkeys
  simp only [optHash, reads_opt key tryHash h h' hkeys]

end Readers

section Parts

variable [Numeric ω] (core : BuilderCore T ω) (hostPaths : HostPaths) (process : Process)

/-- A part of `build_builder`, by its position. -/
def part (i : ℕ) (opts : RHash ω) : Calls T :=
  (builderParts core hostPaths process opts).getD i (.ok [])

omit [Numeric ω] in
/-- The image is read with its file system type. -/
theorem reads_imageCalls : Reads ["image", "fstype"] (imageCalls core hostPaths process) := by
  intro h h' hkeys
  have himage : get h "image" = get h' "image" := hkeys _ (by decide)
  have hfstype : get h "fstype" = get h' "fstype" := hkeys _ (by decide)
  simp only [imageCalls, optString, opt, himage, hfstype]

omit [Numeric ω] in
/-- The preset has a key of its own. -/
theorem reads_presetRoute : Reads ["network"] fun h : RHash ω => presetRoute core.network h := by
  intro h h' hkeys
  simp only [presetRoute, optString, reads_opt "network" tryString h h' hkeys]

omit [Numeric ω] in
/-- The profiles have a key of their own. -/
theorem reads_profilesRoute :
    Reads ["network_profiles"] fun h : RHash ω => profilesRoute core.network h := by
  intro h h' hkeys
  simp only [profilesRoute, reads_optStringVec "network_profiles" h h' hkeys]

omit [Numeric ω] in
/-- A custom policy has a key of its own. -/
theorem reads_parseNetworkPolicy :
    Reads ["network_policy"] fun h : RHash ω => parseNetworkPolicy core.network h := by
  intro h h' hkeys
  simp only [parseNetworkPolicy, reads_opt "network_policy" tryHash h h' hkeys]

omit [Numeric ω] in
/-- The registry has four keys. -/
theorem reads_parseRegistryConfig :
    Reads ["registry_username", "registry_password", "registry_insecure", "registry_ca_certs"]
      fun h : RHash ω => parseRegistryConfig h := by
  intro h h' hkeys
  have husername : get h "registry_username" = get h' "registry_username" := hkeys _ (by decide)
  have hpassword : get h "registry_password" = get h' "registry_password" := hkeys _ (by decide)
  have hinsecure : get h "registry_insecure" = get h' "registry_insecure" := hkeys _ (by decide)
  have hcaCerts : get h "registry_ca_certs" = get h' "registry_ca_certs" := hkeys _ (by decide)
  simp only [parseRegistryConfig, optString, optBool, optStringVec, opt, husername, hpassword,
    hinsecure, hcaCerts]

omit [Numeric ω] in
/-- The action has a key of its own. -/
theorem reads_buildViolation : Reads ["on_secret_violation"] fun h : RHash ω => buildViolation h := by
  intro h h' hkeys
  simp only [buildViolation, optViolation, optValue,
    reads_opt "on_secret_violation" .ok h h' hkeys]

/-- The advanced network settings have seven keys. -/
theorem reads_advancedCalls :
    Reads ["dns", "tls", "ipv4_pool", "ipv6_pool", "max_connections", "trust_host_cas", "strict"]
      (advancedCalls core hostPaths process) := by
  intro h h' hkeys
  have hdns : get h "dns" = get h' "dns" := hkeys _ (by decide)
  have htls : get h "tls" = get h' "tls" := hkeys _ (by decide)
  have hipv4 : get h "ipv4_pool" = get h' "ipv4_pool" := hkeys _ (by decide)
  have hipv6 : get h "ipv6_pool" = get h' "ipv6_pool" := hkeys _ (by decide)
  have hconnections : get h "max_connections" = get h' "max_connections" := hkeys _ (by decide)
  have hcas : get h "trust_host_cas" = get h' "trust_host_cas" := hkeys _ (by decide)
  have hstrict : get h "strict" = get h' "strict" := hkeys _ (by decide)
  simp only [advancedCalls, optHash, optParsed, optString, optU64, opt, hdns, htls, hipv4, hipv6,
    hconnections, hcas, hstrict]

omit [Numeric ω] in
/-- The timeout decides whether `replace` is looked at. -/
theorem reads_replaceCalls : Reads ["replace_with_timeout", "replace"] (replaceCalls core) := by
  intro h h' hkeys
  have htimeout : get h "replace_with_timeout" = get h' "replace_with_timeout" :=
    hkeys _ (by decide)
  have hreplace : get h "replace" = get h' "replace" := hkeys _ (by decide)
  simp only [replaceCalls, optBool, opt, htimeout, hreplace]

/-- The limits have a key of their own. -/
theorem reads_parseRlimits : Reads ["rlimits"] fun h : RHash ω => parseRlimits h := by
  intro h h' hkeys
  simp only [parseRlimits, reads_opt "rlimits" (tryVec tryTriple) h h' hkeys]

/-- The root disk has a key of its own. -/
theorem reads_rootDiskCalls : Reads ["root_disk"] (rootDiskCalls core hostPaths process) := by
  intro h h' hkeys
  have hvalue : optValue h "root_disk" = optValue h' "root_disk" :=
    reads_opt "root_disk" .ok h h' hkeys
  rw [rootDiskCalls, hvalue, rootDiskCalls]

/-- The keys that each part of `build_builder` reads. -/
def partKeys : List (List String) :=
  [["image", "fstype"], ["from_snapshot"], ["cpus"], ["max_cpus"], ["memory"], ["max_memory"],
    ["workdir"], ["shell"], ["user"], ["hostname"], ["env"], ["labels"], ["scripts"],
    ["entrypoint"], ["cmd"], ["ports"], ["vsock"], ["volumes"], ["patches"], ["network"],
    ["network_profiles"], ["network_policy"], ["log_level"], ["quiet_logs"], ["security"],
    ["pull_policy"], ["root_disk"],
    ["registry_username", "registry_password", "registry_insecure", "registry_ca_certs"],
    ["max_duration"], ["idle_timeout"], ["ports_udp"], ["rlimits"], ["secrets"],
    ["on_secret_violation"],
    ["dns", "tls", "ipv4_pool", "ipv6_pool", "max_connections", "trust_host_cas", "strict"],
    ["rate_limiter"], ["proxy"], ["init"], ["ephemeral"], ["detached"],
    ["replace_with_timeout", "replace"]]

/-- The parts, each with its place. -/
theorem builderParts_eq_map_part (opts : RHash ω) :
    builderParts core hostPaths process opts =
      partKeys.zipIdx.map fun p => part core hostPaths process p.2 opts := rfl

/-- Part by part, what is read. -/
theorem reads_parts :
    ∀ p ∈ partKeys.zipIdx, Reads p.1 (part core hostPaths process p.2) := by
  simp only [partKeys, List.zipIdx_cons, List.zipIdx_nil, List.forall_mem_cons]
  -- part by part, in the order of `builderParts`
  exact ⟨reads_imageCalls core hostPaths process,
    (reads_optParsed _ _).map fun x => callOpt x .fromSnapshot,
    (reads_opt _ tryU8).map fun x => callOpt x .cpus,
    (reads_opt _ tryU8).map fun x => callOpt x .maxCpus,
    (reads_opt _ tryU32).map fun x => callOpt x .memory,
    (reads_opt _ tryU32).map fun x => callOpt x .maxMemory,
    (reads_opt _ tryString).map fun x => callOpt x .workdir,
    (reads_opt _ tryString).map fun x => callOpt x .shell,
    (reads_opt _ tryString).map fun x => callOpt x .user,
    (reads_opt _ tryString).map fun x => callOpt x .hostname,
    (reads_optStringMap _).map fun x => callEach x fun e => .env e.1 e.2,
    (reads_optStringMap _).map fun x => callEach x fun e => .label e.1 e.2,
    (reads_optStringMap _).map fun x => callEach x fun e => .script e.1 e.2,
    (reads_opt _ (tryVec tryString)).map fun x => callOpt x .entrypoint,
    (reads_opt _ (tryVec tryString)).map fun x => callOpt x .cmd,
    (reads_optPortMap _).map fun x => callEach x fun p => .port p.1 p.2,
    (reads_optHashVec _).map fun x => x >>= fun hs => hs.mapM parseRoute,
    (reads_optHashVec _).map fun x =>
      callEach (x >>= fun hs => hs.mapM (parseMount core.parseFormat hostPaths process)) fun spec =>
        .volume spec.guest spec.apply,
    (reads_optHashVec _).map fun x =>
      callEach (x >>= fun hs => hs.mapM (parsePatch hostPaths process)) .addPatch,
    (reads_presetRoute core).map fun x => callOpt x settingCall,
    (reads_profilesRoute core).map fun x => callOpt x settingCall,
    (reads_parseNetworkPolicy core).map fun x => callOpt x fun p => settingCall (.policy p),
    (reads_optParsed _ logLevelFromStr).map fun x => callOpt x .logLevel,
    (reads_optBool _).map fun x => callFlag x .quietLogs,
    (reads_optParsed _ securityProfileFromStr).map fun x => callOpt x .security,
    (reads_optParsed _ pullPolicyFromStr).map fun x => callOpt x .pullPolicy,
    reads_rootDiskCalls core hostPaths process,
    reads_parseRegistryConfig.map fun x => callOpt x .registry,
    (reads_opt _ tryU64).map fun x => callOpt x .maxDuration,
    (reads_opt _ tryU64).map fun x => callOpt x .idleTimeout,
    (reads_optPortMap _).map fun x => callEach x fun p => .portUdp p.1 p.2,
    reads_parseRlimits.map fun x => callEach x fun r => .rlimitRange r.1 r.2.1 r.2.2,
    (reads_optHashVec _).map fun x =>
      callEach (x >>= fun hs => hs.mapM fun h =>
        (Secrets.parseSecret h).map Secrets.SecretSpec.apply) .secret,
    reads_buildViolation.map fun x => callOpt x fun calls => .network [.onSecretViolation calls],
    reads_advancedCalls core hostPaths process,
    (reads_optHash _ parseRateLimiter).map fun x => callOpt x fun calls =>
      .network [.rateLimiter calls],
    (reads_optHash _ Proxy.applyOutboundProxy).map fun x => callOpt x .proxy,
    (reads_optHash _ parseInit).map fun x => callOpt x fun i => .initWith i.1 i.2,
    (reads_optBool _).map fun x => callFlag x (.ephemeral true),
    (reads_optBool _).map fun x => callFlag x (.detached true),
    reads_replaceCalls core, fun _ h => absurd h List.not_mem_nil⟩

end Parts

/-! ## From the lines to the parts -/

section Main

variable [Methods ω] [Numeric ω] [Proxy.ProxyObjects ω] [CallerObjects ω]
  (core : BuilderCore T ω) (hostPaths : HostPaths) (process : Process)

/-- What a part of `build_builder` calls when only its own options are given. -/
def askedPart (args : CreateArgs ω) (p : List String × ℕ) : Calls T := do
  part core hostPaths process p.2 (strEntries (← alone args p.1))

/-- What `build_builder` is asked to call, each option by itself. -/
def asked (args : CreateArgs ω) : List (Calls T) :=
  partKeys.zipIdx.map (askedPart core hostPaths process args)

/-- Every line writes a key that some part reads. -/
theorem forall_exists_partKeys (args : CreateArgs ω) :
    ∀ writer ∈ createWriters args, ∃ keys ∈ partKeys, ∃ k ∈ writer.keys, k ∈ keys := by
  have hkeys : ∀ ks ∈ createKeys, ∃ keys ∈ partKeys, ∃ k ∈ ks, k ∈ keys := by decide +kernel
  intro writer hmem
  -- The keys do not depend on the arguments, so the two tables settle it.
  refine hkeys writer.keys ?_
  rw [← keys_createWriters args]
  exact List.mem_map_of_mem hmem

/-- A part calls what it calls when the lines of its keys have run alone. -/
theorem part_eq_askedPart {args : CreateArgs ω} {opts : Opts ω}
    (h : buildCreateOpts args = .ok opts) {p : List String × ℕ} (hp : p ∈ partKeys.zipIdx) :
    part core hostPaths process p.2 (strEntries opts) = askedPart core hostPaths process args p := by
  obtain ⟨w, hw, hlookup⟩ := exists_alone h p.1
  unfold askedPart
  rw [hw]
  -- The part sees the two Hashes under its own keys alone, and there they agree.
  refine reads_parts core hostPaths process p hp _ _ fun k hk => ?_
  rw [get_strEntries, get_strEntries, hlookup k hk]

/-- The options of a create call do not disturb each other. They are accepted together if they are
accepted one by one and none of the refused combinations is among them, and where they are not, it
is by the exception of the combination or of one of them. `build_builder` then makes of each of them
the calls that it makes of it alone. -/
theorem options_arrive (args : CreateArgs ω) :
    ((∃ opts, buildCreateOpts args = .ok opts) ↔
      checkCombinations args = .ok () ∧ ∀ keys ∈ partKeys, ∃ w, alone args keys = .ok w) ∧
    (∀ e, buildCreateOpts args = .error e →
      checkCombinations args = .error e ∨ ∃ keys ∈ partKeys, alone args keys = .error e) ∧
    ∀ opts, buildCreateOpts args = .ok opts →
      builderParts core hostPaths process (strEntries opts) = asked core hostPaths process args := by
  refine ⟨?_, ?_, ?_⟩
  · simp only [buildCreateOpts_eq_ok_iff, exists_and_left]
    exact and_congr_right fun _ =>
      exists_run_iff_writing (nodup_createWriters args) (forall_exists_partKeys args)
  · intro e h
    rcases buildCreateOpts_eq_error_iff.mp h with hcombination | ⟨-, hrun⟩
    · exact .inl hcombination
    · exact .inr (exists_run_writing_error (nodup_createWriters args)
        (forall_exists_partKeys args) hrun)
  · intro opts h
    rw [builderParts_eq_map_part]
    exact List.map_congr_left fun p hp => part_eq_askedPart core hostPaths process h hp

end Main

/-- Three options of three kinds. -/
def smallArgs : CreateArgs Unit where
  cpus := .int 2
  workdir := .str "/srv"
  quietLogs := .bool true

/-- The three options make three calls. -/
theorem options_arrive_small :
    ∃ opts, buildCreateOpts smallArgs = .ok opts ∧
      builderParts smallBuilderCore ⟨false⟩ homeProcess (strEntries opts) =
        asked smallBuilderCore ⟨false⟩ homeProcess smallArgs ∧
      buildBuilder smallBuilderCore ⟨false⟩ homeProcess (strEntries opts) =
        .ok [.cpus 2, .workdir "/srv", .quietLogs] :=
  ⟨_, rfl, (options_arrive smallBuilderCore ⟨false⟩ homeProcess smallArgs).2.2 _ rfl, rfl⟩

end MicrosandboxRb.Create
