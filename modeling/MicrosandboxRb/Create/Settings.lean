import MicrosandboxRb.Create.Wire

/-!
# Settings of a create call

The normalization of the smaller options of `build_create_opts` (`sandbox.rb`): maps of names to
values, ports, the init process, registry credentials, rate limits, vsock routes, DNS, TLS and
resource limits.

## Main definitions

* `stringify`, `intifyPorts`, `normalizeInit`, `applyRegistryOpts`,
  `normalizeRateLimiter`, `normalizeVsock`, `normalizeDns`, `normalizeTls`, `normalizeRlimits`.
-/

namespace MicrosandboxRb.Create

open Ruby Conv

variable {ω : Type}

/-! ## Objects of a caller -/

/-- What the builders ask of an object that is not of a built-in class. -/
class CallerObjects (ω : Type) where
  -- `to_h`, where the object has it, with the `TypeError`s among its errors
  toH : ω → Option (Except Exception (Entries ω))
  -- the Array that `to_ary` returns, where the object has it
  toAry : ω → Option (List (Value ω))
  -- what `each` yields, for an object with the methods of `Enumerable`
  each : ω → Option (List (Value ω))
  -- `o[key]` and `o.keys`
  index : ω → Value ω → Except Exception (Value ω)
  keys : ω → Except Exception (Value ω)
  -- `a.eql?(b)` on the keys of a Hash
  eql : Value ω → Value ω → Bool

/-- Objects without methods of their own. -/
instance : CallerObjects Unit where
  toH _ := none
  toAry _ := none
  each _ := none
  index _ _ := .error (.noMethodError "[]")
  keys _ := .error (.noMethodError "keys")
  eql
    | .str s, .str t => s == t
    | .sym s, .sym t => s == t
    | .int m, .int n => m == n
    | .bool b, .bool c => b == c
    | .nil, .nil => true
    | _, _ => false

section Enumerate

variable [CallerObjects ω]

/-- The Array that a value is, or converts to. -/
def asAry? : Value ω → Option (List (Value ω))
  | .arr xs => some xs
  | .obj o => CallerObjects.toAry o
  | _ => none

/-- A block argument that is destructured into two. -/
def destructure (v : Value ω) : Value ω × Value ω :=
  match asAry? v with
  | some (a :: b :: _) => (a, b)
  | some [a] => (a, .nil)
  | some [] => (.nil, .nil)
  | none => (v, .nil)

/-- What a method of `Enumerable` yields to a block of two arguments. -/
def eachPair (v : Value ω) (method : String) : Except Exception (List (Value ω × Value ω)) :=
  match v with
  | .hash es => .ok es
  | .arr xs => .ok (xs.map destructure)
  | .obj o =>
    match CallerObjects.each o with
    | some xs => .ok (xs.map destructure)
    | none => .error (.noMethodError method)
  | _ => .error (.noMethodError method)

/-- `hash[key] = value` on the entries of a Hash. -/
def storeEntry (es : Entries ω) (key value : Value ω) : Entries ω :=
  match es with
  | [] => [(key, value)]
  | e :: es => if CallerObjects.eql e.1 key then (e.1, value) :: es else e :: storeEntry es key value

/-- The element at an index, as a pair of `Array#to_h`. -/
def asPair (i : ℕ) (v : Value ω) : Except Exception (Value ω × Value ω) :=
  match asAry? v with
  | some [a, b] => .ok (a, b)
  | some xs =>
    .error (.argumentError s!"wrong array length at {i} (expected 2, was {xs.length})")
  | none => .error (.typeError "Array")

/-- The elements from an index on, as pairs. -/
def asPairs (i : ℕ) : List (Value ω) → Except Exception (List (Value ω × Value ω))
  | [] => .ok []
  | v :: vs => do
    let pair ← asPair i v
    return pair :: (← asPairs (i + 1) vs)

/-- `hash.to_h`, where the value has that method. -/
def toH? (v : Value ω) : Option (Except Exception (Entries ω)) :=
  match v with
  | .nil => some (.ok [])
  | .hash es => some (.ok es)
  | .arr xs =>
    some ((asPairs 0 xs).map fun pairs => pairs.foldl (fun es e => storeEntry es e.1 e.2) [])
  | .obj o => CallerObjects.toH o
  | _ => none

end Enumerate

section Normalize

variable [Methods ω] [Numeric ω] [CallerObjects ω]

/-! ## Names and values -/

omit [Numeric ω] in
/-- Names to values, both as Strings. A `TypeError` of the conversion is rescued. -/
def stringify (hash : Value ω) : Except Exception (Opts ω) :=
  let refused : Except Exception (Opts ω) :=
    .error (.argumentError s!"expected a Hash of names to values (got {hash.className})")
  match toH? hash with
  | none => refused
  | some (.ok pairs) => .ok (transformKeys Value.toS (pairs.map fun e => (e.1, .str e.2.toS)))
  | some (.error (.typeError _)) => refused
  | some (.error e) => .error e

/-- Ports to ports, both as Integers. -/
def intifyPorts (ports : Value ω) : Except Exception (Value ω) := do
  let pairs ← eachPair ports "each_with_object"
  let pairs ← pairs.mapM fun e => do
    let k ← integer e.1
    let v ← integer e.2
    return (k, v)
  -- a Hash keeps one entry for an Integer
  let ports := pairs.foldl (fun (m : AssocMap ℤ ℤ) e => m.insert e.1 e.2) ∅
  return .hash (ports.entries.map fun e => (.int e.1, .int e.2))

omit [Numeric ω] in
/-- `Array(v).map(&:to_s)`, as an Array. -/
def strArray (v : Value ω) : Value ω := .arr ((v.array.map Value.toS).map .str)

omit [Numeric ω] in
/-- Normalize `init:`. -/
def normalizeInit (init : Value ω) : Except Exception (Opts ω) :=
  match init with
  | .str s | .sym s => .ok (AList.singleton "cmd" (.str s))
  | .hash init => do
    let cmd := either init "cmd"
    if !cmd.truthy then throw (.argumentError "init: requires a :cmd")
    let spec : Opts ω := AList.singleton "cmd" (.str cmd.toS)
    let args := either init "args"
    let spec := insertSome spec "args" (if args.truthy then some (strArray args) else none)
    let env := either init "env"
    if env.truthy then return spec.insert "env" (strHash (← stringify env))
    else return spec
  | _ =>
    .error (.argumentError "init: must be a String command or a Hash \x7bcmd:, args:, env:\x7d")

/-! ## Registries -/

omit [Methods ω] [Numeric ω] in
/-- `auth[key]`. -/
def authAt (auth : Value ω) (key : Value ω) : Except Exception (Value ω) :=
  match auth with
  | .hash es =>
    match key with
    | .sym s => .ok ((atSym es s).getD .nil)
    | .str s => .ok ((atStr es s).getD .nil)
    | _ => .ok .nil
  | .obj o => CallerObjects.index o key
  | .str _ | .sym _ | .arr _ | .int _ => .error (.typeError "Integer")
  | _ => .error (.noMethodError "[]")

omit [Methods ω] [Numeric ω] in
/-- `auth[:key] || auth["key"]`. -/
def authEither (auth : Value ω) (key : String) : Except Exception (Value ω) := do
  let v ← authAt auth (.sym key)
  if v.truthy then return v else authAt auth (.str key)

omit [Methods ω] [Numeric ω] in
/-- `auth.keys`. -/
def authKeys (auth : Value ω) : Except Exception (Value ω) :=
  match auth with
  | .hash es => .ok (.arr (es.map Prod.fst))
  | .obj o => CallerObjects.keys o
  | _ => .error (.noMethodError "keys")

omit [Numeric ω] in
/-- The credentials of `registry_auth:`. -/
def registryAuth (auth : Value ω) : Except Exception (String × String) := do
  let username ← authEither auth "username"
  let password ← authEither auth "password"
  if username.truthy && password.truthy then return (username.toS, password.toS)
  else
    let keys ← authKeys auth
    throw (.argumentError
      s!"registry_auth needs :username and :password (got keys: {keys.inspect})")

omit [Numeric ω] in
/-- The credentials, where `registry_auth:` is given. -/
def registryCredentials (auth : Value ω) : Except Exception (Option (String × String)) :=
  if auth.truthy then (registryAuth auth).map some else .ok none

omit [Numeric ω] in
/-- Flatten the registry options. -/
def applyRegistryOpts (opts : Opts ω) (auth insecure caCerts : Value ω) :
    Except Exception (Opts ω) := do
  let credentials ← registryCredentials auth
  let opts := insertSome opts "registry_username" (credentials.map fun c => .str c.1)
  let opts := insertSome opts "registry_password" (credentials.map fun c => .str c.2)
  let opts := setFlag opts "registry_insecure" insecure.truthy
  return insertSome opts "registry_ca_certs"
    (if caCerts.truthy then some (strArray caCerts) else none)

/-! ## Networks -/

omit [CallerObjects ω] in
/-- One token bucket of `rate_limiter:`. -/
def normalizeBucket (bucket : Entries ω) (dir dim : String) : Except Exception (Opts ω) := do
  let size := fetchOpt bucket "size"
  let refill := fetchOpt bucket "refill_time_ms"
  if size.isNil || refill.isNil then
    throw (.argumentError s!"rate_limiter {dir} {dim}: requires size: and refill_time_ms:")
  let bout : Opts ω := AList.singleton "size" (.int (← integer size))
  let bout := bout.insert "refill_time_ms" (.int (← integer refill))
  -- unlike `size:`, a burst of `false` counts as missing
  let burst := fetchOpt bucket "one_time_burst"
  if burst.truthy then return bout.insert "one_time_burst" (.int (← integer burst))
  else return bout

omit [CallerObjects ω] in
/-- One direction of `rate_limiter:`. -/
def normalizeDirection (spec : Entries ω) (dir : String) : Except Exception (Opts ω) :=
  ["bandwidth", "ops"].foldlM (fun dout dim =>
    match fetchOpt spec dim with
    | .nil => .ok dout
    | .hash bucket => (normalizeBucket bucket dir dim).map fun b => dout.insert dim (strHash b)
    | _ => .error (.argumentError s!"rate_limiter {dir} {dim}: must be a Hash")) ∅

omit [CallerObjects ω] in
/-- Normalize `rate_limiter:`. -/
def normalizeRateLimiter (rl : Value ω) : Except Exception (Opts ω) :=
  match rl with
  | .hash rl =>
    ["egress", "ingress"].foldlM (fun out dir =>
      match fetchOpt rl dir with
      | .nil => .ok out
      | .hash spec => (normalizeDirection spec dir).map fun d => out.insert dir (strHash d)
      | _ => .error (.argumentError s!"rate_limiter {dir}: must be a Hash")) ∅
  | _ => .error (.argumentError "rate_limiter: must be a Hash")

omit [CallerObjects ω] in
/-- One route of the Array form of `vsock:`. -/
def normalizeRoute (route : Value ω) : Except Exception (Opts ω) :=
  match route with
  | .hash route => do
    let path := fetchOpt route "host_socket"
    let port := fetchOpt route "port"
    if path.isNil || port.isNil then
      throw (.argumentError "vsock route requires host_socket: and port:")
    let out : Opts ω := AList.singleton "host_socket" (.str path.toS)
    let out := out.insert "port" (.int (← integer port))
    return insertSome out "socket_type" (strIf (fetchOpt route "socket_type"))
  | _ =>
    .error (.argumentError
      "vsock: array entries must be Hashes \x7bhost_socket:, port:, socket_type:\x7d")

omit [CallerObjects ω] in
/-- Normalize `vsock:`. -/
def normalizeVsock (vsock : Value ω) : Except Exception (List (Opts ω)) :=
  match vsock with
  | .hash routes =>
    routes.mapM fun e => (integer e.2).map fun port =>
      (AList.singleton "host_socket" (.str e.1.toS) : Opts ω).insert "port" (.int port)
  | .arr routes => routes.mapM normalizeRoute
  | _ =>
    .error (.argumentError
      "vsock: must be a Hash of \x7bhost_socket => port\x7d or an Array of route Hashes")

omit [CallerObjects ω] in
/-- Normalize `dns:`. -/
def normalizeDns (dns : Value ω) : Except Exception (Opts ω) :=
  match dns with
  | .hash dns => do
    let ns := either dns "nameservers"
    let out : Opts ω := insertSome ∅ "nameservers" (if ns.truthy then some (strArray ns) else none)
    let out := insertSome out "rebind_protection" (boolUnlessNil (fetchOpt dns "rebind_protection"))
    let qt := either dns "query_timeout_ms"
    if qt.truthy then return out.insert "query_timeout_ms" (.int (← integer qt)) else return out
  | _ => .error (.argumentError "dns: must be a Hash")

/-- The keys of `tls:` that hold host paths. -/
def certificateKeys : List String := ["upstream_ca_cert", "intercept_ca_cert", "intercept_ca_key"]

omit [CallerObjects ω] in
/-- Normalize `tls:`. -/
def normalizeTls (tls : Value ω) : Except Exception (Opts ω) :=
  match tls with
  | .hash tls => do
    let bypass := either tls "bypass"
    let out : Opts ω :=
      insertSome ∅ "bypass" (if bypass.truthy then some (strArray bypass) else none)
    let out := insertSome out "verify_upstream" (boolUnlessNil (fetchOpt tls "verify_upstream"))
    let ports := either tls "intercepted_ports"
    let intercepted ←
      if ports.truthy then (ports.array.mapM integer).map some else .ok none
    let out := insertSome out "intercepted_ports" (intercepted.map fun ps => .arr (ps.map .int))
    let out := insertSome out "block_quic" (boolUnlessNil (fetchOpt tls "block_quic"))
    return certificateKeys.foldl (fun out key => insertSome out key (strIf (either tls key))) out
  | _ => .error (.argumentError "tls: must be a Hash")

/-! ## Resource limits -/

omit [Methods ω] [Numeric ω] [CallerObjects ω] in
/-- The soft and the hard limit. -/
def softHard (limit : Value ω) : Value ω × Value ω :=
  match limit with
  | .arr xs => (xs.getD 0 .nil, xs.getD 1 .nil)
  | limit => (limit, limit)

/-- Normalize `rlimits:` into triples. -/
def normalizeRlimits (rlimits : Value ω) : Except Exception (Value ω) := do
  let pairs ← eachPair rlimits "map"
  let triples ← pairs.mapM fun e => do
    let soft ← integer (softHard e.2).1
    let hard ← integer (softHard e.2).2
    return (Value.arr [.str e.1.toS, .int soft, .int hard] : Value ω)
  return .arr triples

end Normalize

end MicrosandboxRb.Create
