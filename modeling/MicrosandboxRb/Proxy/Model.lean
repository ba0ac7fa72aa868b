import MicrosandboxRb.Error
import MicrosandboxRb.Lib.ExceptList
import MicrosandboxRb.Lib.RubyNumeric
import MicrosandboxRb.Lib.RustStr
import MicrosandboxRb.Options

/-!
# Outbound proxies

The value objects behind the `proxy:` option (`outbound_proxy.rb`) and the native function that turns
their wire form into calls of the core's builder (`apply_outbound_proxy`, `sandbox.rs`).

A `SecretSource` and an `OutboundProxy` are values here, with the rules of their constructors as
fields. Texts are valid UTF-8.

## Main definitions

* `SecretSource.coerce`, `SecretSource.new`: password sources;
* `OutboundProxy.coerce`, `OutboundProxy.fromHash`, `OutboundProxy.new`: proxies;
* `applyOutboundProxy`: the calls of the builder.
-/

namespace MicrosandboxRb.Proxy

open Ruby Conv

variable {ω : Type}

/-- The text of a String or a Symbol. -/
def text? : Value ω → Option String
  | .str s => some s
  | .sym s => some s
  | _ => none

/-! ## Password sources -/

/-- `KINDS` of `SecretSource`. -/
def KINDS : List String := ["env"]

/-- A `SecretSource`, which no kind but those of the list can make. -/
structure SecretSource where
  kind : String
  var : String
  kind_mem : kind ∈ KINDS
  var_ne_empty : var ≠ ""
deriving DecidableEq, Repr

/-- Which objects are password sources. -/
class SourceObjects (ω : Type) where
  secretSource? : ω → Option SecretSource

instance : SourceObjects Unit where
  secretSource? _ := none

section Source

variable [Methods ω]

/-- `SecretSource#initialize`. -/
def SecretSource.new (kind var : Value ω) : Except Exception SecretSource :=
  match text? kind with
  | none => .error (.argumentError s!"secret source kind must be \"env\" (got {kind.className})")
  | some kindText =>
    if hkind : kindText ∈ KINDS then
      match text? var with
      | none => .error (.argumentError
          s!"secret source environment variable must be a String name (got {var.className})")
      | some varText =>
        if hvar : varText = "" then
          .error (.argumentError "secret source environment variable must not be empty")
        else .ok { kind := kindText, var := varText, kind_mem := hkind, var_ne_empty := hvar }
    else
      .error (.argumentError ("secret source kind must be \"env\" (only environment-backed " ++
        s!"secret sources are supported; got an unsupported {kind.className})"))

/-- The source that an object is. -/
def secretSource? [SourceObjects ω] : Value ω → Option SecretSource
  | .obj o => SourceObjects.secretSource? o
  | _ => none

/-- `SecretSource.coerce`: the object itself or a Hash that describes it. -/
def SecretSource.coerce [SourceObjects ω] (value : Value ω) (context : String) :
    Except Exception SecretSource :=
  match value with
  | .hash value =>
    let env := fetchOpt value "env"
    -- `env:` decides alone, whatever else the Hash has
    if !env.isNil then SecretSource.new (.str "env") env
    else
      let kind := fetchOpt value "kind"
      let var := fetchOpt value "var"
      if kind.isNil && var.isNil then
        .error (.argumentError (s!"{context}: expects \x7b env: \"VAR\" \x7d naming a host " ++
          "environment variable (got a Hash without env:; plaintext password values are not " ++
          "accepted)"))
      else SecretSource.new kind var
  | value =>
    match secretSource? value with
    | some s => .ok s
    | none =>
      .error (.argumentError (s!"{context}: expects a Microsandbox::SecretSource " ++
        s!"(SecretSource.env(\"VAR\")) or a Hash \x7b env: \"VAR\" \x7d (got {value.className}; " ++
        "plaintext password values are not accepted)"))

end Source

/-- `SecretSource#to_h`. -/
def SecretSource.toH (s : SecretSource) : Opts ω :=
  let h : Opts ω := AList.insert "kind" (.str s.kind) ∅
  h.insert "var" (.str s.var)

/-! ## Proxies -/

/-- `PROTOCOLS` of `OutboundProxy`. -/
def PROTOCOLS : List String := ["socks4", "socks5"]

/-- `%r{@|://|\s}`, which matches a URL and text around an address. -/
def urlShaped (address : String) : Bool :=
  address.toList.any (fun c => c == '@' || isSpace c) ||
    address.toList.tails.any fun t => [':', '/', '/'].isPrefixOf t

/-- An address as a proxy may have it. The core parses it. -/
structure Address where
  text : String
  ne_empty : text ≠ ""
  shape : urlShaped text = false
deriving DecidableEq, Repr

/-- An `OutboundProxy`: its credentials come together or not at all, and only with SOCKS5. -/
@[ext] structure OutboundProxy where
  protocol : String
  address : Address
  userId : Option String
  username : Option String
  password : Option SecretSource
  protocol_mem : protocol ∈ PROTOCOLS
  socks4_of_userId : userId ≠ none → protocol = "socks4"
  socks5_of_username : username ≠ none → protocol = "socks5"
  paired : username = none ↔ password = none
deriving DecidableEq, Repr

/-- Which objects are password sources and which are proxies. -/
class ProxyObjects (ω : Type) extends SourceObjects ω where
  outboundProxy? : ω → Option OutboundProxy

instance : ProxyObjects Unit where
  outboundProxy? _ := none

/-- The proxy that an object is. -/
def outboundProxy? [ProxyObjects ω] : Value ω → Option OutboundProxy
  | .obj o => ProxyObjects.outboundProxy? o
  | _ => none

/-- `String#downcase`, as far as the result is ASCII: the Kelvin sign is the only other character
whose lower case is an ASCII letter. -/
def protocolText (s : String) : String :=
  String.ofList (s.toList.map fun c => if c == '\u212a' then 'k' else c.toLower)

/-- A `password:` argument: a value of a caller, or a source that was coerced before. -/
inductive PasswordArg (ω : Type) where
  | value (v : Value ω)
  | source (s : SecretSource)

namespace PasswordArg

/-- Whether the argument is `nil`. -/
def isNil : PasswordArg ω → Bool
  | value v => v.isNil
  | source _ => false

/-- The source, where the argument is one or is `nil`. -/
def source? [SourceObjects ω] : PasswordArg ω → Option (Option SecretSource)
  | value v => if v.isNil then some Option.none else (secretSource? v).map some
  | source s => some (some s)

/-- The class an error message names. -/
def className [Methods ω] : PasswordArg ω → String
  | value v => v.className
  | source _ => "Microsandbox::SecretSource"

/-- The argument names no source exactly if it is `nil`. -/
theorem eq_none_iff_isNil [SourceObjects ω] {arg : PasswordArg ω} {password : Option SecretSource}
    (h : arg.source? = some password) : password = none ↔ arg.isNil = true := by
  cases arg with
  | source s =>
    obtain rfl := Option.some.inj h
    exact ⟨fun h => (by cases h), fun h => (by cases h)⟩
  | value v =>
    rw [source?] at h
    split at h
    · rename_i hnil
      obtain rfl := Option.some.inj h
      exact ⟨fun _ => hnil, fun _ => rfl⟩
    · rename_i hnil
      obtain ⟨s, -, rfl⟩ := Option.map_eq_some_iff.mp h
      exact ⟨fun h => (by cases h), fun h => absurd h hnil⟩

end PasswordArg

namespace OutboundProxy

/-- The keywords of `OutboundProxy.new`. -/
structure Args (ω : Type) where
  protocol : Value ω
  address : Value ω
  userId : Value ω := .nil
  username : Value ω := .nil
  password : PasswordArg ω := .value .nil

section New

variable [Methods ω] [SourceObjects ω]

/-- A text that may be left out. -/
def identifier (name : String) (v : Value ω) : Except Exception (Option String) :=
  match v with
  | .nil => .ok none
  | v =>
    match text? v with
    | some s => .ok (some s)
    | none => .error (.argumentError s!"{name} must be a String (got {v.className})")

/-- The checks of `initialize` on an address. -/
def checkAddress (address : Value ω) : Except Exception Address :=
  match address with
  | .str text =>
    if hempty : text = "" then
      .error (.argumentError "proxy address must be a non-empty \"IP:port\" String (got \"\")")
    else if hshape : urlShaped text = true then
      .error (.argumentError ("proxy address must be \"IP:port\" with no scheme, credentials or " ++
        "whitespace (pass SOCKS5 credentials as username:/password:)"))
    else .ok { text, ne_empty := hempty, shape := Bool.not_eq_true _ ▸ hshape }
  | address => .error (.argumentError
      s!"proxy address must be a non-empty \"IP:port\" String (got {address.className})")

/-- `OutboundProxy#initialize`. -/
def new (args : Args ω) : Except Exception OutboundProxy :=
  match text? args.protocol with
  | none => .error (.argumentError ("unsupported outbound proxy protocol " ++
      s!"(got {args.protocol.className}; expected :socks4 or :socks5)"))
  | some text =>
    if hprotocol : protocolText text ∈ PROTOCOLS then do
      let address ← checkAddress args.address
      let userId ← identifier "SOCKS4 user_id" args.userId
      let username ← identifier "SOCKS5 username" args.username
      if huser : protocolText text ≠ "socks4" ∧ userId ≠ none then
        throw (.argumentError "user_id is only supported for SOCKS4 proxies")
      else if hcredentials : protocolText text ≠ "socks5" ∧
          ¬(username = none ∧ args.password.isNil = true) then
        throw (.argumentError "credentials are only supported for SOCKS5 proxies")
      else if hpaired : ¬(username = none ↔ args.password.isNil = true) then
        throw (.argumentError "SOCKS5 username and password must be provided together")
      else
        -- a plain password is no source, so it gets no further
        match hpassword : args.password.source? with
        | none => throw (.argumentError ("SOCKS5 password must be a Microsandbox::SecretSource " ++
            s!"(SecretSource.env(\"VAR\")), got {args.password.className}"))
        | some password =>
          return {
            protocol := protocolText text
            address
            userId
            username
            password
            protocol_mem := hprotocol
            socks4_of_userId := fun h => by_contra fun hne => huser ⟨hne, h⟩
            socks5_of_username := fun h =>
              by_contra fun hne => hcredentials ⟨hne, fun hnone => h hnone.1⟩
            paired := (not_not.mp hpaired).trans (PasswordArg.eq_none_iff_isNil hpassword).symm }
    else .error (.argumentError
      "unsupported outbound proxy protocol (expected :socks4 or :socks5)")

end New

/-- `to_h`, the wire form for the native layer. -/
def toH (p : OutboundProxy) : Opts ω :=
  let h : Opts ω := AList.insert "protocol" (.str p.protocol) ∅
  let h := h.insert "address" (.str p.address.text)
  let h := insertSome h "user_id" (p.userId.map .str)
  -- the password goes out as its source, never as its value
  match p.username, p.password with
  | some username, some password =>
    let credentials : Opts ω := AList.insert "username" (.str username) ∅
    h.insert "credentials" (strHash (credentials.insert "password" (strHash password.toH)))
  | _, _ => h

section Coerce

variable [Methods ω]

/-- The `credentials:` of a Hash, as a username and a password source. -/
def hashCredentials [SourceObjects ω] (credentials : Value ω) :
    Except Exception (Value ω × PasswordArg ω) :=
  match credentials with
  | .nil => .ok (.nil, .value .nil)
  | .hash credentials => do
    let username := fetchOpt credentials "username"
    let password := fetchOpt credentials "password"
    if username.isNil || password.isNil then
      throw (.argumentError "proxy credentials: requires both username: and password:")
    return (username, .source (← SecretSource.coerce password "proxy credentials password"))
  | credentials => .error (.argumentError ("proxy credentials: must be a Hash \x7b username:, " ++
      s!"password: \x7d (got {credentials.className})"))

/-- `OutboundProxy.from_hash`. -/
def fromHash [SourceObjects ω] (hash : Entries ω) : Except Exception OutboundProxy := do
  let protocol := fetchOpt hash "protocol"
  if protocol.isNil then
    throw (.argumentError "proxy: requires protocol: (:socks4 or :socks5)")
  let address := fetchOpt hash "address"
  if address.isNil then throw (.argumentError "proxy: requires address:")
  let userId := fetchOpt hash "user_id"
  let (username, password) ← hashCredentials (fetchOpt hash "credentials")
  new { protocol, address, userId, username, password }

/-- `OutboundProxy.coerce`, down to the wire form. -/
def coerce [ProxyObjects ω] (value : Value ω) : Except Exception (Opts ω) :=
  match outboundProxy? value with
  | some p => .ok p.toH
  | none =>
    match value with
    | .hash hash => (fromHash hash).map toH
    | value => .error (.argumentError ("proxy: expects a Microsandbox::OutboundProxy " ++
        "(OutboundProxy.socks4/socks5) or a Hash \x7b protocol:, address:, ... \x7d " ++
        s!"(got {value.className})"))

end Coerce

end OutboundProxy

/-! ## The native layer -/

/-- A call of the core's proxy builder. The password of `credentials` is
`SecretSource::env(var)`. -/
inductive ProxyCall where
  | socks4 (address : String)
  | userId (userId : String)
  | socks5 (address : String)
  | credentials (username var : String)
deriving DecidableEq, Repr

/-- A String that has to be there. -/
def required (h : RHash ω) (key message : String) : Except Exception String := do
  match ← optString h key with
  | some s => return s
  | none => throw (baseError message)

/-- The username and the variable of `credentials`. -/
def parseCredentials (c : RHash ω) : Except Exception (String × String) := do
  let username ← required c "username" "SOCKS5 credentials require username:"
  match ← opt tryHash c "password" with
  | none => throw (baseError "SOCKS5 credentials require password:")
  | some password =>
    let kind ← required password "kind" "SOCKS5 password source requires kind:"
    if kind ≠ "env" then
      throw (baseError
        s!"unsupported SOCKS5 password source {RustStr.debug kind}; only env is supported")
    let var ← required password "var" "SOCKS5 password source requires var:"
    return (username, var)

/-- The calls that `apply_outbound_proxy` makes in the block of `b.proxy`. -/
def applyOutboundProxy (proxy : RHash ω) : Except Exception (List ProxyCall) := do
  let protocol ← required proxy "protocol" "proxy requires protocol:"
  let address ← required proxy "address" "proxy requires address:"
  -- keys that belong to the other protocol are not read
  match protocol with
  | "socks4" =>
    match ← optString proxy "user_id" with
    | some userId => return [.socks4 address, .userId userId]
    | none => return [.socks4 address]
  | "socks5" =>
    match ← opt tryHash proxy "credentials" with
    | none => return [.socks5 address]
    | some c =>
      let (username, var) ← parseCredentials c
      return [.socks5 address, .credentials username var]
  | other => throw (baseError
      s!"unsupported outbound proxy protocol {RustStr.debug other}; expected socks4 or socks5")

end MicrosandboxRb.Proxy
