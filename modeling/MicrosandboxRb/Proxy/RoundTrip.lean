import MicrosandboxRb.Proxy.Objects

/-!
# Proxies from Ruby to the core

A proxy is read back from its wire form, and the native layer makes the calls that the `proxy:`
argument describes.

## Main results

* `new_eq_ok_iff`, `fromHash_eq_ok_iff`: which arguments are accepted, and as which proxy;
* `outbound_proxy_round_trip`: the round trip, the calls, the frozen receiver and the rejections.
-/

namespace MicrosandboxRb.Proxy

open Ruby Conv

variable {ω : Type}

/-! ## Password sources -/

section Source

variable [Methods ω]

omit [Methods ω] in
/-- `nil` is no text. -/
theorem text?_eq_none_of_isNil {v : Value ω} (h : v.isNil = true) : text? v = none := by
  cases v with
  | nil => rfl
  | _ => cases h

/-- Which arguments make a secret source. -/
theorem SecretSource.new_eq_ok_iff {kind var : Value ω} {s : SecretSource} :
    SecretSource.new kind var = .ok s ↔ text? kind = some s.kind ∧ text? var = some s.var := by
  obtain ⟨k, x, hk, hx⟩ := s
  unfold SecretSource.new
  cases text? kind with
  | none => simp
  | some kindText =>
    by_cases hkind : kindText ∈ KINDS
    · cases text? var with
      | none => simp [hkind]
      | some varText =>
        by_cases hvar : varText = ""
        · simp [hkind, hvar, Ne.symm hx]
        · simp [hkind, hvar]
    · have hne : kindText ≠ k := fun h => hkind (h ▸ hk)
      simp [hkind, hne]

/-- A value that names a host environment variable: a source, `{ env: }` or `{ kind:, var: }`. -/
def NamesSource [SourceObjects ω] (v : Value ω) (s : SecretSource) : Prop :=
  match v with
  | .hash h =>
    if (fetchOpt h "env").isNil then
      text? (fetchOpt h "kind") = some s.kind ∧ text? (fetchOpt h "var") = some s.var
    else text? (fetchOpt h "env") = some s.var
  | v => secretSource? v = some s

/-- Which values are coerced to it. -/
theorem SecretSource.coerce_eq_ok_iff [SourceObjects ω] {v : Value ω} {context : String}
    {s : SecretSource} : SecretSource.coerce v context = .ok s ↔ NamesSource v s := by
  -- the only kind is `env`
  have hkind : text? (.str "env" : Value ω) = some s.kind := by
    have hmem := s.kind_mem
    rw [KINDS, List.mem_singleton] at hmem
    rw [hmem]
    rfl
  unfold SecretSource.coerce NamesSource
  cases v with
  | hash h =>
    dsimp only
    by_cases henv : (fetchOpt h "env").isNil = true
    · rw [if_neg (by simp [henv]), if_pos henv]
      split
      · -- neither `kind:` nor `var:`, so there is no text under `kind:`
        rename_i hboth
        rw [Bool.and_eq_true] at hboth
        have hnone : text? (fetchOpt h "kind") = none := text?_eq_none_of_isNil hboth.1
        simp [hnone]
      · exact SecretSource.new_eq_ok_iff
    · rw [if_pos (by simp [henv]), if_neg henv, SecretSource.new_eq_ok_iff]
      exact and_iff_right hkind
  | obj o =>
    dsimp only
    cases secretSource? (.obj o : Value ω) with
    | none => simp
    | some s' => simp
  | _ => simp [secretSource?]

/-- The constructor raises nothing but `ArgumentError`. -/
theorem onlyArgumentErrors_new_source (kind var : Value ω) :
    OnlyArgumentErrors (SecretSource.new kind var) := by
  unfold SecretSource.new
  split
  · exact onlyArgumentErrors_argumentError _
  · split
    · split
      · exact onlyArgumentErrors_argumentError _
      · split
        · exact onlyArgumentErrors_argumentError _
        · exact onlyArgumentErrors_ok _
    · exact onlyArgumentErrors_argumentError _

/-- Neither does the coercion. -/
theorem onlyArgumentErrors_coerce_source [SourceObjects ω] (v : Value ω) (context : String) :
    OnlyArgumentErrors (SecretSource.coerce v context) := by
  unfold SecretSource.coerce
  split
  · dsimp only
    split
    · exact onlyArgumentErrors_new_source _ _
    · split
      · exact onlyArgumentErrors_argumentError _
      · exact onlyArgumentErrors_new_source _ _
  · split
    · exact onlyArgumentErrors_ok _
    · exact onlyArgumentErrors_argumentError _

section Lookup

variable (s : SecretSource)

omit [Methods ω] in
/-- `to_h` holds the kind. -/
theorem SecretSource.lookup_toH_kind : (s.toH : Opts ω).lookup "kind" = some (.str s.kind) := by
  simp (disch := decide) [SecretSource.toH, AList.lookup_insert_ne, AList.lookup_singleton]

omit [Methods ω] in
/-- And the variable. -/
theorem SecretSource.lookup_toH_var : (s.toH : Opts ω).lookup "var" = some (.str s.var) := by
  simp [SecretSource.toH]

omit [Methods ω] in
/-- The shorthand `env` is not written. -/
theorem SecretSource.lookup_toH_env : (s.toH : Opts ω).lookup "env" = none := by
  simp (disch := decide) [SecretSource.toH, AList.lookup_insert_ne, AList.lookup_singleton]

omit [Methods ω] in
/-- The wire form of a source names the source. -/
theorem namesSource_toH [SourceObjects ω] : NamesSource (strHash (s.toH : Opts ω)) s := by
  rw [strHash, NamesSource, fetchOpt_strEntries, fetchOpt_strEntries, fetchOpt_strEntries]
  rw [index, index, index, s.lookup_toH_env, s.lookup_toH_kind, s.lookup_toH_var]
  exact ⟨rfl, rfl⟩

end Lookup

end Source

/-! ## Proxies -/

namespace OutboundProxy

section New

variable [Methods ω]

/-- A text under an optional key, or none under `nil`. -/
def TextUnlessNil (v : Value ω) (s : Option String) : Prop :=
  (v.isNil = true ∧ s = none) ∨ ∃ text, text? v = some text ∧ s = some text

/-- An identifier is a text that is not empty, or `nil`. -/
theorem identifier_eq_ok_iff {name : String} {v : Value ω} {s : Option String} :
    identifier name v = .ok s ↔ TextUnlessNil v s := by
  unfold identifier TextUnlessNil
  cases v with
  | nil => simp [text?, Value.isNil, eq_comm]
  | str t => simp [text?, Value.isNil, eq_comm]
  | sym t => simp [text?, Value.isNil, eq_comm]
  | _ => simp [text?, Value.isNil]

/-- An address is accepted as its own text. -/
theorem checkAddress_eq_ok_iff {v : Value ω} {a : Address} :
    checkAddress v = .ok a ↔ v = .str a.text := by
  obtain ⟨text, hempty, hshape⟩ := a
  unfold checkAddress
  cases v with
  | str s =>
    by_cases hs : s = text
    · subst hs
      simp [hempty, hshape]
    · dsimp only
      split
      · simp [hs]
      · split
        · simp [hs]
        · simp [hs]
  | _ => simp

/-- The arguments that are accepted, and the proxy they build. The rules between the fields are
fields of the proxy. -/
theorem new_eq_ok_iff [SourceObjects ω] {args : Args ω} {p : OutboundProxy} :
    new args = .ok p ↔
      (∃ text, text? args.protocol = some text ∧ protocolText text = p.protocol) ∧
      args.address = .str p.address.text ∧ TextUnlessNil args.userId p.userId ∧
      TextUnlessNil args.username p.username ∧ args.password.source? = some p.password := by
  constructor
  · intro h
    -- A call that returns has passed every guard.
    unfold new at h
    split at h
    · cases h
    · rename_i text htext
      split at h
      · obtain ⟨address, haddress, h⟩ := Except.bind_eq_ok_iff.mp h
        obtain ⟨userId, huserId, h⟩ := Except.bind_eq_ok_iff.mp h
        obtain ⟨username, husername, h⟩ := Except.bind_eq_ok_iff.mp h
        split at h
        · cases h
        · split at h
          · cases h
          · split at h
            · cases h
            · split at h
              · cases h
              · rename_i password hpassword
                cases h
                exact ⟨⟨text, htext, rfl⟩, checkAddress_eq_ok_iff.mp haddress,
                  identifier_eq_ok_iff.mp huserId, identifier_eq_ok_iff.mp husername, hpassword⟩
      · cases h
  · rintro ⟨⟨text, htext, hprotocol⟩, haddress, huserId, husername, hpassword⟩
    -- A valid proxy passes every guard, by the fields of its structure.
    have hnil := PasswordArg.eq_none_iff_isNil hpassword
    have hmem : protocolText text ∈ PROTOCOLS := hprotocol ▸ p.protocol_mem
    unfold new
    rw [htext]
    dsimp only
    rw [dif_pos hmem, checkAddress_eq_ok_iff.mpr haddress, Except.ok_bind,
      identifier_eq_ok_iff.mpr huserId, Except.ok_bind, identifier_eq_ok_iff.mpr husername,
      Except.ok_bind, dif_neg, dif_neg, dif_neg]
    · split
      · rename_i hnone
        rw [hpassword] at hnone
        cases hnone
      · rename_i password hsome
        obtain rfl : p.password = password := Option.some.inj (hpassword.symm.trans hsome)
        exact congrArg Except.ok (OutboundProxy.ext hprotocol rfl rfl rfl rfl)
    · rw [not_not, ← hnil]
      exact p.paired
    · rintro ⟨hne, hgiven⟩
      apply hne
      rw [hprotocol]
      apply p.socks5_of_username
      intro hnone
      exact hgiven ⟨hnone, hnil.mp (p.paired.mp hnone)⟩
    · rintro ⟨hne, hgiven⟩
      apply hne
      rw [hprotocol]
      exact p.socks4_of_userId hgiven

/-- An address is rejected with `ArgumentError`. -/
theorem onlyArgumentErrors_checkAddress (v : Value ω) : OnlyArgumentErrors (checkAddress v) := by
  unfold checkAddress
  split
  · split
    · exact onlyArgumentErrors_argumentError _
    · split
      · exact onlyArgumentErrors_argumentError _
      · exact onlyArgumentErrors_ok _
  · exact onlyArgumentErrors_argumentError _

/-- So is an identifier. -/
theorem onlyArgumentErrors_identifier (name : String) (v : Value ω) :
    OnlyArgumentErrors (identifier name v) := by
  unfold identifier
  split
  · exact onlyArgumentErrors_ok _
  · split
    · exact onlyArgumentErrors_ok _
    · exact onlyArgumentErrors_argumentError _

/-- So is every call of the constructor. -/
theorem onlyArgumentErrors_new [SourceObjects ω] (args : Args ω) :
    OnlyArgumentErrors (new args) := by
  unfold new
  split
  · exact onlyArgumentErrors_argumentError _
  · split
    · refine (onlyArgumentErrors_checkAddress _).bind fun address => ?_
      refine (onlyArgumentErrors_identifier _ _).bind fun userId => ?_
      refine (onlyArgumentErrors_identifier _ _).bind fun username => ?_
      split
      · exact onlyArgumentErrors_argumentError _
      · split
        · exact onlyArgumentErrors_argumentError _
        · split
          · exact onlyArgumentErrors_argumentError _
          · split
            · exact onlyArgumentErrors_argumentError _
            · exact onlyArgumentErrors_ok _
    · exact onlyArgumentErrors_argumentError _

end New

/-! ## Hashes -/

section FromHash

variable [Methods ω] [SourceObjects ω]

/-- A `credentials:` that gives a username and a password, or `nil`. -/
def NamesCredentials (v : Value ω) (username : Option String) (password : Option SecretSource) :
    Prop :=
  match v with
  | .nil => username = none ∧ password = none
  | .hash c => ∃ u s, text? (fetchOpt c "username") = some u ∧
      NamesSource (fetchOpt c "password") s ∧ username = some u ∧ password = some s
  | _ => False

omit [Methods ω] in
/-- `nil` names no source. -/
theorem not_namesSource_of_isNil {v : Value ω} {s : SecretSource} (h : v.isNil = true) :
    ¬NamesSource v s := by
  cases v with
  | nil => exact fun h => (by cases h)
  | _ => cases h

/-- Which Hashes are credentials. -/
theorem hashCredentials_hash_eq_ok_iff {c : Entries ω} {username : Value ω}
    {password : PasswordArg ω} :
    hashCredentials (.hash c) = .ok (username, password) ↔
      (fetchOpt c "username").isNil = false ∧ username = fetchOpt c "username" ∧
        ∃ s, NamesSource (fetchOpt c "password") s ∧ password = .source s := by
  unfold hashCredentials
  dsimp only
  split
  · rename_i hnil
    rw [Bool.or_eq_true] at hnil
    constructor
    · intro h
      cases h
    · -- what is missing cannot name anything
      rintro ⟨husername, -, s, hs, -⟩
      rcases hnil with hnil | hnil
      · rw [hnil] at husername
        cases husername
      · exact absurd hs (not_namesSource_of_isNil hnil)
  · rename_i hnil
    rw [Bool.or_eq_true, not_or, Bool.not_eq_true] at hnil
    rw [Except.bind_eq_ok_iff]
    constructor
    · rintro ⟨s, hs, h⟩
      cases h
      exact ⟨hnil.1, rfl, s, SecretSource.coerce_eq_ok_iff.mp hs, rfl⟩
    · rintro ⟨-, rfl, s, hs, rfl⟩
      exact ⟨s, SecretSource.coerce_eq_ok_iff.mpr hs, rfl⟩

/-- The credentials of a Hash, as the constructor takes them. -/
theorem exists_hashCredentials_iff {v : Value ω} {username : Option String}
    {password : Option SecretSource} :
    (∃ c, hashCredentials v = .ok c ∧ TextUnlessNil c.1 username ∧ c.2.source? = some password) ↔
      NamesCredentials v username password := by
  unfold NamesCredentials
  cases v with
  | nil =>
    constructor
    · rintro ⟨c, h, ⟨-, husername⟩ | ⟨text, htext, -⟩, hpassword⟩
      · cases h
        exact ⟨husername, (Option.some.inj hpassword).symm⟩
      · cases h
        cases htext
    · rintro ⟨rfl, rfl⟩
      exact ⟨_, rfl, Or.inl ⟨rfl, rfl⟩, rfl⟩
  | hash c =>
    constructor
    · rintro ⟨⟨u, pw⟩, h, husername, hpassword⟩
      obtain ⟨hnil, rfl, s, hs, rfl⟩ := hashCredentials_hash_eq_ok_iff.mp h
      rcases husername with ⟨htrue, -⟩ | ⟨text, htext, rfl⟩
      · rw [hnil] at htrue
        cases htrue
      · exact ⟨text, s, htext, hs, rfl, (Option.some.inj hpassword).symm⟩
    · rintro ⟨u, s, hu, hs, rfl, rfl⟩
      -- a username that is a text is not `nil`
      have hnil : (fetchOpt c "username").isNil = false := by
        rw [← Bool.not_eq_true]
        intro hnil
        rw [text?_eq_none_of_isNil hnil] at hu
        cases hu
      exact ⟨(fetchOpt c "username", .source s),
        hashCredentials_hash_eq_ok_iff.mpr ⟨hnil, rfl, s, hs, rfl⟩, Or.inr ⟨u, hu, rfl⟩, rfl⟩
  | _ => simp [hashCredentials]

/-- The Hashes that are accepted, and the proxy each stands for. -/
theorem fromHash_eq_ok_iff {es : Entries ω} {p : OutboundProxy} :
    fromHash es = .ok p ↔
      (∃ text, text? (fetchOpt es "protocol") = some text ∧ protocolText text = p.protocol) ∧
      fetchOpt es "address" = .str p.address.text ∧
      TextUnlessNil (fetchOpt es "user_id") p.userId ∧
      NamesCredentials (fetchOpt es "credentials") p.username p.password := by
  rw [← exists_hashCredentials_iff]
  unfold fromHash
  dsimp only
  split
  · rename_i hnil
    -- Both keys are required, and `nil` is neither a text nor an address.
    rw [text?_eq_none_of_isNil hnil]
    constructor
    · intro h
      cases h
    · rintro ⟨⟨text, h, -⟩, -⟩
      cases h
  · split
    · rename_i hnil
      constructor
      · intro h
        cases h
      · rintro ⟨-, h, -⟩
        rw [h] at hnil
        cases hnil
    · rw [Except.bind_eq_ok_iff]
      constructor
      · rintro ⟨c, hc, h⟩
        obtain ⟨hprotocol, haddress, huserId, husername, hpassword⟩ := new_eq_ok_iff.mp h
        exact ⟨hprotocol, haddress, huserId, c, hc, husername, hpassword⟩
      · rintro ⟨hprotocol, haddress, huserId, c, hc, husername, hpassword⟩
        exact ⟨c, hc, new_eq_ok_iff.mpr ⟨hprotocol, haddress, huserId, husername, hpassword⟩⟩

/-- Others are rejected with `ArgumentError`. -/
theorem onlyArgumentErrors_hashCredentials (v : Value ω) :
    OnlyArgumentErrors (hashCredentials v) := by
  unfold hashCredentials
  split
  · exact onlyArgumentErrors_ok _
  · dsimp only
    split
    · exact onlyArgumentErrors_argumentError _
    · exact (onlyArgumentErrors_coerce_source _ _).bind fun _ => onlyArgumentErrors_ok _
  · exact onlyArgumentErrors_argumentError _

/-- So is a Hash that describes no proxy. -/
theorem onlyArgumentErrors_fromHash (es : Entries ω) : OnlyArgumentErrors (fromHash es) := by
  unfold fromHash
  dsimp only
  split
  · exact onlyArgumentErrors_argumentError _
  · split
    · exact onlyArgumentErrors_argumentError _
    · exact (onlyArgumentErrors_hashCredentials _).bind fun _ => onlyArgumentErrors_new _

end FromHash

/-! ## The wire form -/

/-- Both halves of the credentials of a proxy are set, or neither is. -/
theorem username_password_cases (p : OutboundProxy) :
    (p.username = none ∧ p.password = none) ∨ ∃ u s, p.username = some u ∧ p.password = some s := by
  cases hu : p.username with
  | none => exact Or.inl ⟨rfl, p.paired.mp hu⟩
  | some u =>
    cases hs : p.password with
    | none =>
      rw [p.paired.mpr hs] at hu
      cases hu
    | some s => exact Or.inr ⟨u, s, rfl, rfl⟩

/-- The Hash under `credentials`. -/
def credentialsWire (username : String) (password : SecretSource) : Opts ω :=
  let credentials : Opts ω := AList.insert "username" (.str username) ∅
  credentials.insert "password" (strHash password.toH)

section Lookup

variable (p : OutboundProxy)

/-- The keys of `to_h` but the credentials. -/
theorem lookup_toH_of_ne {key : String} (h : key ≠ "credentials") :
    (p.toH : Opts ω).lookup key =
      (insertSome ((AList.insert "protocol" (.str p.protocol) ∅ : Opts ω).insert "address"
        (.str p.address.text)) "user_id" (p.userId.map .str)).lookup key := by
  unfold toH
  split
  · exact AList.lookup_insert_ne h
  · rfl

/-- `to_h` holds the protocol. -/
theorem lookup_toH_protocol : (p.toH : Opts ω).lookup "protocol" = some (.str p.protocol) := by
  rw [lookup_toH_of_ne p (by decide)]
  simp (disch := decide) [lookup_insertSome_ne, AList.lookup_insert_ne, AList.lookup_singleton]

/-- And the address. -/
theorem lookup_toH_address : (p.toH : Opts ω).lookup "address" = some (.str p.address.text) := by
  rw [lookup_toH_of_ne p (by decide)]
  simp (disch := decide) [lookup_insertSome_ne]

/-- And the user, where there is one. -/
theorem lookup_toH_userId : (p.toH : Opts ω).lookup "user_id" = p.userId.map .str := by
  rw [lookup_toH_of_ne p (by decide)]
  simp (disch := decide) [AList.lookup_insert_ne, AList.lookup_singleton]

/-- And the credentials, where there are any. -/
theorem lookup_toH_credentials :
    (p.toH : Opts ω).lookup "credentials" =
      match p.username, p.password with
      | some username, some password => some (strHash (credentialsWire username password))
      | _, _ => none := by
  rcases p.username_password_cases with ⟨hu, hs⟩ | ⟨u, s, hu, hs⟩
  · simp (disch := decide) [toH, hu, hs, lookup_insertSome_ne, AList.lookup_insert_ne,
      AList.lookup_singleton]
  · simp [toH, hu, hs, credentialsWire]

/-- Credentials hold the name. -/
theorem lookup_credentialsWire_username (username : String) (password : SecretSource) :
    (credentialsWire username password : Opts ω).lookup "username" = some (.str username) := by
  simp (disch := decide) [credentialsWire, AList.lookup_insert_ne, AList.lookup_singleton]

/-- And the source of the password. -/
theorem lookup_credentialsWire_password (username : String) (password : SecretSource) :
    (credentialsWire username password : Opts ω).lookup "password" =
      some (strHash password.toH) := by
  simp [credentialsWire]

end Lookup

/-- A protocol of the list is its own text. -/
theorem protocolText_of_mem {protocol : String} (h : protocol ∈ PROTOCOLS) :
    protocolText protocol = protocol := by
  rw [PROTOCOLS, List.mem_cons, List.mem_singleton] at h
  rcases h with rfl | rfl
  · decide
  · decide

/-- A proxy is read back from its wire form. -/
theorem fromHash_toH [Methods ω] [SourceObjects ω] (p : OutboundProxy) :
    fromHash (strEntries (p.toH : Opts ω)) = .ok p := by
  rw [fromHash_eq_ok_iff]
  simp only [fetchOpt_strEntries, index, p.lookup_toH_protocol, p.lookup_toH_address,
    p.lookup_toH_userId, p.lookup_toH_credentials]
  refine ⟨⟨p.protocol, rfl, protocolText_of_mem p.protocol_mem⟩, rfl, ?_, ?_⟩
  · cases p.userId with
    | none => exact Or.inl ⟨rfl, rfl⟩
    | some userId => exact Or.inr ⟨userId, rfl, rfl⟩
  · rcases p.username_password_cases with ⟨hu, hs⟩ | ⟨u, s, hu, hs⟩
    · rw [hu, hs]
      exact ⟨rfl, rfl⟩
    · rw [hu, hs]
      refine ⟨u, s, ?_, ?_, rfl, rfl⟩
      · rw [fetchOpt_strEntries, index, lookup_credentialsWire_username]
        rfl
      · rw [fetchOpt_strEntries, index, lookup_credentialsWire_password]
        exact namesSource_toH s

/-! ## The calls of the native layer -/

/-- The calls that describe a proxy to the core. -/
def calls (p : OutboundProxy) : List ProxyCall :=
  if p.protocol = "socks4" then
    .socks4 p.address.text :: (p.userId.map ProxyCall.userId).toList
  else
    .socks5 p.address.text ::
      match p.username, p.password with
      | some username, some password => [.credentials username password.var]
      | _, _ => []

/-- A required key that is a String. -/
theorem required_eq_ok {m : Opts ω} {key s : String} (message : String)
    (h : m.lookup key = some (.str s)) : required (strEntries m) key message = .ok s := by
  rw [required, optString_map_str (s := some s) h]
  rfl

/-- The native side reads the credentials that were written. -/
theorem parseCredentials_credentialsWire (username : String) (password : SecretSource) :
    parseCredentials (strEntries (credentialsWire username password : Opts ω)) =
      .ok (username, password.var) := by
  have hkind : password.kind = "env" := List.mem_singleton.mp password.kind_mem
  have hpassword : opt tryHash (strEntries (credentialsWire username password : Opts ω))
      "password" = .ok (some (strEntries password.toH)) :=
    opt_eq_some (lookup_credentialsWire_password username password) rfl rfl
  rw [parseCredentials, required_eq_ok _ (lookup_credentialsWire_username username password),
    Except.ok_bind, hpassword, Except.ok_bind]
  dsimp only
  rw [required_eq_ok _ password.lookup_toH_kind, Except.ok_bind, if_neg (not_not.mpr hkind),
    required_eq_ok _ password.lookup_toH_var]
  rfl

/-- The native layer describes the proxy that it was given. -/
theorem applyOutboundProxy_toH (p : OutboundProxy) :
    applyOutboundProxy (strEntries (p.toH : Opts ω)) = .ok p.calls := by
  have hprotocol := p.protocol_mem
  rw [PROTOCOLS, List.mem_cons, List.mem_singleton] at hprotocol
  rw [applyOutboundProxy, required_eq_ok _ p.lookup_toH_protocol, Except.ok_bind,
    required_eq_ok _ p.lookup_toH_address, Except.ok_bind, calls]
  rcases hprotocol with h4 | h5
  · rw [h4, if_pos rfl]
    dsimp only
    rw [optString_map_str p.lookup_toH_userId, Except.ok_bind]
    cases p.userId with
    | none => rfl
    | some userId => rfl
  · rw [h5, if_neg (by decide)]
    dsimp only
    rcases p.username_password_cases with ⟨hu, hs⟩ | ⟨u, s, hu, hs⟩
    · rw [hu, hs, opt_eq_none (by rw [p.lookup_toH_credentials, hu, hs])]
      rfl
    · rw [hu, hs, opt_eq_some (a := strEntries (credentialsWire u s))
        (by rw [p.lookup_toH_credentials, hu, hs]) rfl rfl, Except.ok_bind]
      dsimp only
      rw [parseCredentials_credentialsWire]
      rfl

/-! ## What a `proxy:` argument describes -/

section Described

variable [Methods ω] [ProxyObjects ω]

/-- The host variable that a password names. -/
def sourceVar (v : Value ω) : String :=
  match v with
  | .hash h => if (fetchOpt h "env").isNil then (fetchOpt h "var").toS else (fetchOpt h "env").toS
  | v => ((secretSource? v).map SecretSource.var).getD ""

/-- The calls that a `proxy:` Hash describes: `socks4` with the user id if one is given, or `socks5`
with the credentials if they are given. -/
def describedByHash (es : Entries ω) : List ProxyCall :=
  let address := (fetchOpt es "address").toS
  if protocolText (fetchOpt es "protocol").toS = "socks4" then
    let userId := fetchOpt es "user_id"
    .socks4 address :: if userId.isNil then [] else [.userId userId.toS]
  else
    .socks5 address ::
      match fetchOpt es "credentials" with
      | .hash c => [.credentials (fetchOpt c "username").toS (sourceVar (fetchOpt c "password"))]
      | _ => []

/-- The calls that a `proxy:` argument describes. -/
def described (v : Value ω) : List ProxyCall :=
  match outboundProxy? v with
  | some p => p.calls
  | none =>
    match v with
    | .hash es => describedByHash es
    | _ => []

omit [ProxyObjects ω] in
/-- A text is what `to_s` returns. -/
theorem toS_of_text? {v : Value ω} {s : String} (h : text? v = some s) : v.toS = s := by
  cases v with
  | str t => exact Option.some.inj h
  | sym t => exact Option.some.inj h
  | _ => cases h

omit [Methods ω] [ProxyObjects ω] in
/-- A text is not `nil`. -/
theorem isNil_of_text? {v : Value ω} {s : String} (h : text? v = some s) : v.isNil = false := by
  cases v with
  | nil => cases h
  | _ => rfl

/-- The variable a value names is that of its source. -/
theorem sourceVar_of_namesSource {v : Value ω} {s : SecretSource} (h : NamesSource v s) :
    sourceVar v = s.var := by
  unfold NamesSource at h
  unfold sourceVar
  split at h
  · split at h
    · rename_i hnil
      rw [if_pos hnil, toS_of_text? h.2]
    · rename_i hnil
      rw [if_neg hnil, toS_of_text? h]
  · rw [h]
    rfl

/-- The calls for a Hash are those it describes. -/
theorem calls_of_fromHash {es : Entries ω} {p : OutboundProxy} (h : fromHash es = .ok p) :
    p.calls = describedByHash es := by
  obtain ⟨⟨text, htext, hprotocol⟩, haddress, huserId, hcredentials⟩ := fromHash_eq_ok_iff.mp h
  unfold calls describedByHash
  dsimp only
  rw [toS_of_text? htext, hprotocol, haddress]
  split
  · rcases huserId with ⟨hnil, huserId⟩ | ⟨userId, huserIdText, huserId⟩
    · rw [if_pos hnil, huserId]
      rfl
    · rw [if_neg (by simp [isNil_of_text? huserIdText]), huserId, toS_of_text? huserIdText]
      rfl
  · unfold NamesCredentials at hcredentials
    split at hcredentials
    · rename_i hnil
      rw [hnil, hcredentials.1]
      rfl
    · rename_i c hc
      obtain ⟨u, s, hu, hs, husername, hpassword⟩ := hcredentials
      rw [hc, husername, hpassword]
      dsimp only
      rw [toS_of_text? hu, sourceVar_of_namesSource hs, Value.toS_str]
    · exact hcredentials.elim

/-! ## What is refused -/

/-- A Hash whose fields do not go together. -/
def Mixed (es : Entries ω) : Prop :=
  (∃ protocol, text? (fetchOpt es "protocol") = some protocol ∧
    protocolText protocol = "socks5" ∧ (fetchOpt es "user_id").isNil = false) ∨
  (∃ protocol, text? (fetchOpt es "protocol") = some protocol ∧
    protocolText protocol = "socks4" ∧ (fetchOpt es "credentials").isNil = false) ∨
  ∃ c, fetchOpt es "credentials" = .hash c ∧
    ((fetchOpt c "username").isNil ≠ (fetchOpt c "password").isNil ∨
      ∀ s, ¬NamesSource (fetchOpt c "password") s)

/-- A Hash of both forms describes no proxy. -/
theorem fromHash_ne_ok_of_mixed {es : Entries ω} (h : Mixed es) (p : OutboundProxy) :
    fromHash es ≠ .ok p := by
  intro hp
  obtain ⟨⟨text, htext, hprotocol⟩, -, huserId, hcredentials⟩ := fromHash_eq_ok_iff.mp hp
  rcases h with ⟨text', htext', h5, hgiven⟩ | ⟨text', htext', h4, hgiven⟩ | ⟨c, hc, hpair⟩
  · -- `user_id` with `socks5`
    obtain rfl : text = text' := Option.some.inj (htext.symm.trans htext')
    rcases huserId with ⟨hnil, -⟩ | ⟨userId, -, huserId⟩
    · rw [hgiven] at hnil
      cases hnil
    · have h4 := p.socks4_of_userId (by rw [huserId]; exact Option.some_ne_none _)
      rw [← hprotocol, h5] at h4
      exact absurd h4 (by decide)
  · -- `credentials` with `socks4`
    obtain rfl : text = text' := Option.some.inj (htext.symm.trans htext')
    unfold NamesCredentials at hcredentials
    split at hcredentials
    · rename_i hnil
      rw [hnil] at hgiven
      cases hgiven
    · obtain ⟨u, s, -, -, husername, -⟩ := hcredentials
      have h5 := p.socks5_of_username (by rw [husername]; exact Option.some_ne_none _)
      rw [← hprotocol, h4] at h5
      exact absurd h5 (by decide)
    · exact hcredentials
  · rw [hc] at hcredentials
    obtain ⟨u, s, hu, hs, -⟩ := hcredentials
    rcases hpair with hpair | hsource
    · rw [isNil_of_text? hu] at hpair
      exact not_namesSource_of_isNil (by simpa using hpair) hs
    · exact hsource s hs

/-- It raises `ArgumentError`. -/
theorem raises_coerce_of_mixed {es : Entries ω} (h : Mixed es) :
    RaisesArgumentError (coerce (.hash es)) := by
  obtain ⟨message, hmessage⟩ :=
    (onlyArgumentErrors_fromHash es).raises (fromHash_ne_ok_of_mixed h)
  refine ⟨message, ?_⟩
  change (fromHash es).map toH = _
  rw [hmessage]
  rfl

/-- The wire form of an argument is the one of a proxy with the calls that the argument
describes. -/
theorem exists_of_coerce {v : Value ω} {wire : Opts ω} (h : coerce v = .ok wire) :
    ∃ p : OutboundProxy, wire = p.toH ∧ p.calls = described v := by
  unfold coerce at h
  unfold described
  cases hobject : outboundProxy? v with
  | some p =>
    rw [hobject] at h
    exact ⟨p, (Except.ok.inj h).symm, rfl⟩
  | none =>
    rw [hobject] at h
    cases v with
    | hash es =>
      obtain ⟨p, hp, rfl⟩ := Except.map_eq_ok_iff.mp h
      exact ⟨p, rfl, calls_of_fromHash hp⟩
    | _ => cases h

end Described

end OutboundProxy

open OutboundProxy in
/-- Every accepted `proxy:` argument is coerced to a Hash that is coerced to itself, and that the
native layer turns into the calls the argument describes. A proxy is read back from its Hash,
`credentials` changes no object that exists, and fields that do not go together are refused. -/
theorem outbound_proxy_round_trip [Methods ω] [ProxyObjects ω] :
    (∀ (v : Value ω) (wire : Opts ω), coerce v = .ok wire →
      coerce (strHash wire) = .ok wire ∧
        applyOutboundProxy (strEntries wire) = .ok (described v)) ∧
    (∀ p : OutboundProxy, fromHash (strEntries (p.toH : Opts ω)) = .ok p) ∧
    (∀ (h : Heap) (object self : ℕ) (username password : Value ω), object < h.length →
      ((credentials self username password).run h).state[object]? = h[object]?) ∧
    ∀ es : Entries ω, Mixed es → RaisesArgumentError (coerce (.hash es)) := by
  refine ⟨?_, fromHash_toH, ?_, fun es => raises_coerce_of_mixed⟩
  · intro v wire h
    obtain ⟨p, rfl, hcalls⟩ := exists_of_coerce h
    constructor
    · change (fromHash (strEntries (p.toH : Opts ω))).map toH = _
      rw [fromHash_toH]
      rfl
    · rw [applyOutboundProxy_toH, hcalls]
  · intro h object self username password hobject
    exact getElem?_credentials hobject self username password

/-- Credentials under Symbol keys, with the password source as a Hash. -/
theorem outbound_proxy_round_trip_socks5 :
    ∃ wire : Opts Unit,
      OutboundProxy.coerce (.hash [(.sym "protocol", .sym "SOCKS5"),
        (.str "address", .str "10.0.0.5:1080"),
        (.sym "credentials", .hash [(.sym "username", .str "sandbox"),
          (.sym "password", .hash [(.sym "env", .str "PW")])])]) = .ok wire ∧
      OutboundProxy.coerce (strHash wire) = .ok wire ∧
      applyOutboundProxy (strEntries wire) =
        .ok [.socks5 "10.0.0.5:1080", .credentials "sandbox" "PW"] := by
  have hcoerce : ∃ wire : Opts Unit, OutboundProxy.coerce (.hash [(.sym "protocol", .sym "SOCKS5"),
      (.str "address", .str "10.0.0.5:1080"),
      (.sym "credentials", .hash [(.sym "username", .str "sandbox"),
        (.sym "password", .hash [(.sym "env", .str "PW")])])]) = .ok wire := ⟨_, rfl⟩
  obtain ⟨wire, hwire⟩ := hcoerce
  obtain ⟨hagain, hcalls⟩ := (outbound_proxy_round_trip (ω := Unit)).1 _ wire hwire
  exact ⟨wire, hwire, hagain, hcalls⟩

end MicrosandboxRb.Proxy
