import MicrosandboxRb.Lib.StateError
import MicrosandboxRb.Proxy.Model

/-!
# Proxy objects

Proxies as objects of a heap, with instance variables that are assigned one by one and then frozen.
A reference is a position in the heap.

## Main results

* `run_newObject_ok`: `OutboundProxy.new` builds the proxy that its checks accept;
* `getElem?_credentials`: `credentials` leaves every object as it was, its receiver included.
-/

namespace MicrosandboxRb.Proxy

open Ruby

variable {ω : Type}

/-- The instance variables of a proxy object. -/
structure Cell where
  protocol : Option String := none
  address : Option Address := none
  userId : Option String := none
  username : Option String := none
  password : Option SecretSource := none
  frozen : Bool := false
deriving DecidableEq, Repr

/-- An object without instance variables. -/
def Cell.blank : Cell := {}

/-- The heap, cell by cell. -/
abbrev Heap := List Cell

/-- The object of a proxy that was built. -/
def Cell.of (p : OutboundProxy) : Cell where
  protocol := some p.protocol
  address := some p.address
  userId := p.userId
  username := p.username
  password := p.password
  frozen := true

/-- A blank object, as `allocate` makes it. -/
def allocate : EStateM Exception Heap ℕ := fun h => .ok h.length (h ++ [.blank])

/-- Change an object that is not frozen. -/
def modifyObject (self : ℕ) (f : Cell → Cell) : EStateM Exception Heap Unit := fun h =>
  match h[self]? with
  | some c =>
    if c.frozen then
      .error (.custom "FrozenError" "can't modify frozen Microsandbox::OutboundProxy") h
    else .ok () (h.set self (f c))
  | none => .error (.typeError "Microsandbox::OutboundProxy") h

section Objects

variable [Methods ω] [SourceObjects ω]

/-- `OutboundProxy.new`. The checks come before the first assignment. -/
def newObject (args : OutboundProxy.Args ω) : EStateM Exception Heap ℕ := do
  let self ← allocate
  let p ← EStateM.ofExcept (OutboundProxy.new args)
  modifyObject self fun c => { c with protocol := some p.protocol }
  modifyObject self fun c => { c with address := some p.address }
  modifyObject self fun c => { c with userId := p.userId }
  modifyObject self fun c => { c with username := p.username }
  modifyObject self fun c => { c with password := p.password }
  modifyObject self fun c => { c with frozen := true }
  return self

/-- An instance variable as an argument. -/
def ivar (s : Option String) : Value ω := (s.map .str).getD .nil

/-- `proxy.credentials(username, password)`. -/
def credentials (self : ℕ) (username password : Value ω) : EStateM Exception Heap ℕ := do
  let h ← get
  match h[self]? with
  | none => throw (.noMethodError "credentials")
  | some c =>
    if c.protocol = some "socks5" then
      let source ← EStateM.ofExcept (SecretSource.coerce password "proxy credentials password")
      -- the receiver is frozen, so this is another object
      newObject {
        protocol := ivar c.protocol
        address := ivar (c.address.map Address.text)
        username
        password := .source source }
    else throw (.argumentError "credentials are only supported for SOCKS5 proxies")

omit [Methods ω] [SourceObjects ω] in
/-- An assignment to the object that was allocated last. -/
theorem run_modifyObject_bind {α : Type} {h : Heap} {c : Cell} {f : Cell → Cell}
    (hc : c.frozen = false) (k : Unit → EStateM Exception Heap α) :
    (modifyObject h.length f >>= k).run (h ++ [c]) = (k ()).run (h ++ [f c]) := by
  have hrun : (modifyObject h.length f).run (h ++ [c]) = .ok () (h ++ [f c]) := by
    rw [EStateM.run, modifyObject, List.getElem?_concat_length]
    simp [hc]
  rw [EStateM.run_bind, hrun]

/-- An accepted call adds one frozen object to the heap and touches no other. -/
theorem run_newObject_ok {args : OutboundProxy.Args ω} {p : OutboundProxy}
    (hp : OutboundProxy.new args = .ok p) (h : Heap) :
    (newObject args).run h = .ok h.length (h ++ [Cell.of p]) := by
  have hallocate : allocate.run h = .ok h.length (h ++ [.blank]) := rfl
  rw [newObject, EStateM.run_bind, hallocate, hp]
  dsimp only
  rw [EStateM.ofExcept_ok_bind, run_modifyObject_bind rfl, run_modifyObject_bind rfl,
    run_modifyObject_bind rfl, run_modifyObject_bind rfl, run_modifyObject_bind rfl,
    run_modifyObject_bind rfl]
  rfl

/-- Arguments that are refused leave an object behind that nothing refers to. -/
theorem run_newObject_error {args : OutboundProxy.Args ω} {e : Exception}
    (he : OutboundProxy.new args = .error e) (h : Heap) :
    (newObject args).run h = .error e (h ++ [.blank]) := by
  have hallocate : allocate.run h = .ok h.length (h ++ [.blank]) := rfl
  rw [newObject, EStateM.run_bind, hallocate, he]
  rfl

/-- What `new` does to the heap. -/
theorem exists_state_newObject (args : OutboundProxy.Args ω) (h : Heap) :
    ∃ c, ((newObject args).run h).state = h ++ [c] := by
  cases hnew : OutboundProxy.new args with
  | ok p => exact ⟨.of p, by rw [run_newObject_ok hnew, EStateM.Result.state_ok]⟩
  | error e => exact ⟨.blank, by rw [run_newObject_error hnew, EStateM.Result.state_error]⟩

/-- `credentials` adds objects and changes none. -/
theorem exists_state_credentials (self : ℕ) (username password : Value ω) (h : Heap) :
    ∃ cs, ((credentials self username password).run h).state = h ++ cs := by
  have hget : (get : EStateM Exception Heap Heap).run h = .ok h h := rfl
  rw [credentials, EStateM.run_bind, hget]
  dsimp only
  cases h[self]? with
  | none => exact ⟨[], (List.append_nil h).symm⟩
  | some c =>
    dsimp only
    split
    · cases SecretSource.coerce password "proxy credentials password" with
      | error e => exact ⟨[], (List.append_nil h).symm⟩
      | ok source =>
        rw [EStateM.ofExcept_ok_bind]
        obtain ⟨c', hc'⟩ := exists_state_newObject (ω := ω) _ h
        exact ⟨[c'], hc'⟩
    · exact ⟨[], (List.append_nil h).symm⟩

/-- No object changes while `credentials` runs, whether it returns or raises. -/
theorem getElem?_credentials {h : Heap} {object : ℕ} (hobject : object < h.length) (self : ℕ)
    (username password : Value ω) :
    ((credentials self username password).run h).state[object]? = h[object]? := by
  obtain ⟨cs, hcs⟩ := exists_state_credentials self username password h
  rw [hcs, List.getElem?_append_left hobject]

end Objects

end MicrosandboxRb.Proxy
