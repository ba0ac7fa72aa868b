import MicrosandboxRb.Create.Options
import MicrosandboxRb.Lib.TwoRuns

/-!
# Secrets stay out of errors

Two calls of an option builder whose arguments differ only in Strings where secrets stand. A shape
says where these are.

## Main definitions

* `Alike shape v w`: `v` and `w` are equal but for the Strings where `shape` has a secret;
* `CreateArgs.Alike`, `ModifyArgs.Alike`: arguments that differ only in secrets.

## Main results

* `secrets_stay_hidden`: both calls raise the same exception, or both return and their results
  differ only in secrets.
-/

namespace MicrosandboxRb.Create

open Ruby Conv TwoRuns

variable {ω : Type}

/-! ## Shapes -/

/-- Where secrets stand in a value. -/
inductive Shape (ω : Type) where
  | plain
  | secret
  /-- A Hash, with the shape of the value under each key. -/
  | hash (value : Value ω → Shape ω)
  | list (element : Shape ω)
  /-- An Array of a key and a value. -/
  | pair (value : Shape ω)
  | or (first second : Shape ω)

/-- The values differ only in Strings where the shape has a secret. -/
def Alike : Shape ω → Value ω → Value ω → Prop
  | .plain, v, w => v = w
  | .secret, v, w => v = w ∨ ∃ s t, v = .str s ∧ w = .str t
  | .hash value, v, w => v = w ∨ ∃ es es', v = .hash es ∧ w = .hash es' ∧
      List.Forall₂ (fun e e' => e.1 = e'.1 ∧ Alike (value e.1) e.2 e'.2) es es'
  | .list element, v, w => v = w ∨ ∃ xs ys, v = .arr xs ∧ w = .arr ys ∧
      List.Forall₂ (Alike element) xs ys
  | .pair value, v, w => v = w ∨ ∃ k a b, v = .arr [k, a] ∧ w = .arr [k, b] ∧ Alike value a b
  | .or first second, v, w => Alike first v w ∨ Alike second v w

/-- A value is like itself. -/
theorem Alike.refl (shape : Shape ω) (v : Value ω) : Alike shape v v := by
  induction shape with
  | plain => rfl
  | secret | hash | list | pair => exact Or.inl rfl
  | or first second ih => exact Or.inl ih

/-- The shape of a Hash with one key that matters, as a Symbol or as a String. -/
def under (name : String) (shape : Shape ω) (key : Value ω) : Shape ω :=
  match key with
  | .sym k | .str k => if k = name then shape else .plain
  | _ => .plain

/-! ### Where the secrets of the options stand -/

/-- A secret, whose value is one. -/
def secretSpecShape : Shape ω := .hash (under "value" .secret)

/-- The values, not the names. -/
def namesShape : Shape ω := .hash fun _ => .secret

/-- Names to values, as a Hash or as an Array of pairs. -/
def envShape : Shape ω := .or namesShape (.list (.pair .secret))

/-- An init system, whose environment may hold secrets. -/
def initShape : Shape ω := .hash (under "env" envShape)

/-- The credentials of a registry. -/
def authShape : Shape ω := .hash (under "password" .secret)

/-- A patch, whose contents may be secret. -/
def patchShape : Shape ω := .hash (under "content" .secret)

/-- A String that is given for a password source, or a `value:` in one. -/
def passwordShape : Shape ω := .or .secret (.hash (under "value" .secret))

/-- A proxy, whose password may be secret. -/
def proxyShape : Shape ω := .hash (under "credentials" (.hash (under "password" passwordShape)))

/-- A list of Hashes, or a bare Hash. -/
def listShape (shape : Shape ω) : Shape ω := .or shape (.list shape)

/-- The secrets of a modification, by name. -/
def modifySecretsShape : Shape ω := .hash fun _ => secretSpecShape

/-- The options that `build_create_opts` returns. -/
def createOptsShape : Value ω → Shape ω
  | .str "env" | .str "scripts" => namesShape
  | .str "init" => .hash (under "env" namesShape)
  | .str "registry_password" => .secret
  | .str "secrets" => .list secretSpecShape
  | .str "patches" => .list patchShape
  | _ => .plain

/-- The options that `build_modify_opts` returns. -/
def modifyOptsShape : Value ω → Shape ω
  | .str "env" => namesShape
  | .str "secrets" => .list secretSpecShape
  | _ => .plain

/-! ## Values that are alike -/

/-- Entries under the same keys, with values that are alike. -/
def EntriesAlike (value : Value ω → Shape ω) (es es' : Entries ω) : Prop :=
  List.Forall₂ (fun e e' => e.1 = e'.1 ∧ Alike (value e.1) e.2 e'.2) es es'

/-- A Hash is like itself. -/
theorem EntriesAlike.refl (value : Value ω → Shape ω) (es : Entries ω) :
    EntriesAlike value es es :=
  List.forall₂_same.mpr fun e _ => ⟨rfl, Alike.refl _ e.2⟩

section Read

variable {value : Value ω → Shape ω} {es es' : Entries ω}

/-- The keys are no secrets. -/
theorem EntriesAlike.keys_eq (h : EntriesAlike value es es') :
    es.map Prod.fst = es'.map Prod.fst := by
  induction h with
  | nil => rfl
  | cons hentry _ ih => rw [List.map_cons, List.map_cons, hentry.1, ih]

/-- What a key holds in both. -/
inductive FoundAlike (shape : Shape ω) : Option (Value ω) → Option (Value ω) → Prop
  | absent : FoundAlike shape none none
  | found {v w : Value ω} (h : Alike shape v w) : FoundAlike shape (some v) (some w)

/-- What is not found is `nil` in both runs. -/
theorem FoundAlike.getD {shape : Shape ω} {o o' : Option (Value ω)} (h : FoundAlike shape o o') :
    Alike shape (o.getD .nil) (o'.getD .nil) := by
  cases h with
  | absent => exact Alike.refl shape .nil
  | found h => exact h

/-- A search by key finds the same entry. -/
theorem EntriesAlike.findSome? (h : EntriesAlike value es es') (key : Value ω)
    (pick : Value ω × Value ω → Option (Value ω))
    (hpick : ∀ k v, (pick (k, v) = some v ∧ k = key) ∨ ∀ w, pick (k, w) = none) :
    FoundAlike (value key) (es.findSome? pick) (es'.findSome? pick) := by
  induction h with
  | nil => exact .absent
  | @cons e e' es es' hentry _ ih =>
    obtain ⟨k, v⟩ := e
    obtain ⟨k', v'⟩ := e'
    obtain ⟨rfl, halike⟩ := hentry
    rw [List.findSome?_cons, List.findSome?_cons]
    rcases hpick k v with ⟨hv, rfl⟩ | hnone
    · rcases hpick k v' with ⟨hv', -⟩ | hnone
      · rw [hv, hv']
        exact .found halike
      · rw [hnone v] at hv
        cases hv
    · rw [hnone v, hnone v']
      exact ih

/-- So does the lookup of a Symbol. -/
theorem EntriesAlike.atSym (h : EntriesAlike value es es') (key : String) :
    FoundAlike (value (.sym key)) (atSym es key) (atSym es' key) := by
  refine h.findSome? (.sym key) (symKey key) ?_
  intro k v
  cases k with
  | sym s =>
    by_cases hs : s = key
    · exact Or.inl ⟨if_pos hs, congrArg Value.sym hs⟩
    · exact Or.inr fun w => if_neg hs
  | nil | bool | int | str | arr | hash | obj => exact Or.inr fun w => rfl

/-- So does the lookup of a String. -/
theorem EntriesAlike.atStr (h : EntriesAlike value es es') (key : String) :
    FoundAlike (value (.str key)) (atStr es key) (atStr es' key) := by
  refine h.findSome? (.str key) (strKey key) ?_
  intro k v
  cases k with
  | str s =>
    by_cases hs : s = key
    · exact Or.inl ⟨if_pos hs, congrArg Value.str hs⟩
    · exact Or.inr fun w => if_neg hs
  | nil | bool | int | sym | arr | hash | obj => exact Or.inr fun w => rfl

/-- Values that are alike are of one kind. -/
theorem Alike.kind_eq {shape : Shape ω} {v w : Value ω} (h : Alike shape v w) :
    v.truthy = w.truthy ∧ v.isNil = w.isNil ∧ v.isHash = w.isHash := by
  induction shape with
  | plain =>
    obtain rfl : v = w := h
    exact ⟨rfl, rfl, rfl⟩
  | secret =>
    -- two secrets differ in their text only, which is no part of the kind
    rcases h with rfl | ⟨s, t, rfl, rfl⟩
    · exact ⟨rfl, rfl, rfl⟩
    · exact ⟨rfl, rfl, rfl⟩
  | hash =>
    rcases h with rfl | ⟨es, es', rfl, rfl, -⟩
    · exact ⟨rfl, rfl, rfl⟩
    · exact ⟨rfl, rfl, rfl⟩
  | list =>
    rcases h with rfl | ⟨xs, ys, rfl, rfl, -⟩
    · exact ⟨rfl, rfl, rfl⟩
    · exact ⟨rfl, rfl, rfl⟩
  | pair =>
    rcases h with rfl | ⟨k, a, b, rfl, rfl, -⟩
    · exact ⟨rfl, rfl, rfl⟩
    · exact ⟨rfl, rfl, rfl⟩
  | or first second ihfirst ihsecond =>
    rcases h with h | h
    · exact ihfirst h
    · exact ihsecond h

/-- A String is put in the place of a String, so the class stays. -/
theorem Alike.className_eq [Methods ω] {shape : Shape ω} {v w : Value ω} (h : Alike shape v w) :
    v.className = w.className := by
  induction shape with
  | plain => exact congrArg Value.className h
  | secret =>
    rcases h with rfl | ⟨s, t, rfl, rfl⟩
    · rfl
    · rfl
  | hash =>
    rcases h with rfl | ⟨es, es', rfl, rfl, -⟩
    · rfl
    · rfl
  | list =>
    rcases h with rfl | ⟨xs, ys, rfl, rfl, -⟩
    · rfl
    · rfl
  | pair =>
    rcases h with rfl | ⟨k, a, b, rfl, rfl, -⟩
    · rfl
    · rfl
  | or first second ihfirst ihsecond =>
    rcases h with h | h
    · exact ihfirst h
    · exact ihsecond h

/-- What is fetched is alike. -/
theorem EntriesAlike.fetchOpt (h : EntriesAlike value es es') {key : String}
    (hkey : value (.sym key) = value (.str key)) :
    Alike (value (.str key)) (fetchOpt es key) (fetchOpt es' key) := by
  have hsym := h.atSym key
  rw [hkey] at hsym
  have hstr := (h.atStr key).getD
  unfold MicrosandboxRb.fetchOpt
  generalize MicrosandboxRb.atSym es key = o, MicrosandboxRb.atSym es' key = o' at hsym
  cases hsym with
  | absent => exact hstr
  | found halike => exact halike

/-- So is what is found under either spelling. -/
theorem EntriesAlike.either (h : EntriesAlike value es es') {key : String}
    (hkey : value (.sym key) = value (.str key)) :
    Alike (value (.str key)) (either es key) (either es' key) := by
  have hsym := (h.atSym key).getD
  rw [hkey] at hsym
  unfold MicrosandboxRb.either
  dsimp only
  rw [hsym.kind_eq.1]
  split
  · exact hsym
  · exact (h.atStr key).getD

end Read

section Under

variable {name : String} {shape : Shape ω} {es es' : Entries ω}

/-- The secret stands under its name. -/
theorem under_str_self : under name shape (.str name) = shape := if_pos rfl

/-- And under no other name. -/
theorem under_str_of_ne {key : String} (hkey : key ≠ name) : under name shape (.str key) = .plain :=
  if_neg hkey

/-- What stands under another key is the same. -/
theorem fetchOpt_eq_of_ne (h : EntriesAlike (under name shape) es es') {key : String}
    (hkey : key ≠ name) : fetchOpt es key = fetchOpt es' key := by
  have halike : Alike (under name shape (.str key)) _ _ := h.fetchOpt rfl
  rwa [under_str_of_ne hkey] at halike

/-- The other names give the same value. -/
theorem either_eq_of_ne (h : EntriesAlike (under name shape) es es') {key : String}
    (hkey : key ≠ name) : either es key = either es' key := by
  have halike : Alike (under name shape (.str key)) _ _ := h.either rfl
  rwa [under_str_of_ne hkey] at halike

/-- The secret itself is alike. -/
theorem fetchOpt_alike (h : EntriesAlike (under name shape) es es') :
    Alike shape (fetchOpt es name) (fetchOpt es' name) := by
  have halike : Alike (under name shape (.str name)) _ _ := h.fetchOpt rfl
  rwa [under_str_self] at halike

/-- Under either spelling. -/
theorem either_alike (h : EntriesAlike (under name shape) es es') :
    Alike shape (either es name) (either es' name) := by
  have halike : Alike (under name shape (.str name)) _ _ := h.either rfl
  rwa [under_str_self] at halike

end Under

/-! ## Options that are alike -/

/-- Options under the same keys, in one order, with values that are alike. -/
def OptsAlike (value : Value ω → Shape ω) (m m' : Opts ω) : Prop :=
  List.Forall₂ (fun e e' : (_ : String) × Value ω => e.1 = e'.1 ∧ Alike (value (.str e.1)) e.2 e'.2)
    m.entries m'.entries

namespace OptsAlike

variable {value : Value ω → Shape ω} {m m' : Opts ω}

/-- Options are like themselves. -/
theorem refl (value : Value ω → Shape ω) (m : Opts ω) : OptsAlike value m m :=
  List.forall₂_same.mpr fun e _ => ⟨rfl, Alike.refl _ e.2⟩

/-- The entries of options. -/
theorem entries (h : OptsAlike value m m') : EntriesAlike value (strEntries m) (strEntries m') := by
  refine List.forall₂_map_left_iff.mpr (List.forall₂_map_right_iff.mpr (h.imp ?_))
  rintro e e' ⟨hkey, halike⟩
  exact ⟨congrArg Value.str hkey, halike⟩

/-- Options as a Hash. -/
theorem strHash (h : OptsAlike value m m') : Alike (.hash value) (strHash m) (strHash m') :=
  Or.inr ⟨_, _, rfl, rfl, h.entries⟩

/-- What options hold under a key. -/
theorem lookup (h : OptsAlike value m m') (key : String) :
    FoundAlike (value (.str key)) (m.lookup key) (m'.lookup key) := by
  have hfound := h.entries.atStr key
  rwa [atStr, atStr, findSome?_strKey, findSome?_strKey] at hfound

/-- Writing alike under one key. -/
theorem insert (h : OptsAlike value m m') {key : String} {v w : Value ω}
    (hvalue : Alike (value (.str key)) v w) :
    OptsAlike value (m.insert key v) (m'.insert key w) := by
  have herase : List.Forall₂
      (fun e e' : (_ : String) × Value ω => e.1 = e'.1 ∧ Alike (value (.str e.1)) e.2 e'.2)
      (List.kerase key m.entries) (List.kerase key m'.entries) := by
    unfold OptsAlike at h
    generalize m.entries = entries, m'.entries = entries' at h
    induction h with
    | nil => exact .nil
    | @cons e e' es es' hentry hrest ih =>
      by_cases hkey : key = e.1
      · rw [List.kerase_cons_eq hkey, List.kerase_cons_eq (hkey.trans hentry.1)]
        exact hrest
      · rw [List.kerase_cons_ne hkey, List.kerase_cons_ne (fun h => hkey (h.trans hentry.1.symm))]
        exact .cons hentry ih
  exact .cons ⟨rfl, hvalue⟩ herase

/-- What is written where there is a value. -/
theorem insertSome (h : OptsAlike value m m') {key : String} {o o' : Option (Value ω)}
    (hvalue : FoundAlike (value (.str key)) o o') :
    OptsAlike value (insertSome m key o) (insertSome m' key o') := by
  cases hvalue with
  | absent => exact h
  | found hvalue => exact h.insert hvalue

end OptsAlike

/-- What is found is like itself. -/
theorem FoundAlike.refl (shape : Shape ω) (o : Option (Value ω)) : FoundAlike shape o o := by
  cases o with
  | none => exact .absent
  | some v => exact .found (Alike.refl shape v)

/-! ## The normalizations -/

section Normalizations

variable [Methods ω]

/-- Entries put under the texts of their keys. -/
theorem optsAlike_transformKeys {value : Value ω → Shape ω} {es es' : Entries ω}
    (h : List.Forall₂
      (fun e e' => e.1 = e'.1 ∧ Alike (value (.str e.1.toS)) e.2 e'.2) es es') :
    OptsAlike value (transformKeys Value.toS es) (transformKeys Value.toS es') := by
  have hfold : ∀ m m' : Opts ω, OptsAlike value m m' →
      OptsAlike value (es.foldl (fun m e => m.insert e.1.toS e.2) m)
        (es'.foldl (fun m e => m.insert e.1.toS e.2) m') := by
    induction h with
    | nil => exact fun m m' h => h
    | @cons e e' es es' hentry _ ih =>
      intro m m' hm
      rw [List.foldl_cons, List.foldl_cons, ← hentry.1]
      exact ih _ _ (hm.insert hentry.2)
  exact hfold ∅ ∅ (OptsAlike.refl value ∅)

omit [Methods ω] in
/-- Two Strings are alike where a secret stands. -/
theorem alike_str (s t : String) : Alike (.secret : Shape ω) (.str s) (.str t) :=
  Or.inr ⟨s, t, rfl, rfl⟩

section Stringify

variable [CallerObjects ω]

omit [Methods ω] in
/-- A pair of a Hash in the form of an Array. -/
theorem agree_asPair (i : ℕ) {v w : Value ω} (h : Alike (.pair .secret) v w) :
    Agree (fun e e' => e.1 = e'.1 ∧ Alike .secret e.2 e'.2) (asPair i v) (asPair i w) := by
  rcases h with rfl | ⟨k, a, b, rfl, rfl, hab⟩
  · exact AgreeUnless.refl (fun e => ⟨rfl, Alike.refl _ e.2⟩) _
  · exact .ok ⟨rfl, hab⟩

omit [Methods ω] in
/-- An index in a message is the same in both runs. -/
theorem agree_asPairs {xs ys : List (Value ω)} (h : List.Forall₂ (Alike (.pair .secret)) xs ys)
    (i : ℕ) : Agree (List.Forall₂ fun e e' => e.1 = e'.1 ∧ Alike .secret e.2 e'.2)
      (asPairs i xs) (asPairs i ys) := by
  induction h generalizing i with
  | nil => exact .ok .nil
  | cons hpair _ ih =>
    refine (agree_asPair i hpair).bind fun e e' he => ?_
    exact (ih (i + 1)).bind fun es es' hes => .ok (.cons he hes)

omit [Methods ω] in
/-- Storing alike under one key. -/
theorem storeEntry_alike {es es' : Entries ω} (h : EntriesAlike (fun _ => .secret) es es')
    (key : Value ω) {v w : Value ω} (hvalue : Alike .secret v w) :
    EntriesAlike (fun _ => .secret) (storeEntry es key v) (storeEntry es' key w) := by
  induction h with
  | nil => exact .cons ⟨rfl, hvalue⟩ .nil
  | @cons e e' es es' hentry hrest ih =>
    rw [storeEntry, storeEntry, ← hentry.1]
    split
    · exact .cons ⟨rfl, hvalue⟩ hrest
    · exact .cons hentry ih

/-- What `to_h` returns of two values that are alike: nothing, or Hashes that are. -/
inductive ToHAlike : Option (Except Exception (Entries ω)) →
    Option (Except Exception (Entries ω)) → Prop
  | none : ToHAlike none none
  | some {x y : Except Exception (Entries ω)} (h : Agree (EntriesAlike fun _ => .secret) x y) :
    ToHAlike (some x) (some y)

omit [Methods ω] in
/-- `to_h` of an environment. -/
theorem toH?_alike {v w : Value ω} (h : Alike envShape v w) : ToHAlike (toH? v) (toH? w) := by
  have hsame : ∀ v : Value ω, ToHAlike (toH? v) (toH? v) := by
    intro v
    cases toH? v with
    | none => exact .none
    | some x => exact .some (AgreeUnless.refl (EntriesAlike.refl _) x)
  rcases h with (rfl | ⟨es, es', rfl, rfl, hes⟩) | (rfl | ⟨xs, ys, rfl, rfl, hxs⟩)
  · exact hsame v
  · exact .some (.ok hes)
  · exact hsame v
  · refine .some ((agree_asPairs hxs 0).map ?_)
    intro pairs pairs' hpairs
    have hfold : ∀ es es' : Entries ω, EntriesAlike (fun _ => .secret) es es' →
        EntriesAlike (fun _ => .secret) (pairs.foldl (fun es e => storeEntry es e.1 e.2) es)
          (pairs'.foldl (fun es e => storeEntry es e.1 e.2) es') := by
      induction hpairs with
      | nil => exact fun es es' h => h
      | @cons e e' _ _ hentry _ ih =>
        intro es es' hes
        rw [List.foldl_cons, List.foldl_cons, ← hentry.1]
        exact ih _ _ (storeEntry_alike hes e.1 hentry.2)
    exact hfold [] [] (EntriesAlike.refl _ [])

/-- An environment is written alike. -/
theorem agree_stringify {v w : Value ω} (h : Alike envShape v w) :
    Agree (OptsAlike fun _ => .secret) (stringify v) (stringify w) := by
  have htoH := toH?_alike h
  unfold stringify
  rw [h.className_eq]
  generalize toH? v = o, toH? w = o' at htoH
  cases htoH with
  | none => exact .error _
  | some hentries =>
    cases hentries with
    | error e => exact AgreeUnless.refl (OptsAlike.refl _) _
    | refused h => exact h.elim
    | @ok es es' hes =>
      refine .ok (optsAlike_transformKeys ?_)
      refine List.forall₂_map_left_iff.mpr (List.forall₂_map_right_iff.mpr (hes.imp ?_))
      rintro e e' ⟨hkey, -⟩
      exact ⟨hkey, alike_str _ _⟩

/-- So is an init system. -/
theorem agree_normalizeInit {v w : Value ω} (h : Alike initShape v w) :
    Agree (OptsAlike (under "env" namesShape)) (normalizeInit v) (normalizeInit w) := by
  rcases h with rfl | ⟨es, es', rfl, rfl, hes⟩
  · exact AgreeUnless.refl (OptsAlike.refl _) _
  · have henv := either_alike hes
    unfold normalizeInit
    dsimp only
    rw [either_eq_of_ne hes (by decide : "cmd" ≠ "env"),
      either_eq_of_ne hes (by decide : "args" ≠ "env"), henv.kind_eq.1]
    by_cases hcmd : (either es' "cmd").truthy = true
    · by_cases hgiven : (either es' "env").truthy = true
      · rw [hcmd, hgiven]
        refine (agree_stringify henv).bind fun m m' hm => .ok ((OptsAlike.refl _ _).insert ?_)
        exact hm.strHash
      · rw [hcmd, Bool.eq_false_iff.mpr hgiven]
        exact .ok (OptsAlike.refl _ _)
    · rw [Bool.eq_false_iff.mpr hcmd]
      exact .error _

/-- The credentials, of which only the password is secret. -/
theorem agree_registryAuth {v w : Value ω} (h : Alike authShape v w) :
    Agree (fun c c' : String × String => c.1 = c'.1) (registryAuth v) (registryAuth w) := by
  rcases h with rfl | ⟨es, es', rfl, rfl, hes⟩
  · exact AgreeUnless.refl (r := fun c c' => c.1 = c'.1) (fun _ => rfl) (registryAuth v)
  · have hauth : ∀ (es : Entries ω) key, authEither (.hash es) key = .ok (either es key) := by
      intro es key
      have hsym : authAt (.hash es) (.sym key) = .ok ((atSym es key).getD .nil) := rfl
      have hstr : authAt (.hash es) (.str key) = .ok ((atStr es key).getD .nil) := rfl
      rw [authEither, hsym, hstr, Except.ok_bind, MicrosandboxRb.either]
      split <;> rfl
    have husername := either_eq_of_ne hes (by decide : "username" ≠ "password")
    have hpassword := either_alike hes
    unfold registryAuth
    rw [hauth, hauth, hauth, hauth, Except.ok_bind, Except.ok_bind, Except.ok_bind, Except.ok_bind,
      husername, hpassword.kind_eq.1, authKeys, authKeys, EntriesAlike.keys_eq hes]
    split
    · exact .ok rfl
    · exact .error _

end Stringify

/-! ### Secrets and patches -/

/-- The hosts of a secret are no secret. -/
theorem hostsOf_eq {es es' : Entries ω} (h : EntriesAlike (under "value" .secret) es es') :
    Secrets.hostsOf es = Secrets.hostsOf es' ∧
      strings es "host_patterns" = strings es' "host_patterns" := by
  unfold Secrets.hostsOf strings
  rw [either_eq_of_ne h (by decide : "hosts" ≠ "value"),
    either_eq_of_ne h (by decide : "host" ≠ "value"),
    either_eq_of_ne h (by decide : "host_patterns" ≠ "value")]
  exact ⟨rfl, rfl⟩

/-- The Hash of a secret differs in its value alone. -/
theorem secretHash_alike {es es' : Entries ω} (h : EntriesAlike (under "value" .secret) es es')
    (ov : Option (Value ω)) :
    OptsAlike (under "value" .secret) (Secrets.secretHash es ov) (Secrets.secretHash es' ov) := by
  unfold Secrets.secretHash
  rw [(hostsOf_eq h).1, (hostsOf_eq h).2, either_eq_of_ne h (by decide : "env" ≠ "value"),
    either_eq_of_ne h (by decide : "placeholder" ≠ "value")]
  simp only [Secrets.toggles, List.foldl_cons, List.foldl_nil]
  rw [fetchOpt_eq_of_ne h (by decide : "require_tls" ≠ "value"),
    fetchOpt_eq_of_ne h (by decide : "inject_headers" ≠ "value"),
    fetchOpt_eq_of_ne h (by decide : "inject_basic_auth" ≠ "value"),
    fetchOpt_eq_of_ne h (by decide : "inject_query" ≠ "value"),
    fetchOpt_eq_of_ne h (by decide : "inject_body" ≠ "value")]
  iterate 9 refine OptsAlike.insertSome ?_ (FoundAlike.refl _ _)
  refine (OptsAlike.refl _ _).insert ?_
  rw [under_str_self]
  exact alike_str _ _

/-- A secret is refused alike, with its keys in the message and not its value. -/
theorem agree_normalizeSecret {es es' : Entries ω}
    (h : EntriesAlike (under "value" .secret) es es') :
    Agree (OptsAlike (under "value" .secret)) (Secrets.normalizeSecret es)
      (Secrets.normalizeSecret es') := by
  have hvalue := either_alike h
  have hviolation : Secrets.violationOf es = Secrets.violationOf es' := by
    unfold Secrets.violationOf
    rw [either_eq_of_ne h (by decide : "on_violation" ≠ "value")]
  have hkeys : Secrets.inspectKeys es = Secrets.inspectKeys es' := by
    unfold Secrets.inspectKeys
    rw [h.keys_eq]
  unfold Secrets.normalizeSecret
  rw [either_eq_of_ne h (by decide : "env" ≠ "value"), hvalue.kind_eq.1, (hostsOf_eq h).1,
    (hostsOf_eq h).2, hkeys, hviolation]
  split
  · exact .error _
  · split
    · exact .error _
    · refine (AgreeUnless.refl (r := Eq) (fun _ => rfl) _).map ?_
      rintro ov _ rfl
      exact secretHash_alike h ov

/-- A spec that is no Hash is refused for its class. -/
theorem agree_normalizeSecretSpec {v w : Value ω} (h : Alike secretSpecShape v w) :
    Agree (OptsAlike (under "value" .secret)) (Secrets.normalizeSecretSpec v)
      (Secrets.normalizeSecretSpec w) := by
  rcases h with rfl | ⟨es, es', rfl, rfl, hes⟩
  · exact AgreeUnless.refl (OptsAlike.refl _) _
  · exact agree_normalizeSecret hes

/-- A list, or a bare Hash that stands for a list of one. -/
theorem array_alike {shape : Value ω → Shape ω} {v w : Value ω}
    (h : Alike (listShape (.hash shape)) v w) (hhash : v.isHash = false) :
    List.Forall₂ (Alike (.hash shape)) v.array w.array := by
  rcases h with (rfl | ⟨es, es', rfl, rfl, -⟩) | (rfl | ⟨xs, ys, rfl, rfl, hxs⟩)
  · exact List.forall₂_same.mpr fun x _ => Alike.refl _ x
  · cases hhash
  · exact List.forall₂_same.mpr fun x _ => Alike.refl _ x
  · exact hxs

omit [Methods ω] in
/-- A Hash is like a Hash. -/
theorem hash_alike {shape : Value ω → Shape ω} {es : Entries ω} {w : Value ω}
    (h : Alike (listShape (.hash shape)) (.hash es) w) :
    ∃ es', w = .hash es' ∧ EntriesAlike shape es es' := by
  rcases h with (rfl | ⟨es, es', hv, rfl, hes⟩) | (rfl | ⟨xs, ys, hv, -, -⟩)
  · exact ⟨es, rfl, EntriesAlike.refl _ es⟩
  · obtain rfl := Value.hash.inj hv
    exact ⟨es', rfl, hes⟩
  · exact ⟨es, rfl, EntriesAlike.refl _ es⟩
  · cases hv

omit [Methods ω] in
/-- What is found in one run is found in the other. -/
theorem isSome_eq {shape : Shape ω} {o o' : Option (Value ω)} (h : FoundAlike shape o o') :
    o.isSome = o'.isSome := by
  cases h with
  | absent => rfl
  | found => rfl

/-- The specs of an option. -/
theorem agree_secretSpecs {v w : Value ω} (h : Alike (listShape secretSpecShape) v w) :
    Agree (List.Forall₂ (Alike secretSpecShape)) (Secrets.secretSpecs v)
      (Secrets.secretSpecs w) := by
  cases hhash : v.isHash with
  | true =>
    obtain ⟨es, rfl⟩ := Value.eq_hash_of_isHash hhash
    obtain ⟨es', rfl, hes⟩ := hash_alike h
    unfold Secrets.secretSpecs Secrets.hasEnv
    dsimp only
    rw [isSome_eq (hes.atSym "env"), isSome_eq (hes.atStr "env")]
    split
    · exact .ok (.cons (Or.inr ⟨es, es', rfl, rfl, hes⟩) .nil)
    · exact .error _
  | false =>
    have hnot : ∀ v : Value ω, v.isHash = false → Secrets.secretSpecs v = .ok v.array := by
      intro v hv
      cases v with
      | hash => cases hv
      | nil | bool | int | str | sym | arr | obj => rfl
    rw [hnot v hhash, hnot w (h.kind_eq.2.2 ▸ hhash)]
    exact .ok (array_alike h hhash)

/-- The secrets, one by one. -/
theorem agree_normalizeSecrets {v w : Value ω} (h : Alike (listShape secretSpecShape) v w) :
    Agree (List.Forall₂ (OptsAlike (under "value" .secret))) (Secrets.normalizeSecrets v)
      (Secrets.normalizeSecrets w) :=
  (agree_secretSpecs h).bind fun _ _ hspecs =>
    agree_mapM (hspecs.imp fun _ _ => agree_normalizeSecretSpec)

/-- The patches, one by one. -/
theorem agree_normalizePatches {v w : Value ω} (h : Alike (listShape patchShape) v w) :
    Agree (List.Forall₂ (OptsAlike (under "content" .secret))) (Patches.normalizePatches v)
      (Patches.normalizePatches w) := by
  have hlist : List.Forall₂ (Alike patchShape) (Patches.patchList v) (Patches.patchList w) := by
    cases hhash : v.isHash with
    | true =>
      obtain ⟨es, rfl⟩ := Value.eq_hash_of_isHash hhash
      obtain ⟨es', rfl, hes⟩ := hash_alike h
      exact .cons (Or.inr ⟨es, es', rfl, rfl, hes⟩) .nil
    | false =>
      have hnot : ∀ v : Value ω, v.isHash = false → Patches.patchList v = v.array := by
        intro v hv
        cases v with
        | hash => cases hv
        | nil | bool | int | str | sym | arr | obj => rfl
      rw [hnot v hhash, hnot w (h.kind_eq.2.2 ▸ hhash)]
      exact array_alike h hhash
  refine agree_mapM (hlist.imp ?_)
  rintro v w (rfl | ⟨es, es', rfl, rfl, hes⟩)
  · exact AgreeUnless.refl (OptsAlike.refl _) _
  · refine .ok (optsAlike_transformKeys (hes.imp ?_))
    rintro ⟨k, v⟩ ⟨k', v'⟩ ⟨hkey, hvalue⟩
    refine ⟨hkey, ?_⟩
    cases k with
    | str s | sym s => exact hvalue
    | nil | bool | int | arr | hash | obj =>
      -- a secret stands under a String or a Symbol only
      obtain rfl : v = v' := hvalue
      exact Alike.refl _ v

/-! ### Proxies -/

/-- A String is refused as a password before it is looked at. -/
theorem secretSource_coerce_eq [Proxy.ProxyObjects ω] {v w : Value ω} (h : Alike passwordShape v w)
    (context : String) :
    Proxy.SecretSource.coerce v context = Proxy.SecretSource.coerce w context := by
  rcases h with (rfl | ⟨s, t, rfl, rfl⟩) | (rfl | ⟨es, es', rfl, rfl, hes⟩)
  · rfl
  · rfl
  · rfl
  · unfold Proxy.SecretSource.coerce
    dsimp only
    rw [fetchOpt_eq_of_ne hes (by decide : "env" ≠ "value"),
      fetchOpt_eq_of_ne hes (by decide : "kind" ≠ "value"),
      fetchOpt_eq_of_ne hes (by decide : "var" ≠ "value")]

/-- So the credentials of a proxy are the same, or refused alike. -/
theorem hashCredentials_eq [Proxy.ProxyObjects ω] {v w : Value ω}
    (h : Alike (.hash (under "password" passwordShape)) v w) :
    Proxy.OutboundProxy.hashCredentials v = Proxy.OutboundProxy.hashCredentials w := by
  rcases h with rfl | ⟨es, es', rfl, rfl, hes⟩
  · rfl
  · have hpassword := fetchOpt_alike hes
    unfold Proxy.OutboundProxy.hashCredentials
    dsimp only
    rw [fetchOpt_eq_of_ne hes (by decide : "username" ≠ "password"), hpassword.kind_eq.2.1,
      secretSource_coerce_eq hpassword]

/-- What is made of a proxy does not depend on its secrets at all. -/
theorem proxy_coerce_eq [Proxy.ProxyObjects ω] {v w : Value ω} (h : Alike proxyShape v w) :
    Proxy.OutboundProxy.coerce v = Proxy.OutboundProxy.coerce w := by
  rcases h with rfl | ⟨es, es', rfl, rfl, hes⟩
  · rfl
  · have hcredentials := hashCredentials_eq (fetchOpt_alike hes)
    have hhash : Proxy.OutboundProxy.fromHash es = Proxy.OutboundProxy.fromHash es' := by
      unfold Proxy.OutboundProxy.fromHash
      rw [fetchOpt_eq_of_ne hes (by decide : "protocol" ≠ "credentials"),
        fetchOpt_eq_of_ne hes (by decide : "address" ≠ "credentials"),
        fetchOpt_eq_of_ne hes (by decide : "user_id" ≠ "credentials"), hcredentials]
    change (Proxy.OutboundProxy.fromHash es).map _ = (Proxy.OutboundProxy.fromHash es').map _
    rw [hhash]

/-! ### Modifications -/

/-- A secret of a modification. -/
theorem agree_normalizeModifySecret {v w : Value ω} (h : Alike secretSpecShape v w)
    (name : Value ω) :
    Agree (OptsAlike (under "value" .secret)) (Modify.normalizeModifySecret name v)
      (Modify.normalizeModifySecret name w) := by
  rcases h with rfl | ⟨es, es', rfl, rfl, hes⟩
  · exact AgreeUnless.refl (OptsAlike.refl _) _
  · have hvalue := fetchOpt_alike hes
    have henv := fetchOpt_eq_of_ne hes (by decide : "env" ≠ "value")
    have hstore := fetchOpt_eq_of_ne hes (by decide : "store" ≠ "value")
    have hpresent : (Modify.present es).map Prod.fst = (Modify.present es').map Prod.fst := by
      unfold Modify.present Modify.sources
      rw [henv, hstore]
      simp only [List.filter_cons, hvalue.kind_eq.2.1]
      split <;> split <;> split <;> rfl
    have hlength : (Modify.present es).length = (Modify.present es').length := by
      rw [← List.length_map Prod.fst, hpresent, List.length_map]
    -- Which sources are given, and so whether they are too many, does not depend on the secret.
    by_cases hone : (Modify.present es).length ≤ 1
    · rw [Modify.normalizeModifySecret_hash name hone,
        Modify.normalizeModifySecret_hash name (hlength ▸ hone)]
      refine .ok ?_
      unfold Modify.ModifySecret.wire Modify.ModifySecret.ofSpec
      dsimp only
      rw [henv, hstore, fetchOpt_eq_of_ne hes (by decide : "placeholder" ≠ "value"),
        either_eq_of_ne hes (by decide : "allowed_hosts" ≠ "value")]
      iterate 3 refine OptsAlike.insertSome ?_ (FoundAlike.refl _ _)
      refine OptsAlike.insertSome ?_ ?_
      · exact (OptsAlike.refl _ _).insertSome (FoundAlike.refl _ _)
      · rw [under_str_self]
        unfold textIf
        rw [hvalue.kind_eq.1]
        split
        · exact .found (alike_str _ _)
        · exact .absent
    · have hkeys : (Modify.present es).map (fun e => Modify.inspectStr ω e.1) =
          (Modify.present es').map fun e => Modify.inspectStr ω e.1 := by
        have hmap := congrArg (List.map (Modify.inspectStr ω)) hpresent
        rwa [List.map_map, List.map_map] at hmap
      have htruthy (es : Entries ω) : (Value.hash es).truthy = true := rfl
      unfold Modify.normalizeModifySecret
      simp only [htruthy, if_true, if_pos (not_le.mp hone), if_pos (hlength ▸ not_le.mp hone), hkeys]
      exact .error _

/-- The secrets come out in one order, that of their names. -/
theorem agree_normalizeModifySecrets {v w : Value ω} (h : Alike modifySecretsShape v w) :
    Agree (List.Forall₂ (OptsAlike (under "value" .secret))) (Modify.normalizeModifySecrets v)
      (Modify.normalizeModifySecrets w) := by
  rcases h with rfl | ⟨es, es', rfl, rfl, hes⟩
  · exact AgreeUnless.refl (fun _ => List.forall₂_same.mpr fun m _ => OptsAlike.refl _ m) _
  · refine (agree_mapM (s := OptsAlike (under "value" .secret)) (hes.imp ?_)).bind ?_
    · rintro e e' ⟨hkey, halike⟩
      rw [hkey]
      exact agree_normalizeModifySecret halike e'.1
    · intro specs specs' hspecs
      have hname : ∀ m m' : Opts ω, OptsAlike (under "value" .secret) m m' →
          Modify.nameOf m = Modify.nameOf m' := by
        intro m m' hm
        have hfound := (hm.lookup "name").getD
        rw [under_str_of_ne (by decide)] at hfound
        exact congrArg Value.toS hfound
      have hsorted := List.forall₂_sortBy hspecs hname
      generalize specs.sortBy Modify.nameOf = out, specs'.sortBy Modify.nameOf = out' at hsorted
      have hnames : out.map Modify.nameOf = out'.map Modify.nameOf := by
        induction hsorted with
        | nil => rfl
        | cons hentry _ ih => rw [List.map_cons, List.map_cons, hname _ _ hentry, ih]
      -- whether a name stands twice, and which one is named, depends on the names alone
      have hdup : ∀ out : List (Opts ω),
          (out.find? fun h => 1 < (out.map Modify.nameOf).count (Modify.nameOf h)).map Modify.nameOf
            = (out.map Modify.nameOf).find? fun name => 1 < (out.map Modify.nameOf).count name := by
        intro out
        rw [List.find?_map]
        rfl
      have hfind := hdup out
      rw [hnames, ← hdup out'] at hfind
      dsimp only
      rw [hnames]
      generalize out.find? _ = o, out'.find? _ = o' at hfind ⊢
      cases o with
      | none =>
        obtain rfl := Option.map_eq_none_iff.mp hfind.symm
        exact .ok hsorted
      | some dup =>
        obtain ⟨dup', rfl, hdup'⟩ := Option.map_eq_some_iff.mp hfind.symm
        dsimp only
        rw [hdup']
        exact .error _

end Normalizations

/-! ## The builders -/

/-- A line of a builder keeps options alike. -/
def StepsAlike (value : Value ω → Shape ω) (step step' : Step ω) : Prop :=
  ∀ m m', OptsAlike value m m' → Agree (OptsAlike value) (step m) (step' m')

namespace StepsAlike

variable {value : Value ω → Shape ω} {key : String}

/-- A key is set alike. -/
theorem put {x y : Except Exception (Option (Value ω))}
    (h : Agree (FoundAlike (value (.str key))) x y) :
    StepsAlike value (put key x) (put key y) :=
  fun _ _ hm => h.map fun _ _ hv => hm.insertSome hv

/-- What is written does not depend on a secret. -/
theorem put_same (x : Except Exception (Option (Value ω))) :
    StepsAlike value (Create.put key x) (Create.put key x) :=
  put (AgreeUnless.refl (FoundAlike.refl _) x)

/-- A key is set alike if the argument is given alike. -/
theorem whenGiven {shape : Shape ω} {v w : Value ω} {f : Value ω → Except Exception (Value ω)}
    (h : Alike shape v w) (hf : Agree (Alike (value (.str key))) (f v) (f w)) :
    StepsAlike value (Create.put key (Create.whenGiven v f))
      (Create.put key (Create.whenGiven w f)) := by
  apply put
  unfold Create.whenGiven
  rw [h.kind_eq.1]
  split
  · exact hf.map fun _ _ hv => .found hv
  · exact .ok .absent

/-- A key is set alike unless the argument is `nil`. -/
theorem unlessNilM {shape : Shape ω} {v w : Value ω} {f : Value ω → Except Exception (Value ω)}
    (h : Alike shape v w) (hf : Agree (Alike (value (.str key))) (f v) (f w)) :
    StepsAlike value (Create.put key (Create.unlessNilM v f))
      (Create.put key (Create.unlessNilM w f)) := by
  apply put
  unfold Create.unlessNilM
  rw [h.kind_eq.2.1]
  split
  · exact .ok .absent
  · exact hf.map fun _ _ hv => .found hv

/-- A flag is no secret. -/
theorem putFlag_same (v : Value ω) : StepsAlike value (putFlag key v) (putFlag key v) := by
  intro m m' hm
  refine .ok ?_
  unfold setFlag
  split
  · exact hm.insert (Alike.refl _ _)
  · exact hm

/-- All lines, one after another. -/
theorem run {steps steps' : List (Step ω)} (h : List.Forall₂ (StepsAlike value) steps steps') :
    Agree (OptsAlike value) (runSteps steps ∅) (runSteps steps' ∅) :=
  agree_foldlM (h.imp fun _ _ hstep => hstep) (OptsAlike.refl value ∅)

end StepsAlike

/-- A list of options is alike element by element. -/
theorem alike_arr_strHash {value : Value ω → Shape ω} {ms ms' : List (Opts ω)}
    (h : List.Forall₂ (OptsAlike value) ms ms') :
    Alike (.list (.hash value)) (.arr (ms.map strHash)) (.arr (ms'.map strHash)) :=
  Or.inr ⟨_, _, rfl, rfl, List.forall₂_map_left_iff.mpr (List.forall₂_map_right_iff.mpr
    (h.imp fun _ _ hm => hm.strHash))⟩

section Builders

variable [Methods ω] [CallerObjects ω]

omit [CallerObjects ω] in
/-- A network policy holds no secret. -/
theorem stepsAlike_putNetwork (network : Network.NetworkArg ω) :
    StepsAlike createOptsShape (putNetwork network) (putNetwork network) := by
  have hroute : ∀ norm : Network.Wire ω, StepsAlike createOptsShape
      (fun opts => .ok (Network.routeNetwork opts norm))
      (fun opts => .ok (Network.routeNetwork opts norm)) := by
    intro norm m m' hm
    refine .ok ?_
    unfold Network.routeNetwork
    split
    · exact hm
    · split
      · exact hm.insert rfl
      · split
        · exact hm.insert rfl
        · exact hm.insert rfl
  intro m m' hm
  unfold putNetwork Network.applyNetworkOpts
  split
  · exact .ok hm
  · exact (AgreeUnless.refl (r := Eq) (fun _ => rfl) (Network.NetworkPolicy.coerce network)).bind
      fun norm _ heq => heq ▸ hroute norm m m' hm

/-- The registry differs in its password alone. -/
theorem stepsAlike_registry {auth auth' : Value ω} (h : Alike authShape auth auth')
    (insecure caCerts : Value ω) :
    StepsAlike createOptsShape (fun opts => applyRegistryOpts opts auth insecure caCerts)
      (fun opts => applyRegistryOpts opts auth' insecure caCerts) := by
  intro m m' hm
  have hcredentials : Agree (fun o o' : Option (String × String) => o.map Prod.fst = o'.map Prod.fst)
      (registryCredentials auth) (registryCredentials auth') := by
    unfold registryCredentials
    rw [h.kind_eq.1]
    split
    · exact (agree_registryAuth h).map fun _ _ hname => congrArg some hname
    · exact .ok rfl
  unfold applyRegistryOpts
  refine hcredentials.bind ?_
  intro o o' ho
  refine .ok ?_
  have hpassword : FoundAlike (.secret : Shape ω) (o.map fun c => .str c.2)
      (o'.map fun c => .str c.2) := by
    cases o with
    | none =>
      obtain rfl := Option.map_eq_none_iff.mp ho.symm
      exact .absent
    | some c =>
      obtain ⟨c', rfl, -⟩ := Option.map_eq_some_iff.mp ho.symm
      exact .found (alike_str _ _)
  -- The names are the same: only the passwords may differ.
  have husername : (o.map fun c => (.str c.1 : Value ω)) = o'.map fun c => .str c.1 := by
    have hmap := congrArg (Option.map (Value.str (ω := ω))) ho
    rwa [Option.map_map, Option.map_map] at hmap
  rw [husername]
  refine OptsAlike.insertSome ?_ (FoundAlike.refl _ _)
  have hnamed : OptsAlike createOptsShape
      (insertSome (insertSome m "registry_username" (o'.map fun c => .str c.1))
        "registry_password" (o.map fun c => .str c.2))
      (insertSome (insertSome m' "registry_username" (o'.map fun c => .str c.1))
        "registry_password" (o'.map fun c => .str c.2)) :=
    (hm.insertSome (FoundAlike.refl _ _)).insertSome hpassword
  unfold setFlag
  split
  · exact hnamed.insert rfl
  · exact hnamed

omit [CallerObjects ω] in
/-- Lists that are alike are empty together. -/
theorem array_isEmpty_eq {shape : Value ω → Shape ω} {v w : Value ω}
    (h : Alike (listShape (.hash shape)) v w) : v.array.isEmpty = w.array.isEmpty := by
  have hempty : ∀ {α β : Type} {r : α → β → Prop} {xs : List α} {ys : List β},
      List.Forall₂ r xs ys → xs.isEmpty = ys.isEmpty := by
    intro α β r xs ys hr
    cases hr with
    | nil => rfl
    | cons => rfl
  rcases h with (rfl | ⟨es, es', rfl, rfl, hes⟩) | (rfl | ⟨xs, ys, rfl, rfl, hxs⟩)
  · rfl
  · change (es.map _).isEmpty = (es'.map _).isEmpty
    rw [List.isEmpty_map, List.isEmpty_map, hempty hes]
  · rfl
  · exact hempty hxs

/-- Keyword arguments that differ only in secrets. -/
structure CreateArgs.Alike (args args' : CreateArgs ω) : Prop where
  others : args' = { args with
    env := args'.env
    scripts := args'.scripts
    init := args'.init
    patches := args'.patches
    proxy := args'.proxy
    registryAuth := args'.registryAuth
    secrets := args'.secrets }
  env : Create.Alike envShape args.env args'.env
  scripts : Create.Alike envShape args.scripts args'.scripts
  init : Create.Alike initShape args.init args'.init
  patches : Create.Alike (listShape patchShape) args.patches args'.patches
  proxy : Create.Alike proxyShape args.proxy args'.proxy
  registryAuth : Create.Alike authShape args.registryAuth args'.registryAuth
  secrets : Create.Alike (listShape secretSpecShape) args.secrets args'.secrets

/-- Two modifications that differ only in secrets. -/
structure ModifyArgs.Alike (args args' : ModifyArgs ω) : Prop where
  others : args' = { args with
    env := args'.env
    secrets := args'.secrets }
  env : Create.Alike envShape args.env args'.env
  secrets : Create.Alike modifySecretsShape args.secrets args'.secrets

variable [Numeric ω] [Proxy.ProxyObjects ω]

/-- The lines of `build_create_opts`. -/
theorem agree_buildCreateOpts {args args' : CreateArgs ω} (h : args.Alike args') :
    Agree (OptsAlike createOptsShape) (buildCreateOpts args) (buildCreateOpts args') := by
  obtain ⟨hothers, henv, hscripts, hinit, hpatches, hproxy, hauth, hsecrets⟩ := h
  generalize args'.env = env, args'.scripts = scripts, args'.init = init, args'.patches = patches,
    args'.proxy = proxy, args'.registryAuth = auth, args'.secrets = secrets at *
  subst hothers
  -- the checks look at secret arguments only for whether they are there
  have hcheck : checkCombinations args = checkCombinations { args with
      env, scripts, init, patches, proxy, registryAuth := auth, secrets } := by
    unfold checkCombinations
    dsimp only
    rw [hpatches.kind_eq.1, array_isEmpty_eq hpatches]
  unfold buildCreateOpts
  rw [← hcheck]
  refine (AgreeUnless.refl (r := Eq) (fun _ => rfl) _).bind fun _ _ _ => StepsAlike.run ?_
  unfold createSteps
  repeat' apply List.Forall₂.cons
  -- the steps of the public arguments are the same in both runs
  any_goals exact StepsAlike.put_same _
  any_goals exact StepsAlike.putFlag_same _
  · exact .whenGiven henv ((agree_stringify henv).map fun _ _ hm => hm.strHash)
  · exact .whenGiven hscripts ((agree_stringify hscripts).map fun _ _ hm => hm.strHash)
  · exact .whenGiven hpatches ((agree_normalizePatches hpatches).map fun _ _ => alike_arr_strHash)
  · exact stepsAlike_putNetwork args.network
  · apply StepsAlike.unlessNilM hproxy
    rw [proxy_coerce_eq hproxy]
    exact AgreeUnless.refl (Alike.refl _) _
  · exact stepsAlike_registry hauth args.registryInsecure args.registryCaCerts
  · exact .whenGiven hsecrets ((agree_normalizeSecrets hsecrets).map fun _ _ => alike_arr_strHash)
  · exact .unlessNilM hinit ((agree_normalizeInit hinit).map fun _ _ hm => hm.strHash)
  · unfold putReplace
    dsimp only
    split
    · exact StepsAlike.put_same _
    · exact StepsAlike.putFlag_same _
  · exact .nil

omit [Proxy.ProxyObjects ω] in
/-- The lines of `build_modify_opts`. -/
theorem agree_buildModifyOpts {args args' : ModifyArgs ω} (h : args.Alike args') :
    Agree (OptsAlike modifyOptsShape) (buildModifyOpts args) (buildModifyOpts args') := by
  obtain ⟨hothers, henv, hsecrets⟩ := h
  generalize args'.env = env, args'.secrets = secrets at *
  subst hothers
  apply StepsAlike.run
  unfold modifySteps
  repeat' apply List.Forall₂.cons
  any_goals exact StepsAlike.put_same _
  any_goals exact StepsAlike.putFlag_same _
  · exact .whenGiven henv ((agree_stringify henv).map fun _ _ hm => hm.strHash)
  · exact .whenGiven hsecrets
      ((agree_normalizeModifySecrets hsecrets).map fun _ _ => alike_arr_strHash)
  · exact .nil

/-- No exception of the builders depends on a secret, and no part of what they return does but for
what stands where the secrets belong. -/
theorem secrets_stay_hidden {args args' : CreateArgs ω} (hcreate : args.Alike args')
    {changes changes' : ModifyArgs ω} (hmodify : changes.Alike changes') :
    Agree (OptsAlike createOptsShape) (buildCreateOpts args) (buildCreateOpts args') ∧
      Agree (OptsAlike modifyOptsShape) (buildModifyOpts changes) (buildModifyOpts changes') :=
  ⟨agree_buildCreateOpts hcreate, agree_buildModifyOpts hmodify⟩

/-- A secret of a create call. -/
def tokenArgs (token : String) : CreateArgs Unit where
  image := .str "python"
  secrets := .hash [(.sym "env", .str "TOKEN"), (.sym "value", .str token)]

/-- A secret of a modification. -/
def tokenChanges (token : String) : ModifyArgs Unit where
  secrets := .hash [(.str "TOKEN", .hash [(.sym "value", .str token), (.sym "env", .str "HOME")])]

/-- Two tokens, in a create call and in a modification. -/
theorem secrets_stay_hidden_token :
    Agree (OptsAlike createOptsShape) (buildCreateOpts (tokenArgs "a"))
        (buildCreateOpts (tokenArgs "b")) ∧
      Agree (OptsAlike modifyOptsShape) (buildModifyOpts (tokenChanges "a"))
        (buildModifyOpts (tokenChanges "b")) := by
  have hvalue : Alike (under "value" .secret (.sym "value") : Shape Unit) (.str "a") (.str "b") :=
    alike_str "a" "b"
  refine secrets_stay_hidden ⟨rfl, ?_, ?_, ?_, ?_, ?_, ?_, ?_⟩ ⟨rfl, ?_, ?_⟩
  any_goals exact Alike.refl _ _
  · refine Or.inl (Or.inr ⟨_, _, rfl, rfl, .cons ⟨rfl, rfl⟩ (.cons ⟨rfl, hvalue⟩ .nil)⟩)
  · refine Or.inr ⟨_, _, rfl, rfl, .cons ⟨rfl, Or.inr ⟨_, _, rfl, rfl, ?_⟩⟩ .nil⟩
    exact .cons ⟨rfl, hvalue⟩ (.cons ⟨rfl, rfl⟩ .nil)

end Builders

end MicrosandboxRb.Create
