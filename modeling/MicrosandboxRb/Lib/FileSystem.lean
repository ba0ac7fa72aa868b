import MicrosandboxRb.Lib.ExceptList
import Mathlib.Data.List.Infix
import Mathlib.Data.List.Dedup
import Mathlib.Data.List.Sort
import Mathlib.Data.String.Basic

/-!
# A file system

A tree of directories, regular files and symbolic links, with the resolution of a path through `.`,
`..` and links, and the operations that create, replace, rename and remove entries.

A `Path` is the list of the names from the root to an entry: it contains no link and no `..`. A
program gives a list of `Component`s instead, and `FileSystem.resolve` finds the path it means.
Permissions are kept for regular files only, and no operation is refused because of them.

## Main results

* `FileSystem.resolve_spell`: below a directory that is reached without links, a name means itself;
* `FileSystem.resolve_append`, `resolveFrom_spell`: so do the names below any directory;
* `FileSystem.node_put`, `node_rmRf` and `node_move`: what each change leaves at every path.
-/

namespace Posix

/-- `s` can be the name of an entry of a directory. -/
def IsName (s : String) : Prop :=
  s ≠ "" ∧ s ≠ "." ∧ s ≠ ".." ∧ '/' ∉ s.toList ∧ '\x00' ∉ s.toList

instance (s : String) : Decidable (IsName s) := inferInstanceAs (Decidable (_ ∧ _))

/-- The name of an entry of a directory. -/
abbrev Name := {s : String // IsName s}

/-- An entry of the tree, by the names of the directories above it and its own. -/
abbrev Path := List Name

/-- One part of a path that a program gives. -/
inductive Component where
  | here
  | up
  | down (name : Name)
deriving DecidableEq

namespace Component

/-- The part between two slashes. Nothing stands between two adjacent ones. -/
def ofChunk (chunk : List Char) : Option Component :=
  if chunk = ['.'] then some .here
  else if chunk = ['.', '.'] then some .up
  else if h : IsName (String.ofList chunk) then some (.down ⟨String.ofList chunk, h⟩)
  else none

/-- The components of a path without NUL. A final slash asks for a directory, as `/.` does. -/
def parse (s : String) : List Component :=
  let chunks := s.toList.splitOn '/'
  chunks.filterMap ofChunk ++ if chunks.getLast? = some [] then [here] else []

/-- A name is a component of its own. -/
theorem ofChunk_name (n : Name) : ofChunk n.val.toList = some (.down n) := by
  obtain ⟨s, h⟩ := n
  have hdot : s.toList ≠ ['.'] := by
    intro heq
    exact h.2.1 (by rw [← String.ofList_toList (s := s), heq])
  have hdots : s.toList ≠ ['.', '.'] := by
    intro heq
    exact h.2.2.1 (by rw [← String.ofList_toList (s := s), heq])
  rw [ofChunk, if_neg hdot, if_neg hdots, dif_pos (by rwa [String.ofList_toList])]
  simp only [String.ofList_toList]

/-- Names between slashes are parsed back. -/
theorem parse_of_toList {s : String} {p : Path} (hp : p ≠ [])
    (h : s.toList = ['/'].intercalate (p.map fun n => n.val.toList)) :
    parse s = p.map .down := by
  have hchunks : s.toList.splitOn '/' = p.map fun n => n.val.toList := by
    rw [h, List.splitOn_intercalate]
    · intro l hl
      obtain ⟨n, -, rfl⟩ := List.mem_map.mp hl
      exact n.property.2.2.2.1
    · exact fun hnil => hp (List.map_eq_nil_iff.mp hnil)
  have hlast : (p.map fun n => n.val.toList).getLast? ≠ some [] := by
    intro hlast
    obtain ⟨n, -, hn⟩ := List.mem_map.mp (List.mem_of_getLast? hlast)
    exact n.property.1 (by rw [← String.ofList_toList (s := n.val), hn])
  have hcomp : (ofChunk ∘ fun n : Name => n.val.toList) = some ∘ down := funext ofChunk_name
  rw [parse, hchunks, if_neg hlast, List.append_nil, List.filterMap_map, hcomp,
    List.filterMap_eq_map]

end Component

/-- What a program spells to mean `p`. -/
def spell (p : Path) : List Component := p.map .down

/-- The errors of the operations. `eio` stands for every failure that the tree does not explain. -/
inductive Errno where
  | enoent
  | enotdir
  | eisdir
  | eexist
  | enotempty
  | einval
  | eloop
  | eio
deriving DecidableEq, Repr

/-- What is at a path. -/
inductive Node where
  | dir
  | file (data : List UInt8) (mode : ℕ)
  | symlink (absolute : Bool) (target : List Component)
deriving DecidableEq

/-- A finite tree. Whatever exists is in a directory. -/
@[ext]
structure FileSystem where
  node : Path → Option Node
  support : List Path
  mem_support : ∀ p, node p ≠ none → p ∈ support
  root : node [] = some .dir
  parent : ∀ p n, node (p ++ [n]) ≠ none → node p = some .dir

/-- Only the root directory. -/
def FileSystem.empty : FileSystem where
  node r := if r = [] then some .dir else none
  support := [[]]
  mem_support r hr := by
    split_ifs at hr with h
    · rw [h]
      exact List.mem_singleton_self []
    · exact absurd rfl hr
  root := rfl
  parent p n hp := by
    rw [if_neg (by simp)] at hp
    exact absurd rfl hp

/-- How far a path leads without following a link. -/
inductive Walk where
  | done (p : Path)
  /-- A link stands in the way: go on from `p` with `rest`. -/
  | link (p : Path) (rest : List Component)

namespace FileSystem

variable (fs : FileSystem)

/-- A symbolic link is at `p`. -/
def link? (p : Path) : Bool :=
  match fs.node p with
  | some (.symlink ..) => true
  | _ => false

/-- Follow the components from `p` up to the first link. A final link is followed if `follow`. -/
def walk (follow : Bool) : Path → List Component → Except Errno Walk
  | p, [] => .ok (.done p)
  | p, c :: rest =>
    match fs.node p with
    | some .dir =>
      match c with
      | .here => walk follow p rest
      | .up => walk follow p.dropLast rest
      | .down n =>
        match fs.node (p ++ [n]) with
        | some (.symlink absolute target) =>
          -- the last name may stand for the link itself
          if rest.isEmpty && !follow then .ok (.done (p ++ [n]))
          else .ok (.link (if absolute then [] else p) (target ++ rest))
        | _ => walk follow (p ++ [n]) rest
    | some _ => .error .enotdir
    | none => .error .enoent

/-- `walk` through at most `links` links. -/
def resolveFrom (follow : Bool) : ℕ → Path → List Component → Except Errno Path
  | links, p, cs =>
    match fs.walk follow p cs with
    | .error e => .error e
    | .ok (.done q) => .ok q
    | .ok (.link q rest) =>
      match links with
      | 0 => .error .eloop
      | links + 1 => resolveFrom follow links q rest

/-- The entry that `cs` means, whose directory exists. The entry itself may be missing. -/
def resolve (follow : Bool) (cs : List Component) : Except Errno Path :=
  fs.resolveFrom follow 40 [] cs

/-- What is at the end of the path, if anything is. -/
def find (follow : Bool) (cs : List Component) : Option Node :=
  match fs.resolve follow cs with
  | .ok p => fs.node p
  | .error _ => none

/-- `File.exist?` -/
def exist? (cs : List Component) : Bool := (fs.find true cs).isSome

/-- `File.file?` -/
def file? (cs : List Component) : Bool :=
  match fs.find true cs with
  | some (.file ..) => true
  | _ => false

/-- `File.directory?` -/
def directory? (cs : List Component) : Bool := fs.find true cs = some .dir

/-- The type of the entry, a final link not followed. -/
def lstat (cs : List Component) : Except Errno Node := do
  match fs.node (← fs.resolve false cs) with
  | some nd => .ok nd
  | none => .error .enoent

/-- The content of a regular file. -/
def read (cs : List Component) : Except Errno (List UInt8) := do
  match fs.node (← fs.resolve true cs) with
  | some (.file data _) => .ok data
  | some .dir => .error .eisdir
  | some (.symlink ..) => .error .eloop
  | none => .error .enoent

/-! ### The tree -/

variable {fs}

/-- What is above something is a directory. -/
theorem node_eq_dir_of_append {p q : Path} (hq : q ≠ []) (h : fs.node (p ++ q) ≠ none) :
    fs.node p = some .dir := by
  induction q using List.reverseRecOn with
  | nil => exact absurd rfl hq
  | append_singleton q n ih =>
    rw [← List.append_assoc] at h
    have hdir := fs.parent _ _ h
    by_cases hq' : q = []
    · rwa [hq', List.append_nil] at hdir
    · apply ih hq'
      rw [hdir]
      exact Option.some_ne_none _

/-- Every prefix of an entry's path, other than the path itself, is a directory. -/
theorem node_eq_dir_above {p r : Path} (hp : p <+: r) (hne : p ≠ r) (h : fs.node r ≠ none) :
    fs.node p = some .dir := by
  obtain ⟨q, rfl⟩ := hp
  refine node_eq_dir_of_append ?_ h
  rintro rfl
  exact hne (List.append_nil p).symm

/-- Nothing is below what is not a directory. -/
theorem node_eq_none_below {p r : Path} (hp : p <+: r) (hne : p ≠ r)
    (h : fs.node p ≠ some .dir) : fs.node r = none := by
  by_contra hr
  exact h (node_eq_dir_above hp hne hr)

/-! ### Resolution -/

/-- What is behind a first part of a path starts where the first part ends. -/
theorem walk_append (follow : Bool) (p : Path) (cs : List Component) (c : Component)
    (cs' : List Component) :
    fs.walk follow p (cs ++ c :: cs') =
      match fs.walk true p cs with
      | .error e => .error e
      | .ok (.done q) => fs.walk follow q (c :: cs')
      | .ok (.link q rest) => .ok (.link q (rest ++ c :: cs')) := by
  induction cs generalizing p with
  | nil => rfl
  | cons d cs ih =>
    rw [List.cons_append]
    rcases hp : fs.node p with _ | (_ | ⟨data, mode⟩ | ⟨absolute, target⟩)
    case some.dir =>
      cases d with
      | here =>
        rw [walk, walk, hp]
        exact ih p
      | up =>
        rw [walk, walk, hp]
        exact ih p.dropLast
      | down n =>
        rw [walk, walk, hp]
        rcases hn : fs.node (p ++ [n]) with _ | (_ | ⟨data, mode⟩ | ⟨absolute, target⟩)
        case some.symlink => simp
        all_goals
          simp only
          exact ih (p ++ [n])
    -- an error, whatever the component is
    all_goals cases d <;> rw [walk, walk, hp]

/-- A walk does not go on from what is not a directory. -/
theorem walk_cons_of_not_dir (follow : Bool) {p : Path} (c : Component) (cs : List Component)
    (h : fs.node p ≠ some .dir) : ∃ e, fs.walk follow p (c :: cs) = .error e := by
  rcases hp : fs.node p with _ | (_ | ⟨data, mode⟩ | ⟨absolute, target⟩)
  case some.dir => exact absurd hp h
  all_goals cases c <;> exact ⟨_, by rw [walk, hp]⟩

/-- A path leads on only from a directory. -/
theorem find_dir_of_resolve_append {cs : List Component} {c : Component} {q : Path}
    (h : fs.resolve true (cs ++ [c]) = .ok q) : fs.find true cs = some .dir := by
  rw [find, resolve]
  rw [resolve] at h
  generalize 40 = links at h ⊢
  generalize ([] : Path) = p at h ⊢
  induction links generalizing p cs with
  | zero =>
    rw [resolveFrom, walk_append] at h
    rw [resolveFrom]
    rcases hwalk : fs.walk true p cs with e | (p' | ⟨p', rest⟩) <;> rw [hwalk] at h
    case ok.done =>
      by_contra hp
      -- a walk goes on only from a directory
      obtain ⟨e, he⟩ := walk_cons_of_not_dir true c [] hp
      simp only [he] at h
      cases h
    all_goals cases h
  | succ links ih =>
    rw [resolveFrom, walk_append] at h
    rw [resolveFrom]
    rcases hwalk : fs.walk true p cs with e | (p' | ⟨p', rest⟩) <;> rw [hwalk] at h
    case ok.done =>
      by_contra hp
      obtain ⟨e, he⟩ := walk_cons_of_not_dir true c [] hp
      simp only [he] at h
      cases h
    case ok.link => exact ih p' h
    cases h

/-- Without a link on the way, a path that is spelled out means itself. -/
theorem walk_spell (follow : Bool) {p q : Path}
    (h : ∀ r, r <+: p → r ≠ [] → fs.link? (q ++ r) = false) :
    fs.walk follow q (spell p) = .ok (.done (q ++ p)) ∨
      (∃ e, fs.walk follow q (spell p) = .error e) ∧ fs.node (q ++ p) = none := by
  induction p generalizing q with
  | nil =>
    left
    rw [List.append_nil]
    rfl
  | cons n p ih =>
    -- no name on the way is a link, so the walk never leaves it
    have hn : fs.link? (q ++ [n]) = false := h [n] (by simp) (by simp)
    have hrest : ∀ r, r <+: p → r ≠ [] → fs.link? (q ++ [n] ++ r) = false := by
      intro r hr _
      rw [List.append_assoc]
      exact h (n :: r) (List.cons_prefix_cons.mpr ⟨rfl, hr⟩) (by simp)
    have hwalk := ih hrest
    rw [List.append_assoc, List.singleton_append] at hwalk
    rw [spell, List.map_cons, walk]
    rcases hq : fs.node q with _ | (_ | ⟨data, mode⟩ | ⟨absolute, target⟩)
    case some.dir =>
      rw [link?] at hn
      rcases hqn : fs.node (q ++ [n]) with _ | (_ | ⟨data, mode⟩ | ⟨absolute, target⟩) <;>
        rw [hqn] at hn
      · exact hwalk
      · exact hwalk
      · exact hwalk
      · exact absurd hn (by simp)
    -- the walk stops at `q`, and nothing is below it
    all_goals
      right
      refine ⟨⟨_, rfl⟩, node_eq_none_below (List.prefix_append q _) (by simp) ?_⟩
      rw [hq]
      simp

variable (fs) in
/-- No link is at `p` or above it. -/
def Literal (p : Path) : Prop := ∀ r, r <+: p → fs.link? r = false

/-- Above a path without links there are none. -/
theorem Literal.above {p q : Path} (hq : q <+: p) (h : fs.Literal p) : fs.Literal q :=
  fun r hr => h r (hr.trans hq)

/-- No link leads through a directory. -/
theorem literal_of_dir {p : Path} (h : fs.node p = some .dir) : fs.Literal p := by
  intro r hr
  have hdir : fs.node r = some .dir := by
    by_cases hne : r = p
    · rw [hne, h]
    · refine node_eq_dir_above hr hne ?_
      rw [h]
      simp
  rw [link?, hdir]

/-- An entry of a directory that is no link is not followed. -/
theorem literal_append_singleton {p : Path} {n : Name} (h : fs.node p = some .dir)
    (hn : fs.link? (p ++ [n]) = false) : fs.Literal (p ++ [n]) := by
  intro r hr
  rcases List.prefix_concat_iff.mp hr with rfl | hr
  · exact hn
  · exact literal_of_dir h r hr

/-- The program finds what the tree holds. -/
theorem find_spell (follow : Bool) {p : Path} (h : fs.Literal p) :
    fs.find follow (spell p) = fs.node p := by
  rw [find, resolve, resolveFrom]
  rcases walk_spell (q := []) follow (fun r hr _ => h r hr) with hwalk | ⟨⟨e, hwalk⟩, hnone⟩
  · rw [hwalk]
    rfl
  · rw [hwalk]
    exact hnone.symm

/-- A path without links names the directory at it. -/
theorem directory?_spell {p : Path} (h : fs.Literal p) :
    fs.directory? (spell p) = decide (fs.node p = some .dir) := by
  rw [directory?, find_spell true h]

/-- The names from one directory to an entry of another below it mean the entry, unless it is a link
to follow. -/
theorem resolveFrom_spell (follow : Bool) (links : ℕ) {p q : Path} {n : Name}
    (h : fs.node (p ++ q) = some .dir) (hn : follow = true → fs.link? (p ++ q ++ [n]) = false) :
    fs.resolveFrom follow links p (spell (q ++ [n])) = .ok (p ++ q ++ [n]) := by
  have hwalk : fs.walk true p (spell q) = .ok (.done (p ++ q)) := by
    have hlit : ∀ r, r <+: q → r ≠ [] → fs.link? (p ++ r) = false := fun r hr _ =>
      literal_of_dir h _ ((List.prefix_append_right_inj p).mpr hr)
    rcases walk_spell true hlit with hwalk | ⟨-, hnone⟩
    · exact hwalk
    · rw [h] at hnone
      exact absurd hnone (by simp)
  have hspell : spell (q ++ [n]) = spell q ++ [.down n] := by simp [spell]
  rw [hspell, resolveFrom, walk_append, hwalk]
  dsimp only
  rw [walk, h]
  rcases hnode : fs.node (p ++ q ++ [n]) with _ | (_ | ⟨data, mode⟩ | ⟨absolute, target⟩)
  · rfl
  · rfl
  · rfl
  · cases follow with
    | false => rfl
    | true =>
      rw [link?, hnode] at hn
      exact absurd (hn rfl) (by simp)

/-- Below a directory, a name means itself, unless it is a link to follow. -/
theorem resolve_spell (follow : Bool) {p : Path} {n : Name} (h : fs.node p = some .dir)
    (hn : follow = true → fs.link? (p ++ [n]) = false) :
    fs.resolve follow (spell (p ++ [n])) = .ok (p ++ [n]) :=
  resolveFrom_spell follow 40 h hn

/-- Below an entry, as many links are left as were not needed to reach it. -/
theorem resolve_append {cs : List Component} {p : Path} (h : fs.resolve true cs = .ok p) :
    ∃ links, ∀ follow cs', cs' ≠ [] →
      fs.resolve follow (cs ++ cs') = fs.resolveFrom follow links p cs' := by
  simp only [resolve] at h ⊢
  -- the induction is on the links that may still be followed
  generalize 40 = links at h ⊢
  generalize ([] : Path) = q at h ⊢
  induction links generalizing q cs with
  | zero =>
    refine ⟨0, fun follow cs' hcs' => ?_⟩
    obtain ⟨c, cs', rfl⟩ := List.exists_cons_of_ne_nil hcs'
    rw [resolveFrom] at h
    rw [resolveFrom, walk_append, resolveFrom]
    rcases hwalk : fs.walk true q cs with e | (p' | ⟨p', rest⟩) <;> rw [hwalk] at h
    case ok.done =>
      obtain rfl := Except.ok.inj h
      rfl
    all_goals cases h
  | succ links ih =>
    rw [resolveFrom] at h
    rcases hwalk : fs.walk true q cs with e | (p' | ⟨p', rest⟩) <;> rw [hwalk] at h
    case error => cases h
    case ok.done =>
      obtain rfl := Except.ok.inj h
      refine ⟨links + 1, fun follow cs' hcs' => ?_⟩
      obtain ⟨c, cs', rfl⟩ := List.exists_cons_of_ne_nil hcs'
      conv_rhs => rw [resolveFrom]
      rw [resolveFrom, walk_append, hwalk]
    case ok.link =>
      obtain ⟨left, hleft⟩ := ih p' h
      refine ⟨left, fun follow cs' hcs' => ?_⟩
      rw [← hleft follow cs' hcs']
      obtain ⟨c, cs', rfl⟩ := List.exists_cons_of_ne_nil hcs'
      rw [resolveFrom, walk_append, hwalk]

/-! ### Changes -/

/-- An entry that is not a directory may be put at `p`. -/
def Puttable (fs : FileSystem) (p : Path) : Prop :=
  p ≠ [] ∧ fs.node p.dropLast = some .dir ∧ fs.node p ≠ some .dir

instance (fs : FileSystem) (p : Path) : Decidable (fs.Puttable p) :=
  inferInstanceAs (Decidable (_ ∧ _))

/-- Put an entry at `p`, in place of what was there. -/
def put (fs : FileSystem) (p : Path) (nd : Node) (h : fs.Puttable p) : FileSystem where
  node r := if r = p then some nd else fs.node r
  support := p :: fs.support
  mem_support r hr := by
    split at hr
    next heq => rw [heq]; exact List.mem_cons_self
    next => exact List.mem_cons_of_mem _ (fs.mem_support r hr)
  root := by rw [if_neg (Ne.symm h.1), fs.root]
  parent r n hr := by
    by_cases hrn : r ++ [n] = p
    · have hr' : r = p.dropLast := by rw [← hrn, List.dropLast_concat]
      have hne : r ≠ p := by
        rw [← hrn]
        simp
      rw [if_neg hne, hr']
      exact h.2.1
    · rw [if_neg hrn] at hr
      have hdir := fs.parent r n hr
      have hne : r ≠ p := by
        rintro rfl
        exact h.2.2 hdir
      rw [if_neg hne, hdir]

/-- What is put is there, and the rest stays. -/
@[simp] theorem node_put (fs : FileSystem) (p : Path) (nd : Node) (h : fs.Puttable p) (r : Path) :
    (fs.put p nd h).node r = if r = p then some nd else fs.node r := rfl

/-- Something that cannot be removed is at `r` or below it. -/
def Stays (fs : FileSystem) (stuck : Path → Bool) (r : Path) : Prop :=
  ∃ s ∈ fs.support, r <+: s ∧ fs.node s ≠ none ∧ stuck s = true

instance (fs : FileSystem) (stuck : Path → Bool) (r : Path) : Decidable (fs.Stays stuck r) :=
  inferInstanceAs (Decidable (∃ s ∈ fs.support, _))

/-- What stays is above something that cannot be removed. -/
theorem stays_iff {stuck : Path → Bool} {r : Path} :
    fs.Stays stuck r ↔ ∃ s, r <+: s ∧ fs.node s ≠ none ∧ stuck s = true := by
  constructor
  · rintro ⟨s, -, h⟩
    exact ⟨s, h⟩
  · rintro ⟨s, hrs, hnode, hstuck⟩
    exact ⟨s, fs.mem_support s hnode, hrs, hnode, hstuck⟩

/-- What is above it stays too. -/
theorem Stays.above {stuck : Path → Bool} {r s : Path} (hrs : r <+: s)
    (h : fs.Stays stuck s) : fs.Stays stuck r := by
  obtain ⟨t, ht, hst, hnode, hstuck⟩ := h
  exact ⟨t, ht, hrs.trans hst, hnode, hstuck⟩

/-- `FileUtils.rm_rf`: remove `p` and what is below it, links not followed. What is `stuck` stays, and
so do the directories above it, without an error. -/
def rmRf (fs : FileSystem) (stuck : Path → Bool) (p : Path) : FileSystem where
  node r := if p <+: r ∧ r ≠ [] ∧ ¬fs.Stays stuck r then none else fs.node r
  support := fs.support
  mem_support r hr := by
    split at hr
    next => exact absurd rfl hr
    next => exact fs.mem_support r hr
  root := by rw [if_neg (fun h => h.2.1 rfl), fs.root]
  parent r n hr := by
    split at hr
    next => exact absurd rfl hr
    next hkept =>
      rw [if_neg ?_]
      · exact fs.parent r n hr
      rintro ⟨hpr, -, hr'⟩
      apply hkept
      refine ⟨hpr.trans (List.prefix_append r [n]), by simp, fun hstays => ?_⟩
      exact hr' (hstays.above (List.prefix_append r [n]))

/-- A removal leaves what stays, and what is not below the path. -/
theorem node_rmRf (fs : FileSystem) (stuck : Path → Bool) (p r : Path) :
    (fs.rmRf stuck p).node r = if p <+: r ∧ r ≠ [] ∧ ¬fs.Stays stuck r then none else fs.node r :=
  rfl

/-- Outside the removed tree nothing changes. -/
theorem node_rmRf_elsewhere (stuck : Path → Bool) {p r : Path} (h : ¬p <+: r) :
    (fs.rmRf stuck p).node r = fs.node r := by
  rw [node_rmRf, if_neg (fun h' => h h'.1)]

/-- Whatever is left was there before. -/
theorem node_rmRf_eq (stuck : Path → Bool) {p r : Path} (h : (fs.rmRf stuck p).node r ≠ none) :
    (fs.rmRf stuck p).node r = fs.node r := by
  rw [node_rmRf] at h ⊢
  split at h
  next => exact absurd rfl h
  next hkept => rw [if_neg hkept]

/-- A removal of `p` removes nothing. -/
def RemovesNothing (fs : FileSystem) (stuck : Path → Bool) (p : Path) : Prop :=
  ∀ r, p <+: r → fs.node r ≠ none → fs.Stays stuck r

/-- A removal of `p` removes it, or all that is in it. -/
def Clears (fs : FileSystem) (stuck : Path → Bool) (p : Path) : Prop :=
  ∀ r, p <+: r → fs.node r ≠ none → stuck r = true → r = p ∧ fs.node p = some .dir

/-- A removal that removes nothing leaves every path as it is. -/
theorem RemovesNothing.node_rmRf {stuck : Path → Bool} {p : Path} (h : fs.RemovesNothing stuck p)
    (r : Path) : (fs.rmRf stuck p).node r = fs.node r := by
  rw [FileSystem.node_rmRf]
  split_ifs with hr
  · by_contra hne
    exact hr.2.2 (h r hr.1 (Ne.symm hne))
  · rfl

/-- So it leaves the file system as it is. -/
theorem RemovesNothing.rmRf_eq {stuck : Path → Bool} {p : Path} (h : fs.RemovesNothing stuck p) :
    fs.rmRf stuck p = fs := FileSystem.ext (funext h.node_rmRf) rfl

/-- A removal takes away all that it can remove. -/
theorem node_rmRf_of_free {stuck : Path → Bool} {p r : Path} (hpr : p <+: r) (hp : p ≠ [])
    (hfree : ∀ s, r <+: s → fs.node s ≠ none → stuck s = false) :
    (fs.rmRf stuck p).node r = none := by
  have hr : r ≠ [] := by
    rintro rfl
    exact hp (List.prefix_nil.mp hpr)
  have hstays : ¬fs.Stays stuck r := by
    rw [stays_iff]
    rintro ⟨s, hrs, hnode, hstuck⟩
    rw [hfree s hrs hnode] at hstuck
    cases hstuck
  rw [FileSystem.node_rmRf, if_pos ⟨hpr, hr, hstays⟩]

/-- Whether anything is removed depends on what is below the path. -/
theorem RemovesNothing.of_eq {fs' : FileSystem} {stuck : Path → Bool} {p : Path}
    (h : fs.RemovesNothing stuck p) (heq : ∀ r, p <+: r → fs'.node r = fs.node r) :
    fs'.RemovesNothing stuck p := by
  intro r hr hnode
  rw [heq r hr] at hnode
  obtain ⟨s, hrs, hs, hstuck⟩ := stays_iff.mp (h r hr hnode)
  refine stays_iff.mpr ⟨s, hrs, ?_, hstuck⟩
  rwa [heq s (hr.trans hrs)]

/-- So does whether all of it is. -/
theorem Clears.of_eq {fs' : FileSystem} {stuck : Path → Bool} {p : Path} (h : fs.Clears stuck p)
    (heq : ∀ r, p <+: r → fs'.node r = fs.node r) : fs'.Clears stuck p := by
  intro r hr hnode hstuck
  rw [heq r hr] at hnode
  rw [heq p List.prefix_rfl]
  exact h r hr hnode hstuck

/-- What is left after it is at most the directory itself. -/
theorem Clears.eq_of_node_rmRf {stuck : Path → Bool} {p r : Path} (h : fs.Clears stuck p)
    (hpr : p <+: r) (hp : p ≠ []) (hr : (fs.rmRf stuck p).node r ≠ none) :
    r = p ∧ fs.node p = some .dir := by
  have hr₀ : r ≠ [] := by
    rintro rfl
    exact hp (List.prefix_nil.mp hpr)
  have hstays : fs.Stays stuck r := by
    by_contra hstays
    rw [FileSystem.node_rmRf, if_pos ⟨hpr, hr₀, hstays⟩] at hr
    exact hr rfl
  obtain ⟨s, hrs, hnode, hstuck⟩ := stays_iff.mp hstays
  obtain ⟨rfl, hdir⟩ := h s (hpr.trans hrs) hnode hstuck
  exact ⟨(hrs.eq_of_length_le hpr.length_le), hdir⟩

/-- Nothing is below `p`. -/
def Childless (fs : FileSystem) (p : Path) : Prop :=
  ∀ r ∈ fs.support, p <+: r → r ≠ p → fs.node r = none

instance (fs : FileSystem) (p : Path) : Decidable (fs.Childless p) :=
  inferInstanceAs (Decidable (∀ r ∈ fs.support, _))

/-- The tree at `p` may be moved to `q`. -/
def Movable (fs : FileSystem) (p q : Path) : Prop :=
  q ≠ [] ∧ fs.node q.dropLast = some .dir ∧ ¬p <+: q ∧ fs.Childless q

instance (fs : FileSystem) (p q : Path) : Decidable (fs.Movable p q) :=
  inferInstanceAs (Decidable (_ ∧ _))

/-- Move the tree at `p` to `q`, in place of what was there. -/
def move (fs : FileSystem) (p q : Path) (h : fs.Movable p q) : FileSystem where
  node r :=
    if q <+: r then fs.node (p ++ r.drop q.length)
    else if p <+: r then none
    else fs.node r
  support := fs.support ++ fs.support.map fun r => q ++ r.drop p.length
  mem_support r hr := by
    rw [List.mem_append, List.mem_map]
    split at hr
    next hq =>
      obtain ⟨s, rfl⟩ := hq
      rw [List.drop_left] at hr
      exact Or.inr ⟨p ++ s, fs.mem_support _ hr, by rw [List.drop_left]⟩
    next =>
      split at hr
      next => exact absurd rfl hr
      next => exact Or.inl (fs.mem_support r hr)
  root := by
    have hp : p ≠ [] := by
      rintro rfl
      exact h.2.2.1 List.nil_prefix
    rw [if_neg (by simpa using h.1), if_neg (by simpa using hp), fs.root]
  parent r n hr := by
    by_cases hq : q <+: r
    · obtain ⟨s, rfl⟩ := hq
      rw [List.append_assoc, if_pos (List.prefix_append q _), List.drop_left, ← List.append_assoc]
        at hr
      rw [if_pos (List.prefix_append q _), List.drop_left]
      exact fs.parent _ _ hr
    · rw [if_neg hq]
      by_cases hqn : q <+: r ++ [n]
      · -- `r` is the directory of `q`
        have hqr : q = r ++ [n] := (List.prefix_concat_iff.mp hqn).resolve_right hq
        have hr' : q.dropLast = r := by rw [hqr, List.dropLast_concat]
        have hrq : r <+: q := by
          rw [hqr]
          exact List.prefix_append r [n]
        have hpr : ¬p <+: r := fun hp => h.2.2.1 (hp.trans hrq)
        rw [if_neg hpr, ← hr']
        exact h.2.1
      · rw [if_neg hqn] at hr
        split at hr
        next => exact absurd rfl hr
        next hpn =>
          rw [if_neg (fun hp => hpn (hp.trans (List.prefix_append r [n])))]
          exact fs.parent r n hr

/-- What was below the one path is below the other, and what was there is gone. -/
theorem node_move (fs : FileSystem) {p q : Path} (h : fs.Movable p q) (r : Path) :
    (fs.move p q h).node r =
      if q <+: r then fs.node (p ++ r.drop q.length) else if p <+: r then none else fs.node r :=
  rfl

/-! ### Operations -/

/-- `mkdir` -/
def mkdir (fs : FileSystem) (cs : List Component) : Except Errno FileSystem := do
  let p ← fs.resolve false cs
  if (fs.node p).isSome then .error .eexist
  else if h : fs.Puttable p then .ok (fs.put p .dir h)
  else .error .enoent

/-- Open for writing, created if missing, and write `data`. -/
def write (fs : FileSystem) (cs : List Component) (data : List UInt8) : Except Errno FileSystem := do
  let p ← fs.resolve true cs
  if h : fs.Puttable p then
    match fs.node p with
    | some (.file _ mode) => .ok (fs.put p (.file data mode) h)
    -- the mode of a new file under the usual umask
    | none => .ok (fs.put p (.file data 0o644) h)
    | _ => .error .eloop
  else if fs.node p = some .dir then .error .eisdir
  else .error .enoent

/-- `chmod`. The mode of a directory is not kept. -/
def chmod (fs : FileSystem) (cs : List Component) (mode : ℕ) : Except Errno FileSystem := do
  let p ← fs.resolve true cs
  match fs.node p with
  | some (.file data _) => if h : fs.Puttable p then .ok (fs.put p (.file data mode) h) else .ok fs
  | some _ => .ok fs
  | none => .error .enoent

/-- `rename(2)`. A directory replaces only an empty directory. -/
def rename (fs : FileSystem) (src dst : List Component) : Except Errno FileSystem := do
  let p ← fs.resolve false src
  let q ← fs.resolve false dst
  if fs.node p = none then .error .enoent
  -- an entry is renamed onto itself without an effect
  else if p = q then .ok fs
  -- a directory cannot move into itself
  else if p <+: q then .error .einval
  else if fs.node p = some .dir ∧ fs.node q ≠ some .dir ∧ fs.node q ≠ none then .error .enotdir
  else if fs.node p ≠ some .dir ∧ fs.node q = some .dir then .error .eisdir
  else if h : fs.Movable p q then .ok (fs.move p q h)
  else .error .enotempty

/-- What `**/*` matches below the directory `p`, relative to it, in the order of the names: no name
that starts with a dot, and nothing through a link. -/
def glob (fs : FileSystem) (p : Path) : List Path :=
  let below := fs.support.filter fun r => p <+: r ∧ r ≠ p ∧ (fs.node r).isSome
  let visible := (below.map fun r => r.drop p.length).dedup.filter fun r =>
    r.all fun n => n.val.toList.head? ≠ some '.'
  visible.insertionSort fun r s => r.map Subtype.val ≤ s.map Subtype.val

/-- A glob finds what is below a directory, but for names that start with a dot. -/
theorem mem_glob {p r : Path} :
    r ∈ fs.glob p ↔
      r ≠ [] ∧ fs.node (p ++ r) ≠ none ∧ ∀ n ∈ r, n.val.toList.head? ≠ some '.' := by
  rw [glob, List.mem_insertionSort, List.mem_filter, List.mem_dedup, List.mem_map]
  simp only [List.mem_filter, decide_eq_true_eq, List.all_eq_true, ne_eq]
  constructor
  · rintro ⟨⟨q, ⟨-, ⟨s, rfl⟩, hne, hsome⟩, rfl⟩, hvisible⟩
    rw [List.drop_left] at hvisible ⊢
    refine ⟨?_, Option.isSome_iff_ne_none.mp hsome, hvisible⟩
    rintro rfl
    exact hne (List.append_nil p)
  · rintro ⟨hr, hnode, hvisible⟩
    refine ⟨⟨p ++ r, ⟨fs.mem_support _ hnode, List.prefix_append p r, by simpa using hr,
      Option.isSome_iff_ne_none.mpr hnode⟩, List.drop_left⟩, hvisible⟩

/-! ### Operations on a path that is spelled out -/

section Spelled

variable {p : Path} {n : Name}

/-- An entry of a directory can be written unless it is a directory. -/
theorem puttable_append_singleton (h : fs.node p = some .dir)
    (hn : fs.node (p ++ [n]) ≠ some .dir) : fs.Puttable (p ++ [n]) :=
  ⟨by simp, by rwa [List.dropLast_concat], hn⟩

/-- Where nothing is there is no link. -/
theorem link?_eq_false_of_none {p : Path} (h : fs.node p = none) : fs.link? p = false := by
  rw [link?, h]

/-- A free name in a directory can be written. -/
theorem puttable_of_none (h : fs.node p = some .dir) (hn : fs.node (p ++ [n]) = none) :
    fs.Puttable (p ++ [n]) := by
  apply puttable_append_singleton h
  rw [hn]
  simp

/-- A directory is made under a free name. -/
theorem mkdir_spell (h : fs.node p = some .dir) (hn : fs.node (p ++ [n]) = none) :
    fs.mkdir (spell (p ++ [n])) = .ok (fs.put (p ++ [n]) .dir (puttable_of_none h hn)) := by
  have hsome : ¬(fs.node (p ++ [n])).isSome = true := by
    rw [hn]
    simp
  rw [mkdir, resolve_spell false h (by simp), Except.ok_bind, if_neg hsome]
  exact dif_pos _

/-- A name that is taken is refused. -/
theorem mkdir_spell_of_exists (h : fs.node p = some .dir) (hn : fs.node (p ++ [n]) ≠ none) :
    fs.mkdir (spell (p ++ [n])) = .error .eexist := by
  rw [mkdir, resolve_spell false h (by simp), Except.ok_bind,
    if_pos (Option.isSome_iff_ne_none.mpr hn)]

/-- A file is made under a free name. -/
theorem write_spell (data : List UInt8) (h : fs.node p = some .dir)
    (hn : fs.node (p ++ [n]) = none) :
    fs.write (spell (p ++ [n])) data =
      .ok (fs.put (p ++ [n]) (.file data 0o644) (puttable_of_none h hn)) := by
  rw [write, resolve_spell true h (fun _ => link?_eq_false_of_none hn), Except.ok_bind,
    dif_pos (puttable_of_none h hn)]
  simp only [hn]

/-- A file gets another mode. -/
theorem chmod_spell (mode : ℕ) {data : List UInt8} {mode' : ℕ} (h : fs.node p = some .dir)
    (hn : fs.node (p ++ [n]) = some (.file data mode')) (hput : fs.Puttable (p ++ [n])) :
    fs.chmod (spell (p ++ [n])) mode = .ok (fs.put (p ++ [n]) (.file data mode) hput) := by
  have hlink : fs.link? (p ++ [n]) = false := by rw [link?, hn]
  rw [chmod, resolve_spell true h (fun _ => hlink), Except.ok_bind]
  simp only [hn]
  exact dif_pos _

/-- A successful rename in one directory moves the tree. -/
theorem rename_spell {m : Name} {fs' : FileSystem} (h : fs.node p = some .dir) (hmn : m ≠ n)
    (hrename : fs.rename (spell (p ++ [m])) (spell (p ++ [n])) = .ok fs') :
    ∃ hmove : fs.Movable (p ++ [m]) (p ++ [n]), fs' = fs.move (p ++ [m]) (p ++ [n]) hmove := by
  have hne : p ++ [m] ≠ p ++ [n] := by simpa using hmn
  rw [rename, resolve_spell false h (by simp), Except.ok_bind, resolve_spell false h (by simp),
    Except.ok_bind, if_neg hne] at hrename
  split_ifs at hrename with hnone hprefix hfile hdir hmove
  exact ⟨hmove, (Except.ok.inj hrename).symm⟩

/-- A directory is renamed to what is missing, or an empty directory. -/
theorem exists_rename_spell {m : Name} (h : fs.node p = some .dir) (hmn : m ≠ n)
    (hm : fs.node (p ++ [m]) = some .dir)
    (hn : ∀ r, p ++ [n] <+: r → fs.node r ≠ none → r = p ++ [n] ∧ fs.node (p ++ [n]) = some .dir) :
    ∃ fs', fs.rename (spell (p ++ [m])) (spell (p ++ [n])) = .ok fs' := by
  have hne : p ++ [m] ≠ p ++ [n] := by simpa using hmn
  have hprefix : ¬p ++ [m] <+: p ++ [n] := by
    rw [List.prefix_append_right_inj, List.cons_prefix_cons]
    exact fun hp => hmn hp.1
  have hfile : ¬(fs.node (p ++ [m]) = some .dir ∧ fs.node (p ++ [n]) ≠ some .dir ∧
      fs.node (p ++ [n]) ≠ none) := fun ⟨_, hdir, hnone⟩ => hdir (hn _ List.prefix_rfl hnone).2
  have hmove : fs.Movable (p ++ [m]) (p ++ [n]) := by
    refine ⟨by simp, by rwa [List.dropLast_concat], hprefix, fun r _ hr hrn => ?_⟩
    by_contra hnode
    exact hrn (hn r hr hnode).1
  refine ⟨fs.move _ _ hmove, ?_⟩
  rw [rename, resolve_spell false h (by simp), Except.ok_bind, resolve_spell false h (by simp),
    Except.ok_bind, if_neg (by rw [hm]; simp), if_neg hne, if_neg hprefix, if_neg hfile,
    if_neg (fun hdir => hdir.1 hm)]
  exact dif_pos hmove

end Spelled

/-! ### Links -/

/-- A new entry that is not a link makes no link. -/
theorem link?_of_put {p q : Path} {nd : Node} (hnd : ∀ absolute target, nd ≠ .symlink absolute target)
    (h : fs.Puttable q) (hlink : (fs.put q nd h).link? p = true) : fs.link? p = true := by
  rw [link?, node_put] at hlink
  by_cases hpq : p = q
  · rw [if_pos hpq] at hlink
    cases nd with
    | symlink absolute target => exact absurd rfl (hnd absolute target)
    | _ => cases hlink
  · rwa [if_neg hpq] at hlink

/-- Making a directory makes no link. -/
theorem link?_of_mkdir {fs' : FileSystem} {cs : List Component} {p : Path}
    (h : fs.mkdir cs = .ok fs') (hlink : fs'.link? p = true) : fs.link? p = true := by
  rw [mkdir] at h
  obtain ⟨q, -, h⟩ := Except.bind_eq_ok_iff.mp h
  split_ifs at h with hsome hput
  rw [← Except.ok.inj h] at hlink
  exact link?_of_put (by simp) hput hlink

/-- Writing a file makes no link. -/
theorem link?_of_write {fs' : FileSystem} {cs : List Component} {data : List UInt8} {p : Path}
    (h : fs.write cs data = .ok fs') (hlink : fs'.link? p = true) : fs.link? p = true := by
  rw [write] at h
  obtain ⟨q, -, h⟩ := Except.bind_eq_ok_iff.mp h
  split_ifs at h with hput hdir
  rcases hq : fs.node q with _ | (_ | ⟨old, mode⟩ | ⟨absolute, target⟩) <;> rw [hq] at h
  case none =>
    rw [← Except.ok.inj h] at hlink
    exact link?_of_put (by simp) hput hlink
  case some.file =>
    rw [← Except.ok.inj h] at hlink
    exact link?_of_put (by simp) hput hlink
  all_goals cases h

/-- A change of mode makes no link. -/
theorem link?_of_chmod {fs' : FileSystem} {cs : List Component} {mode : ℕ} {p : Path}
    (h : fs.chmod cs mode = .ok fs') (hlink : fs'.link? p = true) : fs.link? p = true := by
  rw [chmod] at h
  obtain ⟨q, -, h⟩ := Except.bind_eq_ok_iff.mp h
  rcases hq : fs.node q with _ | (_ | ⟨data, old⟩ | ⟨absolute, target⟩) <;> rw [hq] at h
  case none => cases h
  case some.file =>
    dsimp only at h
    split_ifs at h with hput <;> rw [← Except.ok.inj h] at hlink
    · exact link?_of_put (by simp) hput hlink
    · exact hlink
  all_goals rwa [← Except.ok.inj h] at hlink

/-! ### What stays the same -/

/-- Outside the tree at `p` nothing differs. -/
def EqOutside (p : Path) (fs fs' : FileSystem) : Prop := ∀ r, ¬p <+: r → fs'.node r = fs.node r

/-- A file system is like itself. -/
theorem EqOutside.refl (p : Path) (fs : FileSystem) : EqOutside p fs fs := fun _ _ => rfl

/-- Being the same outside of a path is transitive. -/
theorem EqOutside.trans {p : Path} {fs fs' fs'' : FileSystem} (h : EqOutside p fs fs')
    (h' : EqOutside p fs' fs'') : EqOutside p fs fs'' := by
  intro r hr
  rw [h' r hr, h r hr]

/-- What is put below a path changes nothing outside of it. -/
theorem eqOutside_put {p q : Path} (hp : p <+: q) (nd : Node) (h : fs.Puttable q) :
    EqOutside p fs (fs.put q nd h) := by
  intro r hr
  rw [node_put, if_neg]
  rintro rfl
  exact hr hp

/-- So does what is removed there. -/
theorem eqOutside_rmRf (stuck : Path → Bool) (p : Path) : EqOutside p fs (fs.rmRf stuck p) :=
  fun _ hr => node_rmRf_elsewhere stuck hr

end FileSystem

end Posix
