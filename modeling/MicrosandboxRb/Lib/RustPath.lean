import Mathlib.Data.List.Basic

/-!
# Unix paths, as `std::path` reads them

A path is a list of bytes. `components` splits it at the slashes, dropping the empty parts and every
`.` but a leading one, and `absolute` puts the components of a relative path after a directory,
without looking at the file system.

## Main results

* `components_push`: pushing a relative path onto an absolute one appends its parts;
* `components_anchored`: a relative path that is made absolute has the components of the directory,
  followed by its own.
-/

namespace RustPath

/-- The bytes of a path. -/
abbrev Path := List UInt8

/-- A slash. -/
def sep : UInt8 := 47

/-- A dot. -/
def dot : UInt8 := 46

/-- `PathBuf::from`, for a string. -/
def ofString (s : String) : Path := s.toByteArray.data.toList

/-- `into_os_string` and `into_string`: the text of a path that is valid UTF-8. -/
def toString? (p : Path) : Option String := String.fromUTF8? ⟨p.toArray⟩

/-- A String is read back from its bytes. -/
@[simp] theorem toString?_ofString (s : String) : toString? (ofString s) = some s := by
  rw [toString?, ofString, Array.toArray_toList, String.fromUTF8?, dif_pos s.isValidUTF8]
  rfl

/-- A path with a text is the bytes of the text. -/
theorem ofString_of_toString?_eq_some {p : Path} {s : String} (h : toString? p = some s) :
    ofString s = p := by
  unfold toString? String.fromUTF8? at h
  split at h
  · obtain rfl := Option.some.inj h
    rfl
  · cases h

/-- The bytes of a text that is put together. -/
theorem ofString_append (s t : String) : ofString (s ++ t) = ofString s ++ ofString t := by
  rw [ofString, String.toByteArray_append, ByteArray.data_append, Array.toList_append]
  rfl

/-- `Path::is_absolute`. -/
def isAbsolute (p : Path) : Bool := p.head? == some sep

/-- A component of a path. -/
inductive Component where
  | rootDir
  | curDir
  | parentDir
  | normal (name : List UInt8)
deriving DecidableEq, Repr

/-- `Component::as_os_str`. -/
def Component.bytes : Component → Path
  | .rootDir => [sep]
  | .curDir => [dot]
  | .parentDir => [dot, dot]
  | .normal name => name

/-- What stands between two slashes. -/
def Component.ofChunk (chunk : List UInt8) : Option Component :=
  if chunk = [] then none
  else if chunk = [dot] then none
  else if chunk = [dot, dot] then some .parentDir
  else some (.normal chunk)

/-- The components between the slashes. -/
def parts (p : Path) : List Component := (p.splitOn sep).filterMap Component.ofChunk

/-- `Path::components`. -/
def components (p : Path) : List Component :=
  (if isAbsolute p then [.rootDir]
    else if (p.splitOn sep).head? = some [dot] then [.curDir]
    else []) ++ parts p

/-- `PathBuf::push`. -/
def push (p q : Path) : Path :=
  if isAbsolute q then q
  else if p = [] ∨ p.getLast? = some sep then p ++ q
  else p ++ sep :: q

/-- `strip_prefix(".")`, where it succeeds. -/
def stripCurDir : List Component → List Component
  | .curDir :: cs => cs
  | cs => cs

/-- `std::path::absolute` in a process with the working directory `currentDir`. -/
def absolute (currentDir : Except String Path) (p : Path) : Except String Path := do
  if p = [] then throw "cannot make an empty path absolute"
  let normalized ←
    if isAbsolute p then
      -- exactly two leading slashes have a meaning of their own
      if [sep, sep].isPrefixOf p && !([sep, sep, sep].isPrefixOf p) then
        pure ((components p).tail.foldl (fun q c => push q c.bytes) [sep, sep])
      else pure ((components p).foldl (fun q c => push q c.bytes) [])
    else do
      let dir ← currentDir
      pure ((stripCurDir (components p)).foldl (fun q c => push q c.bytes) dir)
  -- a final slash is kept
  return if p.getLast? = some sep then push normalized [] else normalized

/-! ## Parts -/

/-- No slash is left in a part. -/
theorem sep_not_mem_of_mem_splitOn {p chunk : Path} (h : chunk ∈ p.splitOn sep) : sep ∉ chunk := by
  induction p generalizing chunk with
  | nil =>
    rw [List.splitOn_nil, List.mem_singleton] at h
    rw [h]
    exact List.not_mem_nil
  | cons b p ih =>
    rw [List.splitOn_cons_eq_if_modifyHead] at h
    by_cases hb : (b == sep) = true
    · rw [if_pos hb, List.mem_cons] at h
      rcases h with rfl | h
      · exact List.not_mem_nil
      · exact ih h
    · rw [if_neg hb] at h
      obtain ⟨head, tail, heq⟩ := List.exists_cons_of_ne_nil (List.splitOn_ne_nil sep p)
      rw [heq] at h ih
      rw [List.modifyHead_cons, List.mem_cons] at h
      rcases h with rfl | h
      · rw [List.mem_cons, not_or]
        exact ⟨fun hsep => hb (by rw [hsep]; exact beq_self_eq_true b), ih List.mem_cons_self⟩
      · exact ih (List.mem_cons_of_mem _ h)

@[simp] theorem parts_nil : parts [] = [] := rfl

/-- A slash separates the parts before it from those after it. -/
theorem parts_append_sep (p q : Path) : parts (p ++ sep :: q) = parts p ++ parts q := by
  rw [parts, List.splitOn_append_cons_self, List.filterMap_append]
  rfl

/-- A component is written as it was read. -/
theorem bytes_of_ofChunk {chunk : List UInt8} {c : Component}
    (h : Component.ofChunk chunk = some c) : c.bytes = chunk := by
  unfold Component.ofChunk at h
  split at h
  · cases h
  split at h
  · cases h
  split at h
  · obtain rfl := Option.some.inj h
    exact (by assumption : chunk = [dot, dot]).symm
  · obtain rfl := Option.some.inj h
    rfl

/-- A component between two slashes is the only part of its own text. -/
theorem parts_bytes {p : Path} {c : Component} (h : c ∈ parts p) : parts c.bytes = [c] := by
  obtain ⟨chunk, hmem, hc⟩ := List.mem_filterMap.mp h
  rw [bytes_of_ofChunk hc, parts, List.splitOn_eq_singleton (sep_not_mem_of_mem_splitOn hmem),
    List.filterMap_cons_some hc, List.filterMap_nil]

/-- A component alone is relative. -/
theorem isAbsolute_bytes {p : Path} {c : Component} (h : c ∈ parts p) :
    isAbsolute c.bytes = false := by
  obtain ⟨chunk, hmem, hc⟩ := List.mem_filterMap.mp h
  have hsep := sep_not_mem_of_mem_splitOn hmem
  rw [bytes_of_ofChunk hc, isAbsolute, beq_eq_false_iff_ne]
  intro hhead
  exact hsep (List.mem_of_mem_head? hhead)

/-- A dot is no part. -/
theorem curDir_not_mem_parts (p : Path) : .curDir ∉ parts p := by
  intro h
  obtain ⟨chunk, -, hc⟩ := List.mem_filterMap.mp h
  unfold Component.ofChunk at hc
  grind

/-- An absolute path starts at the root. -/
theorem components_of_isAbsolute {p : Path} (h : isAbsolute p = true) :
    components p = .rootDir :: parts p := by
  rw [components, if_pos h]
  rfl

/-- Without a leading `.`, the components of a relative path are its parts. -/
theorem stripCurDir_components {p : Path} (h : isAbsolute p = false) :
    stripCurDir (components p) = parts p := by
  rw [components, if_neg (by rw [h]; exact Bool.false_ne_true)]
  by_cases hdot : (p.splitOn sep).head? = some [dot]
  · rw [if_pos hdot]
    rfl
  · rw [if_neg hdot, List.nil_append]
    cases hparts : parts p with
    | nil => rfl
    | cons c cs =>
      have hc : c ≠ .curDir := by
        rintro rfl
        exact curDir_not_mem_parts p (by rw [hparts]; exact List.mem_cons_self)
      cases c with
      | curDir => exact absurd rfl hc
      | _ => rfl

/-! ## Pushing -/

/-- A relative path adds its parts. -/
theorem parts_push {p q : Path} (hp : p ≠ []) (hq : isAbsolute q = false) :
    parts (push p q) = parts p ++ parts q := by
  rw [push, if_neg (by rw [hq]; exact Bool.false_ne_true)]
  by_cases hlast : p.getLast? = some sep
  · rw [if_pos (Or.inr hlast)]
    obtain ⟨front, rfl⟩ : ∃ front, p = front ++ [sep] :=
      ⟨p.dropLast, (List.dropLast_append_getLast? sep hlast).symm⟩
    rw [List.append_assoc, List.singleton_append, parts_append_sep, parts_append_sep, parts_nil,
      List.append_nil]
  · rw [if_neg (not_or.mpr ⟨hp, hlast⟩), parts_append_sep]

/-- What is pushed onto an absolute path is absolute. -/
theorem isAbsolute_push {p q : Path} (hp : isAbsolute p = true) : isAbsolute (push p q) = true := by
  have happend : ∀ r : Path, isAbsolute (p ++ r) = true := by
    intro r
    rw [isAbsolute, beq_iff_eq] at hp ⊢
    rw [List.head?_append, hp, Option.some_or]
  unfold push
  split
  · assumption
  split
  · exact happend q
  · exact happend (sep :: q)

/-- An absolute path is not empty. -/
theorem ne_nil_of_isAbsolute {p : Path} (h : isAbsolute p = true) : p ≠ [] := by
  rintro rfl
  cases h

/-- A relative path adds its parts to the components of an absolute one. -/
theorem components_push {p q : Path} (hp : isAbsolute p = true) (hq : isAbsolute q = false) :
    components (push p q) = components p ++ parts q := by
  rw [components_of_isAbsolute (isAbsolute_push hp), components_of_isAbsolute hp,
    parts_push (ne_nil_of_isAbsolute hp) hq, List.cons_append]

/-- A component of a path, as a path of its own. -/
theorem relative_of_mem_parts {p : Path} :
    ∀ c ∈ parts p, parts c.bytes = [c] ∧ isAbsolute c.bytes = false :=
  fun _ hc => ⟨parts_bytes hc, isAbsolute_bytes hc⟩

/-- Pushing components one by one. -/
theorem components_foldl_push {cs : List Component} {p : Path}
    (hcs : ∀ c ∈ cs, parts c.bytes = [c] ∧ isAbsolute c.bytes = false) (hp : isAbsolute p = true) :
    isAbsolute (cs.foldl (fun q c => push q c.bytes) p) = true ∧
      components (cs.foldl (fun q c => push q c.bytes) p) = components p ++ cs := by
  induction cs generalizing p with
  | nil => exact ⟨hp, (List.append_nil _).symm⟩
  | cons c cs ih =>
    obtain ⟨hparts, hrel⟩ := hcs c List.mem_cons_self
    obtain ⟨habs, hcomp⟩ := ih (fun d hd => hcs d (List.mem_cons_of_mem c hd))
      (isAbsolute_push (q := c.bytes) hp)
    refine ⟨habs, ?_⟩
    rw [List.foldl_cons, hcomp, components_push hp hrel, hparts, List.append_assoc,
      List.singleton_append]

/-! ## Absolute paths -/

/-- What `absolute` makes of a relative path. -/
def anchored (dir p : Path) : Path :=
  let normalized := (parts p).foldl (fun q c => push q c.bytes) dir
  if p.getLast? = some sep then push normalized [] else normalized

/-- A relative path is put after the working directory. -/
theorem absolute_eq_anchored {dir p : Path} (hne : p ≠ []) (h : isAbsolute p = false) :
    absolute (.ok dir) p = .ok (anchored dir p) := by
  rw [absolute, if_neg hne, if_neg (by rw [h]; exact Bool.false_ne_true), stripCurDir_components h]
  rfl

/-- After an absolute directory, the path is absolute. -/
theorem isAbsolute_anchored {dir : Path} (hdir : isAbsolute dir = true) (p : Path) :
    isAbsolute (anchored dir p) = true := by
  have hfold := (components_foldl_push (relative_of_mem_parts (p := p)) hdir).1
  unfold anchored
  split
  · exact isAbsolute_push hfold
  · exact hfold

/-- The components of the directory, and then those of the path. -/
theorem components_anchored {dir : Path} (hdir : isAbsolute dir = true) (p : Path) :
    components (anchored dir p) = components dir ++ parts p := by
  obtain ⟨habs, hcomp⟩ := components_foldl_push (relative_of_mem_parts (p := p)) hdir
  unfold anchored
  split
  · rw [components_push habs rfl, hcomp, parts_nil, List.append_nil]
  · exact hcomp

end RustPath
