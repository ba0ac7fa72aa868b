import Mathlib.Data.List.DropRight
import MicrosandboxRb.Lib.RustPath

/-!
# Splitting a text at the slashes

`String#split` of Ruby works on characters and drops the empty parts at the end. Rust splits a path
at the slash bytes of its UTF-8 form. Both find the same parts.

## Main results

* `RustPath.splitOn_ofString`: the parts of the bytes are the bytes of the parts;
* `RustPath.parentDir_mem_components_iff`: a path has a parent component when the split of its text
  has the part `..`.
-/

namespace Ruby

/-- The parts of a text between its slashes. -/
def segments (s : String) : List String := (s.toList.splitOn '/').map String.ofList

/-- `s.split("/")`. -/
def split (s : String) : List String := (segments s).rdropWhile fun part => part == ""

/-- What is not dropped stays. -/
theorem mem_rdropWhile_iff {α : Type} {p : α → Bool} {xs : List α} {x : α} (hx : p x = false) :
    x ∈ xs.rdropWhile p ↔ x ∈ xs := by
  constructor
  · exact fun h => (List.rdropWhile_prefix p xs).subset h
  · intro h
    rw [← List.rdropWhile_append_rtakeWhile (p := p) (l := xs), List.mem_append] at h
    rcases h with h | h
    · exact h
    · rw [List.mem_rtakeWhile_imp h] at hx
      cases hx

/-- Only empty parts are dropped. -/
theorem mem_split_iff {s part : String} (h : part ≠ "") : part ∈ split s ↔ part ∈ segments s :=
  mem_rdropWhile_iff (by simpa using h)

end Ruby

namespace RustPath

/-- Only the slash has the byte of the slash in its UTF-8 form. -/
theorem sep_notMem_utf8EncodeChar {c : Char} (h : c ≠ '/') : sep ∉ String.utf8EncodeChar c := by
  have hval : c.val.toNat ≠ 47 := by
    intro hval
    apply h
    apply Char.ext
    exact UInt32.toNat_inj.mp hval
  intro hmem
  unfold String.utf8EncodeChar at hmem
  -- the bytes of a longer encoding are at least 128
  have hbyte : ∀ n : ℕ, sep = UInt8.ofNat n → n % 256 = 47 := by
    intro n h
    have hn := congrArg UInt8.toNat h
    rw [UInt8.toNat_ofNat'] at hn
    exact hn.symm
  dsimp only at hmem
  split at hmem
  · have hn := hbyte _ (List.mem_singleton.mp hmem)
    omega
  · split at hmem
    · simp only [List.mem_cons, List.not_mem_nil, or_false] at hmem
      rcases hmem with hmem | hmem <;> exact absurd (hbyte _ hmem) (by omega)
    · split at hmem
      · simp only [List.mem_cons, List.not_mem_nil, or_false] at hmem
        rcases hmem with hmem | hmem | hmem <;> exact absurd (hbyte _ hmem) (by omega)
      · simp only [List.mem_cons, List.not_mem_nil, or_false] at hmem
        rcases hmem with hmem | hmem | hmem | hmem <;> exact absurd (hbyte _ hmem) (by omega)

/-- The bytes of a text, character by character. -/
theorem ofString_ofList (cs : List Char) :
    ofString (String.ofList cs) = cs.flatMap String.utf8EncodeChar := by
  rw [ofString, String.toByteArray_ofList, List.utf8Encode, List.data_toByteArray]

/-- A part without a separator in front of a list goes to the first part of that list. -/
theorem splitOn_append {xs : Path} (h : sep ∉ xs) (ys : Path) :
    (xs ++ ys).splitOn sep = (ys.splitOn sep).modifyHead (xs ++ ·) := by
  obtain ⟨head, tail, hys⟩ := List.exists_cons_of_ne_nil (List.splitOn_ne_nil sep ys)
  induction xs with
  | nil => rw [List.nil_append, hys, List.modifyHead_cons, List.nil_append]
  | cons x xs ih =>
    rw [List.mem_cons, not_or] at h
    have hx : ¬(x == sep) = true := by simpa using Ne.symm h.1
    rw [List.cons_append, List.splitOn_cons_eq_if_modifyHead, if_neg hx, ih h.2, hys]
    rfl

/-- The bytes of a text are split where the text is. -/
theorem splitOn_flatMap (cs : List Char) :
    (cs.flatMap String.utf8EncodeChar).splitOn sep =
      (cs.splitOn '/').map fun part => part.flatMap String.utf8EncodeChar := by
  induction cs with
  | nil => rfl
  | cons c cs ih =>
    rw [List.flatMap_cons, List.splitOn_cons_eq_if_modifyHead]
    by_cases hc : c = '/'
    · subst hc
      have hslash : String.utf8EncodeChar '/' = [sep] := rfl
      rw [hslash, if_pos (beq_self_eq_true _), List.singleton_append,
        List.splitOn_cons_eq_if_modifyHead, if_pos (beq_self_eq_true _), ih]
      rfl
    · rw [if_neg (by simpa using hc), splitOn_append (sep_notMem_utf8EncodeChar hc), ih]
      obtain ⟨head, tail, hcs⟩ := List.exists_cons_of_ne_nil (List.splitOn_ne_nil '/' cs)
      rw [hcs]
      rfl

/-- The parts of the bytes of a text are the bytes of its parts. -/
theorem splitOn_ofString (s : String) :
    (ofString s).splitOn sep = (Ruby.segments s).map ofString := by
  have hs := ofString_ofList s.toList
  rw [String.ofList_toList] at hs
  rw [hs, splitOn_flatMap, Ruby.segments, List.map_map]
  exact List.map_congr_left fun part _ => (ofString_ofList part).symm

/-- A String is known by its bytes. -/
theorem ofString_injective : Function.Injective ofString := by
  intro s t h
  have hs := toString?_ofString s
  rw [h, toString?_ofString] at hs
  exact (Option.some.inj hs).symm

/-- Two dots name the directory above. -/
theorem ofChunk_eq_parentDir_iff {chunk : List UInt8} :
    Component.ofChunk chunk = some .parentDir ↔ chunk = [dot, dot] := by
  unfold Component.ofChunk
  split
  · rename_i h
    simp [h]
  · split
    · rename_i h
      simp [h]
    · split
      · rename_i h
        simp [h]
      · rename_i h
        simp [h]

/-- A path has a parent component when its text has the segment `..`. -/
theorem parentDir_mem_components_iff (s : String) :
    Component.parentDir ∈ components (ofString s) ↔ ".." ∈ Ruby.segments s := by
  have hparts : Component.parentDir ∈ parts (ofString s) ↔ ".." ∈ Ruby.segments s := by
    simp only [parts, List.mem_filterMap, ofChunk_eq_parentDir_iff, splitOn_ofString]
    rw [exists_eq_right]
    have hdots : ofString ".." = [dot, dot] := by decide
    rw [← hdots, List.mem_map_of_injective ofString_injective]
  rw [components, List.mem_append, hparts]
  constructor
  · rintro (h | h)
    · split at h
      · simp at h
      · split at h
        · simp at h
        · simp at h
    · exact h
  · exact Or.inr

end RustPath
