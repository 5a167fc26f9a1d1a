import Mathlib.Data.List.Basic
import StorageSwitch.Path

/-! What it means that a mount path covers a path. Both ends of the rule are here: split at
separators, the components of the mount path are the first components of the path; and what
follows the mount path is what a driver sees.
-/

namespace StorageSwitch.Path

variable {mount path : String}

/-- The parts of a path between its separators, empty parts included. -/
def components (path : String) : List (List Char) := path.toList.splitOn separator

/-- The mount path covers the path as the components of the two tell: it is empty, or its
components are the first ones of the path.
-/
def CoversComponents (mount path : String) : Prop :=
  mount = "" ∨ components mount <+: components path

/-- The path as a driver mounted there sees it: what follows the mount path, or the root
directory if nothing follows.
-/
def Seen (mount path seen : String) : Prop :=
  (seen ≠ "" ∧ path = mount ++ seen) ∨ (path = mount ∧ seen = "/")

/-- The mount paths that are accepted. -/
theorem validateMount_eq_ok_iff
    : validateMount mount = .ok ()
      ↔ mount = ""
        ∨ mount.utf8ByteSize ≠ 1
          ∧ mount.utf8ByteSize ≤ mountMax
          ∧ mount.toList.head? = some separator
          ∧ mount.toList.getLast? ≠ some separator := by
  unfold validateMount
  by_cases empty : mount = ""
  · simp [empty]
  · rw [if_neg empty]
    by_cases size : mount.utf8ByteSize = 1 ∨ mountMax < mount.utf8ByteSize
    · rw [if_pos size]
      simp only [reduceCtorEq, empty, false_or, false_iff]
      intro accepted
      exact size.elim accepted.1 (Nat.not_lt_of_le accepted.2.1)
    · rw [if_neg size]
      obtain ⟨notOne, notLong⟩ := not_or.mp size
      by_cases ends
          : mount.toList.head? ≠ some separator ∨ mount.toList.getLast? = some separator
      · rw [if_pos ends]
        simp only [reduceCtorEq, empty, false_or, false_iff]
        intro accepted
        exact ends.elim (absurd accepted.2.2.1) accepted.2.2.2
      · rw [if_neg ends]
        obtain ⟨starts, bare⟩ := not_or.mp ends
        exact ⟨fun _ => .inr ⟨notOne, Nat.le_of_not_lt notLong, not_not.mp starts, bare⟩,
          fun _ => rfl⟩

-----------------------------------------------------------------------------------------
-- Whole components
-----------------------------------------------------------------------------------------

theorem intercalate_append {between : List Char} {first second : List (List Char)}
    (firstSome : first ≠ []) (secondSome : second ≠ [])
    : between.intercalate (first ++ second)
      = between.intercalate first ++ between ++ between.intercalate second := by
  induction first with
  | nil => contradiction
  | cons part rest ih =>
      cases rest with
      | nil => simp [List.intercalate_cons_of_ne_nil secondSome]
      | cons next others =>
          calc
            between.intercalate (part :: (next :: others ++ second))
            _ = part ++ between ++ between.intercalate (next :: others ++ second) :=
                List.intercalate_cons_cons
            _ = part ++ between ++ between.intercalate (next :: others) ++ between
                  ++ between.intercalate second := by
                rw [ih (by simp)]
                simp only [List.append_assoc]
            _ = between.intercalate (part :: next :: others) ++ between
                  ++ between.intercalate second := by
                rw [List.intercalate_cons_cons]

/-- The components of a text begin with those of another one exactly when the text is that
one or goes on after it with a separator.
Witness: the components joined again are the text they came from.
-/
theorem splitOn_isPrefix_iff {first text : List Char}
    : first.splitOn separator <+: text.splitOn separator
      ↔ text = first ∨ ∃ rest, text = first ++ separator :: rest := by
  constructor
  · rintro ⟨others, split⟩
    have joined := congrArg [separator].intercalate split
    rw [List.intercalate_splitOn] at joined
    by_cases done : others = []
    · left
      rw [← joined, done, List.append_nil, List.intercalate_splitOn]
    · right
      refine ⟨[separator].intercalate others, ?_⟩
      rw [← joined, intercalate_append (List.splitOn_ne_nil _ _) done,
        List.intercalate_splitOn]
      simp
  · rintro (rfl | ⟨rest, rfl⟩)
    · exact List.prefix_refl _
    · rw [List.splitOn_append_cons_self]
      exact List.prefix_append _ _

/-- A mount path that is not empty covers itself and what goes on after it with a separator.
-/
theorem covers_iff
    : covers mount path = true
      ↔ mount = ""
        ∨ path = mount
        ∨ ∃ rest, path.toList = mount.toList ++ separator :: rest := by
  unfold covers
  cases found : mount.toList.isPrefixOf? path.toList with
  | none =>
      have apart : ∀ rest, mount.toList ++ rest ≠ path.toList := by
        intro rest same
        rw [List.isPrefixOf?_eq_some_iff_append_eq.mpr same] at found
        contradiction
      simp only [Bool.false_eq_true, false_iff, not_or, not_exists]
      refine ⟨?_, ?_, fun rest same => apart _ same.symm⟩
      · rintro rfl
        exact apart path.toList rfl
      · rintro rfl
        exact apart [] (List.append_nil _)
  | some rest =>
      have split := List.isPrefixOf?_eq_some_iff_append_eq.mp found
      have whole : path = mount ↔ rest = [] := by
        rw [← String.toList_inj, ← split]
        simp
      rw [whole, ← split]
      cases rest with
      | nil => simp
      | cons next others => simp

theorem covers_iff_components : covers mount path = true ↔ CoversComponents mount path := by
  rw [covers_iff, CoversComponents, components, components, splitOn_isPrefix_iff,
    String.toList_inj]

-----------------------------------------------------------------------------------------
-- What is left below a mount
-----------------------------------------------------------------------------------------

/-- A path that is covered is the mount path and a rest, which begins with a separator unless
it is empty or the mount path is.
-/
theorem exists_rest (covered : covers mount path = true)
    : ∃ rest,
        path = mount ++ String.ofList rest
        ∧ (mount ≠ "" → rest = [] ∨ rest.head? = some separator) := by
  rcases covers_iff.mp covered with rfl | rfl | ⟨rest, split⟩
  · exact ⟨path.toList, by simp, by simp⟩
  · exact ⟨[], by simp, by simp⟩
  · refine ⟨separator :: rest, ?_, by simp⟩
    rw [← String.toList_inj, split]
    simp

/-- Dropping the bytes of the first part of a text leaves the second part.
Witness: induction on the first part, one character at a time.
-/
theorem dropBytes_append (first rest : List Char)
    : dropBytes (String.ofList first).utf8ByteSize (first ++ rest) = some rest := by
  induction first with
  | nil => simp [dropBytes]
  | cons char chars ih =>
      have size
          : (String.ofList (char :: chars)).utf8ByteSize
            = (String.ofList chars).utf8ByteSize + char.utf8Size := by
        rw [← List.singleton_append, String.ofList_append, String.utf8ByteSize_append,
          ← String.singleton_eq_ofList, String.utf8ByteSize_singleton, Nat.add_comm]
      have positive := char.utf8Size_pos
      obtain ⟨count, more⟩
          : ∃ count, (String.ofList (char :: chars)).utf8ByteSize = count + 1 :=
        Nat.exists_eq_add_one.mpr (by omega)
      have left : count + 1 - char.utf8Size = (String.ofList chars).utf8ByteSize := by omega
      rw [more, List.cons_append, dropBytes, if_pos (by omega), left, ih]

theorem dropBytes_rest (mount : String) (rest : List Char)
    : dropBytes mount.utf8ByteSize (mount ++ String.ofList rest).toList = some rest := by
  have dropped := dropBytes_append mount.toList rest
  rwa [String.ofList_toList, ← @String.toList_ofList rest, ← String.toList_append,
    String.toList_ofList] at dropped

/-- Two mount paths of one length that cover the same path are the same. -/
theorem eq_of_covers {other : String} (covered : covers mount path = true)
    (otherCovered : covers other path = true)
    (size : mount.utf8ByteSize = other.utf8ByteSize)
    : mount = other := by
  obtain ⟨rest, split, _⟩ := exists_rest covered
  obtain ⟨otherRest, otherSplit, _⟩ := exists_rest otherCovered
  have same : rest = otherRest := by
    have left := dropBytes_rest mount rest
    rw [← split, size, otherSplit, dropBytes_rest] at left
    exact (Option.some.inj left).symm
  rw [split, same, ← String.toList_inj, String.toList_append, String.toList_append]
    at otherSplit
  exact String.toList_inj.mp (List.append_cancel_right otherSplit)

/-- A driver sees a path in one way only. -/
theorem Seen.unique {seen other : String} (first : Seen mount path seen)
    (second : Seen mount path other)
    : seen = other := by
  have rest {left right : String} (same : mount ++ left = mount ++ right) : left = right := by
    rw [← String.toList_inj, String.toList_append, String.toList_append] at same
    exact String.toList_inj.mp (List.append_cancel_left same)
  rcases first with ⟨some, rfl⟩ | ⟨rfl, rfl⟩ <;> rcases second with ⟨other, same⟩ | ⟨same, rfl⟩
  · exact rest same
  · exact absurd (rest (same.trans String.append_empty.symm)) some
  · exact absurd (rest (same.symm.trans String.append_empty.symm)) other
  · rfl

/-- A driver sees a path below its mount as the rule says, and unless it is mounted at the
empty path, it sees an absolute one.
-/
theorem translate_seen (covered : covers mount path = true)
    : Seen mount path (translate path mount)
      ∧ (mount ≠ "" → (translate path mount).toList.head? = some separator) := by
  obtain ⟨rest, rfl, absolute⟩ := exists_rest covered
  unfold translate
  rw [dropBytes_rest]
  cases rest with
  | nil => exact ⟨.inr ⟨by simp, rfl⟩, fun _ => rfl⟩
  | cons next others =>
      refine ⟨.inl ⟨by simp, rfl⟩, fun notEmpty => ?_⟩
      rw [String.toList_ofList]
      exact (absolute notEmpty).resolve_left (by simp)

end StorageSwitch.Path
