import Mathlib.Data.List.DropRight
import StorageSwitch.Proofs.Path.Coverage

/-! Joined paths. Where two paths meet, their separators are cut off and a single one takes
their place. So it does not matter which of two joins is made first, and below its mount a
driver sees what was joined to the mount path.
-/

namespace StorageSwitch.Path

-----------------------------------------------------------------------------------------
-- Texts without the separators at one end
-----------------------------------------------------------------------------------------

section Trimming

variable {text rest : List Char}

/-- The rest is what follows the separators that the text begins with. -/
structure TrimsStart (text rest : List Char) : Prop where
  bare : rest.head? ≠ some separator
  cut : ∃ count, text = List.replicate count separator ++ rest

/-- The rest is what comes before the separators that the text ends with. -/
structure TrimsEnd (text rest : List Char) : Prop where
  bare : rest.getLast? ≠ some separator
  cut : ∃ count, text = rest ++ List.replicate count separator

theorem trimStart_cons (char : Char) (text : List Char)
    : trimStart (char :: text)
      = if char = separator then trimStart text else char :: text := by
  simp [trimStart, List.dropWhile_cons]

/-- Separators at the start, and no other characters, are cut off.
Witness: induction on the separators in one direction, on the text in the other.
-/
theorem trimsStart_iff : TrimsStart text rest ↔ trimStart text = rest := by
  constructor
  · intro trims
    obtain ⟨bare, count, rfl⟩ := trims
    induction count with
    | zero =>
        cases rest with
        | nil => rfl
        | cons char others =>
            have other : char ≠ separator := by simpa using bare
            exact (trimStart_cons char others).trans (if_neg other)
    | succ count ih =>
        rw [List.replicate_succ, List.cons_append, trimStart_cons, if_pos rfl, ih]
  · intro trimmed
    subst trimmed
    induction text with
    | nil => exact ⟨by simp [trimStart], 0, rfl⟩
    | cons char others ih =>
        rw [trimStart_cons]
        by_cases same : char = separator
        · obtain ⟨bare, count, cut⟩ := ih
          rw [if_pos same]
          exact ⟨bare, count + 1, by rw [List.replicate_succ, List.cons_append, ← cut, same]⟩
        · rw [if_neg same]
          exact ⟨by simpa using same, 0, rfl⟩

theorem trimsEnd_iff_reverse : TrimsEnd text rest ↔ TrimsStart text.reverse rest.reverse := by
  constructor
  · intro trims
    obtain ⟨bare, count, rfl⟩ := trims
    exact ⟨by rwa [List.head?_reverse], count, by simp⟩
  · intro trims
    obtain ⟨bare, count, cut⟩ := trims
    refine ⟨by rwa [List.head?_reverse] at bare, count, ?_⟩
    rw [List.reverse_eq_iff.mp cut]
    simp

/-- Separators at the end, and no other characters, are cut off. -/
theorem trimsEnd_iff : TrimsEnd text rest ↔ trimEnd text = rest := by
  rw [trimsEnd_iff_reverse, trimsStart_iff, ← List.reverse_eq_iff]
  rfl

theorem trimStart_trimStart (text : List Char) : trimStart (trimStart text) = trimStart text :=
  List.dropWhile_idempotent _ text

theorem trimEnd_trimEnd (text : List Char) : trimEnd (trimEnd text) = trimEnd text :=
  List.rdropWhile_idempotent _ text

theorem trimStart_append (first rest : List Char)
    : trimStart (first ++ rest)
      = if trimStart first = [] then trimStart rest else trimStart first ++ rest := by
  simp [trimStart, List.dropWhile_append]

theorem trimEnd_append (first rest : List Char)
    : trimEnd (first ++ rest)
      = if trimEnd rest = [] then trimEnd first else first ++ trimEnd rest := by
  simp only [trimEnd, List.reverse_append, List.dropWhile_append, List.isEmpty_iff,
    List.reverse_eq_nil_iff]
  split <;> simp

theorem trimEnd_cons (char : Char) (text : List Char)
    : trimEnd (char :: text)
      = if trimEnd text = [] ∧ char = separator then [] else char :: trimEnd text := by
  have single : trimEnd [char] = if char = separator then [] else [char] := by
    simp [trimEnd, List.dropWhile_cons, apply_ite List.reverse]
  rw [← List.singleton_append, trimEnd_append, single]
  by_cases empty : trimEnd text = [] <;> by_cases same : char = separator <;>
    simp [empty, same]

/-- It does not matter at which end the separators are cut off first.
Witness: induction on the text; a separator at its start goes in both orders.
-/
theorem trimStart_trimEnd (text : List Char)
    : trimStart (trimEnd text) = trimEnd (trimStart text) := by
  induction text with
  | nil => rfl
  | cons char others ih =>
      rw [trimEnd_cons, trimStart_cons]
      by_cases same : char = separator
      · rw [if_pos same, ← ih]
        by_cases empty : trimEnd others = []
        · rw [if_pos ⟨empty, same⟩, empty]
        · rw [if_neg (by simp [empty]), trimStart_cons, if_pos same]
      · rw [if_neg same, if_neg (by simp [same]), trimStart_cons, if_neg same, trimEnd_cons,
          if_neg (by simp [same])]

end Trimming

-----------------------------------------------------------------------------------------
-- Joining in two steps
-----------------------------------------------------------------------------------------

section Joining

variable {base rel : List Char}

theorem joinTrimmed_nil (notEmpty : base ≠ []) : joinTrimmed base [] = base :=
  if_pos ⟨rfl, notEmpty⟩

theorem joinTrimmed_of_ne_nil (base : List Char) (notEmpty : rel ≠ [])
    : joinTrimmed base rel = base ++ separator :: rel :=
  if_neg fun alone => notEmpty alone.1

theorem joinTrimmed_assoc {middle : List Char} (notEmpty : middle ≠ []) (base rel : List Char)
    : joinTrimmed (joinTrimmed base middle) rel = joinTrimmed base (joinTrimmed middle rel) := by
  rw [joinTrimmed_of_ne_nil base notEmpty]
  by_cases empty : rel = []
  · subst empty
    rw [joinTrimmed_nil notEmpty, joinTrimmed_of_ne_nil base notEmpty, joinTrimmed_nil (by simp)]
  · rw [joinTrimmed_of_ne_nil _ empty, joinTrimmed_of_ne_nil middle empty,
      joinTrimmed_of_ne_nil base (by simp), List.append_assoc, List.cons_append]

/-- Without the separators at its end, a joined text is the two parts without those, or the
first part if the second one consists of separators.
-/
theorem trimEnd_joinTrimmed (bare : trimEnd base = base) (rel : List Char)
    : trimEnd (joinTrimmed base rel)
      = if trimEnd rel = [] then base else joinTrimmed base (trimEnd rel) := by
  have afterSeparator
      : trimEnd (base ++ separator :: rel)
        = if trimEnd rel = [] then base else base ++ separator :: trimEnd rel := by
    rw [trimEnd_append, trimEnd_cons]
    by_cases vanishes : trimEnd rel = [] <;> simp [vanishes, bare]
  by_cases vanishes : trimEnd rel = []
  · rw [if_pos vanishes] at afterSeparator ⊢
    unfold joinTrimmed
    split
    · exact bare
    · exact afterSeparator
  · have notEmpty : rel ≠ [] := by
      intro empty
      rw [empty] at vanishes
      exact vanishes rfl
    rw [joinTrimmed_of_ne_nil base notEmpty, afterSeparator, if_neg vanishes, if_neg vanishes,
      joinTrimmed_of_ne_nil base vanishes]

/-- Without the separators at its start, a joined text is the two parts without those, or the
second part if the first one consists of separators.
-/
theorem trimStart_joinTrimmed (base : List Char) (bare : trimStart rel = rel)
    : trimStart (joinTrimmed base rel)
      = if trimStart base = [] then rel else joinTrimmed (trimStart base) rel := by
  have afterSeparator
      : trimStart (base ++ separator :: rel)
        = if trimStart base = [] then rel else trimStart base ++ separator :: rel := by
    rw [trimStart_append, trimStart_cons, if_pos rfl, bare]
  by_cases empty : rel = []
  · subst empty
    by_cases vanishes : trimStart base = []
    · rw [if_pos vanishes] at afterSeparator ⊢
      unfold joinTrimmed
      split
      · exact vanishes
      · exact afterSeparator
    · have notEmpty : base ≠ [] := by
        intro none
        rw [none] at vanishes
        exact vanishes rfl
      rw [joinTrimmed_nil notEmpty, if_neg vanishes, joinTrimmed_nil vanishes]
  · rw [joinTrimmed_of_ne_nil base empty, afterSeparator]
    split
    · rfl
    · rw [joinTrimmed_of_ne_nil _ empty]

end Joining

/-- The joined path, however long it is. -/
def joined (base rel : String) : String :=
  String.ofList (joinTrimmed (trimEnd base.toList) (trimStart rel.toList))

/-- Of three paths, it does not matter which two are joined first.
Witness: of the path in the middle, what is left without the separators at both of its ends
appears on either side, and if nothing is left, neither join adds anything.
-/
theorem joined_assoc (first second third : String)
    : joined (joined first second) third = joined first (joined second third) := by
  unfold joined
  rw [String.toList_ofList, String.toList_ofList, trimEnd_joinTrimmed (trimEnd_trimEnd _),
    trimStart_joinTrimmed _ (trimStart_trimStart _), trimStart_trimEnd]
  by_cases vanishes : trimEnd (trimStart second.toList) = []
  · rw [if_pos vanishes, if_pos vanishes]
  · rw [if_neg vanishes, if_neg vanishes, joinTrimmed_assoc vanishes]

-----------------------------------------------------------------------------------------
-- Joining within a bound
-----------------------------------------------------------------------------------------

variable {base rel head tail path : String} {bound : Nat}

theorem utf8ByteSize_of_trimsStart (trims : TrimsStart rel.toList tail.toList)
    : tail.utf8ByteSize ≤ rel.utf8ByteSize := by
  obtain ⟨_, count, cut⟩ := trims
  have whole : rel = String.ofList (List.replicate count separator) ++ tail := by
    rw [← String.toList_inj, cut, String.toList_append, String.toList_ofList]
  rw [whole, String.utf8ByteSize_append]
  exact Nat.le_add_left _ _

theorem utf8ByteSize_of_trimsEnd (trims : TrimsEnd base.toList head.toList)
    : head.utf8ByteSize ≤ base.utf8ByteSize := by
  obtain ⟨_, count, cut⟩ := trims
  have whole : base = head ++ String.ofList (List.replicate count separator) := by
    rw [← String.toList_inj, cut, String.toList_append, String.toList_ofList]
  rw [whole, String.utf8ByteSize_append]
  exact Nat.le_add_right _ _

theorem exists_trimsStart (rel : String)
    : ∃ tail : String, TrimsStart rel.toList tail.toList :=
  ⟨String.ofList (trimStart rel.toList), trimsStart_iff.mpr String.toList_ofList.symm⟩

theorem exists_trimsEnd (base : String)
    : ∃ head : String, TrimsEnd base.toList head.toList :=
  ⟨String.ofList (trimEnd base.toList), trimsEnd_iff.mpr String.toList_ofList.symm⟩

/-- The joined path in terms of what is left of its two parts. -/
theorem joined_eq (first : TrimsEnd base.toList head.toList)
    (second : TrimsStart rel.toList tail.toList)
    : joined base rel = if tail = "" ∧ head ≠ "" then head else head ++ "/" ++ tail := by
  rw [joined, trimsEnd_iff.mp first, trimsStart_iff.mp second, joinTrimmed]
  simp only [String.toList_eq_nil_iff, ne_eq]
  split
  · exact String.ofList_toList
  · rw [← String.toList_inj]
    simp [separator]

/-- Joining succeeds if the bound is larger than the two parts and a separator. -/
theorem concat_eq (first : TrimsEnd base.toList head.toList)
    (second : TrimsStart rel.toList tail.toList) (bound : Nat)
    : concat base rel bound
      = if head.utf8ByteSize + 1 + tail.utf8ByteSize < bound then .ok (joined base rel)
        else .error .nameTooLong := by
  simp only [concat, joined, trimsEnd_iff.mp first, trimsStart_iff.mp second,
    String.ofList_toList]
  by_cases fits : head.utf8ByteSize + 1 + tail.utf8ByteSize < bound
  · rw [if_pos fits, if_neg (Nat.not_le_of_lt fits)]
  · rw [if_neg fits, if_pos (Nat.le_of_not_lt fits)]

theorem eq_joined_of_concat (done : concat base rel bound = .ok path)
    : path = joined base rel := by
  simp only [concat] at done
  split at done
  · contradiction
  · exact (Except.ok.inj done).symm

/-- Joining succeeds if the bound is larger than the two paths and a separator, and adds no
more than this to them.
-/
theorem concat_of_fits (base rel : String)
    (fits : base.utf8ByteSize + 1 + rel.utf8ByteSize < bound)
    : concat base rel bound = .ok (joined base rel)
      ∧ (joined base rel).utf8ByteSize ≤ base.utf8ByteSize + 1 + rel.utf8ByteSize := by
  obtain ⟨head, first⟩ := exists_trimsEnd base
  obtain ⟨tail, second⟩ := exists_trimsStart rel
  have headLe := utf8ByteSize_of_trimsEnd first
  have tailLe := utf8ByteSize_of_trimsStart second
  refine ⟨(concat_eq first second bound).trans (if_pos (by omega)), ?_⟩
  have single : "/".utf8ByteSize = 1 := rfl
  rw [joined_eq first second]
  split
  · omega
  · rw [String.utf8ByteSize_append, String.utf8ByteSize_append, single]
    omega

/-- A joined path is given if it is shorter than the bound, and is else said to be too long.
Only if nothing is appended to a base of which something is left, a path that is shorter than
the bound by a single byte is refused too: a separator is counted that is not there.
-/
theorem joined_path_is_given_if_it_fits (first : TrimsEnd base.toList head.toList)
    (second : TrimsStart rel.toList tail.toList)
    (whole : path = if tail = "" ∧ head ≠ "" then head else head ++ "/" ++ tail) (bound : Nat)
    : concat base rel bound
      = if path.utf8ByteSize < bound
            ∧ ¬(tail = "" ∧ head ≠ "" ∧ bound = path.utf8ByteSize + 1)
        then .ok path
        else .error .nameTooLong := by
  have single : "/".utf8ByteSize = 1 := rfl
  rw [concat_eq first second, joined_eq first second, ← whole]
  refine if_congr ?_ rfl rfl
  by_cases alone : tail = "" ∧ head ≠ ""
  · rw [if_pos alone] at whole
    obtain ⟨rfl, notEmpty⟩ := alone
    subst whole
    simp only [String.utf8ByteSize_empty, notEmpty, ne_eq, not_false_eq_true, true_and]
    omega
  · rw [if_neg alone] at whole
    subst whole
    rw [String.utf8ByteSize_append, String.utf8ByteSize_append, single]
    exact ⟨fun fits => ⟨fits, fun spare => alone ⟨spare.1, spare.2.1⟩⟩, And.left⟩

/-- A bound of six bytes has room for five and a terminator. A base of five bytes is refused
there when nothing is appended to it, and given when the bound is seven; a path of five bytes
that has two parts is given at six.
-/
theorem joined_path_is_given_if_it_fits_of_exact_fit
    : TrimsEnd "/data".toList "/data".toList
      ∧ TrimsStart "".toList "".toList
      ∧ "/data".utf8ByteSize < 6
      ∧ concat "/data" "" 6 = .error .nameTooLong
      ∧ concat "/data" "" 7 = .ok "/data"
      ∧ concat "/da/" "/t" 6 = .ok "/da/t" := by
  have first : TrimsEnd "/data".toList "/data".toList := ⟨by simp [separator], 0, by simp⟩
  have second : TrimsStart "".toList "".toList := ⟨by simp, 0, by simp⟩
  have whole : "/data" = if "" = "" ∧ "/data" ≠ "" then "/data" else "/data" ++ "/" ++ "" := by
    simp
  have otherFirst : TrimsEnd "/da/".toList "/da".toList :=
    ⟨by simp [separator], 1, by simp [separator]⟩
  have otherSecond : TrimsStart "/t".toList "t".toList :=
    ⟨by simp [separator], 1, by simp [separator]⟩
  have refused := joined_path_is_given_if_it_fits first second whole 6
  have given := joined_path_is_given_if_it_fits first second whole 7
  have otherGiven := joined_path_is_given_if_it_fits otherFirst otherSecond rfl 6
  exact ⟨first, second, by decide +kernel, refused.trans (by decide +kernel),
    given.trans (by decide +kernel), otherGiven.trans (by decide +kernel)⟩

/-- Of three paths, it does not matter which two are joined first, and there is a bound from
which on all joins are made.
Witness: without the bounds, a join depends on what is left of the middle path only.
-/
theorem joining_is_associative (first second third : String)
    : (∀ {left right path other : String} {leftBound rightBound pathBound otherBound : Nat},
        concat first second leftBound = .ok left
        → concat left third pathBound = .ok path
        → concat second third rightBound = .ok right
        → concat first right otherBound = .ok other
        → path = other)
      ∧ ∀ bound,
          first.utf8ByteSize + second.utf8ByteSize + third.utf8ByteSize + 2 < bound
          → ∃ left right path,
              concat first second bound = .ok left
              ∧ concat left third bound = .ok path
              ∧ concat second third bound = .ok right
              ∧ concat first right bound = .ok path := by
  constructor
  · intro left right path other _ _ _ _ leftDone pathDone rightDone otherDone
    calc path
        = joined (joined first second) third := by
          rw [eq_joined_of_concat pathDone, eq_joined_of_concat leftDone]
      _ = joined first (joined second third) := joined_assoc first second third
      _ = other := by
          rw [eq_joined_of_concat otherDone, eq_joined_of_concat rightDone]
  · intro bound fits
    have leftFits : first.utf8ByteSize + 1 + second.utf8ByteSize < bound := by omega
    have rightFits : second.utf8ByteSize + 1 + third.utf8ByteSize < bound := by omega
    obtain ⟨leftDone, leftSize⟩ := concat_of_fits first second leftFits
    obtain ⟨rightDone, rightSize⟩ := concat_of_fits second third rightFits
    have pathFits : (joined first second).utf8ByteSize + 1 + third.utf8ByteSize < bound := by
      omega
    have otherFits : first.utf8ByteSize + 1 + (joined second third).utf8ByteSize < bound := by
      omega
    obtain ⟨pathDone, _⟩ := concat_of_fits (joined first second) third pathFits
    obtain ⟨otherDone, _⟩ := concat_of_fits first (joined second third) otherFits
    rw [← joined_assoc] at otherDone
    exact ⟨_, _, _, leftDone, pathDone, rightDone, otherDone⟩

/-- A path of separators only, in the middle of two others. -/
theorem joining_is_associative_of_separators
    : (∃ left right path other,
        concat "/a/" "//" 4 = .ok left
        ∧ concat left "/b" 5 = .ok path
        ∧ concat "//" "/b" 3 = .ok right
        ∧ concat "/a/" right 6 = .ok other
        ∧ path = other)
      ∧ ∃ left right path,
          concat "/a/" "//" 10 = .ok left
          ∧ concat left "/b" 10 = .ok path
          ∧ concat "//" "/b" 10 = .ok right
          ∧ concat "/a/" right 10 = .ok path := by
  have left : concat "/a/" "//" 4 = .ok "/a" := by decide +kernel
  have path : concat "/a" "/b" 5 = .ok "/a/b" := by decide +kernel
  have right : concat "//" "/b" 3 = .ok "/b" := by decide +kernel
  have other : concat "/a/" "/b" 6 = .ok "/a/b" := by decide +kernel
  obtain ⟨agree, succeed⟩ := joining_is_associative "/a/" "//" "/b"
  exact ⟨⟨_, _, _, _, left, path, right, other, agree left path right other⟩,
    succeed 10 (by decide +kernel)⟩

-----------------------------------------------------------------------------------------
-- Below a mount
-----------------------------------------------------------------------------------------

theorem translate_eq_of_seen {mount path seen : String} (covered : covers mount path = true)
    (sees : Seen mount path seen)
    : translate path mount = seen :=
  (translate_seen covered).1.unique sees

theorem trimsEnd_of_validateMount {mount : String} (valid : validateMount mount = .ok ())
    : TrimsEnd mount.toList mount.toList := by
  refine ⟨?_, 0, (List.append_nil _).symm⟩
  rcases validateMount_eq_ok_iff.mp valid with rfl | ⟨_, _, _, bare⟩
  · simp
  · exact bare

/-- A driver sees below its mount what was joined to the mount path. -/
theorem joined_seen {mount rel tail : String} (valid : validateMount mount = .ok ())
    (second : TrimsStart rel.toList tail.toList)
    : covers mount (joined mount rel) = true ∧ Seen mount (joined mount rel) ("/" ++ tail) := by
  rw [joined_eq (trimsEnd_of_validateMount valid) second]
  split
  · rename_i alone
    exact ⟨covers_iff.mpr (.inr (.inl rfl)), .inr ⟨rfl, by rw [alone.1]; rfl⟩⟩
  · refine ⟨covers_iff.mpr (.inr (.inr ⟨tail.toList, ?_⟩)), .inl ⟨?_, String.append_assoc⟩⟩
    · simp [separator]
    · simp

theorem append_ne_self (text : String) {more : String} (notEmpty : more ≠ "")
    : text ++ more ≠ text := by
  intro same
  exact notEmpty ((String.append_right_inj text).mp (same.trans String.append_empty.symm))

/-- A path that a mount path covers is the mount path, or goes on after it with a separator
and with what is left of the rest without one.
-/
theorem exists_tail {mount path : String} (covered : covers mount path = true)
    (notEmpty : mount ≠ "") (single : ¬∃ rest, path = mount ++ "//" ++ rest)
    : ∃ tail,
        TrimsStart ("/" ++ tail).toList tail.toList
        ∧ (path = mount ∧ tail = "" ∨ path = mount ++ "/" ++ tail) := by
  rcases covers_iff.mp covered with empty | rfl | ⟨rest, split⟩
  · exact absurd empty notEmpty
  · exact ⟨"", ⟨by simp, 1, by simp [separator]⟩, .inl ⟨rfl, rfl⟩⟩
  · refine ⟨String.ofList rest, ⟨?_, 1, by simp [separator]⟩, .inr ?_⟩
    · intro again
      rw [String.toList_ofList] at again
      obtain ⟨others, rfl⟩ := List.head?_eq_some_iff.mp again
      refine single ⟨String.ofList others, ?_⟩
      rw [← String.toList_inj, split]
      simp [separator]
    · rw [← String.toList_inj, split]
      simp [separator]

/-- What a driver sees of a path, joined to its mount path, is that path again, but for a
separator that is all there is behind the mount path.
-/
theorem concat_translate {mount path : String} (valid : validateMount mount = .ok ())
    (notEmpty : mount ≠ "") (covered : covers mount path = true)
    (single : ¬∃ rest, path = mount ++ "//" ++ rest) (bound : Nat)
    : concat mount (translate path mount) bound
      = if max path.utf8ByteSize (mount.utf8ByteSize + 1) < bound
        then .ok (if path = mount ++ "/" then mount else path)
        else .error .nameTooLong := by
  have bare := trimsEnd_of_validateMount valid
  have separatorSize : "/".utf8ByteSize = 1 := rfl
  obtain ⟨tail, trims, whole⟩ := exists_tail covered notEmpty single
  have seen : translate path mount = "/" ++ tail := by
    refine translate_eq_of_seen covered ?_
    rcases whole with ⟨rfl, rfl⟩ | rfl
    · exact .inr ⟨rfl, rfl⟩
    · exact .inl ⟨by simp, String.append_assoc⟩
  rw [seen, concat_eq bare trims, joined_eq bare trims]
  rcases whole with ⟨rfl, rfl⟩ | rfl
  · have longer : path ≠ path ++ "/" := (append_ne_self path (by simp)).symm
    simp [notEmpty, longer]
  · by_cases empty : tail = ""
    · simp [empty, notEmpty, separatorSize]
    · have longer : mount ++ "/" ++ tail ≠ mount ++ "/" := append_ne_self _ empty
      simp [empty, longer, separatorSize, Nat.add_assoc]

/-- A mount path covers what is joined to it, and what its driver sees is what was appended.
In the other direction, what a driver sees of a path is joined to that path again, except
that a single separator behind the mount path gets lost.
-/
theorem mount_path_is_joined_and_cut_off {mount : String}
    (valid : validateMount mount = .ok ())
    : (∀ rel bound full,
        concat mount rel bound = .ok full
        → covers mount full = true
          ∧ ∃ tail : String,
              TrimsStart rel.toList tail.toList ∧ translate full mount = "/" ++ tail)
      ∧ (mount ≠ ""
        → ∀ path,
            covers mount path = true
            → (¬∃ rest, path = mount ++ "//" ++ rest)
            → ∀ bound,
                concat mount (translate path mount) bound
                = if max path.utf8ByteSize (mount.utf8ByteSize + 1) < bound
                  then .ok (if path = mount ++ "/" then mount else path)
                  else .error .nameTooLong) := by
  constructor
  · intro rel bound full done
    obtain ⟨tail, trims⟩ := exists_trimsStart rel
    obtain ⟨covered, seen⟩ := joined_seen valid trims
    rw [eq_joined_of_concat done]
    exact ⟨covered, tail, trims, translate_eq_of_seen covered seen⟩
  · intro notEmpty path covered single bound
    exact concat_translate valid notEmpty covered single bound

theorem mount_path_is_joined_and_cut_off_of_single_separator
    : validateMount "/data" = .ok ()
      ∧ concat "/data" "//log/" 11 = .ok "/data/log/"
      ∧ (covers "/data" "/data/log/" = true
        ∧ ∃ tail : String,
            TrimsStart "//log/".toList tail.toList
            ∧ translate "/data/log/" "/data" = "/" ++ tail)
      ∧ covers "/data" "/data/" = true
      ∧ (¬∃ rest, "/data/" = "/data" ++ "//" ++ rest)
      ∧ concat "/data" (translate "/data/" "/data") 7 = .ok "/data" := by
  have valid : validateMount "/data" = .ok () := by decide +kernel
  have done : concat "/data" "//log/" 11 = .ok "/data/log/" := by decide +kernel
  have covered : covers "/data" "/data/" = true := by decide +kernel
  have single : ¬∃ rest, "/data/" = "/data" ++ "//" ++ rest := by
    intro ⟨rest, same⟩
    simpa using congrArg String.toList same
  obtain ⟨joins, returns⟩ := mount_path_is_joined_and_cut_off valid
  exact ⟨valid, done, joins _ _ _ done, covered, single,
    (returns (by decide) _ covered single 7).trans (by decide +kernel)⟩

end StorageSwitch.Path
