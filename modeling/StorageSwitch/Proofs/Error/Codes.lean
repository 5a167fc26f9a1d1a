import StorageSwitch.Error

/-! Platform numbers and the failures they stand for. A failure that was read from a number
has the magnitude of that number, so numbers are told apart by their magnitudes and reading
back changes nothing. The least number is the only one whose magnitude has no number.
-/

namespace StorageSwitch.Error

variable {code other : Int32}

-----------------------------------------------------------------------------------------
-- Magnitudes
-----------------------------------------------------------------------------------------

theorem toInt_abs (notLeast : code ≠ Int32.minValue)
    : code.abs.toInt = code.toInt.natAbs := by
  have notLeastWord : code.toBitVec ≠ BitVec.intMin 32 :=
    fun same => notLeast (Int32.toBitVec_inj.mp same)
  exact BitVec.toInt_abs_eq_natAbs_of_ne_intMin notLeastWord

theorem abs_minValue : Int32.minValue.abs = Int32.minValue := by decide

/-- Taking the magnitude keeps it, also where the sign stays. -/
theorem natAbs_toInt_abs (code : Int32) : code.abs.toInt.natAbs = code.toInt.natAbs := by
  by_cases least : code = Int32.minValue
  · rw [least, abs_minValue]
  · rw [toInt_abs least, Int.natAbs_natCast]

/-- The least number is the only one of its magnitude. -/
theorem eq_minValue_iff : code = Int32.minValue ↔ code.toInt.natAbs = 2147483648 := by
  have below : code.toInt < 2147483648 := code.toInt_lt
  rw [← Int32.toInt_inj, Int32.toInt_minValue]
  omega

/-- Two numbers are alike but for the sign exactly when they have the same magnitude.
Witness: if one of them is the least number, so is the other.
-/
theorem abs_eq_abs_iff : code.abs = other.abs ↔ code.toInt.natAbs = other.toInt.natAbs := by
  constructor
  · intro same
    rw [← natAbs_toInt_abs code, same, natAbs_toInt_abs]
  · intro same
    have bothLeast : code = Int32.minValue ↔ other = Int32.minValue := by
      rw [eq_minValue_iff, eq_minValue_iff, same]
    by_cases least : code = Int32.minValue
    · rw [least, bothLeast.mp least]
    · apply Int32.toInt_inj.mp
      rw [toInt_abs least, toInt_abs (mt bothLeast.mpr least), same]

-----------------------------------------------------------------------------------------
-- The two tables
-----------------------------------------------------------------------------------------

/-- A row of the table of failures keeps the number it is looked up by, if the failure in the
row has the row's number and the rest of the table keeps the number.
-/
theorem code_row {row : Int32} {failure rest : Error} (listed : failure.code = row)
    (kept : rest.code = code)
    : (if code = row then failure else rest).code = code := by
  by_cases found : code = row
  · rw [if_pos found, listed, found]
  · rw [if_neg found, kept]

/-- The table of failures inverts the table of numbers.
Witness: every failure has the number of its row, and a number without a row is kept.
-/
theorem code_ofMagnitude (code : Int32) : (ofMagnitude code).code = code := by
  unfold ofMagnitude
  iterate 11 refine code_row rfl ?_
  rfl

/-- A failure that was read from a number has its magnitude. -/
theorem code_ofCode (code : Int32) : (ofCode code).code = code.abs :=
  code_ofMagnitude code.abs

/-- Two numbers stand for the same failure exactly when they have the same magnitude. -/
theorem ofCode_eq_iff
    : ofCode code = ofCode other ↔ code.toInt.natAbs = other.toInt.natAbs := by
  rw [← abs_eq_abs_iff]
  constructor
  · intro same
    rw [← code_ofCode, same, code_ofCode]
  · intro same
    rw [ofCode, ofCode, same]

/-- The number of a failure that was read from a number stands for that failure. -/
theorem ofCode_code_ofCode (code : Int32) : ofCode (ofCode code).code = ofCode code := by
  rw [code_ofCode, ofCode_eq_iff, natAbs_toInt_abs]

-----------------------------------------------------------------------------------------
-- Statuses
-----------------------------------------------------------------------------------------

variable {status : Int32}

theorem checkStatus_of_nonneg (nonneg : 0 ≤ status) : checkStatus status = .ok status :=
  if_neg (Int32.not_lt.mpr nonneg)

theorem checkStatus_of_neg (negative : status < 0)
    : checkStatus status = .error (ofCode status) :=
  if_pos negative

/-- The number of a failure that a status stands for is that status without its sign. -/
theorem toInt_code_ofCode_of_neg (negative : status < 0)
    (notLeast : status ≠ Int32.minValue)
    : (ofCode status).code.toInt = -status.toInt := by
  have below : status.toInt < 0 := Int32.lt_iff_toInt_lt.mp negative
  rw [code_ofCode, toInt_abs notLeast]
  omega

/-- A status that is not negative is a value. A negative one is the failure whose number is
that status without its sign, except that the least status is kept as it is, since no number
is its magnitude. Which failure a number stands for depends on its magnitude alone, and
reading the number of that failure back gives it again.
-/
theorem failures_keep_magnitudes
    : (∀ status, 0 ≤ status → checkStatus status = .ok status)
      ∧ (∀ status,
          status < 0 → status ≠ Int32.minValue
          → ∃ failure,
              checkStatus status = .error failure
              ∧ failure.code.toInt = -status.toInt
              ∧ 0 < failure.code)
      ∧ (∃ failure,
          checkStatus Int32.minValue = .error failure ∧ failure.code = Int32.minValue)
      ∧ (∀ code other,
          ofCode code = ofCode other ↔ code.toInt.natAbs = other.toInt.natAbs)
      ∧ ∀ code, ofCode (ofCode code).code = ofCode code := by
  refine ⟨fun _ => checkStatus_of_nonneg, fun status negative notLeast => ?_, ?_,
    fun _ _ => ofCode_eq_iff, ofCode_code_ofCode⟩
  · have number := toInt_code_ofCode_of_neg negative notLeast
    refine ⟨ofCode status, checkStatus_of_neg negative, number, ?_⟩
    have below : status.toInt < 0 := Int32.lt_iff_toInt_lt.mp negative
    apply Int32.lt_iff_toInt_lt.mpr
    rw [number, Int32.toInt_zero]
    omega
  · refine ⟨ofCode Int32.minValue, checkStatus_of_neg (by decide), ?_⟩
    rw [code_ofCode, abs_minValue]

/-- The number of exhausted memory is that of a full registry too, and is read back as the
former, with either sign.
-/
theorem failures_keep_magnitudes_of_shared_number
    : (0 : Int32) ≤ 12
      ∧ checkStatus 12 = .ok 12
      ∧ (-12 : Int32) < 0
      ∧ (-12 : Int32) ≠ Int32.minValue
      ∧ (∃ failure,
          checkStatus (-12) = .error failure
          ∧ failure.code.toInt = 12
          ∧ 0 < failure.code)
      ∧ ofCode (-12) = ofCode outOfSlots.code
      ∧ ofCode outOfSlots.code = outOfMemory := by
  obtain ⟨values, failures, _, alike, _⟩ := failures_keep_magnitudes
  exact ⟨by decide, values 12 (by decide), by decide, by decide,
    failures (-12) (by decide) (by decide), (alike _ _).mpr rfl, by decide⟩

/-- The least status is negative, but the failure it stands for has no positive number. -/
theorem least_status_keeps_sign
    : Int32.minValue < 0
      ∧ ¬∃ failure,
          checkStatus Int32.minValue = .error failure
          ∧ failure.code.toInt = -Int32.minValue.toInt := by
  have negative : Int32.minValue < 0 := by decide
  refine ⟨negative, ?_⟩
  rintro ⟨failure, failed, number⟩
  obtain rfl := Except.error.inj (failed.symm.trans (checkStatus_of_neg negative))
  rw [code_ofCode, abs_minValue] at number
  revert number
  decide

end StorageSwitch.Error
