import StorageSwitch.Descriptor.Binding

/-! Bindings survive their packed form. The four parts of a word share no bit, so each part
is read back from its own bits, and the word of a binding is never the word of an unused
descriptor.
-/

namespace StorageSwitch.Binding

/-- The mount slot has room in the 16 bits that a word keeps for it. -/
def Fits (binding : Binding) : Prop := binding.mount < 65536

theorem testBit_occupiedBit (i : Nat) : occupiedBit.toNat.testBit i = decide (63 = i) := by
  have value : occupiedBit.toNat = 2 ^ 63 := rfl
  rw [value, Nat.testBit_two_pow]

theorem testBit_permanentBit (i : Nat)
    : permanentBit.toNat.testBit i = decide (62 = i) := by
  have value : permanentBit.toNat = 2 ^ 62 := rfl
  rw [value, Nat.testBit_two_pow]

theorem testBit_mountMask (i : Nat) : mountMask.toNat.testBit i = decide (i < 16) :=
  Nat.testBit_two_pow_sub_one 16 i

theorem testBit_file_high (file : LocalFd) {i : Nat} (high : 32 ≤ i)
    : file.toUInt32.toNat.testBit i = false := by
  apply Nat.testBit_lt_two_pow
  exact Nat.lt_of_lt_of_le (UInt32.toNat_lt _) (Nat.pow_le_pow_right (by decide) high)

/-- Each bit of a packed binding belongs to one of its four parts.
Witness: the `or` of the parts bit by bit, each shifted to its place.
-/
theorem testBit_pack (binding : Binding) (i : Nat)
    : binding.pack.toNat.testBit i
      = (decide (63 = i)
        || (decide (62 = i) && binding.permanent)
        || (decide (32 ≤ i) && decide (i < 48) && binding.mount.testBit (i - 32))
        || binding.file.toUInt32.toNat.testBit i) := by
  have mark : (if binding.permanent then permanentBit else 0).toNat.testBit i
      = (decide (62 = i) && binding.permanent) := by
    split <;> simp_all [testBit_permanentBit]
  simp only [pack, UInt64.toNat_or, UInt64.toNat_and, UInt64.toNat_shiftLeft,
    UInt64.toNat_ofNat', UInt32.toNat_toUInt64, Nat.testBit_or, Nat.testBit_and,
    Nat.testBit_shiftLeft, Nat.testBit_mod_two_pow, testBit_occupiedBit,
    testBit_mountMask, mark]
  grind

/-- Masking a word by one bit leaves nothing exactly when that bit is not set. -/
theorem and_eq_zero_iff {word bit : UInt64} {i : Nat} (value : bit.toNat = 1 <<< i)
    : word &&& bit = 0 ↔ word.toNat.testBit i = false := by
  have bits (j : Nat)
      : (word &&& bit).toNat.testBit j = (word.toNat.testBit j && decide (i = j)) := by
    rw [UInt64.toNat_and, value, Nat.one_shiftLeft, Nat.testBit_and, Nat.testBit_two_pow]
  constructor
  · intro zero
    simpa [zero] using bits i
  · intro unset
    apply UInt64.toNat_inj.mp
    apply Nat.eq_of_testBit_eq
    intro j
    rw [bits]
    by_cases same : i = j
    · subst same
      simp [unset]
    · simp [same]

theorem and_occupiedBit_eq_zero_iff (word : UInt64)
    : word &&& occupiedBit = 0 ↔ word.toNat.testBit 63 = false :=
  and_eq_zero_iff rfl

theorem pack_and_occupiedBit_ne_zero (binding : Binding)
    : binding.pack &&& occupiedBit ≠ 0 := by
  rw [Ne, and_occupiedBit_eq_zero_iff, testBit_pack]
  simp

theorem pack_ne_zero (binding : Binding) : binding.pack ≠ 0 := by
  intro zero
  have marked := pack_and_occupiedBit_ne_zero binding
  rw [zero] at marked
  exact marked rfl

theorem pack_mount (binding : Binding)
    : ((binding.pack >>> 32) &&& mountMask).toNat = binding.mount % 65536 := by
  apply Nat.eq_of_testBit_eq
  intro i
  have shift : UInt64.toNat 32 % 64 = 32 := rfl
  have modulus : 65536 = 2 ^ 16 := rfl
  simp only [UInt64.toNat_and, UInt64.toNat_shiftRight, shift, modulus, Nat.testBit_and,
    Nat.testBit_shiftRight, Nat.testBit_mod_two_pow, testBit_mountMask, testBit_pack,
    testBit_file_high _ (show 32 ≤ 32 + i by omega)]
  grind

theorem pack_file (binding : Binding) : binding.pack.toUInt32.toInt32 = binding.file := by
  have low : binding.pack.toUInt32 = binding.file.toUInt32 := by
    apply UInt32.toNat_inj.mp
    apply Nat.eq_of_testBit_eq
    intro i
    simp only [UInt64.toNat_toUInt32, Nat.testBit_mod_two_pow, testBit_pack]
    by_cases within : i < 32
    · grind
    · simp [within, testBit_file_high _ (show 32 ≤ i by omega)]
  simp [low]

theorem pack_permanent (binding : Binding)
    : (binding.pack &&& permanentBit != 0) = binding.permanent := by
  have unset : binding.pack &&& permanentBit = 0 ↔ binding.permanent = false := by
    rw [and_eq_zero_iff (i := 62) rfl, testBit_pack,
      testBit_file_high _ (show 32 ≤ 62 by decide)]
    simp
  cases mark : binding.permanent
  · simpa using unset.mpr mark
  · simpa [mark] using unset

/-- Unpacking gives back every binding that fits.
Witness: the mark of use is set, and each field is read from its own bits.
-/
theorem unpack?_pack {binding : Binding} (fits : binding.Fits)
    : unpack? binding.pack = some binding := by
  rw [unpack?, if_neg (pack_and_occupiedBit_ne_zero binding), pack_mount, pack_file,
    pack_permanent, Nat.mod_eq_of_lt fits]

/-- Different bindings that fit have different words. -/
theorem pack_inj {left right : Binding} (leftFits : left.Fits) (rightFits : right.Fits)
    : left.pack = right.pack ↔ left = right := by
  constructor
  · intro same
    have back := congrArg unpack? same
    rw [unpack?_pack leftFits, unpack?_pack rightFits] at back
    exact Option.some.inj back
  · rintro rfl
    rfl

/-- The zero word holds no binding. -/
@[simp] theorem unpack?_zero : unpack? 0 = none := rfl

/-- Whatever is read from a word fits, since only 16 bits are read for the mount slot. -/
theorem fits_of_unpack? {word : UInt64} {binding : Binding}
    (read : unpack? word = some binding)
    : binding.Fits := by
  unfold unpack? at read
  split at read
  · contradiction
  · have bound : ((word >>> 32) &&& mountMask).toNat ≤ mountMask.toNat := by
      rw [UInt64.toNat_and]
      exact Nat.and_le_right
    rw [← Option.some.inj read]
    exact Nat.lt_of_le_of_lt bound (by decide)

end StorageSwitch.Binding
