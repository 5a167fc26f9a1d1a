import Mathlib.Data.Nat.Digits.Defs
import StorageSwitch.Block.BootRecord

/-! What the bytes of a first sector say about partitions, written down byte by byte, and
that reading a boot record finds exactly this.
-/

namespace StorageSwitch.Block

-----------------------------------------------------------------------------------------
-- Numbers in four bytes
-----------------------------------------------------------------------------------------

/-- The number spelt by the four bytes from `offset` on, the least significant first. -/
def wordAt (image : Buffer) (offset : Nat) : Nat :=
  Nat.ofDigits 256 ((List.range 4).map fun place => (image[offset + place]?.getD 0).toNat)

theorem wordAt_lt (image : Buffer) (offset : Nat) : wordAt image offset < UInt32.size := by
  have bytes : ∀ digit ∈ (List.range 4).map fun place =>
      (image[offset + place]?.getD 0).toNat, digit < 256 := by
    intro digit member
    obtain ⟨place, _, rfl⟩ := List.mem_map.mp member
    exact UInt8.toNat_lt _
  simpa [wordAt] using Nat.ofDigits_lt_base_pow_length (by decide) bytes

/-- Shifting bytes to their places and joining the bits adds up the digits. Witness: the
places do not overlap.
-/
theorem toNat_littleEndian (b0 b1 b2 b3 : UInt8)
    : (littleEndian b0 b1 b2 b3).toNat
      = Nat.ofDigits 256 [b0.toNat, b1.toNat, b2.toNat, b3.toNat] := by
  have lt0 := b0.toNat_lt
  have lt1 := b1.toNat_lt
  have lt2 := b2.toNat_lt
  have lt3 := b3.toNat_lt
  have join {low : Nat} (high place : Nat) (fits : low < 2 ^ place)
      : low ||| high * 2 ^ place = low + high * 2 ^ place := by
    have sum := Nat.two_pow_add_eq_or_of_lt fits high
    rw [Nat.mul_comm, Nat.or_comm, ← sum, Nat.add_comm]
  have place (byte : UInt8) (place : Nat) (fits : place ≤ 24)
      : byte.toNat <<< place % 2 ^ 32 = byte.toNat * 2 ^ place := by
    have byteLt := byte.toNat_lt
    rw [Nat.shiftLeft_eq]
    refine Nat.mod_eq_of_lt ?_
    calc byte.toNat * 2 ^ place
        ≤ 255 * 2 ^ 24 := Nat.mul_le_mul (by omega) (Nat.pow_le_pow_right (by decide) fits)
      _ < 2 ^ 32 := by decide
  have shifted
      : (littleEndian b0 b1 b2 b3).toNat
        = b0.toNat ||| b1.toNat <<< 8 % 2 ^ 32 ||| b2.toNat <<< 16 % 2 ^ 32
            ||| b3.toNat <<< 24 % 2 ^ 32 := by
    simp [littleEndian, UInt32.toNat_or, UInt32.toNat_shiftLeft]
  rw [shifted, place b1 8 (by decide), place b2 16 (by decide), place b3 24 (by decide),
    join _ 8 (by omega), join _ 16 (by omega), join _ 24 (by omega)]
  simp only [Nat.ofDigits_cons, Nat.ofDigits_nil]
  omega

/-- The bytes of a number, the least significant first. -/
def bytesOf (number : UInt32) : List UInt8 :=
  [number.toUInt8, (number >>> 8).toUInt8, (number >>> 16).toUInt8, (number >>> 24).toUInt8]

/-- The bytes of a number are its digits. -/
theorem ofDigits_bytesOf (number : UInt32)
    : Nat.ofDigits 256 ((bytesOf number).map UInt8.toNat) = number.toNat := by
  have bound := number.toNat_lt
  simp only [bytesOf, List.map_cons, List.map_nil, UInt32.toNat_toUInt8,
    UInt32.toNat_shiftRight, Nat.shiftRight_eq_div_pow, UInt32.reduceToNat, Nat.reduceMod,
    Nat.reducePow, Nat.ofDigits_cons, Nat.ofDigits_nil]
  omega

theorem bytesOf_inj {number other : UInt32} (same : bytesOf number = bytesOf other)
    : number = other := by
  rw [← UInt32.toNat_inj, ← ofDigits_bytesOf number, same, ofDigits_bytesOf]

/-- Four bytes are the bytes of the number that they spell. Witness: both are the digits of
that number.
-/
theorem bytesOf_littleEndian (b0 b1 b2 b3 : UInt8)
    : bytesOf (littleEndian b0 b1 b2 b3) = [b0, b1, b2, b3] := by
  have byte (bytes : List UInt8) : ∀ digit ∈ bytes.map UInt8.toNat, digit < 256 := by
    intro digit member
    obtain ⟨_, _, rfl⟩ := List.mem_map.mp member
    exact UInt8.toNat_lt _
  have digits
      : (bytesOf (littleEndian b0 b1 b2 b3)).map UInt8.toNat
        = [b0, b1, b2, b3].map UInt8.toNat := by
    refine Nat.ofDigits_inj_of_len_eq (by decide) rfl (byte _) (byte _) ?_
    rw [ofDigits_bytesOf, toNat_littleEndian]
    rfl
  exact (List.map_inj_right fun _ _ => UInt8.toNat_inj.mp).mp digits

-----------------------------------------------------------------------------------------
-- Listed partitions
-----------------------------------------------------------------------------------------

/-- Whether an image has the length of a sector and the two signature bytes in place. -/
def Signed (image : Buffer) : Prop :=
  512 ≤ image.size ∧ image[510]? = some 0x55 ∧ image[511]? = some 0xAA

instance (image : Buffer) : Decidable (Signed image) := by
  unfold Signed
  infer_instance

/-- The sectors stated in the sixteen bytes from `offset` on. -/
def rangeAt (image : Buffer) (offset : Nat) : Partition :=
  ⟨.ofNat (wordAt image (offset + 8)), .ofNat (wordAt image (offset + 12))⟩

theorem toNat_rangeAt (image : Buffer) (offset : Nat)
    : (rangeAt image offset).start.toNat = wordAt image (offset + 8)
      ∧ (rangeAt image offset).count.toNat = wordAt image (offset + 12) :=
  ⟨UInt32.toNat_ofNat_of_lt' (wordAt_lt ..), UInt32.toNat_ofNat_of_lt' (wordAt_lt ..)⟩

/-- The sectors stated in a table of partitions, for each of its four places whose first
byte, the status, is not zero.
-/
def tabledRanges (image : Buffer) : List Partition :=
  ([446, 462, 478, 494].filter fun offset => image[offset]?.getD 0 ≠ 0).map (rangeAt image)

/-- The partitions that a disk lists by its answer to the read of its first sector: none if
the read failed, whatever it left in the buffer, and none without a signature.
-/
def rangesListedBy : Except Error Unit × Buffer → List Partition
  | (.error _, _) => []
  | (.ok (), image) => if Signed image then tabledRanges image else []

-----------------------------------------------------------------------------------------
-- What reading a boot record finds
-----------------------------------------------------------------------------------------

theorem partition_decodeAt (image : Buffer) (offset : Nat)
    : (PartitionRecord.decodeAt image offset).partition = rangeAt image offset := by
  obtain ⟨start, count⟩ := toNat_rangeAt image offset
  have startSame
      : (PartitionRecord.decodeAt image offset).start = (rangeAt image offset).start := by
    refine UInt32.toNat_inj.mp ?_
    rw [start, PartitionRecord.decodeAt, toNat_littleEndian]
    rfl
  have countSame
      : (PartitionRecord.decodeAt image offset).count = (rangeAt image offset).count := by
    refine UInt32.toNat_inj.mp ?_
    rw [count, PartitionRecord.decodeAt, toNat_littleEndian]
    rfl
  rw [PartitionRecord.partition, startSame, countSame]

/-- The records in use, without their slots. -/
theorem occupied_records (record : BootRecord)
    : record.occupied.map (·.2) = record.records.toList.filter (·.isOccupied) := by
  unfold BootRecord.occupied
  calc ((record.records.toList.zipIdx.map fun held => (held.2, held.1)).filter
          (·.2.isOccupied)).map (·.2)
      = (record.records.toList.zipIdx.filter ((·.isOccupied) ∘ (·.1))).map (·.1) := by
        rw [List.filter_map, List.map_map]
        rfl
    _ = (record.records.toList.zipIdx.map (·.1)).filter (·.isOccupied) :=
        List.filter_map.symm
    _ = record.records.toList.filter (·.isOccupied) := by
        rw [List.zipIdx_map_fst]

/-- The boot record of a signed image, and of no other, is read. -/
theorem parse?_isSome_iff (image : Buffer)
    : (BootRecord.parse? image).isSome = true ↔ Signed image := by
  simp [BootRecord.parse?, apply_ite Option.isSome, Signed, BootRecord.isSigned,
    BootRecord.signatureOffset, sectorSize]

/-- What is read of a signed image are the records at the four places of the table. -/
theorem parse?_eq_some_iff_records {image : Buffer} {record : BootRecord}
    : BootRecord.parse? image = some record
      ↔ Signed image
        ∧ record.records = Vector.ofFn fun slot => .decodeAt image (446 + 16 * slot.val) := by
  by_cases signed : Signed image
  · have parsed
        : BootRecord.parse? image
          = some ⟨Vector.ofFn fun slot => .decodeAt image (446 + 16 * slot.val)⟩ := by
      obtain ⟨fits, first, second⟩ := signed
      simp [BootRecord.parse?, BootRecord.isSigned, BootRecord.signatureOffset, sectorSize,
        first, second, Nat.not_lt_of_le fits, BootRecord.tableOffset,
        PartitionRecord.byteSize]
    rw [parsed, Option.some.injEq]
    constructor
    · intro same
      exact ⟨signed, same ▸ rfl⟩
    · intro ⟨_, records⟩
      rw [← records]
  · constructor
    · intro parsed
      exact absurd ((parse?_isSome_iff image).mp (Option.isSome_of_eq_some parsed)) signed
    · intro ⟨signature, _⟩
      exact absurd signature signed

/-- The records are read from the four places of the table. -/
theorem records_of_parse? {image : Buffer} {record : BootRecord}
    (parsed : BootRecord.parse? image = some record)
    : record.records.toList
      = [446, 462, 478, 494].map (PartitionRecord.decodeAt image) := by
  obtain ⟨_, records⟩ := parse?_eq_some_iff_records.mp parsed
  rw [records]
  simp [Vector.toList_ofFn, List.ofFn_succ]

/-- The records in use state the ranges of the table, in the order of the table. -/
theorem partitions_of_parse? {image : Buffer} {record : BootRecord}
    (parsed : BootRecord.parse? image = some record)
    : record.occupied.map (·.2.partition) = tabledRanges image := by
  have used (offset : Nat)
      : (PartitionRecord.decodeAt image offset).isOccupied
        = decide (image[offset]?.getD 0 ≠ 0) := by
    rw [decide_not]
    rfl
  calc record.occupied.map (·.2.partition)
      = (record.records.toList.filter (·.isOccupied)).map (·.partition) := by
        rw [← occupied_records, List.map_map]
        rfl
    _ = ([446, 462, 478, 494].filter
            fun offset => (PartitionRecord.decodeAt image offset).isOccupied).map
          fun offset => (PartitionRecord.decodeAt image offset).partition := by
        rw [records_of_parse? parsed, List.filter_map, List.map_map]
        rfl
    _ = tabledRanges image := by
        simp only [used, partition_decodeAt, tabledRanges]

end StorageSwitch.Block
