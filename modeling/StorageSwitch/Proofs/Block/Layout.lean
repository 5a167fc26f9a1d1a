import Mathlib.Data.List.OfFn
import StorageSwitch.Proofs.Block.BootSector

/-! How a boot record lies in the first bytes of a disk, and that reading takes this apart
again: the images that are read are those that are laid out so, whatever stands in the bytes
that say nothing about partitions.
-/

namespace StorageSwitch.Block

-----------------------------------------------------------------------------------------
-- Records
-----------------------------------------------------------------------------------------

/-- The bytes of a record that are not read: cylinder, head and sector of its first and of its
last sector.
-/
structure Geometry where
  first : Vector UInt8 3
  last : Vector UInt8 3

/-- The bytes of an image from `offset` on; bytes beyond the image count as zero. -/
def bytesAt (image : Buffer) (offset count : Nat) : List UInt8 :=
  List.ofFn fun place : Fin count => image[offset + place.val]?.getD 0

namespace PartitionRecord

/-- The sixteen bytes of a record. -/
def bytes (record : PartitionRecord) (geometry : Geometry) : List UInt8 :=
  [record.status, geometry.first[0], geometry.first[1], geometry.first[2],
    record.typeCode, geometry.last[0], geometry.last[1], geometry.last[2]]
  ++ bytesOf record.start ++ bytesOf record.count

@[simp] theorem length_bytes (record : PartitionRecord) (geometry : Geometry)
    : (record.bytes geometry).length = 16 :=
  rfl

/-- The places of the bytes of status, type, start and count in a record. -/
def fieldPlaces : List Nat := [0, 4, 8, 9, 10, 11, 12, 13, 14, 15]

theorem getElem?_bytes_congr (record : PartitionRecord) (geometry other : Geometry)
    {place : Nat} (member : place ∈ fieldPlaces)
    : place < 16 ∧ (record.bytes geometry)[place]? = (record.bytes other)[place]? := by
  revert place
  simp [fieldPlaces, bytes, bytesOf]

/-- The bytes of a record tell the record. -/
theorem eq_of_bytes_eq {record other : PartitionRecord} {geometry otherGeometry : Geometry}
    (same : record.bytes geometry = other.bytes otherGeometry)
    : record = other := by
  unfold bytes at same
  obtain ⟨same, counts⟩ := List.append_inj same rfl
  obtain ⟨same, starts⟩ := List.append_inj same rfl
  simp only [List.cons.injEq] at same
  cases record
  cases other
  simp only [mk.injEq]
  exact ⟨same.1, same.2.2.2.2.1, bytesOf_inj starts, bytesOf_inj counts⟩

/-- Any sixteen bytes are those of the record that is read from them. -/
theorem bytes_decodeAt (image : Buffer) (offset : Nat)
    : ∃ geometry, (decodeAt image offset).bytes geometry = bytesAt image offset 16 := by
  let byte (place : Nat) : UInt8 := image[offset + place]?.getD 0
  refine ⟨⟨#v[byte 1, byte 2, byte 3], #v[byte 5, byte 6, byte 7]⟩, ?_⟩
  simp only [bytes, decodeAt, bytesOf_littleEndian]
  rfl

end PartitionRecord

-----------------------------------------------------------------------------------------
-- Images
-----------------------------------------------------------------------------------------

@[simp] theorem length_bytesAt (image : Buffer) (offset count : Nat)
    : (bytesAt image offset count).length = count :=
  List.length_ofFn

theorem bytesAt_add (image : Buffer) (offset first second : Nat)
    : bytesAt image offset (first + second)
      = bytesAt image offset first ++ bytesAt image (offset + first) second := by
  simp only [bytesAt, List.ofFn_add, Fin.val_castLE, Fin.val_natAdd, Nat.add_assoc]

theorem bytesAt_mul (image : Buffer) (offset size count : Nat)
    : bytesAt image offset (size * count)
      = (List.ofFn fun slot : Fin count => bytesAt image (offset + size * slot) size).flatten := by
  simp only [bytesAt, List.ofFn_mul', Nat.add_assoc]

theorem getElem?_bytesAt {image : Buffer} {offset count place : Nat}
    (fits : offset + count ≤ image.size) (within : place < count)
    : (bytesAt image offset count)[place]? = image[offset + place]? := by
  have inside : offset + place < image.size := by omega
  simp [bytesAt, within, inside]

theorem bytesAt_eq_take {image : Buffer} {count : Nat} (fits : count ≤ image.size)
    : bytesAt image 0 count = image.toList.take count := by
  refine List.ext_getElem (by simpa using fits) fun place within _ => ?_
  rw [length_bytesAt] at within
  simp [bytesAt, Nat.lt_of_lt_of_le within fits]

/-- The bytes of an image that are not read: those before the table, those between the fields
of its records, and those after the first sector.
-/
structure Unread where
  bootCode : Vector UInt8 446
  geometry : Vector Geometry 4
  rest : List UInt8

namespace BootRecord

/-- The table of the four records. -/
def table (record : BootRecord) (unread : Unread) : List UInt8 :=
  (List.ofFn fun slot : Fin 4 => record.records[slot].bytes unread.geometry[slot]).flatten

/-- An image with the four records in its table and with the signature. -/
def layOut (record : BootRecord) (unread : Unread) : Buffer :=
  (unread.bootCode.toList ++ record.table unread ++ [0x55, 0xAA] ++ unread.rest).toArray

theorem table_eq_iff {record : BootRecord} {unread : Unread} {image : Buffer}
    : record.table unread = bytesAt image 446 64
      ↔ ∀ slot : Fin 4,
          record.records[slot].bytes unread.geometry[slot]
          = bytesAt image (446 + 16 * slot) 16 := by
  rw [table, bytesAt_mul image 446 16 4, ← funext_iff, ← List.ofFn_inj,
    List.eq_iff_flatten_eq]
  simp

/-- An image is laid out so if it is signed and its parts are the parts of the layout. -/
theorem layOut_eq_iff {record : BootRecord} {unread : Unread} {image : Buffer}
    : record.layOut unread = image
      ↔ Signed image
        ∧ unread.bootCode.toList = bytesAt image 0 446
        ∧ (∀ slot : Fin 4,
            record.records[slot].bytes unread.geometry[slot]
            = bytesAt image (446 + 16 * slot) 16)
        ∧ unread.rest = image.toList.drop 512 := by
  have tableLength : (record.table unread).length = 64 := by
    simp [table, List.ofFn_succ]
  by_cases fits : 512 ≤ image.size
  · have parts
        : image.toList
          = bytesAt image 0 446 ++ bytesAt image 446 64 ++ bytesAt image 510 2
              ++ image.toList.drop 512 := by
      calc image.toList
          = image.toList.take 512 ++ image.toList.drop 512 :=
            (List.take_append_drop 512 _).symm
        _ = bytesAt image 0 (446 + 64 + 2) ++ image.toList.drop 512 := by
            rw [bytesAt_eq_take fits]
        _ = _ := by
            rw [bytesAt_add, bytesAt_add, Nat.zero_add, Nat.zero_add]
    have signed : [0x55, 0xAA] = bytesAt image 510 2 ↔ Signed image := by
      have first : 510 < image.size := by omega
      have second : 511 < image.size := by omega
      simp [bytesAt, List.ofFn_succ, Signed, fits, first, second, eq_comm]
    rw [← Array.toList_inj]
    refine (Eq.congr_right parts).trans ?_
    rw [layOut, List.toList_toArray,
      List.append_eq_append_iff_of_size_eq_left (by simp [tableLength]),
      List.append_eq_append_iff_of_size_eq_left (by simp [tableLength]),
      List.append_eq_append_iff_of_size_eq_left (by simp), table_eq_iff, signed]
    constructor
    · rintro ⟨⟨⟨code, table⟩, signature⟩, rest⟩
      exact ⟨signature, code, table, rest⟩
    · rintro ⟨signature, code, table, rest⟩
      exact ⟨⟨⟨code, table⟩, signature⟩, rest⟩
  · constructor
    · intro laid
      refine absurd ?_ fits
      rw [← laid]
      simp only [layOut, List.size_toArray, List.length_append, Vector.length_toList,
        tableLength, List.length_cons, List.length_nil]
      omega
    · rintro ⟨signed, _⟩
      exact absurd signed.1 fits

/-- The images that are read are those that are laid out so, and what is read is the boot
record that was laid out.
-/
theorem parse?_eq_some_iff {image : Buffer} {record : BootRecord}
    : parse? image = some record ↔ ∃ unread, record.layOut unread = image := by
  rw [parse?_eq_some_iff_records]
  constructor
  · intro ⟨signed, records⟩
    choose geometry written using fun slot : Fin 4 =>
      PartitionRecord.bytes_decodeAt image (446 + 16 * slot)
    refine ⟨⟨⟨(bytesAt image 0 446).toArray, by simp⟩, .ofFn geometry,
      image.toList.drop 512⟩, layOut_eq_iff.mpr ⟨signed, ?_, fun slot => ?_, rfl⟩⟩
    · rw [Vector.toList_mk, List.toList_toArray]
    · simpa [records] using written slot
  · intro ⟨unread, laid⟩
    obtain ⟨signed, _, table, _⟩ := layOut_eq_iff.mp laid
    refine ⟨signed, Vector.ext fun slot within => ?_⟩
    obtain ⟨geometry, written⟩ := PartitionRecord.bytes_decodeAt image (446 + 16 * slot)
    rw [Vector.getElem_ofFn]
    exact PartitionRecord.eq_of_bytes_eq ((table ⟨slot, within⟩).trans written.symm)

-----------------------------------------------------------------------------------------
-- Records in use
-----------------------------------------------------------------------------------------

/-- A slot of the table is in use by the record in it, if the status byte of that is not
zero.
-/
def InUse (record : BootRecord) (slot : Nat) (entry : PartitionRecord) : Prop :=
  record.records[slot]? = some entry ∧ entry.status ≠ 0

variable {record : BootRecord}

theorem mem_occupied_iff {slot : Nat} {entry : PartitionRecord}
    : (slot, entry) ∈ record.occupied ↔ record.InUse slot entry := by
  simp [occupied, InUse, PartitionRecord.isOccupied, List.mem_zipIdx_iff_getElem?]

theorem record?_eq_some_iff {slot : Nat} {entry : PartitionRecord}
    : record.record? slot = some entry ↔ record.InUse slot entry := by
  simp [record?, InUse, PartitionRecord.isOccupied, Option.filter_eq_some_iff]

/-- The slots in use are listed from the lowest to the highest one. Witness: they are what is
left of all slots in their order.
-/
theorem occupied_ascends (record : BootRecord)
    : (record.occupied.map (·.1)).Pairwise (· < ·) := by
  have all
      : (record.records.toList.zipIdx.map fun held => (held.2, held.1)).map (·.1)
        = List.range' 0 4 := by
    simp [Function.comp_def]
  have some : (record.occupied.map (·.1)).Sublist (List.range' 0 4) := by
    rw [← all]
    exact List.filter_sublist.map _
  exact List.Pairwise.sublist some List.pairwise_lt_range'

theorem partitionCount_eq (record : BootRecord)
    : record.partitionCount = record.records.toList.countP (·.status ≠ 0) := by
  calc record.partitionCount
      = (record.occupied.map (·.2)).length := (List.length_map _).symm
    _ = record.records.toList.countP (·.isOccupied) := by
        rw [occupied_records, List.countP_eq_length_filter]
    _ = record.records.toList.countP (·.status ≠ 0) :=
        List.countP_congr fun entry _ => by simp [PartitionRecord.isOccupied]

-----------------------------------------------------------------------------------------
-- Bytes that are not read
-----------------------------------------------------------------------------------------

/-- Two images agree in the bytes that say something about partitions: in the signature, and
in the status, type, start and count of each record.
-/
def SaysSame (image other : Buffer) : Prop :=
  image[510]? = other[510]?
  ∧ image[511]? = other[511]?
  ∧ ∀ slot < 4, ∀ place ∈ PartitionRecord.fieldPlaces,
      image[446 + 16 * slot + place]? = other[446 + 16 * slot + place]?

instance (image other : Buffer) : Decidable (SaysSame image other) := by
  unfold SaysSame
  infer_instance

theorem SaysSame.symm {image other : Buffer} (same : SaysSame image other)
    : SaysSame other image :=
  ⟨same.1.symm, same.2.1.symm, fun slot within place member =>
    (same.2.2 slot within place member).symm⟩

/-- Images with the same boot record say the same, whatever is not read. -/
theorem saysSame_layOut (record : BootRecord) (unread other : Unread)
    : SaysSame (record.layOut unread) (record.layOut other) := by
  obtain ⟨⟨fits, first, second⟩, _, table, _⟩ :=
    layOut_eq_iff.mp (Eq.refl (record.layOut unread))
  obtain ⟨⟨otherFits, otherFirst, otherSecond⟩, _, otherTable, _⟩ :=
    layOut_eq_iff.mp (Eq.refl (record.layOut other))
  refine ⟨first.trans otherFirst.symm, second.trans otherSecond.symm, ?_⟩
  intro slot within place member
  obtain ⟨inRecord, same⟩ := PartitionRecord.getElem?_bytes_congr record.records[slot]
    unread.geometry[slot] other.geometry[slot] member
  rw [← getElem?_bytesAt (by omega) inRecord, ← getElem?_bytesAt (by omega) inRecord,
    ← table ⟨slot, within⟩, ← otherTable ⟨slot, within⟩]
  exact same

/-- What is read of an image is read of all images that say the same. -/
theorem SaysSame.parse?_eq_some {image other : Buffer} (same : SaysSame image other)
    (parsed : parse? image = some record)
    : parse? other = some record := by
  obtain ⟨first, second, fields⟩ := same
  obtain ⟨⟨_, firstByte, secondByte⟩, records⟩ := parse?_eq_some_iff_records.mp parsed
  rw [first] at firstByte
  rw [second] at secondByte
  have fits : 512 ≤ other.size := (Array.getElem?_eq_some_iff.mp secondByte).1
  refine parse?_eq_some_iff_records.mpr ⟨⟨fits, firstByte, secondByte⟩, ?_⟩
  rw [records]
  congr 1
  funext slot
  have field := fields slot slot.isLt
  simp only [PartitionRecord.fieldPlaces, List.forall_mem_cons] at field
  simp only [PartitionRecord.decodeAt, field]

theorem SaysSame.parse?_eq {image other : Buffer} (same : SaysSame image other)
    : parse? image = parse? other :=
  Option.ext fun _ => ⟨same.parse?_eq_some, same.symm.parse?_eq_some⟩

/-- Reading finds the four records of a boot record in each image that is laid out for it and
in no other one, whatever stands in the bytes that are not read. Among the records, those with
a status byte that is not zero are listed in the order of their slots, counted, and found in
their slots.
Witness: sixteen bytes and the record that is read from them determine each other, apart from
the bytes that are skipped.
-/
theorem boot_record_is_read_as_laid_out
    : (∀ image, (parse? image).isSome = true
        ↔ 512 ≤ image.size ∧ image[510]? = some 0x55 ∧ image[511]? = some 0xAA)
      ∧ (∀ record unread, parse? (layOut record unread) = some record)
      ∧ (∀ image record, parse? image = some record ↔ ∃ unread, layOut record unread = image)
      ∧ (∀ record unread other, SaysSame (layOut record unread) (layOut record other))
      ∧ (∀ image other, SaysSame image other → parse? image = parse? other)
      ∧ ∀ record : BootRecord,
          (∀ slot entry, (slot, entry) ∈ record.occupied ↔ record.InUse slot entry)
          ∧ (record.occupied.map (·.1)).Pairwise (· < ·)
          ∧ record.partitionCount = record.records.toList.countP (·.status ≠ 0)
          ∧ ∀ slot entry, record.record? slot = some entry ↔ record.InUse slot entry :=
  ⟨parse?_isSome_iff, fun _ unread => parse?_eq_some_iff.mpr ⟨unread, rfl⟩,
    fun _ _ => parse?_eq_some_iff, saysSame_layOut, fun _ _ => SaysSame.parse?_eq,
    fun record => ⟨fun _ _ => mem_occupied_iff, occupied_ascends record,
      partitionCount_eq record, fun _ _ => record?_eq_some_iff⟩⟩

/-- A sector with two records in use, and a longer image with other bytes where nothing is
read.
-/
theorem boot_record_is_read_as_laid_out_of_other_bytes
    : let record : BootRecord :=
        ⟨#v[⟨0x80, 0x83, 2048, 100⟩, ⟨0, 0x0C, 1, 2⟩, ⟨1, 0, 0x04030201, 0xFFFFFFFF⟩,
          ⟨0, 0, 0, 0⟩]⟩
      let blank : Geometry := ⟨.replicate 3 0, .replicate 3 0⟩
      let other : Geometry := ⟨#v[1, 2, 3], #v[0x55, 0xAA, 6]⟩
      let sector := record.layOut ⟨.replicate 446 0, .replicate 4 blank, []⟩
      let longer := record.layOut ⟨.replicate 446 0xFF, .replicate 4 other, [7, 8]⟩
      SaysSame sector longer ∧ sector ≠ longer ∧ parse? sector = parse? longer := by
  intro record blank other sector longer
  obtain ⟨_, _, _, say, alike, _⟩ := boot_record_is_read_as_laid_out
  have same : SaysSame sector longer := say record _ _
  exact ⟨same, by decide +kernel, alike _ _ same⟩

end BootRecord

end StorageSwitch.Block
