import StorageSwitch.Proofs.Block.Runs

/-! Trees with more disks than names can tell apart. A name keeps thirty-two bits of the
number of its slot, so the disk after the first `2 ^ 32` ones gets the name of the first one,
and this is the disk that answers to it.
-/

namespace StorageSwitch.Block.DeviceTree

variable {δ η : Type}

/-- A tree of disks without partitions, none of which has ever been removed. -/
def crowd (hook : Option η) (driver : δ) (count : Nat) : DeviceTree δ η where
  slots := Array.replicate count ⟨0, some ⟨.disk driver, 0⟩⟩
  order := (List.range count).map fun number => ⟨.ofNat number, 0⟩
  hook := hook

variable (hook : Option η) (driver new : δ) (count more : Nat)

theorem crowd_zero : (crowd hook driver 0 : DeviceTree δ η) = empty hook := rfl

theorem node?_crowd (id : DeviceId)
    : (crowd hook driver count).node? id
      = if id.slot < count ∧ id.generation = 0 then some ⟨.disk driver, 0⟩ else none := by
  unfold node? crowd
  by_cases within : id.slot < count
  · by_cases first : id.generation = 0
    · simp [within, first]
    · simp [within, first, Ne.symm first]
  · simp [within]

theorem device?_crowd (id : DeviceId)
    : (crowd hook driver count).device? id
      = if id.slot < count ∧ id.generation = 0 then some (.disk driver) else none := by
  unfold device?
  rw [node?_crowd]
  split <;> rfl

theorem order_crowd_succ
    : (crowd hook driver (count + 1)).order
      = (crowd hook driver count).order ++ [⟨.ofNat count, 0⟩] := by
  simp [crowd, List.range_succ]

/-- Another disk needs a new slot, of whose number its name keeps thirty-two bits. -/
theorem insert_crowd
    : (crowd hook driver count).insert ⟨.disk new, 0⟩
      = (⟨.ofNat count, 0⟩, ⟨(crowd hook driver count).slots.push ⟨0, some ⟨.disk new, 0⟩⟩,
          (crowd hook driver count).order ++ [⟨.ofNat count, 0⟩], hook⟩) := by
  have full : (crowd hook driver count).slots.findIdx? (·.node.isNone) = none := by
    simp [crowd]
  have size : (crowd hook driver count).slots.size = count := by simp [crowd]
  simp only [insert, full, size]
  rfl

theorem insert_crowd_same
    : (crowd hook driver count).insert ⟨.disk driver, 0⟩
      = (⟨.ofNat count, 0⟩, crowd hook driver (count + 1)) := by
  rw [insert_crowd]
  simp [crowd, Array.replicate_succ, List.range_succ]

theorem registration_crowd
    : (registration (crowd hook driver count) driver).after
      = crowd hook driver (count + 1) := by
  rw [registration_after, insert_crowd_same]

/-- Disks whose drivers provide nothing make a crowd when they are registered one after
another. Witness: induction on their number.
-/
theorem play_crowd
    : ((crowd hook driver count).play (fun _ => .unsupported)
          (List.replicate more (.register driver))).2
      = crowd hook driver (count + more) := by
  induction more generalizing count with
  | zero => rfl
  | succ more ih =>
      have after := registration_crowd hook driver count
      rw [registration] at after
      rw [List.replicate_succ, play, after, ih, Nat.add_right_comm, Nat.add_assoc]

theorem play_empty
    : ((empty hook).play (fun _ => .unsupported)
          (List.replicate count (.register driver))).2
      = crowd hook driver count := by
  rw [← crowd_zero hook driver, play_crowd, Nat.zero_add]

theorem exists_run_crowd
    : ∃ history, (empty hook).Run history (crowd hook driver count) :=
  ⟨_, play_empty hook driver count ▸ run_play ..⟩

variable {hook driver count}

end StorageSwitch.Block.DeviceTree
