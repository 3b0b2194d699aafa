import BluetoothUuid.Proofs.Uuid.Order

/-! UUIDs of any kinds are equivalent if they stand for the same full UUID. Within a kind that is
equality, since widening loses nothing. Across kinds, numbers are compared, or bytes. -/
namespace BluetoothUuid

namespace Uuid
variable {j k : Kind}

theorem value_inj {u v : Uuid k} : u.value.toNat = v.value.toNat ↔ u = v := by
  cases u
  cases v
  rw [BitVec.toNat_inj, mk.injEq]

/-- Shortened UUIDs stand for the same full one if they are the same number, however short. -/
theorem toFull_eq_toFull_iff_of_shortened {u : Uuid j} {v : Uuid k} (one : j ≠ .bits128)
    (other : k ≠ .bits128) : u.toFull = v.toFull ↔ u.value.toNat = v.value.toNat := by
  rw [← value_inj, toNat_value_toFull u one, toNat_value_toFull v other, Nat.add_right_cancel_iff,
    Nat.mul_right_cancel_iff (BigEndian.capacity_pos 12)]

theorem toFull_inj {u v : Uuid k} : u.toFull = v.toFull ↔ u = v := by
  by_cases full : k = .bits128
  · subst full
    rfl
  · rw [toFull_eq_toFull_iff_of_shortened full full, value_inj]

end Uuid

namespace SomeUuid
variable {a b c : SomeUuid}

theorem equivalence : Equivalence Equivalent where
  refl _ := rfl
  symm := Eq.symm
  trans := Eq.trans

theorem equivalent_iff_eq (same : a.kind = b.kind) : a.Equivalent b ↔ a = b := by
  obtain ⟨k, u⟩ := a
  obtain ⟨j, v⟩ := b
  obtain rfl : k = j := same
  have kind : (⟨k, u⟩ : SomeUuid) = ⟨k, v⟩ ↔ u = v := by simp
  rw [kind, ← Uuid.toFull_inj]
  rfl

theorem equivalent_full_iff {k : Kind} (u : Uuid k) (w : Uuid .bits128) (shortened : k ≠ .bits128) :
    Equivalent ⟨k, u⟩ ⟨.bits128, w⟩ ↔
      w.bytes = BigEndian.bytes 4 u.value.toNat ++ Uuid.base.bytes.drop 4 := by
  rw [← Uuid.bytes_toFull u shortened, Uuid.bytes_inj]
  exact eq_comm

/-- Equivalence is an equivalence relation, of which equality is the part within a kind. -/
theorem equivalent_means_same_full_form :
    Equivalence Equivalent ∧
    (∀ a b : SomeUuid, a = b → a.Equivalent b) ∧
    (∀ a b : SomeUuid, a.kind = b.kind → (a.Equivalent b ↔ a = b)) ∧
    (∀ (u : Uuid .bits16) (v : Uuid .bits32),
      Equivalent ⟨.bits16, u⟩ ⟨.bits32, v⟩ ↔ u.value.toNat = v.value.toNat) ∧
    (∀ (k : Kind) (u : Uuid k) (w : Uuid .bits128), k ≠ .bits128 →
      (Equivalent ⟨k, u⟩ ⟨.bits128, w⟩ ↔
        w.bytes = BigEndian.bytes 4 u.value.toNat ++ Uuid.base.bytes.drop 4)) ∧
    (∀ a b c : SomeUuid, a.Equivalent b → a.Equivalent c → b.kind = c.kind → b = c) ∧
    (∀ a : SomeUuid, a.Equivalent ⟨.bits128, a.toFull⟩) ∧
    ∀ a b : SomeUuid, a.Equivalent b ↔ Uuid.compare a.toFull b.toFull = .eq := by
  refine ⟨equivalence, ?_, ?_, ?_, ?_, ?_, ?_, ?_⟩
  · rintro a b rfl
    exact equivalence.refl a
  · intro a b same
    exact equivalent_iff_eq same
  · intro u v
    exact Uuid.toFull_eq_toFull_iff_of_shortened (j := .bits16) (k := .bits32) nofun nofun
  · intro k u w shortened
    exact equivalent_full_iff u w shortened
  · intro a b c one other same
    exact (equivalent_iff_eq same).mp (equivalence.trans (equivalence.symm one) other)
  · intro a
    rfl
  · intro a b
    exact Uuid.compare_eq_eq_iff.symm

theorem equivalent_means_same_full_form_across_kinds :
    Equivalent ⟨.bits16, ⟨0x180D⟩⟩ ⟨.bits32, ⟨0x180D⟩⟩ ∧
    Equivalent ⟨.bits32, ⟨0x180D⟩⟩ ⟨.bits128, ⟨0x0000180D_0000_1000_8000_00805F9B34FB⟩⟩ ∧
    ¬ Equivalent ⟨.bits32, ⟨0x180D⟩⟩ ⟨.bits32, ⟨0x1180D⟩⟩ := by
  obtain ⟨_, _, within, numbers, bytes, _⟩ := equivalent_means_same_full_form
  refine ⟨?_, ?_, ?_⟩
  · exact (numbers ⟨0x180D⟩ ⟨0x180D⟩).mpr rfl
  · exact (bytes .bits32 ⟨0x180D⟩ _ (by decide)).mpr (by decide)
  · rw [within ⟨.bits32, ⟨0x180D⟩⟩ ⟨.bits32, ⟨0x1180D⟩⟩ rfl]
    decide

end SomeUuid
end BluetoothUuid
