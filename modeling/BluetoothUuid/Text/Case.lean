import BluetoothUuid.Hex

/-! The case of ASCII letters. All other bytes have no case and stay as they are. -/
namespace BluetoothUuid

/-- A letter in the given case. -/
def LetterCase.apply : LetterCase → UInt8 → UInt8
  | lower, c => if 'A'.toUInt8 ≤ c ∧ c ≤ 'Z'.toUInt8 then c + 32 else c
  | upper, c => if 'a'.toUInt8 ≤ c ∧ c ≤ 'z'.toUInt8 then c - 32 else c

namespace Text

/-- What holds of each of the 256 bytes holds of every byte. -/
theorem forall_byte {P : UInt8 → Prop} (each : ∀ i : Fin 256, P (.ofFin i)) (c : UInt8) : P c :=
  each c.toFin

/-- The text with all its letters in the given case. -/
def inCase (letters : LetterCase) (t : Text) : Text := t.map letters.apply

variable {letters : LetterCase} {c : UInt8} {t u : Text}

@[simp] theorem inCase_nil : inCase letters [] = [] := rfl

@[simp] theorem inCase_cons : inCase letters (c :: t) = letters.apply c :: inCase letters t := rfl

@[simp] theorem inCase_append : inCase letters (t ++ u) = inCase letters t ++ inCase letters u :=
  List.map_append

@[simp] theorem length_inCase : (inCase letters t).length = t.length := List.length_map _

/-- Both texts are the same but for the case of letters: the first has each byte of the second in
one case or the other. -/
inductive Recased : Text → Text → Prop
  | nil : Recased [] []
  | cons (letters : LetterCase) (c : UInt8) {t u : Text} (rest : Recased t u) :
      Recased (letters.apply c :: t) (c :: u)

/-- Of two changes of case the second counts. -/
@[simp] theorem apply_apply (letters other : LetterCase) (c : UInt8) :
    letters.apply (other.apply c) = letters.apply c := by
  revert c
  apply forall_byte
  cases letters <;> cases other <;> decide +kernel

/-- Every byte is in some case already. -/
theorem exists_apply_eq : ∀ c : UInt8, ∃ letters : LetterCase, letters.apply c = c := by
  have each : ∀ c, LetterCase.lower.apply c = c ∨ LetterCase.upper.apply c = c := by
    apply forall_byte
    decide +kernel
  intro c
  rcases each c with lower | upper
  · exact ⟨.lower, lower⟩
  · exact ⟨.upper, upper⟩

/-- What differs only in case is told by putting both into one case, whichever. -/
theorem recased_iff (letters : LetterCase) : Recased t u ↔ inCase letters t = inCase letters u := by
  constructor
  · intro recased
    induction recased with
    | nil => rfl
    | cons other c _ ih => simp only [inCase_cons, apply_apply, ih]
  · intro same
    induction u generalizing t with
    | nil =>
      rw [inCase_nil, inCase, List.map_eq_nil_iff] at same
      exact same ▸ .nil
    | cons d u ih =>
      obtain ⟨c, rest, rfl, first, later⟩ := List.map_eq_cons_iff.mp same
      obtain ⟨other, own⟩ := exists_apply_eq c
      have other_of_d : c = other.apply d := by
        rw [← own, ← apply_apply other letters c, first, apply_apply]
      rw [other_of_d]
      exact .cons other d (ih later)

end Text
end BluetoothUuid
