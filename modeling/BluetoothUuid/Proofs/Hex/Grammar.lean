import Mathlib.Computability.Language
import Mathlib.Order.CompletePartialOrder
import BluetoothUuid.Hex.Separated

/-! The grammar of hex text: pairs of digits, and any number of separators before, between and
behind them. It is the language of the texts that are read. -/
namespace BluetoothUuid.Hex
open BluetoothUuid.Text (ofString)
open scoped Computability

/-- The texts that are one byte, out of the given ones. -/
def oneOf (bytes : Text) : Language UInt8 := {t | ∃ c ∈ bytes, t = [c]}

def separator : Language UInt8 := oneOf (ofString " \t\n\x0b\x0c\r:-")

def hexDigit : Language UInt8 := oneOf (ofString "0123456789abcdefABCDEF")

/-- Two digits of one byte, after separators. -/
def group : Language UInt8 := separator∗ * hexDigit * hexDigit

def grammar : Language UInt8 := group∗ * separator∗

variable {c d : UInt8} {t : Text} {bs : Bytes}

theorem mem_separator_iff : t ∈ separator ↔ ∃ c, isSeparator c = true ∧ t = [c] := by
  have each : ∀ c, c ∈ ofString " \t\n\x0b\x0c\r:-" ↔ isSeparator c = true := by
    intro c
    exact List.contains_iff_mem.symm
  simp only [separator, oneOf, ← each]
  rfl

theorem mem_hexDigit_iff : t ∈ hexDigit ↔ ∃ c nibble, nibble? c = some nibble ∧ t = [c] := by
  have each : ∀ c, c ∈ ofString "0123456789abcdefABCDEF" ↔ ∃ nibble, nibble? c = some nibble := by
    apply Text.forall_byte
    decide +kernel
  simp only [hexDigit, oneOf, each]
  constructor
  · rintro ⟨c, ⟨nibble, digit⟩, rfl⟩
    exact ⟨c, nibble, digit, rfl⟩
  · rintro ⟨c, nibble, digit, rfl⟩
    exact ⟨c, ⟨nibble, digit⟩, rfl⟩

theorem group_mul_grammar_le : group * grammar ≤ grammar := by
  rw [grammar, ← mul_assoc]
  gcongr
  exact mul_kstar_le_kstar

theorem hexDigits_le_group : hexDigit * hexDigit ≤ group := by
  calc
    hexDigit * hexDigit = 1 * hexDigit * hexDigit := by rw [one_mul]
    _ ≤ separator∗ * hexDigit * hexDigit := by
      gcongr
      exact one_le_kstar

theorem separator_mul_group_le : separator * group ≤ group := by
  calc
    separator * group = separator * separator∗ * hexDigit * hexDigit := by
      simp only [group, mul_assoc]
    _ ≤ separator∗ * hexDigit * hexDigit := by
      gcongr
      exact mul_kstar_le_kstar

/-- A separator in front belongs to the first pair, or to those behind the last if there is none. -/
theorem separator_mul_grammar_le : separator * grammar ≤ grammar := by
  calc
    separator * grammar = separator * separator∗ + separator * group * grammar := by
      have unfolded : grammar = separator∗ + group * grammar := by
        conv_lhs => rw [grammar, ← one_add_mul_kstar, add_mul, one_mul, mul_assoc]
        rfl
      conv_lhs => rw [unfolded, mul_add, ← mul_assoc]
    _ ≤ separator∗ + group * grammar := by
      gcongr
      · exact mul_kstar_le_kstar
      · exact separator_mul_group_le
    _ ≤ grammar := by
      apply add_le
      · calc
          separator∗ = 1 * separator∗ := (one_mul _).symm
          _ ≤ grammar := by
            rw [grammar]
            gcongr
            exact one_le_kstar
      · exact group_mul_grammar_le

theorem mem_grammar_of_separated (separated : Separated t bs) : t ∈ grammar := by
  induction separated with
  | nil => exact Language.append_mem_mul (Language.nil_mem_kstar _) (Language.nil_mem_kstar _)
  | separator skipped _ ih =>
    exact separator_mul_grammar_le
      (Language.append_mem_mul (mem_separator_iff.mpr ⟨_, skipped, rfl⟩) ih)
  | byte first second _ ih =>
    have pair := Language.append_mem_mul (mem_hexDigit_iff.mpr ⟨_, _, first, rfl⟩)
      (mem_hexDigit_iff.mpr ⟨_, _, second, rfl⟩)
    exact group_mul_grammar_le (Language.append_mem_mul (hexDigits_le_group pair) ih)

/-- The texts that give some bytes. -/
def separable : Language UInt8 := {t | ∃ bs, Separated t bs}

theorem one_le_separable : 1 ≤ separable := by
  rintro t rfl
  exact ⟨[], .nil⟩

theorem separable_mul_separable_le : separable * separable ≤ separable := by
  rintro _ ⟨s, ⟨as, first⟩, t, ⟨bs, second⟩, rfl⟩
  exact ⟨as ++ bs, first.append second⟩

theorem separator_le_separable : separator ≤ separable := by
  intro t member
  obtain ⟨c, skipped, rfl⟩ := mem_separator_iff.mp member
  exact ⟨[], .separator skipped .nil⟩

theorem hexDigits_le_separable : hexDigit * hexDigit ≤ separable := by
  rintro _ ⟨s, first, t, second, rfl⟩
  obtain ⟨c, high, high_read, rfl⟩ := mem_hexDigit_iff.mp first
  obtain ⟨d, low, low_read, rfl⟩ := mem_hexDigit_iff.mp second
  exact ⟨[pair high low], .byte high_read low_read .nil⟩

theorem kstar_le_separable {l : Language UInt8} (le : l ≤ separable) : l∗ ≤ separable := by
  apply kstar_le_of_mul_le_right one_le_separable
  exact (mul_le_mul_left le _).trans separable_mul_separable_le

theorem grammar_le_separable : grammar ≤ separable := by
  have separators : separator∗ ≤ separable := kstar_le_separable separator_le_separable
  have groups : group∗ ≤ separable := by
    apply kstar_le_separable
    rw [group, mul_assoc]
    exact (mul_le_mul' separators hexDigits_le_separable).trans separable_mul_separable_le
  exact (mul_le_mul' groups separators).trans separable_mul_separable_le

theorem mem_grammar_iff : t ∈ grammar ↔ ∃ bs, Separated t bs := by
  constructor
  · intro member
    exact grammar_le_separable member
  · rintro ⟨bs, separated⟩
    exact mem_grammar_of_separated separated

end BluetoothUuid.Hex
