import BluetoothUuid.Text

/-! Numbers as bytes, most significant first. A width of bytes holds exactly the numbers below its
capacity, and reading and writing are inverse on them. Words are put together and taken apart by
shifts, which gives the same bytes. -/
namespace BluetoothUuid.BigEndian

/-- How many numbers a width of bytes holds. -/
def capacity (width : Nat) : Nat := 1 <<< (8 * width)

def value : Bytes → Nat
  | [] => 0
  | b :: bs => b.toNat * capacity bs.length + value bs

/-- The low `width` bytes of a number. -/
def bytes : (width : Nat) → Nat → Bytes
  | 0, _ => []
  | width + 1, n => UInt8.ofNat (n / capacity width) :: bytes width n

/-- Moves a word up by a byte and puts a byte into the gap. -/
def shiftIn {n : Nat} (word : BitVec n) (b : UInt8) : BitVec n :=
  word <<< 8 ||| b.toBitVec.setWidth n

/-- Shifts bytes into a word, one after the other. -/
def join (n : Nat) (bs : Bytes) : BitVec n := bs.foldl shiftIn 0#n

/-- The last bytes of a word, each shifted down to its end and cut off there. -/
def split {n : Nat} : (width : Nat) → BitVec n → Bytes
  | 0, _ => []
  | width + 1, word => ⟨(word >>> (8 * width)).setWidth 8⟩ :: split width word

theorem capacity_pos (width : Nat) : 0 < capacity width := by
  rw [capacity, Nat.one_shiftLeft]
  exact Nat.two_pow_pos _

theorem capacity_add (high low : Nat) : capacity (high + low) = capacity high * capacity low := by
  simp only [capacity, Nat.one_shiftLeft, Nat.mul_add, Nat.pow_add]

theorem capacity_succ (width : Nat) : capacity (width + 1) = 256 * capacity width := by
  rw [Nat.add_comm, capacity_add]
  rfl

@[simp] theorem length_bytes (width n : Nat) : (bytes width n).length = width := by
  induction width with
  | zero => rfl
  | succ width ih => simp [bytes, ih]

theorem value_lt (bs : Bytes) : value bs < capacity bs.length := by
  induction bs with
  | nil => decide
  | cons b bs ih =>
    simp only [value, List.length_cons, capacity_succ]
    have := Nat.mul_le_mul_right (capacity bs.length) (Nat.le_of_lt_succ b.toNat_lt)
    omega

theorem value_bytes (width n : Nat) : value (bytes width n) = n % capacity width := by
  induction width with
  | zero => exact (Nat.mod_one n).symm
  | succ width ih =>
    simp only [bytes, value, ih, length_bytes, UInt8.toNat_ofNat']
    rw [Nat.add_comm, Nat.mul_comm, ← Nat.mod_mul, Nat.mul_comm, capacity_succ]

theorem value_bytes_of_lt {width n : Nat} (h : n < capacity width) :
    value (bytes width n) = n := by
  rw [value_bytes, Nat.mod_eq_of_lt h]

private theorem bytes_mul_add (width a n : Nat) :
    bytes width (a * capacity width + n) = bytes width n := by
  induction width generalizing a with
  | zero => rfl
  | succ width ih =>
    have split : a * capacity (width + 1) + n = (a * 256) * capacity width + n := by
      rw [capacity_succ, Nat.mul_assoc]
    rw [split, bytes, bytes, ih, Nat.add_comm, Nat.add_mul_div_right _ _ (capacity_pos width)]
    congr 1
    rw [← UInt8.toNat_inj]
    simp

theorem bytes_value (bs : Bytes) : bytes bs.length (value bs) = bs := by
  induction bs with
  | nil => rfl
  | cons b bs ih =>
    simp only [List.length_cons, bytes, value, bytes_mul_add, ih]
    rw [Nat.add_comm, Nat.add_mul_div_right _ _ (capacity_pos _),
      Nat.div_eq_of_lt (value_lt bs), Nat.zero_add, UInt8.ofNat_toNat]

theorem bytes_append (high low a b : Nat) (h : b < capacity low) :
    bytes (high + low) (a * capacity low + b) = bytes high a ++ bytes low b := by
  induction high with
  | zero => simp [bytes, bytes_mul_add]
  | succ high ih =>
    rw [Nat.add_right_comm, bytes, bytes, List.cons_append, ih, capacity_add,
      Nat.mul_comm (capacity high), ← Nat.div_div_eq_div_mul, Nat.add_comm,
      Nat.add_mul_div_right _ _ (capacity_pos low), Nat.div_eq_of_lt h, Nat.zero_add]

theorem value_injective {as bs : Bytes} (length : as.length = bs.length)
    (same : value as = value bs) : as = bs := by
  rw [← bytes_value as, ← bytes_value bs, length, same]

theorem toNat_lt_capacity {width : Nat} (word : BitVec (8 * width)) :
    word.toNat < capacity width := by
  rw [capacity, Nat.one_shiftLeft]
  exact word.isLt

/-- A word as wide as the capacity holds every number below that. -/
theorem toNat_ofNat_of_lt {width n : Nat} (small : n < capacity width) :
    (BitVec.ofNat (8 * width) n).toNat = n := by
  rw [capacity, Nat.one_shiftLeft] at small
  rw [BitVec.toNat_ofNat, Nat.mod_eq_of_lt small]

theorem shiftIn_eq_ofNat {n : Nat} (word : BitVec n) (b : UInt8) :
    shiftIn word b = BitVec.ofNat n (word.toNat * 256 + b.toNat) := by
  -- The gap is clear, so that putting the byte in is adding it.
  have disjoint : word <<< 8 &&& b.toBitVec.setWidth n = 0#n := by
    ext i
    simp only [BitVec.getElem_and, BitVec.getElem_shiftLeft, BitVec.getElem_setWidth,
      BitVec.getElem_zero]
    by_cases low : i < 8
    · simp [low]
    · simp [BitVec.getLsbD_of_ge _ _ (Nat.le_of_not_lt low)]
  apply BitVec.eq_of_toNat_eq
  rw [shiftIn, ← BitVec.add_eq_or_of_and_eq_zero _ _ disjoint, BitVec.toNat_add,
    BitVec.toNat_shiftLeft, BitVec.toNat_setWidth, Nat.shiftLeft_eq, ← Nat.add_mod,
    BitVec.toNat_ofNat]
  rfl

private theorem foldl_shiftIn_eq_ofNat {n : Nat} (bs : Bytes) (word : BitVec n) :
    bs.foldl shiftIn word = BitVec.ofNat n (word.toNat * capacity bs.length + value bs) := by
  induction bs generalizing word with
  | nil => simp [value, capacity]
  | cons b bs ih =>
    apply BitVec.eq_of_toNat_eq
    rw [List.foldl_cons, ih, shiftIn_eq_ofNat, BitVec.toNat_ofNat, BitVec.toNat_ofNat,
      BitVec.toNat_ofNat, Nat.add_mod, Nat.mod_mul_mod, ← Nat.add_mod, List.length_cons, value,
      capacity_succ, Nat.add_mul, Nat.mul_assoc, Nat.add_assoc]

theorem join_eq_ofNat (n : Nat) (bs : Bytes) : join n bs = BitVec.ofNat n (value bs) := by
  rw [join, foldl_shiftIn_eq_ofNat, BitVec.toNat_zero, Nat.zero_mul, Nat.zero_add]

theorem split_eq_bytes {n : Nat} (width : Nat) (word : BitVec n) :
    split width word = bytes width word.toNat := by
  induction width with
  | zero => rfl
  | succ width ih =>
    have top : (⟨(word >>> (8 * width)).setWidth 8⟩ : UInt8) =
        UInt8.ofNat (word.toNat / capacity width) := by
      rw [← UInt8.toNat_inj, UInt8.toNat_ofNat']
      change ((word >>> (8 * width)).setWidth 8).toNat = _
      rw [BitVec.toNat_setWidth, BitVec.toNat_ushiftRight, Nat.shiftRight_eq_div_pow, capacity,
        Nat.one_shiftLeft]
    rw [split, bytes, ih, top]

@[simp] theorem length_split {n : Nat} (width : Nat) (word : BitVec n) :
    (split width word).length = width := by
  rw [split_eq_bytes, length_bytes]

/-- A word of as many bytes is put together from exactly the bytes that it is taken apart into. -/
theorem join_split {width : Nat} (word : BitVec (8 * width)) :
    join (8 * width) (split width word) = word := by
  rw [join_eq_ofNat, split_eq_bytes, value_bytes_of_lt (toNat_lt_capacity word),
    BitVec.ofNat_toNat, BitVec.setWidth_eq]

theorem split_join {width : Nat} {bs : Bytes} (length : bs.length = width) :
    split width (join (8 * width) bs) = bs := by
  subst length
  rw [split_eq_bytes, join_eq_ofNat, toNat_ofNat_of_lt (value_lt bs), bytes_value]

end BluetoothUuid.BigEndian
