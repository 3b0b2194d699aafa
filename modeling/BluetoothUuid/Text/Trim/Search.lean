import BluetoothUuid.Text.Trim

/-! Trimming by position. The first byte outside the margin is searched for from the front and the last
one from the back, and what lies between them is cut out. Positions are words of 64 bits, the largest of
which stands for none. This is the same as taking the margins off: the first position is never behind the
last one, so that no subtraction wraps, and the cut never begins behind the end. -/
namespace BluetoothUuid.Text

def outside (margin : Text) (c : UInt8) : Bool := !margin.untilNul.contains c

/-- The word that is the position of no byte. -/
def nowhere : UInt64 := ~~~0

def positionWord : Option Nat → UInt64
  | some i => UInt64.ofNat i
  | none => nowhere

def firstOutside (margin t : Text) : UInt64 := positionWord (t.findIdx? (outside margin))

def lastOutside (margin t : Text) : UInt64 :=
  positionWord ((t.reverse.findIdx? (outside margin)).map fun i => t.length - 1 - i)

/-- That many bytes from a position on, or all there are. The outcome is nothing if the position is
behind the end. -/
def cut? (position count : UInt64) (t : Text) : Option Text :=
  if position.toNat ≤ t.length then some ((t.drop position.toNat).take count.toNat) else none

/-- Cuts out what lies between the first and the last byte that are not of the margin. -/
def trimBetween? (margin t : Text) : Option Text :=
  let left := firstOutside margin t
  if left = nowhere then some []
  else
    let right := lastOutside margin t
    cut? left (right - left + 1) t

/-- Both positions are in the text, the left one is not behind the right one, and their distance in
words is the one that they have as numbers. From the one to the other lies `m`. -/
structure Spans (left right : UInt64) (m t : Text) : Prop where
  ordered : left.toNat ≤ right.toNat
  inside : right.toNat < t.length
  count : (right - left + 1).toNat = right.toNat - left.toNat + 1
  between : (t.drop left.toNat).take (right - left + 1).toNat = m

variable {margin p m q t : Text} {c : UInt8}

theorem outside_eq_true_iff : outside margin c = true ↔ c ∉ margin.untilNul := by
  simp [outside]

theorem findIdx?_outside_of_forall (inside : ∀ c ∈ t, c ∈ margin.untilNul) :
    t.findIdx? (outside margin) = none := by
  simpa [outside] using inside

/-- The search passes over the margin and stops where something else begins. -/
theorem findIdx?_outside_append (front : ∀ c ∈ p, c ∈ margin.untilNul)
    (first : ∀ c ∈ m.head?, c ∉ margin.untilNul) (nonempty : m ≠ []) (t : Text) :
    (p ++ (m ++ t)).findIdx? (outside margin) = some p.length := by
  obtain ⟨c, rest, rfl⟩ := List.exists_cons_of_ne_nil nonempty
  have outer : outside margin c = true := outside_eq_true_iff.mpr (first c rfl)
  rw [List.findIdx?_append, findIdx?_outside_of_forall front, List.cons_append,
    List.findIdx?_cons, if_pos outer]
  simp

theorem firstOutside_eq_nowhere (inside : ∀ c ∈ t, c ∈ margin.untilNul) :
    firstOutside margin t = nowhere := by
  rw [firstOutside, findIdx?_outside_of_forall inside]
  rfl

namespace Middle

theorem firstOutside_eq (middle : Middle margin.untilNul p m q) (nonempty : m ≠ []) :
    firstOutside margin (p ++ m ++ q) = UInt64.ofNat p.length := by
  rw [firstOutside, List.append_assoc, findIdx?_outside_append middle.front middle.first nonempty]
  rfl

theorem lastOutside_eq (middle : Middle margin.untilNul p m q) (nonempty : m ≠ []) :
    lastOutside margin (p ++ m ++ q) = UInt64.ofNat (p.length + m.length - 1) := by
  have behind : ∀ c ∈ q.reverse, c ∈ margin.untilNul := by simpa using middle.behind
  have last : ∀ c ∈ m.reverse.head?, c ∉ margin.untilNul := by simpa using middle.last
  have remains : m.reverse ≠ [] := by simpa using nonempty
  have backwards : (p ++ m ++ q).reverse = q.reverse ++ (m.reverse ++ p.reverse) := by simp
  have place : (p ++ m ++ q).length - 1 - q.reverse.length = p.length + m.length - 1 := by
    simp only [List.length_append, List.length_reverse]
    omega
  rw [lastOutside, backwards, findIdx?_outside_append behind last remains p.reverse,
    Option.map_some, place]
  rfl

theorem spans (middle : Middle margin.untilNul p m q) (nonempty : m ≠ [])
    (fits : (p ++ m ++ q).length < UInt64.size) :
    Spans (firstOutside margin (p ++ m ++ q)) (lastOutside margin (p ++ m ++ q)) m
      (p ++ m ++ q) := by
  have positive : 0 < m.length := List.length_pos_iff.mpr nonempty
  have length : (p ++ m ++ q).length = p.length + m.length + q.length := by
    simp only [List.length_append]
  have left : (UInt64.ofNat p.length).toNat = p.length := UInt64.toNat_ofNat_of_lt' (by omega)
  have right : (UInt64.ofNat (p.length + m.length - 1)).toNat = p.length + m.length - 1 :=
    UInt64.toNat_ofNat_of_lt' (by omega)
  have ordered : p.length ≤ p.length + m.length - 1 := by omega
  have words : UInt64.ofNat p.length ≤ UInt64.ofNat (p.length + m.length - 1) := by
    rwa [UInt64.le_iff_toNat_le, left, right]
  have gap : (UInt64.ofNat (p.length + m.length - 1) - UInt64.ofNat p.length).toNat =
      m.length - 1 := by
    rw [UInt64.toNat_sub_of_le _ _ words, left, right]
    omega
  have count : (UInt64.ofNat (p.length + m.length - 1) - UInt64.ofNat p.length + 1).toNat =
      m.length := by
    have small : m.length < UInt64.size := by omega
    rw [UInt64.toNat_add, gap, UInt64.toNat_one, Nat.sub_add_cancel positive,
      Nat.mod_eq_of_lt small]
  rw [middle.firstOutside_eq nonempty, middle.lastOutside_eq nonempty]
  refine ⟨?_, ?_, ?_, ?_⟩
  · rwa [left, right]
  · rw [right, length]
    omega
  · rw [count, left, right]
    omega
  · rw [count, left, List.append_assoc, List.drop_left, List.take_left]

end Middle

theorem spans_trim (fits : t.length < UInt64.size) (found : firstOutside margin t ≠ nowhere) :
    Spans (firstOutside margin t) (lastOutside margin t) (trim margin t) t := by
  obtain ⟨p, m, q, rfl, middle⟩ := exists_middle margin.untilNul t
  rw [middle.trim_eq]
  apply middle.spans _ fits
  rintro rfl
  apply found
  apply firstOutside_eq_nowhere
  rw [List.append_nil, List.forall_mem_append]
  exact ⟨middle.front, middle.behind⟩

theorem trim_eq_nil_of_nowhere (fits : t.length < UInt64.size)
    (none : firstOutside margin t = nowhere) : trim margin t = [] := by
  obtain ⟨p, m, q, rfl, middle⟩ := exists_middle margin.untilNul t
  rw [middle.trim_eq]
  apply Decidable.byContradiction
  intro nonempty
  have spans := middle.spans nonempty fits
  have before := Nat.lt_of_le_of_lt spans.ordered spans.inside
  rw [none] at before
  exact Nat.lt_irrefl _ (Nat.lt_of_lt_of_le before (Nat.le_of_lt_succ fits))

theorem trimBetween?_eq_some (fits : t.length < UInt64.size) :
    trimBetween? margin t = some (trim margin t) := by
  rw [trimBetween?]
  by_cases none : firstOutside margin t = nowhere
  · rw [if_pos none, trim_eq_nil_of_nowhere fits none]
  · have spans := spans_trim fits none
    have within := Nat.le_of_lt (Nat.lt_of_le_of_lt spans.ordered spans.inside)
    rw [if_neg none, cut?, if_pos within, spans.between]

end BluetoothUuid.Text
