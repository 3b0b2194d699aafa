import BluetoothUuid.Text

/-! Trimming removes the longest margins made of given bytes, on both sides of a text. What remains is
the middle, which neither begins nor ends with such a byte, and a text has no other middle. -/
namespace BluetoothUuid.Text

/-- Space, tab, vertical tab, carriage return and line feed. -/
def blanks : Text := ofString " \t\x0b\r\n"

/-- The text without its leading and trailing bytes of `margin`. The list is NUL-terminated:
NUL, and what follows it there, is never removed. -/
def trim (margin t : Text) : Text :=
  let inMargin := margin.untilNul.contains
  ((t.dropWhile inMargin).reverse.dropWhile inMargin).reverse

/-- Around the middle there are bytes of the margin alone, and the middle neither begins nor ends with
one of them. -/
structure Middle (margin p m q : Text) : Prop where
  front : ∀ c ∈ p, c ∈ margin
  behind : ∀ c ∈ q, c ∈ margin
  first : ∀ c ∈ m.head?, c ∉ margin
  last : ∀ c ∈ m.getLast?, c ∉ margin

variable {margin p m q t : Text}

/-- A text that neither begins nor ends with a byte of the margin stays as it is. -/
theorem trim_of_ends (first : ∀ c ∈ t.head?, c ∉ margin.untilNul)
    (last : ∀ c ∈ t.getLast?, c ∉ margin.untilNul) : trim margin t = t := by
  have kept {s : Text} (begins : ∀ c ∈ s.head?, c ∉ margin.untilNul) :
      s.dropWhile margin.untilNul.contains = s := by
    cases s with
    | nil => rfl
    | cons c s =>
      have outer : c ∉ margin.untilNul := begins c rfl
      simp [outer]
  have ends : ∀ c ∈ t.reverse.head?, c ∉ margin.untilNul := by simpa using last
  rw [trim, kept first, kept ends, List.reverse_reverse]

/-- A text without bytes of the margin stays as it is. -/
theorem trim_of_forall (none : ∀ c ∈ t, c ∉ margin) : trim margin t = t := by
  have outer : ∀ c ∈ t, c ∉ margin.untilNul :=
    fun c member within => none c member ((List.takeWhile_prefix _).subset within)
  apply trim_of_ends
  · exact fun c begins => outer c (List.mem_of_mem_head? begins)
  · exact fun c ends => outer c (List.mem_of_getLast? ends)

/-- A margin in front may be taken off first. -/
theorem trim_append_left (front : ∀ c ∈ p, c ∈ margin.untilNul) :
    trim margin (p ++ t) = trim margin t := by
  have inside : ∀ c ∈ p, margin.untilNul.contains c = true := by simpa using front
  simp only [trim, List.dropWhile_append_of_pos inside]

/-- A margin behind may be taken off first, also if nothing else is in front of it. -/
theorem trim_append_right (behind : ∀ c ∈ q, c ∈ margin.untilNul) :
    trim margin (t ++ q) = trim margin t := by
  have inside : ∀ c ∈ q, margin.untilNul.contains c = true := by simpa using behind
  have backwards : ∀ c ∈ q.reverse, margin.untilNul.contains c = true := by simpa using inside
  rw [trim, trim, List.dropWhile_append]
  split
  · next nothing =>
    rw [List.isEmpty_iff] at nothing
    have whole : (q ++ []).dropWhile margin.untilNul.contains = [] :=
      List.dropWhile_append_of_pos inside
    rw [List.append_nil] at whole
    rw [whole, nothing]
  · rw [List.reverse_append, List.dropWhile_append_of_pos backwards]

theorem Middle.trim_eq (middle : Middle margin.untilNul p m q) : trim margin (p ++ m ++ q) = m := by
  rw [trim_append_right middle.behind, trim_append_left middle.front,
    trim_of_ends middle.first middle.last]

theorem exists_front (margin t : Text) :
    ∃ p s, t = p ++ s ∧ (∀ c ∈ p, c ∈ margin) ∧ ∀ c ∈ s.head?, c ∉ margin := by
  induction t with
  | nil => exact ⟨[], [], rfl, by simp, by simp⟩
  | cons c t ih =>
    by_cases inMargin : c ∈ margin
    · obtain ⟨p, s, rfl, front, first⟩ := ih
      exact ⟨c :: p, s, rfl, List.forall_mem_cons.mpr ⟨inMargin, front⟩, first⟩
    · exact ⟨[], c :: t, rfl, by simp, by simpa using inMargin⟩

theorem exists_behind (margin t : Text) :
    ∃ s q, t = s ++ q ∧ (∀ c ∈ q, c ∈ margin) ∧ ∀ c ∈ s.getLast?, c ∉ margin := by
  obtain ⟨q, s, backwards, behind, last⟩ := exists_front margin t.reverse
  refine ⟨s.reverse, q.reverse, ?_, by simpa using behind, by simpa using last⟩
  rw [← List.reverse_append, ← backwards, List.reverse_reverse]

theorem exists_middle (margin t : Text) : ∃ p m q, t = p ++ m ++ q ∧ Middle margin p m q := by
  obtain ⟨p, s, rfl, front, first⟩ := exists_front margin t
  obtain ⟨m, q, rfl, behind, last⟩ := exists_behind margin s
  refine ⟨p, m, q, (List.append_assoc ..).symm, front, behind, ?_, last⟩
  intro c begins
  cases m with
  | nil => contradiction
  | cons d m => exact first c begins

/-- Trimming leaves the middle, and there is no other one. -/
theorem trim_eq_iff :
    trim margin t = m ↔ ∃ p q, t = p ++ m ++ q ∧ Middle margin.untilNul p m q := by
  constructor
  · rintro rfl
    obtain ⟨p, m, q, rfl, middle⟩ := exists_middle margin.untilNul t
    rw [middle.trim_eq]
    exact ⟨p, q, rfl, middle⟩
  · rintro ⟨p, q, rfl, middle⟩
    exact middle.trim_eq

/-- The text is another one between blanks. -/
def Padded (inner t : Text) : Prop :=
  ∃ p q, t = p ++ inner ++ q ∧ (∀ c ∈ p, c ∈ blanks) ∧ ∀ c ∈ q, c ∈ blanks

theorem untilNul_blanks : blanks.untilNul = blanks := rfl

theorem padded_trim (t : Text) : Padded (trim blanks t) t := by
  obtain ⟨p, q, same, middle⟩ := trim_eq_iff.mp (Eq.refl (trim blanks t))
  rw [untilNul_blanks] at middle
  exact ⟨p, q, same, middle.front, middle.behind⟩

theorem trim_of_padded {inner : Text} (padded : Padded inner t) :
    trim blanks t = trim blanks inner := by
  obtain ⟨p, q, rfl, front, behind⟩ := padded
  rw [← untilNul_blanks] at front behind
  rw [trim_append_right behind, trim_append_left front]

end BluetoothUuid.Text
