import BluetoothUuid.Text.Trim.Search

/-! The margins that trimming takes off are as long as they can be, and nothing else is taken off. What
stands between two bytes that are not of the margin stays where it is, and so does every NUL. -/
namespace BluetoothUuid.Text

variable {margin p m q t : Text}

/-- Around a text that begins and ends outside the margin, the margins end where something else does. -/
theorem Middle.exists_around (middle : Middle margin [] m []) (nonempty : m ≠ []) (s t : Text) :
    ∃ p a b q, s = p ++ a ∧ t = b ++ q ∧ Middle margin p (a ++ m ++ b) q := by
  obtain ⟨p, a, rfl, front, first⟩ := exists_front margin s
  obtain ⟨b, q, rfl, behind, last⟩ := exists_behind margin t
  refine ⟨p, a, b, q, rfl, rfl, front, behind, ?_, ?_⟩
  · intro c begins
    cases a with
    | nil =>
      rw [List.nil_append, List.head?_append, List.head?_eq_some_head nonempty] at begins
      exact middle.first c ((List.head?_eq_some_head nonempty).trans begins)
    | cons d a => exact first c begins
  · intro c ends
    rw [List.getLast?_append] at ends
    cases final : b.getLast? with
    | none =>
      rw [final, Option.none_or, List.getLast?_append, List.getLast?_eq_some_getLast nonempty] at ends
      exact middle.last c ((List.getLast?_eq_some_getLast nonempty).trans ends)
    | some d =>
      rw [final] at ends
      exact last c (final.trans ends)

/-- A byte that is not of the margin is in neither margin. -/
theorem Middle.count_eq {c : UInt8} (middle : Middle margin p m q) (other : c ∉ margin) :
    (p ++ m ++ q).count c = m.count c := by
  have front : p.count c = 0 := List.count_eq_zero.mpr fun member => other (middle.front c member)
  have behind : q.count c = 0 := List.count_eq_zero.mpr fun member => other (middle.behind c member)
  simp only [List.count_append, front, behind, Nat.zero_add, Nat.add_zero]

theorem trim_trim (margin t : Text) : trim margin (trim margin t) = trim margin t := by
  obtain ⟨_, _, _, middle⟩ := trim_eq_iff.mp (Eq.refl (trim margin t))
  exact trim_of_ends middle.first middle.last

section
variable (noNul : (0 : UInt8) ∉ margin)
include noNul

theorem trim_eq_iff_of_noNul : trim margin t = m ↔ ∃ p q, t = p ++ m ++ q ∧ Middle margin p m q := by
  have iff := @trim_eq_iff margin m t
  rwa [untilNul_of_not_mem noNul] at iff

theorem trim_eq_nil_iff : trim margin t = [] ↔ ∀ c ∈ t, c ∈ margin := by
  rw [trim_eq_iff_of_noNul noNul]
  constructor
  · rintro ⟨p, q, rfl, middle⟩
    rw [List.append_nil, List.forall_mem_append]
    exact ⟨middle.front, middle.behind⟩
  · intro inside
    exact ⟨t, [], by simp, inside, by simp, by simp, by simp⟩

/-- Trimming takes a margin off each side of a text and leaves the middle, which is the only one. All
that is between two bytes outside the margin is left, and so are all NULs. The cut between the positions
that are searched for gives the same, and their distance never wraps. -/
theorem trim_leaves_middle (t : Text) :
    (∃ p q, t = p ++ trim margin t ++ q ∧ Middle margin p (trim margin t) q) ∧
    (trim margin t = [] ↔ ∀ c ∈ t, c ∈ margin) ∧
    (∀ p m q, t = p ++ m ++ q → Middle margin p m q → m = trim margin t) ∧
    trim margin (trim margin t) = trim margin t ∧
    (∀ s m r, t = s ++ m ++ r → m ≠ [] → Middle margin [] m [] →
      ∃ a b, a <:+ s ∧ b <+: r ∧ trim margin t = a ++ m ++ b) ∧
    (trim margin t).count 0 = t.count 0 ∧
    trim [] t = t ∧
    (t.length < UInt64.size →
      trimBetween? margin t = some (trim margin t) ∧
      (firstOutside margin t ≠ nowhere →
        Spans (firstOutside margin t) (lastOutside margin t) (trim margin t) t)) := by
  obtain ⟨p, q, same, middle⟩ := (trim_eq_iff_of_noNul noNul).mp (Eq.refl (trim margin t))
  refine ⟨⟨p, q, same, middle⟩, trim_eq_nil_iff noNul, ?_, trim_trim margin t, ?_, ?_, ?_, ?_⟩
  · intro p m q split other
    exact ((trim_eq_iff_of_noNul noNul).mpr ⟨p, q, split, other⟩).symm
  · rintro s m r rfl nonempty kept
    obtain ⟨p, a, b, q, rfl, rfl, around⟩ := kept.exists_around nonempty s r
    refine ⟨a, b, List.suffix_append p a, List.prefix_append b q, ?_⟩
    exact (trim_eq_iff_of_noNul noNul).mpr ⟨p, q, by simp only [List.append_assoc], around⟩
  · rw [← middle.count_eq noNul, ← same]
  · exact trim_of_forall (by simp)
  · intro fits
    exact ⟨trimBetween?_eq_some fits, spans_trim fits⟩

end

/-- What is left begins with a NUL, and bytes of the margin stand inside. -/
theorem trim_leaves_middle_around_nul :
    (0 : UInt8) ∉ ofString "-a" ∧
    trim (ofString "-a") (ofString "a-\x00-xa-") = ofString "\x00-x" ∧
    (ofString "\x00-x").count 0 = (ofString "a-\x00-xa-").count 0 ∧
    (∃ a b, a <:+ ofString "a-\x00-" ∧ b <+: ofString "a-" ∧
      ofString "\x00-x" = a ++ ofString "x" ++ b) ∧
    Spans (firstOutside (ofString "-a") (ofString "a-\x00-xa-"))
      (lastOutside (ofString "-a") (ofString "a-\x00-xa-")) (ofString "\x00-x")
      (ofString "a-\x00-xa-") := by
  have noNul : (0 : UInt8) ∉ ofString "-a" := by decide
  have left : trim (ofString "-a") (ofString "a-\x00-xa-") = ofString "\x00-x" := by rfl
  have outside : ∀ c ∈ ofString "x", c ∉ ofString "-a" :=
    List.forall_mem_singleton.mpr (show 0x78 ∉ ofString "-a" by decide)
  have alone : Middle (ofString "-a") [] (ofString "x") [] := by
    refine ⟨by simp, by simp, ?_, ?_⟩
    · exact fun c begins => outside c (List.mem_of_mem_head? begins)
    · exact fun c ends => outside c (List.mem_of_getLast? ends)
  obtain ⟨_, _, _, _, inside, nuls, _, words⟩ :=
    trim_leaves_middle noNul (ofString "a-\x00-xa-")
  obtain ⟨a, b, suffix, before, whole⟩ :=
    inside (ofString "a-\x00-") (ofString "x") (ofString "a-") (by decide) (by decide) alone
  obtain ⟨_, spans⟩ := words (by decide)
  rw [left] at nuls whole
  rw [← left]
  exact ⟨noNul, left, nuls, ⟨a, b, suffix, before, whole⟩, spans (by decide)⟩

end BluetoothUuid.Text
