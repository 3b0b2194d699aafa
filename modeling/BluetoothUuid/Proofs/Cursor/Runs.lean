import BluetoothUuid.Action.Atomic
import BluetoothUuid.Item

/-! Runs of reads and of writes at a cursor, with failures in between. Only those that succeed show
in the end: a run of writes writes their wire forms back to back, and a run of reads moves over the
wire forms of what it read. -/
namespace BluetoothUuid.Cursor
open BluetoothUuid.Action (attempts succeeded answers)

variable {c d : Cursor} {items : List Item} {shapes : List Shape}

theorem atomic_readSlice (count : Nat) : Action.Atomic (readSlice count) :=
  fun _ _ _ failed => (readSlice_eq_error_iff.mp failed).2.2

theorem atomic_writeSlice (bs : Bytes) : Action.Atomic (writeSlice bs) :=
  fun _ _ _ failed => (writeSlice_eq_error_iff.mp failed).2.2

theorem atomic_readUuid (k : Kind) : Action.Atomic (readUuid k) :=
  fun _ _ _ failed => (readUuid_eq_error_iff.mp failed).2.2

theorem atomic_skip (count : Nat) : Action.Atomic (skip count) := by
  rw [skip_eq_map_readSlice]
  exact (atomic_readSlice count).map

theorem atomic_writeZeros (count : Nat) : Action.Atomic (writeZeros count) := by
  rw [writeZeros_eq_writeSlice]
  exact atomic_writeSlice _

theorem atomic_write (item : Item) : Action.Atomic (write item) := by
  rw [write_eq_writeSlice]
  exact atomic_writeSlice item.bytes

theorem atomic_read {shape : Shape} (single : ∀ k, shape ≠ .uuids k) :
    Action.Atomic (read shape) :=
  fun _ _ _ failed => ((read_eq_error_iff single).mp failed).2.2

theorem writes_of_write {item : Item} (done : (write item).outcome c = (.ok (), d)) :
    Writes c item.bytes d := by
  rw [write_eq_writeSlice] at done
  exact writeSlice_eq_ok_iff.mp done

/-- A run of writes is one write of what succeeded. -/
theorem writes_attempts (items : List Item) (c : Cursor) :
    Writes c ((succeeded (attempts write items c).1).flatMap Item.bytes)
      (attempts write items c).2 := by
  induction items generalizing c with
  | nil => exact .refl c
  | cons item rest ih =>
    rw [Action.attempts]
    cases first : (write item).outcome c with
    | mk answer middle =>
      cases answer with
      | ok done => exact (writes_of_write first).trans (ih middle)
      | error e =>
        obtain rfl := atomic_write item c middle e first
        exact ih middle

/-- Where there is room for all of them, no write fails. -/
theorem attempts_write_of_room (room : (items.flatMap Item.bytes).length ≤ c.left.toNat) :
    ∃ d, attempts write items c = (items.map fun item => (item, .ok ()), d) ∧
      Writes c (items.flatMap Item.bytes) d := by
  induction items generalizing c with
  | nil => exact ⟨c, rfl, .refl c⟩
  | cons item rest ih =>
    rw [List.flatMap_cons, List.length_append] at room
    have fits : item.size ≤ c.left.toNat := by
      rw [← item.length_bytes]
      omega
    obtain ⟨middle, first, written⟩ := write_of_room fits
    have left := written.toNat_left
    obtain ⟨d, others, all⟩ := ih (c := middle) (by omega)
    refine ⟨d, ?_, written.trans all⟩
    simp only [attempts, first, others, List.map_cons]

/-- A run of reads moves over what it read, if no list in it has a trailing part. -/
theorem reads_attempts (lists : ∀ k e, (.uuids k, .error e) ∉ (attempts read shapes c).1) :
    Reads c ((answers (attempts read shapes c).1).flatMap Item.bytes)
      (attempts read shapes c).2 := by
  induction shapes generalizing c with
  | nil => exact .refl c
  | cons shape rest ih =>
    rw [attempts] at lists ⊢
    cases first : (read shape).outcome c with
    | mk answer middle =>
      simp only [first] at lists
      have later := ih fun k e member => lists k e (List.mem_cons_of_mem _ member)
      cases answer with
      | ok item => exact (reads_of_read first).2.trans later
      | error e =>
        have single : ∀ k, shape ≠ .uuids k := by
          rintro k rfl
          exact lists k e List.mem_cons_self
        obtain rfl := atomic_read single c middle e first
        exact later

/-- Items other than lists are read one after the other where their wire forms lie ahead. -/
theorem attempts_read_of_reads (single : ∀ item ∈ items, ∀ k, item.shape ≠ .uuids k)
    (moved : Reads c (items.flatMap Item.bytes) d) :
    attempts read (items.map Item.shape) c =
      (items.map fun item => (item.shape, .ok item), d) := by
  induction items generalizing c with
  | nil => rw [moved.unique (.refl c)]; rfl
  | cons item rest ih =>
    obtain ⟨middle, first, later⟩ := moved.split
    have others := ih (fun item member => single item (List.mem_cons_of_mem _ member)) later
    have one := read_of_reads (single item List.mem_cons_self) first
    simp only [List.map_cons, attempts, one, others]

end BluetoothUuid.Cursor
