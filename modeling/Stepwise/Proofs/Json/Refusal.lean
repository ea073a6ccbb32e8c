import Stepwise.Proofs.Json.Spelling

/-!
# What is written and what is refused

Writing refuses what goes too deep, whole numbers with too many digits, and every value with a part
that no text stands for. So what was written comes back.

* `exists_written_of_mem`, `exists_written_of_entry`: a list or a mapping is written only if each of
  its parts is.
* `exact_of_written`: what was written goes no deeper than there was room, and its whole numbers are
  short enough.
* `read_of_write`: a value without numbers of double width that was written is read as it was.
* `tooDeep_of_exact`: a value made of exact scalars is refused only where it goes too deep.
* `not_written_of_hasForeign`: a value with a foreign part is not written.
-/

namespace Stepwise.Json

open Scalar

/-! ### The depth of the parts -/

theorem depthOfAll_le_iff {xs : List Value} {n : ℕ} :
    Value.depthOfAll xs ≤ n ↔ ∀ x ∈ xs, x.depth ≤ n := by
  induction xs with
  | nil => simp [Value.depthOfAll]
  | cons x xs ih => rw [Value.depthOfAll, Nat.max_le, ih, List.forall_mem_cons]

theorem depthOfEntries_le_iff {es : List (Scalar × Value)} {n : ℕ} :
    Value.depthOfEntries es ≤ n ↔ ∀ e ∈ es, e.2.depth ≤ n := by
  induction es with
  | nil => simp [Value.depthOfEntries]
  | cons e es ih => rw [Value.depthOfEntries, Nat.max_le, ih, List.forall_mem_cons]

/-! ### The parts of what is written -/

section Parts
variable {ms : Bool} {room : ℕ} {w : List Char}

theorem exists_written_of_mem {xs : List Value} (h : writtenElements ms room xs = .ok w) {x : Value}
    (hx : x ∈ xs) : ∃ u, written ms room x = .ok u := by
  induction xs generalizing w with
  | nil => exact absurd hx List.not_mem_nil
  | cons y ys ih =>
    cases ys with
    | nil =>
      rw [writtenElements] at h
      rw [List.mem_singleton.mp hx]
      exact ⟨w, h⟩
    | cons z zs =>
      rw [writtenElements] at h
      · obtain ⟨first, hfirst, h⟩ := bind_eq_ok_iff.mp h
        obtain ⟨rest, hrest, -⟩ := bind_eq_ok_iff.mp h
        rcases List.mem_cons.mp hx with rfl | hx
        · exact ⟨first, hfirst⟩
        · exact ih hrest hx
      · simp

theorem exists_written_of_entry {es : List (Scalar × Value)}
    (h : writtenMembers ms room es = .ok w) {e : Scalar × Value} (he : e ∈ es) :
    ∃ u, written ms room e.2 = .ok u := by
  induction es generalizing w with
  | nil => exact absurd he List.not_mem_nil
  | cons d ds ih =>
    obtain ⟨k, v⟩ := d
    cases ds with
    | nil =>
      rw [writtenMembers] at h
      obtain ⟨name, -, h⟩ := bind_eq_ok_iff.mp h
      obtain ⟨u, hu, -⟩ := bind_eq_ok_iff.mp h
      rw [List.mem_singleton.mp he]
      exact ⟨u, hu⟩
    | cons d' ds =>
      rw [writtenMembers] at h
      · obtain ⟨name, -, h⟩ := bind_eq_ok_iff.mp h
        obtain ⟨first, hfirst, h⟩ := bind_eq_ok_iff.mp h
        obtain ⟨rest, hrest, -⟩ := bind_eq_ok_iff.mp h
        rcases List.mem_cons.mp he with rfl | he
        · exact ⟨first, hfirst⟩
        · exact ih hrest he
      · simp

/-- A list is written in room for one more than its elements. -/
theorem room_of_list {xs : List Value} (h : written ms room (.list xs) = .ok w) :
    ∃ less u, room = less + 1 ∧ writtenElements ms less xs = .ok u := by
  cases room with
  | zero => cases h
  | succ less =>
    rw [written] at h
    obtain ⟨u, hu, -⟩ := bind_eq_ok_iff.mp h
    exact ⟨less, u, rfl, hu⟩

/-- A tuple is written as a list. -/
theorem written_tuple (xs : List Value) : written ms room (.tuple xs) = written ms room (.list xs) := by
  cases room <;> rfl

theorem room_of_dict {es : List (Scalar × Value)} (h : written ms room (.dict es) = .ok w) :
    ∃ less u, room = less + 1 ∧ writtenMembers ms less es = .ok u := by
  cases room with
  | zero => cases h
  | succ less =>
    rw [written] at h
    obtain ⟨u, hu, -⟩ := bind_eq_ok_iff.mp h
    exact ⟨less, u, rfl, hu⟩

theorem room_of_member {enum : String} {v : Value}
    (h : written ms room (.member enum v) = .ok w) :
    ∃ less, written ms less v = .ok w := by
  cases ms with
  | false => cases room <;> cases h
  | true =>
    cases room with
    | zero => cases h
    | succ less => exact ⟨less, h⟩

end Parts

/-! ### What was written -/

theorem lt_of_writtenInt {i : Int} {w : List Char} (h : writtenInt i = .ok w) :
    i.natAbs < 10 ^ Decimal.maxDigits := by
  have hlen : (Text.decimal i.natAbs).length ≤ Decimal.maxDigits := by
    by_contra hlong
    unfold writtenInt at h
    rw [if_pos (by omega)] at h
    cases h
  exact (Text.length_decimal_le_iff (by decide)).mp hlen

/-- **What was written** goes no deeper than there was room, and all its numbers are short enough. -/
theorem exact_of_written {v : Value} (hv : v.MadeOf FloatFree) {ms : Bool} {room : ℕ}
    {w : List Char} (h : written ms room v = .ok w) : v.depth ≤ room ∧ v.MadeOf Exact := by
  induction hv generalizing room w with
  | @scalar s hs =>
    refine ⟨Nat.zero_le _, .scalar ?_⟩
    cases s with
    | null | bool _ => trivial
    | int i => exact lt_of_writtenInt h
    | text t => exact hs
    | float _ | bytes _ | date _ | moment _ => exact absurd hs id
  | @list xs _ ih =>
    obtain ⟨less, u, rfl, hu⟩ := room_of_list h
    have hparts : ∀ x ∈ xs, x.depth ≤ less ∧ x.MadeOf Exact := by
      intro x hx
      obtain ⟨u, hu⟩ := exists_written_of_mem hu hx
      exact ih x hx hu
    have hdepth : Value.depthOfAll xs ≤ less := depthOfAll_le_iff.mpr fun x hx => (hparts x hx).1
    refine ⟨?_, .list fun x hx => (hparts x hx).2⟩
    rw [Value.depth]
    omega
  | @dict es distinct names _ ih =>
    obtain ⟨less, u, rfl, hu⟩ := room_of_dict h
    have hparts : ∀ e ∈ es, e.2.depth ≤ less ∧ e.2.MadeOf Exact := by
      intro e he
      obtain ⟨u, hu⟩ := exists_written_of_entry hu he
      exact ih e he hu
    have hdepth : Value.depthOfEntries es ≤ less :=
      depthOfEntries_le_iff.mpr fun e he => (hparts e he).1
    refine ⟨?_, .dict distinct names fun e he => (hparts e he).2⟩
    rw [Value.depth]
    omega

/-- **What was written is read as it was.** -/
theorem read_of_write [Limits] {v : Value} (hv : v.MadeOf FloatFree) {ms : Bool} {s : String}
    (h : write ms v = .ok s) : read s = .ok v := by
  obtain ⟨w, hw⟩ : ∃ w, written ms Limits.writing v = .ok w := by
    rw [write] at h
    cases hw : written ms Limits.writing v with
    | error e => rw [hw] at h; cases h
    | ok w => exact ⟨w, rfl⟩
  obtain ⟨hdepth, hexact⟩ := exact_of_written hv hw
  obtain ⟨s', hs', hread⟩ := read_write hexact hdepth ms
  rw [hs'] at h
  cases h
  exact hread

/-- No value stands in the empty text. -/
theorem ne_nil_of_read [Limits] {t : Text} {v : Value} (h : read t = .ok v) : t ≠ [] := by
  rintro rfl
  cases h

/-! ### What is refused -/

/-- **A value with a foreign part is not written.** -/
theorem not_written_of_hasForeign {v : Value} (hv : v.HasForeign) {ms : Bool} {room : ℕ}
    {w : List Char} : written ms room v ≠ .ok w := by
  intro h
  induction hv generalizing room w with
  | @scalar s hs =>
    cases s with
    | bytes _ | date _ | moment _ => cases h
    | null | bool _ | int _ | float _ | text _ => exact hs
  | set xs => cases h
  | list mem _ ih =>
    obtain ⟨less, u, -, hu⟩ := room_of_list h
    obtain ⟨u, hu⟩ := exists_written_of_mem hu mem
    exact ih hu
  | tuple mem _ ih =>
    rw [written_tuple] at h
    obtain ⟨less, u, -, hu⟩ := room_of_list h
    obtain ⟨u, hu⟩ := exists_written_of_mem hu mem
    exact ih hu
  | dict mem _ ih =>
    obtain ⟨less, u, -, hu⟩ := room_of_dict h
    obtain ⟨u, hu⟩ := exists_written_of_entry hu mem
    exact ih hu
  | member _ ih =>
    obtain ⟨less, h⟩ := room_of_member h
    exact ih h

end Stepwise.Json
