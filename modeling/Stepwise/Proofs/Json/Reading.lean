import Stepwise.Proofs.Json.Number
import Stepwise.Proofs.Json.Text
import Stepwise.Proofs.Value.MadeOf

/-!
# What can be read

Whatever stands in a row of characters is made of readable scalars (`madeOf_of_read`): names are
distinct because of members with one name only the last one counts, no two surrogates stand as a pair
because a row of characters holds only escaped ones and these are joined, and a whole number with too
many digits is refused.
-/

namespace Stepwise.Json

open Scalar Text

/-! ### What is left -/

section Left
variable {cs rest : Text}

theorem allChars_of_suffix (hsuffix : rest <:+ cs) (h : cs.AllChars) : rest.AllChars :=
  fun p hp => h p (hsuffix.subset hp)

theorem allChars_skipSpace (h : cs.AllChars) : (skipSpace cs).AllChars :=
  allChars_of_suffix (List.dropWhile_suffix _) h

theorem allChars_tail {p : CodePoint} (h : AllChars (p :: cs)) : cs.AllChars :=
  allChars_of_suffix (List.suffix_cons p cs) h

theorem suffix_of_behind? {word : List Char} (h : behind? word cs = some rest) : rest <:+ cs := by
  fun_induction behind? word cs with
  | case1 =>
    cases h
    exact List.suffix_rfl
  | case2 c word cs ih => exact (ih h).trans (List.suffix_cons _ cs)
  | case3 => cases h
  | case4 => cases h

end Left

/-! ### The readers -/

theorem madeOf_of_number {cs rest : Text} {v : Value} (h : number cs = .ok (v, rest)) :
    v.MadeOf Readable := by
  obtain ⟨i, rfl, hi⟩ | ⟨x, rfl⟩ := of_number h
  · exact .scalar (.inl hi)
  · exact .scalar (.inr ⟨x, rfl⟩)

theorem of_constant? {cs rest : Text} {v : Value} (h : constant? cs = some (v, rest)) :
    v.MadeOf Readable ∧ rest <:+ cs := by
  obtain ⟨⟨word, w⟩, hmem, hword⟩ := List.exists_of_findSome?_eq_some h
  obtain ⟨rest', hrest, hr⟩ := Option.map_eq_some_iff.mp hword
  cases hr
  refine ⟨?_, suffix_of_behind? hrest⟩
  have hfloat : ∀ x, (Value.float x).MadeOf Readable := fun x => .scalar (.inr ⟨x, rfl⟩)
  have hall : ∀ e ∈ constants, e.2.MadeOf Readable := by
    unfold constants
    simp only [List.forall_mem_cons]
    exact ⟨.scalar (.inl trivial), .scalar (.inl trivial), .scalar (.inl trivial), hfloat _, hfloat _,
      hfloat _, nofun⟩
  exact hall _ hmem

/-- What each of the three readers gives when it may take so many steps. -/
structure Reads (fuel : ℕ) : Prop where
  value : ∀ {room cs v rest}, cs.AllChars → Json.value fuel room cs = .ok (v, rest) →
    v.MadeOf Readable ∧ rest.AllChars
  elements : ∀ {room cs xs rest}, cs.AllChars → Json.elements fuel room cs = .ok (xs, rest) →
    (∀ x ∈ xs, x.MadeOf Readable) ∧ rest.AllChars
  members : ∀ {room cs es rest}, cs.AllChars → Json.members fuel room cs = .ok (es, rest) →
    (∀ e ∈ es, e.1.IsName ∧ e.2.MadeOf Readable) ∧ rest.AllChars

theorem Reads.madeOf_dict {es : List (Scalar × Value)}
    (h : ∀ e ∈ es, e.1.IsName ∧ e.2.MadeOf Readable) :
    (Value.dict (Entries.ofList es)).MadeOf Readable := by
  have hes := Entries.forall_ofList h
  exact .dict (Entries.distinct_ofList es) (fun e he => (hes e he).1) fun e he => (hes e he).2

section Readers
variable {fuel : ℕ} (ih : Reads fuel) {room : ℕ} {cs rest : Text} (hcs : cs.AllChars)
include ih hcs

theorem Reads.value_succ {v : Value} (h : Json.value (fuel + 1) room cs = .ok (v, rest)) :
    v.MadeOf Readable ∧ rest.AllChars := by
  unfold Json.value at h
  split at h
  · obtain ⟨⟨t, rest'⟩, ht, hr⟩ := bind_eq_ok_iff.mp h
    cases hr
    obtain ⟨hjoined, hrest⟩ := joined_of_text (allChars_tail hcs) ht
    exact ⟨.scalar (.inl hjoined), hrest⟩
  · cases h
  · have hbehind := allChars_skipSpace (allChars_tail hcs)
    split at h
    · next heq =>
      cases h
      rw [heq] at hbehind
      exact ⟨Value.madeOf_empty, allChars_tail hbehind⟩
    · obtain ⟨⟨es, rest'⟩, hes, hr⟩ := bind_eq_ok_iff.mp h
      cases hr
      obtain ⟨hmade, hrest⟩ := ih.members hbehind hes
      exact ⟨madeOf_dict hmade, hrest⟩
  · cases h
  · have hbehind := allChars_skipSpace (allChars_tail hcs)
    split at h
    · next heq =>
      cases h
      rw [heq] at hbehind
      exact ⟨.list (by simp), allChars_tail hbehind⟩
    · obtain ⟨⟨xs, rest'⟩, hxs, hr⟩ := bind_eq_ok_iff.mp h
      cases hr
      obtain ⟨hmade, hrest⟩ := ih.elements hbehind hxs
      exact ⟨.list hmade, hrest⟩
  · split at h
    · next r hconstant =>
      cases h
      obtain ⟨hmade, hsuffix⟩ := of_constant? hconstant
      exact ⟨hmade, allChars_of_suffix hsuffix hcs⟩
    · exact ⟨madeOf_of_number h, allChars_of_suffix (suffix_of_number h) hcs⟩

theorem Reads.elements_succ {xs : List Value}
    (h : Json.elements (fuel + 1) room cs = .ok (xs, rest)) :
    (∀ x ∈ xs, x.MadeOf Readable) ∧ rest.AllChars := by
  unfold Json.elements at h
  obtain ⟨⟨x, rest₁⟩, hx, h⟩ := bind_eq_ok_iff.mp h
  obtain ⟨hmade, hrest₁⟩ := ih.value hcs hx
  have hbehind := allChars_skipSpace hrest₁
  simp only at h
  split at h
  · next heq =>
    cases h
    rw [heq] at hbehind
    exact ⟨by simpa using hmade, allChars_tail hbehind⟩
  · next heq =>
    obtain ⟨⟨ys, rest₂⟩, hys, hr⟩ := bind_eq_ok_iff.mp h
    cases hr
    rw [heq] at hbehind
    obtain ⟨hothers, hrest₂⟩ := ih.elements (allChars_skipSpace (allChars_tail hbehind)) hys
    exact ⟨List.forall_mem_cons.mpr ⟨hmade, hothers⟩, hrest₂⟩
  · cases h

theorem Reads.members_succ {es : List (Scalar × Value)}
    (h : Json.members (fuel + 1) room cs = .ok (es, rest)) :
    (∀ e ∈ es, e.1.IsName ∧ e.2.MadeOf Readable) ∧ rest.AllChars := by
  unfold Json.members at h
  split at h
  · obtain ⟨⟨k, rest₁⟩, hk, h⟩ := bind_eq_ok_iff.mp h
    obtain ⟨hjoined, hrest₁⟩ := joined_of_text (allChars_tail hcs) hk
    have hbehind₁ := allChars_skipSpace hrest₁
    simp only at h
    split at h
    · next heq₁ =>
      obtain ⟨⟨v, rest₂⟩, hv, h⟩ := bind_eq_ok_iff.mp h
      rw [heq₁] at hbehind₁
      obtain ⟨hmade, hrest₂⟩ := ih.value (allChars_skipSpace (allChars_tail hbehind₁)) hv
      have hbehind₂ := allChars_skipSpace hrest₂
      have hfirst : (Scalar.text k).IsName ∧ v.MadeOf Readable := ⟨⟨k, rfl, hjoined⟩, hmade⟩
      simp only at h
      split at h
      · next heq₂ =>
        cases h
        rw [heq₂] at hbehind₂
        exact ⟨by simpa using hfirst, allChars_tail hbehind₂⟩
      · next heq₂ =>
        obtain ⟨⟨fs, rest₃⟩, hfs, hr⟩ := bind_eq_ok_iff.mp h
        cases hr
        rw [heq₂] at hbehind₂
        obtain ⟨hothers, hrest₃⟩ := ih.members (allChars_skipSpace (allChars_tail hbehind₂)) hfs
        exact ⟨List.forall_mem_cons.mpr ⟨hfirst, hothers⟩, hrest₃⟩
      · cases h
    · cases h
  · cases h

end Readers

theorem reads (fuel : ℕ) : Reads fuel := by
  induction fuel with
  | zero => exact ⟨nofun, nofun, nofun⟩
  | succ fuel ih =>
    exact ⟨fun hcs h => ih.value_succ hcs h, fun hcs h => ih.elements_succ hcs h,
      fun hcs h => ih.members_succ hcs h⟩

theorem madeOf_of_document {depth : ℕ} {cs : Text} (hcs : cs.AllChars) {v : Value}
    (h : document depth cs = .ok v) : v.MadeOf Readable := by
  unfold document at h
  split at h
  · cases h
  · obtain ⟨⟨w, rest⟩, hw, h⟩ := bind_eq_ok_iff.mp h
    simp only at h
    split at h
    · cases h
      exact ((reads _).value (allChars_skipSpace hcs) hw).1
    · cases h

/-- **What stands in a row of characters is made of readable scalars.** -/
theorem madeOf_of_read [Limits] {cs : Text} (hcs : cs.AllChars) {v : Value} (h : read cs = .ok v) :
    v.MadeOf Readable :=
  madeOf_of_document hcs (mapError_eq_ok_iff.mp h)

end Stepwise.Json
