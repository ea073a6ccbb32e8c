import Mathlib.Data.List.TakeDrop
import Mathlib.Data.List.TakeWhile
import Stepwise.Proofs.Json.Reading
import Stepwise.Proofs.Outcome

/-!
# Texts that nest too deep

How deep a text nests is told by its brackets alone, those between quotation marks apart, whether or
not the text can be read (`nesting`). The reader gives up a text for its depth only if so many
brackets stand open in it (`lt_nesting_of_tooDeep`).

* `peak`: the largest number of brackets that stand open at once.
* `Within`: what a reader that may go so deep gives, compared with the peak of its text; each of the
  three readers is such (`within`).
-/

namespace Stepwise.Json

open Stepwise.Text

/-! ### Brackets that stand open -/

/-- **The largest number of brackets that stand open** at once, `n` of them standing open before the
text, which begins between quotation marks or not. -/
def peak : (quoted : Bool) → (n : ℕ) → Text → ℕ
  | _, n, [] => n
  | true, n, .char '"' :: cs => peak false n cs
  | true, n, .char '\\' :: _ :: cs => peak true n cs
  | true, n, _ :: cs => peak true n cs
  | false, n, p :: cs =>
    if p = .char '"' then peak true n cs
    else if p = .char '[' ∨ p = .char '\x7b' then peak false (n + 1) cs
    else if p = .char ']' ∨ p = .char '\x7d' then max n (peak false (n - 1) cs)
    else peak false n cs

/-- The number of brackets of a text that stand in each other. -/
def nesting (cs : Text) : ℕ := peak false 0 cs

/-- Whether a code point is a bracket or a quotation mark. -/
def isMark (p : CodePoint) : Bool :=
  p.has fun c => c = '"' ∨ c = '[' ∨ c = '\x7b' ∨ c = ']' ∨ c = '\x7d'

theorem le_peak (quoted : Bool) (n : ℕ) (cs : Text) : n ≤ peak quoted n cs := by
  fun_induction peak quoted n cs with
  | case1 => exact Nat.le_refl _
  | case2 _ _ ih => exact ih
  | case3 _ _ _ ih => exact ih
  | case4 _ _ _ _ _ ih => exact ih
  | case5 _ _ ih => exact ih
  | case6 _ _ _ _ _ ih => omega
  | case7 => exact Nat.le_max_left _ _
  | case8 _ _ _ _ _ _ ih => exact ih

section Peak
variable {n : ℕ} {p : CodePoint} {cs : Text}

theorem peak_open (h : p = .char '[' ∨ p = .char '\x7b') :
    peak false n (p :: cs) = peak false (n + 1) cs := by
  rcases h with rfl | rfl
  · rfl
  · rfl

theorem peak_close (h : p = .char ']' ∨ p = .char '\x7d') :
    peak false n cs ≤ peak false (n + 1) (p :: cs) := by
  rcases h with rfl | rfl
  · exact Nat.le_max_right _ _
  · exact Nat.le_max_right _ _

theorem peak_of_not_mark (h : isMark p = false) : peak false n (p :: cs) = peak false n cs := by
  have hne : ∀ c, isMark (.char c) = true → p ≠ .char c := by
    rintro c hc rfl
    rw [h] at hc
    exact Bool.false_ne_true hc
  have hopen : ¬(p = .char '[' ∨ p = .char '\x7b') := not_or.mpr ⟨hne _ rfl, hne _ rfl⟩
  have hclose : ¬(p = .char ']' ∨ p = .char '\x7d') := not_or.mpr ⟨hne _ rfl, hne _ rfl⟩
  rw [peak, if_neg (hne _ rfl), if_neg hopen, if_neg hclose]

theorem peak_append {front : Text} (h : ∀ p ∈ front, isMark p = false) :
    peak false n (front ++ cs) = peak false n cs := by
  induction front with
  | nil => rfl
  | cons p front ih =>
    obtain ⟨hp, hfront⟩ := List.forall_mem_cons.mp h
    rw [List.cons_append, peak_of_not_mark hp, ih hfront]

theorem isMark_of_isSpace (h : isSpace p = true) : isMark p = false := by
  cases p with
  | surrogate _ => rfl
  | char c =>
    simp only [isSpace, CodePoint.has, Bool.or_eq_true, beq_iff_eq] at h
    rcases h with ((rfl | rfl) | rfl) | rfl
    all_goals rfl

theorem peak_skipSpace : peak false n (skipSpace cs) = peak false n cs := by
  have hfront : ∀ p ∈ cs.takeWhile isSpace, isMark p = false :=
    fun p hp => isMark_of_isSpace (List.mem_takeWhile_imp hp)
  calc peak false n (cs.dropWhile isSpace)
      = peak false n (cs.takeWhile isSpace ++ cs.dropWhile isSpace) := (peak_append hfront).symm
    _ = peak false n cs := by rw [List.takeWhile_append_dropWhile]

end Peak

/-! ### Texts and numbers -/

theorem peak_digit {a : CodePoint} {x : ℕ} (h : digit? a = some x) (n : ℕ) (cs : Text) :
    peak true n (a :: cs) = peak true n cs := by
  have hquote : a ≠ .char '"' := by
    rintro rfl
    cases h
  have hescape : a ≠ .char '\\' := by
    rintro rfl
    cases h
  rw [peak]
  · exact hquote
  · intro c rest ha
    exact absurd ha hescape

theorem peak_unit {a b c d : CodePoint} {x : ℕ} (h : unit? a b c d = some x) (n : ℕ) (cs : Text) :
    peak true n (a :: b :: c :: d :: cs) = peak true n cs := by
  unfold unit? at h
  obtain ⟨_, ha, h⟩ := Option.bind_eq_some_iff.mp h
  obtain ⟨_, hb, h⟩ := Option.bind_eq_some_iff.mp h
  obtain ⟨_, hc, h⟩ := Option.bind_eq_some_iff.mp h
  obtain ⟨_, hd, h⟩ := Option.bind_eq_some_iff.mp h
  rw [peak_digit ha, peak_digit hb, peak_digit hc, peak_digit hd]

/-! ### What a reader gives -/

/-- **What a reader gives**, compared with the brackets that stand open: `n` of them stand open behind
what was read, never more than `top`, and more than `bound` where it is given up for its depth. -/
def Within {α : Type} (bound top n : ℕ) : Except Fault (α × Text) → Prop
  | .ok (_, rest) => peak false n rest ≤ top
  | .error (.tooDeep _) => bound < top
  | .error _ => True

section Within
variable {α β : Type} {bound top top' m n : ℕ}

theorem Within.mono {x : Except Fault (α × Text)} (h : Within bound top n x)
    (hle : top ≤ top') : Within bound top' n x := by
  unfold Within at h ⊢
  split at h
  · exact h.trans hle
  · exact h.trans_le hle
  · trivial

theorem Within.bind {x : Except Fault (α × Text)}
    {f : α × Text → Except Fault (β × Text)} (hx : Within bound top m x)
    (hf : ∀ a rest, peak false m rest ≤ top → Within bound top n (f (a, rest))) :
    Within bound top n (x >>= f) := by
  rcases x with e | ⟨a, rest⟩
  · cases e with
    | tooDeep _ => exact hx
    | problem _ _ => trivial
    | longNumber _ => trivial
  · exact hf a rest hx

/-- A text ends at the quotation mark at which it is read to end. -/
theorem within_textBody (start cs : Text) :
    Within bound (peak true n cs) n (textBody start cs) := by
  fun_induction textBody start cs with
  | case1 => trivial
  | case2 rest => exact Nat.le_refl _
  | case3 => trivial
  | case4 => trivial
  | case5 => trivial
  | case6 a b c d rest x hunit _ ih =>
    have hpeak : peak true n (.char '\\' :: .char 'u' :: a :: b :: c :: d :: rest) =
        peak true n rest := by
      rw [← peak_unit hunit n rest]
      rfl
    rw [hpeak]
    exact ih.bind fun _ _ h => h
  | case7 => trivial
  | case8 => trivial
  | case9 e rest _ _ c _ ih => exact ih.bind fun _ _ h => h
  | case10 => trivial
  | case11 c rest hquote _ _ hescape _ ih =>
    have hpeak : peak true n (c :: rest) = peak true n rest := by
      rw [peak]
      · exact hquote
      · exact hescape
    rw [hpeak]
    exact ih.bind fun _ _ h => h

theorem within_text (rest : Text) : Within bound (peak true n rest) n (text rest) :=
  within_textBody rest rest

end Within

/-! ### Numbers -/

section Number
variable {n : ℕ} {cs : Text}

theorem isMark_of_isDigit {c : Char} (h : isDigit c = true) : isMark (.char c) = false := by
  simp only [isMark, CodePoint.has, decide_eq_false_iff_not]
  rintro (rfl | rfl | rfl | rfl | rfl)
  all_goals cases h

theorem peak_leadingDigits : peak false n (leadingDigits cs).2 = peak false n cs := by
  fun_induction leadingDigits cs with
  | case1 c rest hc ds rest' hrest ih =>
    rw [peak_of_not_mark (isMark_of_isDigit hc), ← ih, hrest]
  | case2 => rfl
  | case3 => rfl

theorem peak_someDigits? {ds : List Char} {rest : Text} (h : someDigits? cs = some (ds, rest)) :
    peak false n rest = peak false n cs := by
  unfold someDigits? at h
  simp only at h
  split at h
  · cases h
  · have hrest : (leadingDigits cs).2 = rest := congrArg Prod.snd (Option.some.inj h)
    rw [← hrest, peak_leadingDigits]

theorem peak_signOf : peak false n (signOf cs).2 = peak false n cs := by
  unfold signOf
  split
  · exact (peak_of_not_mark rfl).symm
  · exact (peak_of_not_mark rfl).symm
  · rfl

theorem peak_whole? {ds : List Char} {rest : Text} (h : whole? cs = some (ds, rest)) :
    peak false n rest = peak false n cs := by
  unfold whole? at h
  split at h
  · cases h
    exact (peak_of_not_mark rfl).symm
  · exact peak_someDigits? h

theorem peak_fraction? {ds : List Char} {rest : Text} (h : fraction? cs = some (ds, rest)) :
    peak false n rest = peak false n cs := by
  unfold fraction? at h
  split at h
  · rw [peak_someDigits? h]
    exact (peak_of_not_mark rfl).symm
  · cases h

theorem peak_exponent? {e : ℤ} {rest : Text} (h : exponent? cs = some (e, rest)) :
    peak false n rest = peak false n cs := by
  unfold exponent? at h
  split at h
  · next p rest' =>
    split at h
    · next hp =>
      have hletter : peak false n (p :: rest') = peak false n rest' := by
        rcases hp with rfl | rfl
        · exact peak_of_not_mark rfl
        · exact peak_of_not_mark rfl
      obtain ⟨⟨ds, after⟩, hds, hr⟩ := Option.map_eq_some_iff.mp h
      cases hr
      have hrest : peak false n rest = peak false n (signOf rest').2 := peak_someDigits? hds
      rw [hrest, peak_signOf, hletter]
    · cases h
  · cases h

/-- No bracket and no quotation mark is part of a number. -/
theorem within_number {bound : ℕ} (cs : Text) :
    Within bound (peak false n cs) n (number cs) := by
  unfold number
  split
  next negative body hsign =>
  have hbody : peak false n body = peak false n cs := by
    split at hsign
    · obtain ⟨-, rfl⟩ := Prod.mk.inj hsign
      exact (peak_of_not_mark rfl).symm
    · obtain ⟨-, rfl⟩ := Prod.mk.inj hsign
      rfl
  split
  · trivial
  · next ds rest hwhole =>
    have hrest : peak false n rest = peak false n cs := (peak_whole? hwhole).trans hbody
    have hfraction : peak false n (((fraction? rest).map fun p => (some p.1, p.2)).getD
        (none, rest)).2 = peak false n cs := by
      cases hf : fraction? rest with
      | none => exact hrest
      | some r => exact (peak_fraction? hf).trans hrest
    have hexponent : ∀ rest', peak false n rest' = peak false n cs →
        peak false n (((exponent? rest').map fun p => (some p.1, p.2)).getD
          (none, rest')).2 = peak false n cs := by
      intro rest' hrest'
      cases he : exponent? rest' with
      | none => exact hrest'
      | some r => exact (peak_exponent? he).trans hrest'
    have hend := (hexponent _ hfraction).le
    simp only
    split
    · split
      · trivial
      · exact hend
    · exact hend

theorem peak_behind? {word : List Char} (hword : ∀ c ∈ word, isMark (.char c) = false)
    {rest : Text} (h : behind? word cs = some rest) : peak false n rest = peak false n cs := by
  fun_induction behind? word cs with
  | case1 =>
    cases h
    rfl
  | case2 c word cs ih =>
    obtain ⟨hc, hword⟩ := List.forall_mem_cons.mp hword
    rw [peak_of_not_mark hc]
    exact ih hword h
  | case3 => cases h
  | case4 => cases h

theorem peak_constant? {rest : Text} {v : Value} (h : constant? cs = some (v, rest)) :
    peak false n rest = peak false n cs := by
  obtain ⟨⟨word, w⟩, hmem, hword⟩ := List.exists_of_findSome?_eq_some h
  obtain ⟨rest', hrest, hr⟩ := Option.map_eq_some_iff.mp hword
  cases hr
  have hplain : (constants.all fun e => e.1.toList.all fun c => !isMark (.char c)) = true := by
    decide
  have hmarks := List.all_eq_true.mp (List.all_eq_true.mp hplain _ hmem)
  exact peak_behind? (fun c hc => (Bool.not_eq_true' _).mp (hmarks c hc)) hrest

end Number

/-! ### The readers -/

/-- What each of the three readers gives when it may take so many steps. Inside an array or an object
one bracket more stands open than behind it. -/
structure ReadsWithin (fuel : ℕ) : Prop where
  value : ∀ n room cs, Within (n + room) (peak false n cs) n (Json.value fuel room cs)
  elements : ∀ n room cs, Within (n + 1 + room) (peak false (n + 1) cs) n (elements fuel room cs)
  members : ∀ n room cs, Within (n + 1 + room) (peak false (n + 1) cs) n (members fuel room cs)

section Readers
variable {fuel : ℕ} (ih : ReadsWithin fuel) (n room : ℕ) (cs : Text)
include ih

theorem ReadsWithin.value_succ :
    Within (n + room) (peak false n cs) n (Json.value (fuel + 1) room cs) := by
  unfold Json.value
  split
  · next rest =>
    have htext : Within (n + room) (peak false n (.char '"' :: rest)) n (text rest) :=
      within_text rest
    exact htext.bind fun _ _ h => h
  · exact le_peak false (n + 1) _
  · next rest room =>
    have hinside : peak false n (.char '\x7b' :: rest) = peak false (n + 1) (skipSpace rest) :=
      (peak_open (Or.inr rfl)).trans peak_skipSpace.symm
    rw [hinside]
    split
    · next heq =>
      rw [heq]
      exact peak_close (Or.inr rfl)
    · have hmembers := ih.members n room (skipSpace rest)
      rw [Nat.add_right_comm] at hmembers
      exact hmembers.bind fun _ _ h => h
  · exact le_peak false (n + 1) _
  · next rest room =>
    have hinside : peak false n (.char '[' :: rest) = peak false (n + 1) (skipSpace rest) :=
      (peak_open (Or.inl rfl)).trans peak_skipSpace.symm
    rw [hinside]
    split
    · next heq =>
      rw [heq]
      exact peak_close (Or.inl rfl)
    · have helements := ih.elements n room (skipSpace rest)
      rw [Nat.add_right_comm] at helements
      exact helements.bind fun _ _ h => h
  · split
    · next r hconstant => exact (peak_constant? hconstant).le
    · exact within_number _

theorem ReadsWithin.elements_succ :
    Within (n + 1 + room) (peak false (n + 1) cs) n (Json.elements (fuel + 1) room cs) := by
  unfold Json.elements
  refine (ih.value (n + 1) room cs).bind fun x rest hrest => ?_
  rw [← peak_skipSpace] at hrest
  simp only
  split
  · next heq =>
    rw [heq] at hrest
    exact (peak_close (Or.inl rfl)).trans hrest
  · next rest' heq =>
    rw [heq, peak_of_not_mark rfl, ← peak_skipSpace] at hrest
    exact ((ih.elements n room (skipSpace rest')).mono hrest).bind fun _ _ h => h
  · trivial

theorem ReadsWithin.members_succ :
    Within (n + 1 + room) (peak false (n + 1) cs) n (Json.members (fuel + 1) room cs) := by
  unfold Json.members
  split
  · next rest =>
    have htext : Within (n + 1 + room) (peak false (n + 1) (.char '"' :: rest)) (n + 1) (text rest) :=
      within_text rest
    refine htext.bind fun k rest₁ hrest₁ => ?_
    rw [← peak_skipSpace] at hrest₁
    simp only
    split
    · next rest₂ heq =>
      rw [heq, peak_of_not_mark rfl, ← peak_skipSpace] at hrest₁
      refine ((ih.value (n + 1) room (skipSpace rest₂)).mono hrest₁).bind fun v rest₃ hrest₃ => ?_
      rw [← peak_skipSpace] at hrest₃
      simp only
      split
      · next heq =>
        rw [heq] at hrest₃
        exact (peak_close (Or.inr rfl)).trans hrest₃
      · next rest₄ heq =>
        rw [heq, peak_of_not_mark rfl, ← peak_skipSpace] at hrest₃
        exact ((ih.members n room (skipSpace rest₄)).mono hrest₃).bind fun _ _ h => h
      · trivial
    · trivial
  · trivial

end Readers

theorem readsWithin (fuel : ℕ) : ReadsWithin fuel := by
  induction fuel with
  | zero => exact ⟨fun _ _ _ => trivial, fun _ _ _ => trivial, fun _ _ _ => trivial⟩
  | succ fuel ih => exact ⟨ih.value_succ, ih.elements_succ, ih.members_succ⟩

/-- **A text is given up for its depth only if it is so deep**: if more brackets stand open at once
than the reader allows. -/
theorem lt_nesting_of_tooDeep [Limits] {cs : Text} {isArray : Bool}
    (h : read cs = .error (.tooDeep isArray)) : Limits.reading < nesting cs := by
  obtain ⟨e, he, hlocated⟩ := mapError_eq_error_iff.mp h
  have hdeep : e = .tooDeep isArray := by
    cases e with
    | problem p left => cases hlocated
    | longNumber digits => cases hlocated
    | tooDeep _ =>
      cases hlocated
      rfl
  subst hdeep
  unfold document at he
  split at he
  · cases he
  have hvalue := (readsWithin (2 * cs.length + 2)).value 0 Limits.reading (skipSpace cs)
  rw [peak_skipSpace, Nat.zero_add] at hvalue
  rcases bind_eq_error_iff.mp he with he | ⟨⟨v, rest⟩, -, he⟩
  · rw [he] at hvalue
    exact hvalue
  · simp only at he
    split at he
    · cases he
    · cases he

end Stepwise.Json
