import Mathlib.Data.Nat.Notation
import Stepwise.Json.Writer
import Stepwise.Proofs.Outcome

/-!
# Texts in quotation marks

A writer escapes all surrogates, and writes a character beyond sixteen bits as a pair of them. A
reader joins those of a pair that are both escaped.

* `textBody_append`: so what is written for a text is read as what its pairs are joined to.
* `text_append`: a text in which no two surrogates stand as a pair comes back.
* `joined_of_text`: what is read from characters is a text in which no two surrogates stand as a
  pair.
-/

namespace Stepwise

namespace Text

open CodePoint

/-! ### Pairs -/

theorem val_pair_fst (c : Char) : (pair c).1.val = (c.toNat - 0x10000) / 0x400 % 0x800 := rfl

theorem val_pair_snd (c : Char) :
    (pair c).2.val = (0x400 + (c.toNat - 0x10000) % 0x400) % 0x800 := rfl

theorem ofPair?_pair {c : Char} (hc : 0x10000 ≤ c.toNat) :
    ofPair? (pair c).1 (pair c).2 = some c := by
  have hlt : c.toNat < 0x110000 := by
    have := c.valid
    simp only [UInt32.isValidChar, Nat.isValidChar] at this
    simp only [Char.toNat]
    omega
  have h₁ := val_pair_fst c
  have h₂ := val_pair_snd c
  have hn : 0x10000 + (pair c).1.val * 0x400 + ((pair c).2.val - 0x400) = c.toNat := by omega
  unfold ofPair?
  rw [if_pos (by omega), hn, Char.ofNat_toNat]

theorem le_pair_snd (c : Char) : 0x400 ≤ (pair c).2.val := by
  have := val_pair_snd c
  omega

/-- In front of a text stands either the code point itself, or the character of a pair. -/
theorem joinOnto_cases (p : CodePoint) (t : Text) : joinOnto p t = p :: t ∨
    ∃ h l u c, p = .surrogate h ∧ t = .surrogate l :: u ∧ joinOnto p t = .char c :: u := by
  unfold joinOnto
  split
  · split
    · exact Or.inr ⟨_, _, _, _, rfl, rfl, rfl⟩
    · exact Or.inl rfl
  · exact Or.inl rfl

/-- The second surrogate of a pair begins none. -/
theorem joinOnto_second {l : Fin 0x800} (hl : 0x400 ≤ l.val) (t : Text) :
    joinOnto (.surrogate l) t = .surrogate l :: t := by
  have hnone : ∀ m : Fin 0x800, ofPair? l m = none := by
    intro m
    unfold ofPair?
    rw [if_neg (by omega)]
  unfold joinOnto
  split
  · next heq =>
    cases heq
    rw [hnone]
  · rfl

theorem joinOnto_pair {h l : Fin 0x800} {c : Char} (hc : ofPair? h l = some c) (t : Text) :
    joinOnto (.surrogate h) (.surrogate l :: t) = .char c :: t := by
  simp only [joinOnto, hc]

/-- Nothing is joined with a text that begins with no surrogate. -/
theorem joinOnto_of_head {t : Text} (ht : ∀ q ∈ t.head?, q.isSurrogate = false) (p : CodePoint) :
    joinOnto p t = p :: t := by
  rcases joinOnto_cases p t with hcons | ⟨h, l, u, c, -, rfl, -⟩
  · exact hcons
  · exact absurd (ht _ rfl) (by simp [isSurrogate])

theorem joined_of_joined_cons {p : CodePoint} {t : Text} (h : joined (p :: t) = p :: t) :
    joined t = t := by
  rw [joined] at h
  rcases joinOnto_cases p (joined t) with hcons | ⟨high, low, u, c, rfl, -, hchar⟩
  · rw [hcons] at h
    exact (List.cons.inj h).2
  · rw [hchar] at h
    cases h

/-- A pair that is made at the front leaves no other one. -/
theorem joined_joinOnto {t : Text} (ht : joined t = t) (p : CodePoint) :
    joined (joinOnto p t) = joinOnto p t := by
  rcases joinOnto_cases p t with hcons | ⟨h, l, u, c, -, rfl, hchar⟩
  · rw [hcons, joined, ht, hcons]
  · rw [hchar, joined, joined_of_joined_cons ht]
    rfl

/-- **A text without surrogates.** -/
def AllChars (t : Text) : Prop := ∀ p ∈ t, p.isSurrogate = false

theorem allChars_ofChars (cs : List Char) : AllChars (ofChars cs) := by
  intro p hp
  obtain ⟨c, -, rfl⟩ := List.mem_map.mp hp
  rfl

theorem allChars_ofString (s : String) : AllChars (ofString s) := allChars_ofChars s.toList

theorem AllChars.head {t : Text} (h : t.AllChars) : ∀ q ∈ t.head?, q.isSurrogate = false :=
  fun q hq => h q (List.mem_of_mem_head? hq)

end Text

namespace Json

open Text CodePoint

/-! ### Numbers of sixteen bits -/

theorem hexValue?_hexDigit : ∀ n < 16, hexValue? (hexDigit n) = some n := by decide

theorem unit?_hex {n : ℕ} (hn : n < 0x10000) : ∃ a b c d, hex 4 n = [a, b, c, d] ∧
    unit? (.char a) (.char b) (.char c) (.char d) = some n := by
  refine ⟨hexDigit (n / 16 / 16 / 16 % 16), hexDigit (n / 16 / 16 % 16), hexDigit (n / 16 % 16),
    hexDigit (n % 16), rfl, ?_⟩
  have h (m : ℕ) : digit? (.char (hexDigit (m % 16))) = some (m % 16) :=
    hexValue?_hexDigit _ (Nat.mod_lt _ (by decide))
  unfold unit?
  rw [h, h, h, h]
  simp only [Option.bind_eq_bind, Option.bind_some, Option.pure_def, Option.some.injEq]
  omega

theorem number_lt (n : Fin 0x800) : (CodePoint.surrogate n).number < 0x10000 := by
  simp only [CodePoint.number]
  omega

/-! ### What is behind an escape -/

section Escape
variable {start rest cs t : Text}

theorem unitOnto_eq_cons {p : CodePoint} (h : joinOnto p t = p :: t) :
    unitOnto p cs t = p :: t := by
  unfold unitOnto
  split
  · exact h
  · rfl

/-- A text that was read begins with a surrogate only if this is escaped, or stands there as it
is. -/
theorem beginsUnit_or_head (h : textBody start cs = .ok (t, rest))
    (hcs : ∀ q ∈ cs.head?, q.isSurrogate = false) :
    beginsUnit cs = true ∨ ∀ q ∈ t.head?, q.isSurrogate = false := by
  unfold textBody at h
  split at h
  · cases h
  · cases h
    exact Or.inr nofun
  · cases h
  · exact Or.inl rfl
  · split at h
    · cases h
    · split at h
      · cases h
      · obtain ⟨r, -, hr⟩ := bind_eq_ok_iff.mp h
        cases hr
        exact Or.inr (by simp [isSurrogate])
  · split at h
    · cases h
    · obtain ⟨r, -, hr⟩ := bind_eq_ok_iff.mp h
      cases hr
      exact Or.inr (by simpa using hcs)

/-- So in front of what is read from characters every pair is joined. -/
theorem unitOnto_eq_joinOnto (h : textBody start cs = .ok (t, rest))
    (hcs : ∀ q ∈ cs.head?, q.isSurrogate = false) (p : CodePoint) :
    unitOnto p cs t = joinOnto p t := by
  rcases beginsUnit_or_head h hcs with hunit | hhead
  · rw [unitOnto, if_pos hunit]
  · have hcons := joinOnto_of_head hhead p
    rw [unitOnto_eq_cons hcons, hcons]

end Escape

/-! ### What is written -/

section Written
variable {start cs t rest : Text} (h : textBody start cs = .ok (t, rest))
include h

theorem textBody_unitEscape (p : CodePoint) (hp : p.number < 0x10000) :
    textBody start (ofChars (unitEscape p.number) ++ cs) = .ok (unitOnto p cs t, rest) := by
  obtain ⟨a, b, c, d, hhex, hunit⟩ := unit?_hex hp
  have hempty : cs.isEmpty = false := by
    cases cs with
    | nil => cases h
    | cons => rfl
  have htext : ofChars (unitEscape p.number) ++ cs =
      .char '\\' :: .char 'u' :: .char a :: .char b :: .char c :: .char d :: cs := by
    rw [unitEscape, hhex]
    rfl
  rw [htext, textBody]
  simp only [hunit, hempty, ofNumber_number, h]
  rfl

theorem textBody_escape {e c : Char} (he : e ≠ 'u') (hc : escaped? (.char e) = some c) :
    textBody start (.char '\\' :: .char e :: cs) = .ok (.char c :: t, rest) := by
  rw [textBody]
  · rw [if_neg (by simpa using he), hc, h]
    rfl
  · intros
    simp_all

theorem textBody_plain {c : Char} (hquote : c ≠ '"') (hescape : c ≠ '\\') (hspace : ¬c < ' ') :
    textBody start (.char c :: cs) = .ok (.char c :: t, rest) := by
  rw [textBody]
  · rw [if_neg (by simpa [has] using hspace), h]
    rfl
  all_goals
    intros
    simp_all

theorem textBody_escapedChar (c : Char) :
    textBody start (ofChars (escapedChar c) ++ cs) = .ok (.char c :: t, rest) := by
  unfold escapedChar
  split
  case h_8 hquote hescape _ _ _ _ _ =>
    split
    · next hc => exact textBody_plain h hquote hescape (Char.not_lt.mpr hc.1)
    split
    · next hlt =>
      have hunit := textBody_unitEscape h (.char c) hlt
      rwa [unitOnto_eq_cons rfl] at hunit
    · next hlt =>
      -- The reader finds the escapes of two surrogates, which it joins to the character.
      have hlow := textBody_unitEscape h (.surrogate (pair c).2) (number_lt _)
      rw [unitOnto_eq_cons (joinOnto_second (le_pair_snd c) t)] at hlow
      have hhigh := textBody_unitEscape hlow (.surrogate (pair c).1) (number_lt _)
      have hc : 0x10000 ≤ c.toNat := by omega
      have hbegins : beginsUnit (ofChars (unitEscape (surrogate (pair c).2).number) ++ cs) = true :=
        rfl
      rw [unitOnto, if_pos hbegins, joinOnto_pair (ofPair?_pair hc)] at hhigh
      rw [ofChars_append, List.append_assoc]
      exact hhigh
  all_goals exact textBody_escape h (by decide) rfl

theorem textBody_escapedPoint (hcs : ∀ q ∈ cs.head?, q.isSurrogate = false) (p : CodePoint) :
    textBody start (ofChars (escapedPoint p) ++ cs) = .ok (joinOnto p t, rest) := by
  cases p with
  | char c => exact textBody_escapedChar h c
  | surrogate n =>
    rw [← unitOnto_eq_joinOnto h hcs]
    exact textBody_unitEscape h (.surrogate n) (number_lt n)

end Written

/-- **What is written for a text is read as what its pairs are joined to.** -/
theorem textBody_append (start t rest : Text) :
    textBody start (ofChars (t.flatMap escapedPoint) ++ .char '"' :: rest) =
      .ok (t.joined, rest) := by
  induction t with
  | nil => rfl
  | cons p t ih =>
    have hhead : ∀ (w : List Char), ∀ q ∈ (ofChars w ++ .char '"' :: rest).head?,
        q.isSurrogate = false := by
      intro w q hq
      cases w with
      | nil => cases hq; rfl
      | cons => cases hq; rfl
    rw [List.flatMap_cons, ofChars_append, List.append_assoc]
    exact textBody_escapedPoint ih (hhead _) p

theorem text_append {t : Text} (ht : t.joined = t) (rest : Text) :
    text (ofChars (t.flatMap escapedPoint) ++ .char '"' :: rest) = .ok (t, rest) := by
  rw [text, textBody_append, ht]

/-! ### What is read -/

theorem joined_of_textBody {start cs t rest : Text} (hcs : cs.AllChars)
    (h : textBody start cs = .ok (t, rest)) : t.joined = t ∧ rest.AllChars := by
  fun_induction textBody start cs generalizing t rest with
  | case1 => cases h
  | case2 rest' =>
    cases h
    exact ⟨rfl, (List.forall_mem_cons.mp hcs).2⟩
  | case3 => cases h
  | case4 => cases h
  | case5 => cases h
  | case6 a b c d cs n _ _ ih =>
    obtain ⟨⟨u, rest'⟩, hu, hr⟩ := bind_eq_ok_iff.mp h
    cases hr
    have hbehind : AllChars cs := fun p hp => hcs p (by simp [hp])
    obtain ⟨hjoined, hrest⟩ := ih hbehind hu
    rw [unitOnto_eq_joinOnto hu hbehind.head]
    exact ⟨joined_joinOnto hjoined _, hrest⟩
  | case7 => cases h
  | case8 => cases h
  | case9 e cs _ _ c _ ih =>
    obtain ⟨⟨u, rest'⟩, hu, hr⟩ := bind_eq_ok_iff.mp h
    cases hr
    obtain ⟨hjoined, hrest⟩ := ih (fun p hp => hcs p (by simp [hp])) hu
    exact ⟨by rw [joined, hjoined]; rfl, hrest⟩
  | case10 => cases h
  | case11 p cs _ _ _ _ _ ih =>
    obtain ⟨⟨u, rest'⟩, hu, hr⟩ := bind_eq_ok_iff.mp h
    cases hr
    obtain ⟨hp, hbehind⟩ := List.forall_mem_cons.mp hcs
    obtain ⟨hjoined, hrest⟩ := ih hbehind hu
    cases p with
    | char c => exact ⟨by rw [joined, hjoined]; rfl, hrest⟩
    | surrogate n => exact absurd hp (by simp [isSurrogate])

/-- **What is read from characters** is a text in which no two surrogates stand as a pair. -/
theorem joined_of_text {cs t rest : Text} (hcs : cs.AllChars) (h : text cs = .ok (t, rest)) :
    t.joined = t ∧ rest.AllChars :=
  joined_of_textBody hcs h

end Json

end Stepwise
