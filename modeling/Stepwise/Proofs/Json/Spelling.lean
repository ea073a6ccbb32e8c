import Mathlib.Data.List.Forall2
import Stepwise.Proofs.Json.Number
import Stepwise.Proofs.Json.Text
import Stepwise.Proofs.Value.MadeOf
import Stepwise.Value.Depth

/-!
# Written values are read as they were

A row of characters *spells* a value (`Spells`) if it is what is written for the value, and is read
as the value wherever the value may end.

* `Spells.list`, `Spells.dict`: rows that spell the parts are put together to one that spells the
  whole.
* `exists_spells`: so every value made of exact scalars is spelled by some row.
* `read_write`: such a value that does not go too deep is written, and read as it was.
-/

namespace Stepwise.Json

open Text

/-- A text that begins with none of the characters that are passed over before a value, or that end
an array. -/
def Begins (cs : Text) : Prop :=
  ∃ p ps, cs = p :: ps ∧ isSpace p = false ∧ p ≠ .char ']' ∧ p ≠ .char '\ufeff'

/-- **A row of characters spells a value**: it is written for the value, and read as the value where
there are as many steps as characters. -/
structure Spells (w : List Char) (v : Value) : Prop where
  begins : Begins (ofChars w)
  written : ∀ ms room, v.depth ≤ room → Json.written ms room v = .ok w
  value : ∀ fuel room rest, w.length ≤ fuel → v.depth ≤ room → Ends rest →
    Json.value fuel room (ofChars w ++ rest) = .ok (v, rest)

/-! ### Space -/

section Begins
variable {cs : Text} (h : Begins cs)
include h

theorem Begins.append (rest : Text) : Begins (cs ++ rest) := by
  obtain ⟨p, ps, rfl, hp⟩ := h
  exact ⟨p, ps ++ rest, rfl, hp⟩

theorem Begins.skipSpace : skipSpace cs = cs := by
  obtain ⟨p, ps, rfl, hp, -⟩ := h
  simp [Json.skipSpace, hp]

theorem Begins.skipSpace_space : Json.skipSpace (.char ' ' :: cs) = cs := by
  have hspace : Json.skipSpace (.char ' ' :: cs) = Json.skipSpace cs := rfl
  rw [hspace, h.skipSpace]

end Begins

/-! ### Scalars -/

theorem spells_null : Spells "null".toList .null where
  begins := ⟨.char 'n', _, rfl, by decide⟩
  written _ _ _ := rfl
  value fuel room rest hfuel _ _ := by
    cases fuel with
    | zero => simp at hfuel
    | succ fuel => rfl

theorem spells_bool (b : Bool) :
    Spells (if b then "true".toList else "false".toList) (.bool b) where
  begins := by
    cases b
    · exact ⟨.char 'f', _, rfl, by decide⟩
    · exact ⟨.char 't', _, rfl, by decide⟩
  written _ _ _ := rfl
  value fuel room rest hfuel _ _ := by
    cases fuel with
    | zero => cases b <;> simp at hfuel
    | succ fuel => cases b <;> rfl

theorem writtenText_append (t rest : Text) : ofChars (writtenText t) ++ rest =
    .char '"' :: (ofChars (t.flatMap escapedPoint) ++ .char '"' :: rest) := by
  simp [writtenText, ofChars]

theorem spells_text {t : Text} (ht : t.joined = t) : Spells (writtenText t) (.text t) where
  begins := ⟨.char '"', _, rfl, by decide⟩
  written _ _ _ := rfl
  value fuel room rest hfuel _ _ := by
    cases fuel with
    | zero => simp [writtenText] at hfuel
    | succ fuel =>
      rw [writtenText_append, value, text_append ht]
      rfl

theorem digits_eq (i : Int) :
    ∃ d ds, isDigit d = true ∧ (digits i = d :: ds ∨ digits i = '-' :: d :: ds) := by
  rcases hd : decimal i.natAbs with _ | ⟨d, ds⟩
  · exact absurd hd (decimal_ne_nil _)
  · refine ⟨d, ds, isDigit_of_mem_decimal (n := i.natAbs) (by rw [hd]; simp), ?_⟩
    unfold digits
    split
    · exact .inr (by rw [hd])
    · exact .inl hd

theorem behind?_of_ne {c d : Char} (h : c ≠ d) (word : List Char) (cs : Text) :
    behind? (c :: word) (.char d :: cs) = none := by
  rw [behind?, if_neg h]

/-- No word begins as a numeral does. -/
theorem constant?_digits (i : Int) (rest : Text) :
    constant? (ofChars (digits i) ++ rest) = none := by
  obtain ⟨d, ds, hd, h⟩ := digits_eq i
  have hne : ∀ c, isDigit c = false → c ≠ d := by
    rintro c hc rfl
    exact Bool.false_ne_true (hc.symm.trans hd)
  have hwords : ∀ w ∈ constants, behind? w.1.toList (ofChars (digits i) ++ rest) = none := by
    intro w hw
    simp only [constants, List.mem_cons, List.not_mem_nil, or_false] at hw
    rcases h with h | h <;> rw [h] <;> rcases hw with rfl | rfl | rfl | rfl | rfl | rfl
    all_goals first
      | exact behind?_of_ne (hne _ (by decide)) _ _
      | exact behind?_of_ne (by decide) _ _
  rw [constant?, List.findSome?_eq_none_iff]
  rintro ⟨word, v⟩ hw
  simp only [hwords _ hw, Option.map_none]

/-- A row that begins as a numeral does is read as a number. -/
theorem value_digits (i : Int) (fuel room : ℕ) (rest : Text) :
    value (fuel + 1) room (ofChars (digits i) ++ rest) = number (ofChars (digits i) ++ rest) := by
  have hnone := constant?_digits i rest
  obtain ⟨d, ds, hd, h | h⟩ := digits_eq i
  all_goals
    rw [h, ofChars_cons, List.cons_append] at hnone ⊢
    rw [value]
    · rw [hnone]
    all_goals
      intros
      simp_all [isDigit]

theorem begins_digits (i : Int) : Begins (ofChars (digits i)) := by
  obtain ⟨d, ds, hd, h | h⟩ := digits_eq i
  · have hd' := isDigit_iff.mp hd
    refine ⟨.char d, ofChars ds, congrArg ofChars h, ?_, ?_, ?_⟩
    · simp only [isSpace, CodePoint.has, Bool.or_eq_false_iff, beq_eq_false_iff_ne]
      refine ⟨⟨⟨?_, ?_⟩, ?_⟩, ?_⟩ <;> (rintro rfl; simp at hd')
    all_goals (rintro ⟨⟩; simp at hd')
  · exact ⟨.char '-', ofChars (d :: ds), congrArg ofChars h, by decide⟩

theorem Begins.length_pos {w : List Char} (hw : Begins (ofChars w)) : 0 < w.length := by
  obtain ⟨p, ps, hps, -⟩ := hw
  have hlength := congrArg List.length hps
  rw [length_ofChars, List.length_cons] at hlength
  omega

theorem spells_int {i : Int} (hi : i.natAbs < 10 ^ Decimal.maxDigits) :
    Spells (digits i) (.int i) where
  begins := begins_digits i
  written _ _ _ := writtenInt_of_lt hi
  value fuel room rest hfuel _ hrest := by
    cases fuel with
    | zero => exact absurd (begins_digits i).length_pos (by omega)
    | succ fuel => rw [value_digits, number_append hrest hi]

/-! ### Arrays -/

section Elements
variable {ws : List (List Char)} {xs : List Value}

theorem begins_intercalate (h : List.Forall₂ Spells ws xs) (hne : xs ≠ []) :
    Begins (ofChars (comma.intercalate ws)) := by
  cases h with
  | nil => exact absurd rfl hne
  | cons hx hxs =>
    cases hxs with
    | nil => rw [List.intercalate_singleton]; exact hx.begins
    | cons =>
      rw [List.intercalate_cons_cons, List.append_assoc, ofChars_append]
      exact hx.begins.append _

theorem writtenElements_eq (h : List.Forall₂ Spells ws xs) (ms : Bool) {room : ℕ}
    (hroom : Value.depthOfAll xs ≤ room) :
    writtenElements ms room xs = .ok (comma.intercalate ws) := by
  induction h with
  | nil => rfl
  | cons hx hxs ih =>
    rw [Value.depthOfAll, Nat.max_le] at hroom
    have hfirst := hx.written ms room hroom.1
    have hrest := ih hroom.2
    cases hxs with
    | nil => rw [writtenElements, hfirst, List.intercalate_singleton]
    | cons =>
      rw [writtenElements, hfirst, hrest, List.intercalate_cons_cons]
      · rfl
      · simp

theorem elements_append (h : List.Forall₂ Spells ws xs) (hne : xs ≠ []) {fuel room : ℕ}
    (hfuel : (comma.intercalate ws).length < fuel) (hroom : Value.depthOfAll xs ≤ room)
    (rest : Text) :
    elements fuel room (ofChars (comma.intercalate ws) ++ .char ']' :: rest) = .ok (xs, rest) := by
  induction h generalizing fuel with
  | nil => exact absurd rfl hne
  | @cons w x ws xs hx hxs ih =>
    obtain ⟨fuel, rfl⟩ := Nat.exists_eq_add_one.mpr (Nat.zero_lt_of_lt hfuel)
    rw [Value.depthOfAll, Nat.max_le] at hroom
    cases hxs with
    | nil =>
      rw [List.intercalate_singleton] at hfuel ⊢
      rw [elements, hx.value fuel room _ (by omega) hroom.1 (by simp [Ends])]
      rfl
    | @cons w' x' ws xs hx' hxs =>
      have hrest := begins_intercalate (hxs.cons hx') (by simp)
      rw [List.intercalate_cons_cons] at hfuel ⊢
      rw [List.length_append] at hfuel
      have hnext : elements fuel room (ofChars (comma.intercalate (w' :: ws)) ++ .char ']' :: rest) =
          .ok (x' :: xs, rest) := ih (by simp) (by simp [comma] at hfuel ⊢; omega) hroom.2
      -- Behind the first element the reader finds the comma, and behind the space the next one.
      rw [elements, ofChars_append, ofChars_append, List.append_assoc, List.append_assoc,
        hx.value fuel room _ (by simp at hfuel; omega) hroom.1 (by simp [Ends, comma, ofChars])]
      show (elements fuel room (skipSpace (.char ' ' :: (_ ++ .char ']' :: rest))) >>=
        fun r => pure (x :: r.1, r.2)) = _
      rw [(hrest.append _).skipSpace_space, hnext]
      rfl

end Elements

/-- An array whose first element follows. -/
theorem value_array {cs : Text} (hcs : Begins cs) (fuel room : ℕ) :
    value (fuel + 1) (room + 1) (.char '[' :: cs) =
      (elements fuel room cs).map fun r => (.list r.1, r.2) := by
  have hspace := hcs.skipSpace
  obtain ⟨p, ps, rfl, -, hend, -⟩ := hcs
  rw [value, hspace]
  split
  · next h => exact absurd (List.cons.inj h).1 hend
  · cases elements fuel room (p :: ps) <;> rfl

theorem Spells.list {ws : List (List Char)} {xs : List Value} (h : List.Forall₂ Spells ws xs) :
    Spells ('[' :: comma.intercalate ws ++ [']']) (.list xs) where
  begins := ⟨.char '[', _, rfl, by decide⟩
  written ms room hroom := by
    obtain ⟨room, rfl⟩ := Nat.exists_eq_add_one.mpr (Nat.zero_lt_of_lt hroom)
    rw [Json.written, writtenElements_eq h ms (Nat.le_of_succ_le_succ hroom)]
    rfl
  value fuel room rest hfuel hroom hrest := by
    obtain ⟨room, rfl⟩ := Nat.exists_eq_add_one.mpr (Nat.zero_lt_of_lt hroom)
    obtain ⟨fuel, rfl⟩ := Nat.exists_eq_add_one.mpr (Nat.zero_lt_of_lt hfuel)
    have htext : ofChars ('[' :: comma.intercalate ws ++ [']']) ++ rest =
        .char '[' :: (ofChars (comma.intercalate ws) ++ .char ']' :: rest) := by simp [ofChars]
    rw [htext]
    -- An empty array is told by the bracket behind the first, without a reader of elements.
    by_cases hne : xs = []
    · subst hne
      cases h
      rfl
    · have hlen : (comma.intercalate ws).length < fuel := by
        simp only [List.length_append, List.length_cons, List.length_nil] at hfuel
        omega
      rw [value_array ((begins_intercalate h hne).append _),
        elements_append h hne hlen (Nat.le_of_succ_le_succ hroom)]
      rfl

/-! ### Objects -/

/-- **A row of characters spells an entry**: a name, and what spells its value. -/
def SpellsEntry (w : List Char) (e : Scalar × Value) : Prop :=
  ∃ t u, t.joined = t ∧ w = writtenText t ++ colon ++ u ∧ e.1 = .text t ∧ Spells u e.2

section Members
variable {ws : List (List Char)} {es : List (Scalar × Value)}

theorem begins_intercalate_entries (h : List.Forall₂ SpellsEntry ws es) (hne : es ≠ []) :
    ∃ cs, comma.intercalate ws = '"' :: cs := by
  cases h with
  | nil => exact absurd rfl hne
  | cons he hes =>
    obtain ⟨t, u, -, rfl, -⟩ := he
    cases hes with
    | nil => exact ⟨_, by rw [List.intercalate_singleton, writtenText]; rfl⟩
    | cons => exact ⟨_, by rw [List.intercalate_cons_cons, writtenText]; rfl⟩

theorem writtenMembers_eq (h : List.Forall₂ SpellsEntry ws es) (ms : Bool) {room : ℕ}
    (hroom : Value.depthOfEntries es ≤ room) :
    writtenMembers ms room es = .ok (comma.intercalate ws) := by
  induction h with
  | nil => rfl
  | @cons _ e _ _ he hes ih =>
    obtain ⟨k, v⟩ := e
    obtain ⟨t, u, -, rfl, rfl, hu⟩ := he
    rw [Value.depthOfEntries, Nat.max_le] at hroom
    have hfirst := hu.written ms room hroom.1
    have hrest := ih hroom.2
    cases hes with
    | nil =>
      rw [writtenMembers, hfirst, List.intercalate_singleton]
      rfl
    | cons =>
      rw [writtenMembers, hfirst, hrest, List.intercalate_cons_cons]
      · rfl
      · simp

section Member
variable {t : Text} {u : List Char} {v : Value} (ht : t.joined = t) (hu : Spells u v)
  {fuel room : ℕ} (hfuel : u.length ≤ fuel) (hroom : v.depth ≤ room)
include ht hu hfuel hroom

/-- The last member of an object. -/
theorem members_last (rest : Text) :
    members (fuel + 1) room (ofChars (writtenText t ++ colon ++ u) ++ .char '\x7d' :: rest) =
      .ok ([(.text t, v)], rest) := by
  have hvalue := hu.value fuel room (.char '\x7d' :: rest) hfuel hroom (by simp [Ends])
  rw [ofChars_append, ofChars_append, List.append_assoc, List.append_assoc, writtenText_append,
    members, text_append ht]
  show (Json.value fuel room (skipSpace (.char ' ' :: (ofChars u ++ .char '\x7d' :: rest))) >>=
    fun r => _) = _
  rw [(hu.begins.append _).skipSpace_space, hvalue]
  rfl

/-- A member that another one follows. -/
theorem members_more {cs : Text} (hcs : Begins cs) :
    members (fuel + 1) room (ofChars (writtenText t ++ colon ++ u) ++ .char ',' :: .char ' ' :: cs) =
      (members fuel room cs).map fun r => ((.text t, v) :: r.1, r.2) := by
  have hvalue := hu.value fuel room (.char ',' :: .char ' ' :: cs) hfuel hroom (by simp [Ends])
  rw [ofChars_append, ofChars_append, List.append_assoc, List.append_assoc, writtenText_append,
    members, text_append ht]
  show (Json.value fuel room (skipSpace (.char ' ' :: (ofChars u ++ .char ',' :: .char ' ' :: cs))) >>=
    fun r => _) = _
  rw [(hu.begins.append _).skipSpace_space, hvalue]
  show (members fuel room (skipSpace (.char ' ' :: cs)) >>= fun r => pure (_ :: r.1, r.2)) = _
  rw [hcs.skipSpace_space]
  cases members fuel room cs <;> rfl

end Member

theorem members_append (h : List.Forall₂ SpellsEntry ws es) (hne : es ≠ []) {fuel room : ℕ}
    (hfuel : (comma.intercalate ws).length < fuel) (hroom : Value.depthOfEntries es ≤ room)
    (rest : Text) :
    members fuel room (ofChars (comma.intercalate ws) ++ .char '\x7d' :: rest) = .ok (es, rest) := by
  induction h generalizing fuel with
  | nil => exact absurd rfl hne
  | @cons w e ws es he hes ih =>
    obtain ⟨fuel, rfl⟩ := Nat.exists_eq_add_one.mpr (Nat.zero_lt_of_lt hfuel)
    obtain ⟨k, v⟩ := e
    obtain ⟨t, u, ht, rfl, rfl, hu⟩ := he
    rw [Value.depthOfEntries, Nat.max_le] at hroom
    cases hes with
    | nil =>
      rw [List.intercalate_singleton] at hfuel ⊢
      exact members_last ht hu (by simp at hfuel; omega) hroom.1 rest
    | @cons w' e' ws es he' hes =>
      obtain ⟨cs, hcs⟩ := begins_intercalate_entries (hes.cons he') (by simp)
      have hbegins : Begins (ofChars (comma.intercalate (w' :: ws))) :=
        ⟨.char '"', ofChars cs, congrArg ofChars hcs, by decide⟩
      rw [List.intercalate_cons_cons] at hfuel ⊢
      have hnext : members fuel room (ofChars (comma.intercalate (w' :: ws)) ++
          .char '\x7d' :: rest) = .ok (e' :: es, rest) :=
        ih (by simp) (by simp [comma] at hfuel ⊢; omega) hroom.2
      have htext : ofChars (writtenText t ++ colon ++ u ++ comma ++ comma.intercalate (w' :: ws)) ++
          .char '\x7d' :: rest = ofChars (writtenText t ++ colon ++ u) ++ .char ',' :: .char ' ' ::
            (ofChars (comma.intercalate (w' :: ws)) ++ .char '\x7d' :: rest) := by
        simp only [comma, ofChars_append, List.append_assoc]
        rfl
      rw [htext, members_more ht hu (by simp at hfuel; omega) hroom.1 (hbegins.append _), hnext]
      rfl

end Members

theorem Spells.dict {ws : List (List Char)} {es : List (Scalar × Value)}
    (h : List.Forall₂ SpellsEntry ws es) (hdistinct : Entries.Distinct es) :
    Spells ('\x7b' :: comma.intercalate ws ++ ['\x7d']) (.dict es) where
  begins := ⟨.char '\x7b', _, rfl, by decide⟩
  written ms room hroom := by
    obtain ⟨room, rfl⟩ := Nat.exists_eq_add_one.mpr (Nat.zero_lt_of_lt hroom)
    rw [Json.written, writtenMembers_eq h ms (Nat.le_of_succ_le_succ hroom)]
    rfl
  value fuel room rest hfuel hroom hrest := by
    obtain ⟨room, rfl⟩ := Nat.exists_eq_add_one.mpr (Nat.zero_lt_of_lt hroom)
    obtain ⟨fuel, rfl⟩ := Nat.exists_eq_add_one.mpr (Nat.zero_lt_of_lt hfuel)
    have htext : ofChars ('\x7b' :: comma.intercalate ws ++ ['\x7d']) ++ rest =
        .char '\x7b' :: (ofChars (comma.intercalate ws) ++ .char '\x7d' :: rest) := by simp [ofChars]
    rw [htext]
    by_cases hne : es = []
    · subst hne
      cases h
      rfl
    · have hlen : (comma.intercalate ws).length < fuel := by
        simp only [List.length_append, List.length_cons, List.length_nil] at hfuel
        omega
      have hmembers := members_append h hne hlen (Nat.le_of_succ_le_succ hroom) rest
      obtain ⟨cs, hcs⟩ := begins_intercalate_entries h hne
      rw [hcs] at hmembers ⊢
      show (members fuel room (ofChars ('"' :: cs) ++ .char '\x7d' :: rest) >>= fun r =>
        pure (Value.dict (Entries.ofList r.1), r.2)) = _
      rw [hmembers]
      show Except.ok (Value.dict (Entries.ofList es), rest) = _
      rw [Entries.ofList_eq_self hdistinct]

/-! ### Values -/

theorem exists_forall₂ {α β : Type} {R : α → β → Prop} {ys : List β}
    (h : ∀ y ∈ ys, ∃ x, R x y) : ∃ xs, List.Forall₂ R xs ys := by
  induction ys with
  | nil => exact ⟨[], .nil⟩
  | cons y ys ih =>
    obtain ⟨⟨x, hx⟩, hys⟩ := List.forall_mem_cons.mp h
    obtain ⟨xs, hxs⟩ := ih hys
    exact ⟨x :: xs, .cons hx hxs⟩

/-- **Every value made of exact scalars is spelled** by some row of characters. -/
theorem exists_spells {v : Value} (h : v.MadeOf Scalar.Exact) : ∃ w, Spells w v := by
  induction h with
  | @scalar s hs =>
    cases s with
    | null => exact ⟨_, spells_null⟩
    | bool b => exact ⟨_, spells_bool b⟩
    | int i => exact ⟨_, spells_int hs⟩
    | text t => exact ⟨_, spells_text hs⟩
    | float _ | bytes _ | date _ | moment _ => exact absurd hs id
  | list _ ih =>
    obtain ⟨ws, hws⟩ := exists_forall₂ ih
    exact ⟨_, .list hws⟩
  | @dict es distinct names _ ih =>
    have hentries : ∀ e ∈ es, ∃ w, SpellsEntry w e := by
      intro e he
      obtain ⟨t, hk, ht⟩ := names e he
      obtain ⟨u, hu⟩ := ih e he
      exact ⟨_, t, u, ht, rfl, hk, hu⟩
    obtain ⟨ws, hws⟩ := exists_forall₂ hentries
    exact ⟨_, .dict hws distinct⟩

/-- **A value that does not go too deep is written, and read as it was.** -/
theorem read_write [Limits] {v : Value} (h : v.MadeOf Scalar.Exact)
    (hdepth : v.depth ≤ Limits.writing) (ms : Bool) :
    ∃ s : String, write ms v = .ok s ∧ read s = .ok v := by
  obtain ⟨w, hw⟩ := exists_spells h
  refine ⟨String.ofList w, ?_, ?_⟩
  · rw [write, hw.written ms Limits.writing hdepth]
    rfl
  · have hvalue := hw.value (2 * w.length + 2) Limits.reading [] (by omega)
      (hdepth.trans Limits.writing_le_reading) (by simp [Ends])
    rw [List.append_nil] at hvalue
    have htext : ofString (String.ofList w) = ofChars w := by
      rw [ofString, String.toList_ofList]
    have hhead : ¬(ofChars w).head? = some (.char '\ufeff') := by
      obtain ⟨p, ps, hps, -, -, hmark⟩ := hw.begins
      simpa [hps] using hmark
    rw [read, htext, document, if_neg hhead, hw.begins.skipSpace, length_ofChars, hvalue]
    rfl

end Stepwise.Json
