import Stepwise.Text.CodePoint

/-!
# Texts

A text is a row of code points. Every string is a text (`ofString`), and a text is a string unless
it holds surrogates (`string?_eq_some_iff`). Two surrogates that stand as a pair are not the
character that they stand for: that is what they are `joined` to.
-/

namespace Stepwise

/-- A row of code points. -/
abbrev Text := List Text.CodePoint

namespace Text

/-! ### Strings as texts -/

/-- The text of a row of characters. -/
def ofChars (cs : List Char) : Text := cs.map .char

/-- A string as a text. -/
def ofString (s : String) : Text := ofChars s.toList

instance : Coe String Text := ⟨ofString⟩

/-- The characters of a text that holds no surrogates. -/
def chars? : Text → Option (List Char)
  | [] => some []
  | .char c :: t => (chars? t).map (c :: ·)
  | .surrogate _ :: _ => none

/-- The string that a text is, if it holds no surrogates. -/
def string? (t : Text) : Option String := t.chars?.map String.ofList

theorem chars?_eq_some_iff {t : Text} {cs : List Char} : t.chars? = some cs ↔ t = ofChars cs := by
  induction t generalizing cs with
  | nil => cases cs <;> simp [chars?, ofChars]
  | cons p t ih =>
    cases p with
    | surrogate n => cases cs <;> simp [chars?, ofChars]
    | char c =>
      cases cs with
      | nil => simp [chars?, ofChars]
      | cons d cs =>
        simp only [chars?, Option.map_eq_some_iff, List.cons.injEq, ofChars, List.map_cons,
          CodePoint.char.injEq]
        constructor
        · rintro ⟨ds, hds, rfl, rfl⟩
          exact ⟨rfl, ih.1 hds⟩
        · rintro ⟨rfl, h⟩
          exact ⟨cs, ih.2 h, rfl, rfl⟩

theorem string?_eq_some_iff {t : Text} {s : String} : t.string? = some s ↔ t = ofString s := by
  simp only [string?, Option.map_eq_some_iff, chars?_eq_some_iff, ofString]
  constructor
  · rintro ⟨cs, rfl, rfl⟩
    rw [String.toList_ofList]
  · rintro rfl
    exact ⟨s.toList, rfl, String.ofList_toList⟩

@[simp] theorem string?_ofString (s : String) : (ofString s).string? = some s :=
  string?_eq_some_iff.2 rfl

theorem ofString_inj {s t : String} : ofString s = ofString t ↔ s = t :=
  ⟨fun h => by simpa using congrArg string? h, fun h => h ▸ rfl⟩

@[simp] theorem ofString_beq_ofString (s t : String) :
    (ofString s == ofString t) = (s == t) := by
  rw [Bool.eq_iff_iff, beq_iff_eq, beq_iff_eq, ofString_inj]

theorem ofString_append (s t : String) : ofString (s ++ t) = ofString s ++ ofString t := by
  simp [ofString, ofChars]

theorem ofChars_cons (c : Char) (cs : List Char) : ofChars (c :: cs) = .char c :: ofChars cs := rfl

theorem ofChars_append (cs ds : List Char) : ofChars (cs ++ ds) = ofChars cs ++ ofChars ds :=
  List.map_append

@[simp] theorem length_ofChars (cs : List Char) : (ofChars cs).length = cs.length :=
  List.length_map _

/-! ### Surrogates -/

/-- A code point in front of a text; a first surrogate is joined with a second one that the text
begins with. -/
def joinOnto : CodePoint → Text → Text
  | .surrogate h, .surrogate l :: t =>
    match CodePoint.ofPair? h l with
    | some c => .char c :: t
    | none => .surrogate h :: .surrogate l :: t
  | p, t => p :: t

/-- Joins every first surrogate with a second one that follows it. -/
def joined : Text → Text
  | [] => []
  | p :: t => joinOnto p (joined t)

@[simp] theorem joined_ofChars (cs : List Char) : joined (ofChars cs) = ofChars cs := by
  induction cs with
  | nil => rfl
  | cons c cs ih =>
    rw [ofChars_cons, joined, ih]
    rfl

/-- The characters of a text, the replacement character standing for each surrogate. -/
def replaced (t : Text) : List Char :=
  t.map fun
    | .char c => c
    | .surrogate _ => '\ufffd'

end Text

end Stepwise
