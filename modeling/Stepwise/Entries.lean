import Std.Data.HashMap.Lemmas

/-!
# Entries

Mappings that keep the order in which their keys were first entered: a list of pairs of a key and a
value in which no key comes twice. Entering a key again changes its value and not its place
(`keys_insert`); looking a key up gives what was entered for it last (`get?_insert`). A long list of
entries is entered with the places of the keys at hand, which gives the same as entering one after
the other (`ofList_eq_foldl`).
-/

namespace Stepwise

/-- The entries of a mapping, in the order in which their keys were first entered. -/
abbrev Entries (κ α : Type) := List (κ × α)

namespace Entries

variable {κ α : Type} [BEq κ]

/-- What a mapping holds under a key. -/
def get? (k : κ) (es : Entries κ α) : Option α := (es.find? fun e => e.1 == k).map Prod.snd

/-- Whether a mapping has a key. -/
def hasKey (k : κ) (es : Entries κ α) : Bool := es.any fun e => e.1 == k

/-- The keys of a mapping, in order. -/
def keys (es : Entries κ α) : List κ := es.map Prod.fst

/-- Enters a value under a key: in place if the key is there, else at the end. -/
def insert (k : κ) (v : α) : Entries κ α → Entries κ α
  | [] => [(k, v)]
  | e :: es => if e.1 == k then (e.1, v) :: es else e :: insert k v es

/-- Enters a value unless the key is there. -/
def insertNew (k : κ) (v : α) (es : Entries κ α) : Entries κ α :=
  if es.hasKey k then es else es ++ [(k, v)]

/-- Takes a key out. -/
def erase (k : κ) (es : Entries κ α) : Entries κ α := es.filter fun e => !(e.1 == k)

/-- Entries that are being entered, with the place of each key among them. -/
structure Draft (κ α : Type) [BEq κ] [Hashable κ] where
  entries : Array (κ × α) := #[]
  place : Std.HashMap κ Nat := ∅

/-- Enters an entry: at the place of its key, or at the end. -/
def Draft.enter [Hashable κ] (d : Draft κ α) (e : κ × α) : Draft κ α :=
  match d.place[e.1]? with
  | some i => { d with entries := d.entries.modify i fun old => (old.1, e.2) }
  | none => ⟨d.entries.push e, d.place.insert e.1 d.entries.size⟩

/-- The mapping with these entries, a later entry replacing an earlier one of the same key in its
place. -/
def ofList [Hashable κ] (l : List (κ × α)) : Entries κ α :=
  (l.foldl Draft.enter {}).entries.toList

/-! ### Looking up and the keys after an operation -/

theorem isSome_get? (k : κ) (es : Entries κ α) : (es.get? k).isSome = es.hasKey k := by
  rw [Bool.eq_iff_iff]; simp [get?, hasKey]

theorem get?_insert [EquivBEq κ] (k j : κ) (v : α) (es : Entries κ α) :
    (es.insert k v).get? j = if k == j then some v else es.get? j := by
  induction es with
  | nil => simp only [insert, get?, List.find?_cons, List.find?_nil]; split <;> simp_all
  | cons e es ih =>
    unfold insert
    split
    · next h =>
      rw [← BEq.congr_left h]
      simp only [get?, List.find?_cons]
      split <;> simp_all
    · next h =>
      simp only [get?, List.find?_cons] at ih ⊢
      split
      · next hj =>
        have hk : ¬(k == j) = true := fun hk => h (BEq.trans hj (BEq.symm hk))
        rw [if_neg hk, Option.map_some]
      · exact ih

theorem keys_insert (k : κ) (v : α) (es : Entries κ α) :
    keys (es.insert k v) = if es.hasKey k then es.keys else es.keys ++ [k] := by
  induction es with
  | nil => rfl
  | cons e es ih =>
    unfold insert
    split
    · next h => simp [keys, hasKey, h]
    · next h =>
      have hk : hasKey k (e :: es) = hasKey k es := by simp [hasKey, h]
      rw [hk, keys, List.map_cons, ← keys, ih]
      split <;> rfl

/-! ### Entering a list -/

theorem insert_eq_modify (k : κ) (v : α) (es : Entries κ α) :
    es.insert k v = match es.findIdx? fun e => e.1 == k with
      | some i => es.modify i fun old => (old.1, v)
      | none => es ++ [(k, v)] := by
  induction es with
  | nil => rfl
  | cons e es ih =>
    unfold insert
    rw [List.findIdx?_cons]
    by_cases h : e.1 == k
    · simp [h]
    · rw [if_neg h, ih]
      cases List.findIdx? (fun e => e.1 == k) es <;> simp [h]

/-- The place of each key is where it is first found. -/
def Draft.Placed [Hashable κ] (d : Draft κ α) : Prop :=
  ∀ k, d.place[k]? = d.entries.toList.findIdx? fun e => e.1 == k

theorem findIdx?_eq_keys (k : κ) (es : Entries κ α) :
    (es.findIdx? fun e => e.1 == k) = es.keys.findIdx? (· == k) := by
  rw [keys, List.findIdx?_map]; rfl

omit [BEq κ] in
theorem keys_modify (i : Nat) (v : α) (es : Entries κ α) :
    keys (es.modify i fun old => (old.1, v)) = es.keys := by
  apply List.ext_getElem <;> simp only [keys, List.length_map, List.length_modify,
    List.getElem_map, List.getElem_modify]
  intros
  split <;> rfl

theorem Draft.enter_spec [Hashable κ] [EquivBEq κ] [LawfulHashable κ] {d : Draft κ α}
    (h : d.Placed) (e : κ × α) :
    (d.enter e).Placed ∧ (d.enter e).entries.toList = insert e.1 e.2 d.entries.toList := by
  have hi := insert_eq_modify e.1 e.2 d.entries.toList
  rw [← h e.1] at hi
  unfold Draft.enter
  split
  · next i hp =>
    rw [hp] at hi
    refine ⟨fun k => ?_, by simpa using hi.symm⟩
    rw [h k, findIdx?_eq_keys, findIdx?_eq_keys, Array.toList_modify, keys_modify]
  · next hp =>
    rw [hp] at hi
    refine ⟨fun k => ?_, by simpa using hi.symm⟩
    rw [h e.1] at hp
    simp only [Std.HashMap.getElem?_insert, h k, Array.toList_push, List.findIdx?_append]
    split
    · next hk =>
      have hn : (d.entries.toList.findIdx? fun e => e.1 == k) = none := by
        rw [← hp]
        exact congrArg (List.findIdx? · _) (funext fun e => BEq.congr_right (BEq.symm hk))
      simp [hn, hk]
    · next hk => cases h : List.findIdx? (fun e => e.1 == k) d.entries.toList <;> simp [hk]

theorem ofList_eq_foldl [Hashable κ] [EquivBEq κ] [LawfulHashable κ] (l : List (κ × α)) :
    ofList l = l.foldl (fun es e => insert e.1 e.2 es) [] := by
  have key (d : Draft κ α) (h : d.Placed) : (l.foldl Draft.enter d).entries.toList =
      l.foldl (fun es e => insert e.1 e.2 es) d.entries.toList := by
    induction l generalizing d with
    | nil => rfl
    | cons e l ih =>
      obtain ⟨h₁, h₂⟩ := Draft.enter_spec h e
      rw [List.foldl_cons, List.foldl_cons, ih _ h₁, h₂]
  exact key {} fun k => by simp

end Entries

end Stepwise
