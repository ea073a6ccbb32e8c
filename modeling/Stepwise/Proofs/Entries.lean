import Mathlib.Data.List.Basic
import Stepwise.Entries
import Stepwise.Proofs.Distinct

/-!
# Mappings in which no key comes twice

Entering a value keeps the keys of a mapping distinct (`Distinct.insert`), so a mapping made of a
list has distinct keys (`distinct_ofList`), and a list whose keys are distinct is the mapping it
makes (`ofList_eq_self`). What is found under a key of such a mapping is what stands there
(`Distinct.get?_eq_some_iff`), and of what is entered one after the other the last is found
(`get?_foldl_insert`). A mapping told by its keys is told so behind an insertion
(`insert_map_eraseDups`). What holds of all keys and of all values of a list holds of those of its
mapping (`forall_ofList`).
-/

namespace Stepwise.Entries

variable {κ α : Type} [BEq κ] {es : Entries κ α}

/-- No key comes twice. -/
def Distinct (es : Entries κ α) : Prop := es.keys.Pairwise fun a b => (a == b) = false

instance (es : Entries κ α) : Decidable es.Distinct :=
  inferInstanceAs (Decidable (es.keys.Pairwise _))

theorem hasKey_iff {k : κ} : es.hasKey k = true ↔ ∃ j ∈ es.keys, (j == k) = true := by
  simp [hasKey, keys]

/-! ### Entering a value -/

theorem insertNew_of_hasKey {k : κ} (h : es.hasKey k = true) (v : α) : es.insertNew k v = es :=
  if_pos h

theorem get?_insertNew (k j : κ) (v : α) [EquivBEq κ] :
    (es.insertNew k v).get? j = (es.get? j).or (if k == j then some v else none) := by
  unfold insertNew
  split
  · next hk =>
    by_cases hkj : k == j
    · have hj : (es.get? j).isSome = true := by
        obtain ⟨i, hi, hik⟩ := hasKey_iff.mp hk
        rw [isSome_get?]
        exact hasKey_iff.mpr ⟨i, hi, BEq.trans hik hkj⟩
      rw [Option.or_of_isSome hj]
    · rw [if_neg hkj, Option.or_none]
  · rw [get?, List.find?_append, Option.map_or, ← get?]
    by_cases hkj : k == j
    · simp [hkj]
    · simp [hkj]

theorem insert_of_hasKey_eq_false {k : κ} (h : es.hasKey k = false) (v : α) :
    es.insert k v = es ++ [(k, v)] := by
  induction es with
  | nil => rfl
  | cons e es ih =>
    simp only [hasKey, List.any_cons, Bool.or_eq_false_iff] at h
    rw [insert, if_neg (by simp [h.1]), ih h.2, List.cons_append]

theorem Distinct.insert [EquivBEq κ] (h : es.Distinct) (k : κ) (v : α) :
    (es.insert k v).Distinct := by
  unfold Distinct
  rw [keys_insert]
  split
  · exact h
  · next hk =>
    refine List.pairwise_append.mpr ⟨h, List.pairwise_singleton .., fun j hj i hi => ?_⟩
    rw [List.mem_singleton.mp hi]
    exact Bool.eq_false_iff.mpr fun hjk => hk (hasKey_iff.mpr ⟨j, hj, hjk⟩)

theorem forall_insert {P : κ → Prop} {Q : α → Prop} (h : ∀ e ∈ es, P e.1 ∧ Q e.2) {k : κ} {v : α}
    (hk : P k) (hv : Q v) : ∀ e ∈ es.insert k v, P e.1 ∧ Q e.2 := by
  induction es with
  | nil => simpa [Entries.insert] using ⟨hk, hv⟩
  | cons e es ih =>
    obtain ⟨he, hes⟩ := List.forall_mem_cons.mp h
    unfold Entries.insert
    split
    · exact List.forall_mem_cons.mpr ⟨⟨he.1, hv⟩, hes⟩
    · exact List.forall_mem_cons.mpr ⟨he, ih hes⟩

/-! ### What is found under a key -/

theorem get?_cons (k j : κ) (v : α) (es : Entries κ α) :
    Entries.get? j ((k, v) :: es) = if k == j then some v else es.get? j := by
  unfold Entries.get?
  rw [List.find?_cons]
  cases k == j <;> rfl

theorem get?_append (k : κ) (es more : Entries κ α) :
    Entries.get? k (es ++ more) = (es.get? k).or (more.get? k) := by
  unfold Entries.get?
  rw [List.find?_append, Option.map_or]

theorem get?_mapValues {β : Type} (f : α → β) (k : κ) (es : Entries κ α) :
    Entries.get? k (es.map fun e => (e.1, f e.2)) = (es.get? k).map f := by
  unfold Entries.get?
  rw [List.find?_map, Option.map_map, Option.map_map]
  rfl

/-- Of what is entered one after the other, the last under a key is found. -/
theorem get?_foldl_insert [EquivBEq κ] (l : List (κ × α)) (es : Entries κ α) (k : κ) :
    (l.foldl (fun es e => es.insert e.1 e.2) es).get? k =
      (Entries.get? k l.reverse).or (es.get? k) := by
  induction l generalizing es with
  | nil => rfl
  | cons e l ih =>
    rw [List.foldl_cons, ih, get?_insert, List.reverse_cons, get?_append, Option.or_assoc, get?_cons]
    cases e.1 == k <;> rfl

/-- Where no key comes twice, what is found under a key is what stands there. -/
theorem Distinct.get?_eq_some_iff [LawfulBEq κ] (h : es.Distinct) (k : κ) (v : α) :
    es.get? k = some v ↔ (k, v) ∈ es := by
  induction es with
  | nil => simp [Entries.get?]
  | cons e es ih =>
    obtain ⟨j, w⟩ := e
    obtain ⟨hnew, hes⟩ := List.pairwise_cons.mp h
    rw [get?_cons, List.mem_cons]
    by_cases hjk : j = k
    · subst hjk
      have hnot : (j, v) ∉ es := by
        intro hmem
        have hne := hnew j (List.mem_map.mpr ⟨(j, v), hmem, rfl⟩)
        simp at hne
      simp [hnot, eq_comm]
    · simp [hjk, Ne.symm hjk, ih hes]

/-! ### Mappings told by their keys -/

section Told
variable {ι : Type} [BEq ι] [LawfulBEq ι] {g : ι → κ} (hg : ∀ i j, (g i == g j) = true ↔ i = j)
include hg

theorem get?_map (f : ι → α) (l : List ι) (i : ι) :
    Entries.get? (g i) (l.map fun j => (g j, f j)) = if i ∈ l then some (f i) else none := by
  induction l with
  | nil => rfl
  | cons j l ih =>
    rw [List.map_cons, get?_cons]
    by_cases hji : j = i
    · subst hji
      rw [if_pos ((hg j j).mpr rfl), if_pos List.mem_cons_self]
    · have hmem : i ∈ j :: l ↔ i ∈ l := by simp [Ne.symm hji]
      rw [if_neg fun h => hji ((hg j i).mp h), ih]
      exact if_congr hmem.symm rfl rfl

/-- Where a value is entered, only what stands under its key changes. -/
theorem insert_map {l : List ι} (hl : l.Nodup) {f f' : ι → α} {i : ι}
    (hf : ∀ j, j ≠ i → f' j = f j) :
    Entries.insert (g i) (f' i) (l.map fun j => (g j, f j)) =
      (if i ∈ l then l else l ++ [i]).map fun j => (g j, f' j) := by
  have hkept : ∀ l : List ι, i ∉ l →
      (l.map fun j => (g j, f j)) = l.map fun j => (g j, f' j) := by
    intro l hi
    refine List.map_congr_left fun j hj => ?_
    rw [hf j (ne_of_mem_of_not_mem hj hi)]
  induction l with
  | nil => rfl
  | cons j l ih =>
    obtain ⟨hj, hl⟩ := List.nodup_cons.mp hl
    rw [List.map_cons, Entries.insert]
    by_cases hji : j = i
    · subst hji
      rw [if_pos ((hg j j).mpr rfl), if_pos List.mem_cons_self, hkept l hj, List.map_cons]
    · have hmem : i ∈ j :: l ↔ i ∈ l := by simp [Ne.symm hji]
      rw [if_neg fun h => hji ((hg j i).mp h), ih hl, ← hf j hji]
      by_cases hi : i ∈ l
      · rw [if_pos hi, if_pos (hmem.mpr hi), List.map_cons]
      · rw [if_neg hi, if_neg fun h => hi (hmem.mp h), List.cons_append, List.map_cons]

theorem insert_map_eraseDups {f : ι → α} (f' : ι → α) {i : ι} (hf : ∀ j, j ≠ i → f' j = f j)
    (xs : List ι) :
    Entries.insert (g i) (f' i) (xs.eraseDups.map fun j => (g j, f j)) =
      (xs ++ [i]).eraseDups.map fun j => (g j, f' j) := by
  rw [insert_map hg (nodup_eraseDups xs) hf, eraseDups_concat]
  exact congrArg _ (if_congr List.mem_eraseDups rfl rfl)

end Told

/-! ### The mapping of a list -/

variable [Hashable κ] [EquivBEq κ] [LawfulHashable κ]

theorem distinct_ofList (l : List (κ × α)) : (ofList l).Distinct := by
  rw [ofList_eq_foldl]
  exact List.foldlRecOn l _ List.Pairwise.nil fun es h e _ => h.insert e.1 e.2

theorem forall_ofList {P : κ → Prop} {Q : α → Prop} {l : List (κ × α)}
    (h : ∀ e ∈ l, P e.1 ∧ Q e.2) : ∀ e ∈ ofList l, P e.1 ∧ Q e.2 := by
  rw [ofList_eq_foldl]
  exact List.foldlRecOn (motive := fun es : Entries κ α => ∀ e ∈ es, P e.1 ∧ Q e.2) l _ (by simp)
    fun es hes e he => forall_insert hes (h e he).1 (h e he).2

theorem ofList_eq_self {l : List (κ × α)} (h : Distinct l) : ofList l = l := by
  rw [ofList_eq_foldl]
  have key : ∀ (l : List (κ × α)) (es : Entries κ α), Distinct (es ++ l) →
      l.foldl (fun es e => Entries.insert e.1 e.2 es) es = es ++ l := by
    intro l
    induction l with
    | nil => exact fun es _ => (List.append_nil es).symm
    | cons e l ih =>
      intro es h
      have hnew : es.hasKey e.1 = false := by
        refine Bool.eq_false_iff.mpr fun hk => ?_
        obtain ⟨j, hj, hje⟩ := hasKey_iff.mp hk
        simp only [Distinct, keys, List.map_append, List.map_cons] at h hj
        have := (List.pairwise_append.mp h).2.2 j hj e.1 (List.mem_cons_self ..)
        rw [hje] at this
        exact Bool.false_ne_true this.symm
      rw [List.foldl_cons, insert_of_hasKey_eq_false hnew, ih _ (by simpa using h)]
      simp
  exact key l [] h

end Stepwise.Entries
