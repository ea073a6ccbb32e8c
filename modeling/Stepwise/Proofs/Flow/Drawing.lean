import Mathlib.Data.Set.List
import Stepwise.Flow.Diagram
import Stepwise.Flow.Document
import Stepwise.Proofs.Flow.Availability
import Stepwise.Proofs.Flow.Sharing
import Stepwise.Proofs.Outcome
import Stepwise.Text.Digits

/-!
# What a diagram shows

A diagram is drawn from the steps alone, edge by edge, and sorting goes by the objects and what is
left of them; the two look for dependencies in different ways. They agree: the edges of the diagram
are the dependencies that sorting respects.

* `mem_edges`, `pairwise_edges`: there is an edge for two different places exactly if the step at
  the second one depends on the step at the first one, and the edges are ordered by their ends.
* `Shows`, `shows_iff`: this, said of edges on which all variables are texts, tells the edges.
* `draw_eq_ok_iff`: a diagram can be drawn if every variable on an edge is a text, and then it is
  the `sheet` of the labels and edges.
* `leads_iff_waitsAt`: where no object stands at two places, an edge leads from one place to another
  exactly if the second one waits for the first one.
* `drawn_sorted`: so the edges contain a cycle exactly if the flow cannot be sorted, and otherwise
  they all lead from earlier steps to later ones.
-/

namespace Stepwise

namespace Diagram

/-! ### The text of a diagram -/

/-- A number in decimal digits. -/
def numeral (n : ℕ) : Text := .ofChars (Text.decimal n)

/-- An edge of a diagram: the places of its ends, and the variables on it. -/
structure Edge where
  source : ℕ
  target : ℕ
  names : List Text

namespace Edge

/-- What is written on an edge. -/
def caption (e : Edge) : Text := List.intercalate (", " : Text) e.names

/-- The line of an edge. -/
def line (e : Edge) : Text :=
  ("    s" : Text) ++ numeral e.source ++ " -->|" ++ e.caption ++ "| s" ++ numeral e.target

/-- The ends of an edge with its variables as they stand in the steps. -/
def entry (e : Edge) : ℕ × ℕ × List Scalar := (e.source, e.target, e.names.map .text)

/-- The order of edges: by their sources, and by their targets where these are the same. -/
def Before (d e : Edge) : Prop :=
  d.source < e.source ∨ d.source = e.source ∧ d.target < e.target

end Edge

/-- The line of a node. -/
def nodeText (place : ℕ) (label : Text) : Text :=
  ("    s" : Text) ++ numeral place ++ "[\"" ++ label ++ "\"]"

/-- The text of a diagram: a heading, a line for each node and one for each edge. -/
def sheet (labels : List Text) (es : List Edge) : Text :=
  (("graph TD" : Text) :: labels.mapIdx nodeText ++ es.map Edge.line).flatMap (· ++ ("\n" : Text))

theorem ofString_toString (n : ℕ) : Text.ofString (toString n) = numeral n := by
  simp [Text.ofString, numeral, Text.decimal]

theorem nodeLine_eq (place : ℕ) (s : Step) : nodeLine place s = nodeText place (label s) := by
  simp only [nodeLine, nodeText, Text.ofString_append, ofString_toString]

theorem edgeLine_eq (e : Edge) : edgeLine e.source e.target e.caption = e.line := by
  simp only [edgeLine, Edge.line, Text.ofString_append, ofString_toString, List.append_assoc]

theorem firstNotText_eq_none {ns : List Scalar} {k : ℕ} :
    firstNotText k ns = none ↔ ∃ ts : List Text, ns = ts.map .text := by
  induction ns generalizing k with
  | nil => exact iff_of_true rfl ⟨[], rfl⟩
  | cons n ns ih =>
    cases n with
    | text t =>
      rw [firstNotText, ih]
      constructor
      · rintro ⟨ts, rfl⟩; exact ⟨t :: ts, rfl⟩
      · rintro ⟨_ | ⟨u, ts⟩, hts⟩
        · cases hts
        · exact ⟨ts, (List.cons.inj hts).2⟩
    | _ =>
      refine iff_of_false (fun h => by cases h) ?_
      rintro ⟨_ | ⟨u, ts⟩, hts⟩ <;> cases hts

/-- Names can be joined if they are texts. -/
theorem joined_eq_ok_iff {ns : List Scalar} {t : Text} : joined ns = .ok t ↔
    ∃ ts : List Text, ns = ts.map .text ∧ List.intercalate (", " : Text) ts = t := by
  have htexts : ∀ ts : List Text,
      (ts.map Scalar.text).map (fun n => (Value.scalar n).text?.getD []) = ts := fun ts => by
    rw [List.map_map]
    exact List.map_id ts
  unfold joined
  split
  · rename_i place n hfirst
    refine iff_of_false (fun h => by cases h) ?_
    rintro ⟨ts, hts, -⟩
    rw [firstNotText_eq_none.mpr ⟨ts, hts⟩] at hfirst
    cases hfirst
  · rename_i hfirst
    obtain ⟨ts, rfl⟩ := firstNotText_eq_none.mp hfirst
    rw [htexts]
    constructor
    · rintro ⟨⟩; exact ⟨ts, rfl, rfl⟩
    · rintro ⟨us, hus, rfl⟩
      rw [List.map_injective_iff.mpr (fun _ _ => Scalar.text.inj) hus]

/-! ### The edges -/

variable {steps : List Step}

theorem filter_ne_nil_iff {s t : Step} :
    t.requires.filter s.provides.contains ≠ [] ↔ t.dependsOn s = true := by
  simp [Step.dependsOn, List.filter_eq_nil_iff]

/-- **An edge stands for a dependency**, and what is on it are the variables shared. -/
theorem mem_edges {i j : ℕ} {ns : List Scalar} : (i, j, ns) ∈ edges steps ↔
    i ≠ j ∧ ∃ s t, steps[i]? = some s ∧ steps[j]? = some t ∧ t.dependsOn s = true ∧
      ns = t.requires.filter s.provides.contains := by
  simp only [edges, shared_ofList, List.mem_flatMap, List.mem_filterMap, Prod.exists,
    List.mem_zipIdx_iff_getElem?, Option.ite_none_right_eq_some, Option.some.injEq,
    Prod.mk.injEq, Bool.and_eq_true, decide_eq_true_eq, Bool.not_eq_true',
    List.isEmpty_eq_false_iff, filter_ne_nil_iff]
  constructor
  · rintro ⟨s, _, hs, t, _, ht, ⟨hne, hdep⟩, rfl, rfl, rfl⟩
    exact ⟨hne, s, t, hs, ht, hdep, rfl⟩
  · rintro ⟨hne, s, t, hs, ht, hdep, rfl⟩
    exact ⟨s, i, hs, t, j, ht, ⟨hne, hdep⟩, rfl, rfl, rfl⟩

theorem pairwise_zipIdx : steps.zipIdx.Pairwise fun p q => p.2 < q.2 := by
  have hnumbers : (steps.zipIdx.map Prod.snd).Pairwise (· < ·) := by
    rw [List.zipIdx_map_snd]
    exact List.pairwise_lt_range' 1
  exact List.pairwise_map.mp hnumbers

/-- The edges are in the order of their ends, and no two have the same. -/
theorem pairwise_edges : (edges steps).Pairwise fun a b =>
    a.1 < b.1 ∨ a.1 = b.1 ∧ a.2.1 < b.2.1 := by
  have hends : ∀ {s : Step} {i : ℕ} {x : ℕ × ℕ × List Scalar}, ∀ p : Step × ℕ,
      (if i ≠ p.2 && !(shared (.ofList s.provides) p.1).isEmpty then
        some (i, p.2, shared (.ofList s.provides) p.1) else none) = some x →
      x.1 = i ∧ x.2.1 = p.2 := by
    intro s i x p hx
    rw [Option.ite_none_right_eq_some] at hx
    obtain ⟨-, ⟨⟩⟩ := hx
    exact ⟨rfl, rfl⟩
  unfold edges
  refine List.pairwise_flatMap.mpr ⟨fun p _ => List.pairwise_filterMap.mpr ?_, ?_⟩
  · refine pairwise_zipIdx.imp fun {q q'} hlt x hx y hy => ?_
    have hxq := hends q hx
    have hyq := hends q' hy
    exact Or.inr ⟨by omega, by omega⟩
  · refine pairwise_zipIdx.imp fun {q q'} hlt x hx y hy => ?_
    obtain ⟨p, -, hp⟩ := List.mem_filterMap.mp hx
    obtain ⟨p', -, hp'⟩ := List.mem_filterMap.mp hy
    have hxq := hends p hp
    have hyq := hends p' hp'
    exact Or.inl (by omega)

/-! ### Drawing -/

theorem forall₂_exists_iff {α β γ : Type} {f : γ → α} {g : γ → β} {xs : List α} {ys : List β} :
    List.Forall₂ (fun x y => ∃ c, f c = x ∧ g c = y) xs ys ↔
      ∃ cs : List γ, cs.map f = xs ∧ cs.map g = ys := by
  constructor
  · intro h
    induction h with
    | nil => exact ⟨[], rfl, rfl⟩
    | cons hc _ ih =>
      obtain ⟨c, rfl, rfl⟩ := hc
      obtain ⟨cs, rfl, rfl⟩ := ih
      exact ⟨c :: cs, rfl, rfl⟩
  · rintro ⟨cs, rfl, rfl⟩
    rw [List.forall₂_map_left_iff, List.forall₂_map_right_iff, List.forall₂_same]
    exact fun c _ => ⟨c, rfl, rfl⟩

/-- The lines can be written if every variable on an edge is a text. -/
theorem lines_eq_ok_iff {f : Flow} {ls : List Text} : lines f = .ok ls ↔
    ∃ es : List Edge, es.map Edge.entry = edges f.steps ∧
      ("graph TD" : Text) :: (f.steps.map label).mapIdx nodeText ++ es.map Edge.line = ls := by
  have hnodes : (f.steps.zipIdx.map fun p => nodeLine p.2 p.1) =
      (f.steps.map label).mapIdx nodeText := by
    rw [List.mapIdx_eq_zipIdx_map, List.zipIdx_map, List.map_map]
    exact List.map_congr_left fun p _ => nodeLine_eq p.2 p.1
  have hline : ∀ (x : ℕ × ℕ × List Scalar) (t : Text),
      (joined x.2.2 >>= fun names => pure (edgeLine x.1 x.2.1 names)) = Except.ok t ↔
        ∃ e : Edge, e.entry = x ∧ e.line = t := by
    rintro ⟨i, j, ns⟩ t
    rw [bind_eq_ok_iff]
    constructor
    · rintro ⟨names, hnames, ⟨⟩⟩
      obtain ⟨ts, rfl, rfl⟩ := joined_eq_ok_iff.mp hnames
      exact ⟨⟨i, j, ts⟩, rfl, (edgeLine_eq _).symm⟩
    · rintro ⟨⟨i, j, ts⟩, ⟨⟩, rfl⟩
      exact ⟨_, joined_eq_ok_iff.mpr ⟨ts, rfl, rfl⟩, congrArg Except.ok (edgeLine_eq ⟨i, j, ts⟩)⟩
  unfold lines
  rw [bind_eq_ok_iff]
  simp only [mapM_eq_ok_iff, hline, forall₂_exists_iff]
  constructor
  · rintro ⟨_, ⟨es, hes, rfl⟩, ⟨⟩⟩
    exact ⟨es, hes, by rw [← hnodes]⟩
  · rintro ⟨es, hes, rfl⟩
    exact ⟨_, ⟨es, hes, rfl⟩, by rw [← hnodes]; rfl⟩

theorem intercalate_append {α : Type} {a : α} {ls : List (List α)} (h : ls ≠ []) :
    List.intercalate [a] ls ++ [a] = ls.flatMap (· ++ [a]) := by
  induction ls with
  | nil => exact absurd rfl h
  | cons l ls ih =>
    cases ls with
    | nil => simp
    | cons m ls =>
      rw [List.intercalate_cons_cons, List.append_assoc, ih (List.cons_ne_nil _ _)]
      rfl

/-! ### What the edges show -/

/-- An edge leads from a place to another one. -/
def Leads (es : List Edge) (i j : ℕ) : Prop := ∃ e ∈ es, e.source = i ∧ e.target = j

/-- The step at a place depends on the one at another place. -/
def Feeds (steps : List Step) (i j : ℕ) : Prop :=
  i ≠ j ∧ ∃ s t, steps[i]? = some s ∧ steps[j]? = some t ∧ t.dependsOn s = true

/-- **Edges show a row of steps**: in the order of their ends they lead from each place to those
others whose steps depend on the step there, and on each of them are the variables that its target
reads and its source writes, in the order in which they are read. -/
structure Shows (steps : List Step) (es : List Edge) : Prop where
  increasing : es.Pairwise Edge.Before
  leads_iff : ∀ i j, Leads es i j ↔ Feeds steps i j
  named : ∀ e ∈ es, e.names ≠ [] ∧ ∃ s t, steps[e.source]? = some s ∧ steps[e.target]? = some t ∧
    e.names.map .text = t.requires.filter s.provides.contains

theorem Edge.Before.entry_ne {d e : Edge} (h : d.Before e) : d.entry ≠ e.entry := by
  intro heq
  have hsource : d.source = e.source := congrArg (·.1) heq
  have htarget : d.target = e.target := congrArg (·.2.1) heq
  rcases h with h | ⟨-, h⟩ <;> omega

/-- What is on an edge, told by the steps at its ends. -/
theorem Shows.names_eq {es : List Edge} (h : Shows steps es) {e : Edge} (he : e ∈ es) {s t : Step}
    (hs : steps[e.source]? = some s) (ht : steps[e.target]? = some t) :
    e.names.map .text = t.requires.filter s.provides.contains := by
  obtain ⟨-, s', t', hs', ht', hnames⟩ := h.named e he
  obtain rfl : s = s' := Option.some.inj (hs.symm.trans hs')
  obtain rfl : t = t' := Option.some.inj (ht.symm.trans ht')
  exact hnames

theorem Shows.mem_entries_iff {es : List Edge} (h : Shows steps es) (x : ℕ × ℕ × List Scalar) :
    x ∈ es.map Edge.entry ↔ x ∈ edges steps := by
  obtain ⟨i, j, ns⟩ := x
  rw [mem_edges, List.mem_map]
  constructor
  · rintro ⟨e, he, ⟨⟩⟩
    obtain ⟨hne, s, t, hs, ht, hdep⟩ := (h.leads_iff _ _).mp ⟨e, he, rfl, rfl⟩
    exact ⟨hne, s, t, hs, ht, hdep, h.names_eq he hs ht⟩
  · rintro ⟨hne, s, t, hs, ht, hdep, rfl⟩
    obtain ⟨e, he, rfl, rfl⟩ := (h.leads_iff i j).mpr ⟨hne, s, t, hs, ht, hdep⟩
    exact ⟨e, he, congrArg (fun ns => (e.source, e.target, ns)) (h.names_eq he hs ht)⟩

theorem shows_of_entries {es : List Edge} (h : es.map Edge.entry = edges steps) :
    Shows steps es where
  increasing := by
    have hpairs : (edges steps).Pairwise _ := pairwise_edges
    rw [← h, List.pairwise_map] at hpairs
    exact hpairs
  leads_iff i j := by
    constructor
    · rintro ⟨e, he, rfl, rfl⟩
      obtain ⟨hne, s, t, hs, ht, hdep, -⟩ := mem_edges.mp (h ▸ List.mem_map_of_mem he)
      exact ⟨hne, s, t, hs, ht, hdep⟩
    · rintro ⟨hne, s, t, hs, ht, hdep⟩
      have hmem := mem_edges.mpr ⟨hne, s, t, hs, ht, hdep, rfl⟩
      rw [← h] at hmem
      obtain ⟨e, he, heq⟩ := List.mem_map.mp hmem
      exact ⟨e, he, congrArg (·.1) heq, congrArg (·.2.1) heq⟩
  named e he := by
    obtain ⟨-, s, t, hs, ht, hdep, hnames⟩ := mem_edges.mp (h ▸ List.mem_map_of_mem he)
    refine ⟨fun hnil => filter_ne_nil_iff.mpr hdep ?_, s, t, hs, ht, hnames⟩
    rw [← hnames, hnil]
    rfl

/-- **The edges of a diagram are those that show its steps**, and no others do: two rows in the same
order with the same elements are the same. -/
theorem shows_iff {es : List Edge} : Shows steps es ↔ es.map Edge.entry = edges steps := by
  refine ⟨fun h => ?_, shows_of_entries⟩
  have hnodup : (es.map Edge.entry).Nodup :=
    List.pairwise_map.mpr (h.increasing.imp Edge.Before.entry_ne)
  have hnodup' : (edges steps).Nodup := pairwise_edges.imp fun hlt heq => by
    subst heq; omega
  have hsorted : (es.map Edge.entry).Pairwise fun a b => a.1 < b.1 ∨ a.1 = b.1 ∧ a.2.1 < b.2.1 :=
    List.pairwise_map.mpr h.increasing
  have hperm : (es.map Edge.entry).Perm (edges steps) :=
    (List.perm_ext_iff_of_nodup hnodup hnodup').mpr h.mem_entries_iff
  exact hperm.eq_of_pairwise (fun a b _ _ hab hba => by omega) hsorted pairwise_edges

/-- Only one row of edges shows some steps. -/
theorem Shows.unique {es es' : List Edge} (h : Shows steps es) (h' : Shows steps es') :
    es = es' := by
  have hentries : es.map Edge.entry = es'.map Edge.entry :=
    (shows_iff.mp h).trans (shows_iff.mp h').symm
  refine List.map_injective_iff.mpr (fun d e heq => ?_) hentries
  obtain ⟨source, target, names⟩ := d
  have hnames := List.map_injective_iff.mpr (fun _ _ => Scalar.text.inj) (congrArg (·.2.2) heq)
  cases congrArg (·.1) heq
  cases congrArg (·.2.1) heq
  cases hnames
  rfl

/-- **A diagram is a sheet**: its heading, its nodes and its edges, line by line. -/
theorem draw_eq_ok_iff {f : Flow} {T : Text} : draw f = .ok T ↔
    ∃ es, Shows f.steps es ∧ sheet (f.steps.map label) es = T := by
  unfold draw
  rw [bind_eq_ok_iff]
  simp only [lines_eq_ok_iff, ← shows_iff]
  constructor
  · rintro ⟨_, ⟨es, hes, rfl⟩, ⟨⟩⟩
    exact ⟨es, hes, (intercalate_append (List.cons_ne_nil _ _)).symm⟩
  · rintro ⟨es, hes, rfl⟩
    exact ⟨_, ⟨es, hes, rfl⟩, congrArg Except.ok (intercalate_append (List.cons_ne_nil _ _))⟩

/-- Where the steps read texts only, all that is on the edges are texts. -/
theorem exists_shows (h : ∀ s ∈ steps, ∀ v ∈ s.requires, ∃ t, v = .text t) :
    ∃ es, Shows steps es := by
  have hentry : ∀ x ∈ edges steps, x ∈ Set.range Edge.entry := by
    rintro ⟨i, j, ns⟩ hx
    obtain ⟨-, s, t, -, ht, -, rfl⟩ := mem_edges.mp hx
    have htexts : ∀ v ∈ t.requires.filter s.provides.contains, v ∈ Set.range Scalar.text :=
      fun v hv => (h t (List.mem_of_getElem? ht) v (List.mem_of_mem_filter hv)).imp
        fun _ hu => hu.symm
    obtain ⟨us, hus⟩ := (Set.range_list_map Scalar.text).ge htexts
    exact ⟨⟨i, j, us⟩, congrArg (fun ns => (i, j, ns)) hus⟩
  exact ((Set.range_list_map Edge.entry).ge hentry).imp fun _ => shows_iff.mpr

end Diagram

namespace Flow

open Diagram

variable {f : Flow} {es : List Edge}

section Distinct
variable (h : Shows f.steps es) (hd : f.places.Nodup)
include h hd

/-- **An edge leads from one place to another if the second one waits for the first one.** -/
theorem leads_iff_waitsAt {i j : ℕ} : Leads es i j ↔ Order.WaitsAt f.needs f.places j i := by
  rw [h.leads_iff]
  constructor
  · rintro ⟨hne, s, t, hs, ht, hdep⟩
    obtain ⟨a, ha, rfl⟩ := exists_object hs
    obtain ⟨b, hb, rfl⟩ := exists_object ht
    refine ⟨b, a, hb, ha, ?_, hdep⟩
    rintro rfl
    obtain ⟨hi, -⟩ := List.getElem?_eq_some_iff.mp ha
    exact hne ((List.getElem?_inj hi hd).mp (ha.trans hb.symm))
  · rintro ⟨b, a, hb, ha, hne, hdep⟩
    refine ⟨?_, f.step a, f.step b, step_of_place ha, step_of_place hb, hdep⟩
    rintro rfl
    exact hne (Option.some.inj (ha.symm.trans hb))

/-- The edges contain a cycle exactly if some objects wait for each other. -/
theorem exists_ring_iff_cycle :
    (∃ c, Order.Ring f.needs f.places c) ↔ ∃ i, Relation.TransGen (Leads es) i i := by
  have hleads : Leads es = Function.swap (Order.WaitsAt f.needs f.places) := by
    funext i j
    exact propext (leads_iff_waitsAt h hd)
  rw [Order.exists_ring_iff_way, hleads]
  exact exists_congr fun i => (Relation.transGen_swap ..).symm

/-- No edge leads back in the sorted row. -/
theorem lt_of_leads {r : List (Fin f.objects.length)} (hr : f.sorted = .ok r) {e : Edge}
    (he : e ∈ es) {p q : ℕ} (hp : r[p]? = f.places[e.source]?)
    (hq : r[q]? = f.places[e.target]?) : p < q := by
  obtain ⟨b, a, hb, ha, hne, hdep⟩ := (leads_iff_waitsAt h hd).mp ⟨e, he, rfl, rfl⟩
  obtain ⟨v, hv, hprovides⟩ := needs_iff.mp hdep
  exact lt_of_provides hr (hq.trans hb) (hp.trans ha) hne hv hprovides

end Distinct

/-- All that the steps of a flow read are texts. -/
def ReadsTexts (f : Flow) : Prop := ∀ s ∈ f.steps, ∀ v ∈ s.requires, ∃ t, v = .text t

/-- **A diagram shows what sorting respects.** A flow that reads texts only can be drawn, as the
sheet of its labels and of edges that show its steps. If no object stands at two places, then these
edges contain a cycle exactly if the flow cannot be sorted; and otherwise the sorted row, which is a
permutation of the objects, has the source of each edge before its target. -/
theorem drawn_sorted (htexts : f.ReadsTexts) (hd : f.places.Nodup) :
    ∃ es, draw f = .ok (sheet (f.steps.map label) es) ∧ Shows f.steps es ∧
      ((∃ c, f.sorted = .error c) ↔ ∃ i, Relation.TransGen (Leads es) i i) ∧
      ∀ r, f.sorted = .ok r → r.Perm f.places ∧ ∀ e ∈ es, ∀ p q : ℕ,
        r[p]? = f.places[e.source]? → r[q]? = f.places[e.target]? → p < q := by
  obtain ⟨es, hshows⟩ := exists_shows htexts
  refine ⟨es, draw_eq_ok_iff.mpr ⟨es, hshows, rfl⟩, hshows, ?_, fun r hr => ⟨sorted_perm hr, ?_⟩⟩
  · rw [← exists_ring_iff_cycle hshows hd]
    constructor
    · rintro ⟨c, hc⟩
      exact (sorted_eq_error_iff.mp hc).1
    · intro hring
      cases hsorted : f.sorted with
      | error c => exact ⟨c, rfl⟩
      | ok r => exact absurd hring (exists_sorted_iff.mp ⟨r, hsorted⟩)
  · intro e he p q hp hq
    exact lt_of_leads hshows hd hr he hp hq

theorem nodup_places_ofSteps (name goal : Option Text) (steps : List Step) :
    (ofSteps name goal steps).places.Nodup :=
  List.nodup_finRange _

/-- Three steps, listed against the order in which they have to run. -/
def backward : Flow := ofSteps none none
  [{ goal := some [.char 'a'], requires := [.text [.char 'y']] },
    { goal := some [.char 'b'], requires := [.text [.char 'x']], provides := [.text [.char 'y']] },
    { goal := some [.char 'c'], provides := [.text [.char 'y'], .text [.char 'x']] }]

/-- The edges of their diagram. -/
def backwardEdges : List Edge := [⟨1, 0, ["y"]⟩, ⟨2, 0, ["y"]⟩, ⟨2, 1, ["x"]⟩]

theorem shows_backwardEdges : Shows backward.steps backwardEdges := by
  refine shows_iff.mpr ?_
  simp [edges, shared_ofList, backward, backwardEdges, Edge.entry, Text.ofString, Text.ofChars]

theorem drawn_sorted_backward : backward.ReadsTexts ∧ backward.places.Nodup ∧
    draw backward = .ok (sheet ["a", "b", "c"] backwardEdges) ∧
    backwardEdges.map Edge.line =
      [("    s1 -->|y| s0" : Text), "    s2 -->|y| s0", "    s2 -->|x| s1"] ∧
    backward.sorted = .ok ([2, 1, 0] : List (Fin 3)) ∧
    ((∃ c, backward.sorted = .error c) ↔ ∃ i, Relation.TransGen (Leads backwardEdges) i i) ∧
    ∀ r, backward.sorted = .ok r → r.Perm backward.places ∧ ∀ e ∈ backwardEdges, ∀ p q : ℕ,
      r[p]? = backward.places[e.source]? → r[q]? = backward.places[e.target]? → p < q := by
  have htexts : backward.ReadsTexts := by
    simp [ReadsTexts, backward]
  have hd : backward.places.Nodup := nodup_places_ofSteps _ _ _
  obtain ⟨es, hdraw, hshows, hcycle, horder⟩ := drawn_sorted htexts hd
  obtain rfl : es = backwardEdges := hshows.unique shows_backwardEdges
  have hlabels : backward.steps.map label = ["a", "b", "c"] := by decide
  rw [hlabels] at hdraw
  have hsorted : backward.sorted = .ok ([2, 1, 0] : List (Fin 3)) :=
    sorted_ok_iff.mpr <| Order.arrange_step (by decide) rfl <| Order.arrange_step (by decide) rfl <|
      Order.arrange_step (by decide) rfl <| Order.arrange_of_none rfl
  exact ⟨htexts, hd, hdraw, by decide, hsorted, hcycle, horder⟩

end Flow

namespace Document

/-- Each step that a document describes is an object of its own. -/
theorem nodup_places_of_flow [Limits] {v : Value} {f : Flow} (h : flow v = .ok f) : f.places.Nodup := by
  cases v with
  | dict es =>
    simp only [flow, bind_eq_ok_iff] at h
    obtain ⟨-, -, name, -, goal, -, steps, -, ⟨⟩⟩ := h
    exact Flow.nodup_places_ofSteps _ _ _
  | _ => cases h

end Document

end Stepwise
