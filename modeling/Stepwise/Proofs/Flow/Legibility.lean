import Stepwise.Proofs.Flow.Drawing
import Stepwise.Proofs.Json.Number
import Stepwise.Proofs.Separation

/-!
# What a diagram tells

The line of an edge has the names on it between two bars, just as they are. So a name may look like
the end of one edge and the beginning of another, and then a diagram can be read in two ways.

* `nodes_inj`: the nodes can be read, since in a label every double quote is replaced.
* `Seamed`: a name that holds what stands between the names on one edge and those on the next, or
  ends with it up to the last bar.
* `map_ends_eq`: edges without seamed names can be read. At the first two that differ the names on
  the one go on behind those on the other, and they go on with a seam.
* `Realizable.shows`: steps that have given edges.
* `exists_misleads`: every seamed name is on an edge of a flow whose diagram is that of another one
  with other edges.
* `legible_unless_seamed`: so a diagram tells the dependencies unless a name is seamed.
-/

namespace Stepwise.Diagram

open Text (CodePoint)

/-! ### Numbers -/

/-- A number ends where its digits end. -/
theorem numeral_append_inj {m n : ℕ} {c d : Char} {t u : Text} (hc : Text.isDigit c = false)
    (hd : Text.isDigit d = false)
    (h : numeral m ++ CodePoint.char c :: t = numeral n ++ CodePoint.char d :: u) :
    m = n ∧ c = d ∧ t = u := by
  have hdigits : ∀ k, ∀ p ∈ numeral k, p.has Text.isDigit = true := fun k p hp => by
    obtain ⟨e, he, rfl⟩ := List.mem_map.mp hp
    exact Text.isDigit_of_mem_decimal he
  obtain ⟨hnumeral, hcd, htu⟩ := append_cons_inj (hdigits m) (hdigits n)
    (by simp [CodePoint.has, hc]) (by simp [CodePoint.has, hd]) h
  have hdecimal : Text.decimal m = Text.decimal n :=
    List.map_injective_iff.mpr (fun _ _ => CodePoint.char.inj) hnumeral
  refine ⟨?_, CodePoint.char.inj hcd, htu⟩
  rw [← Text.decimalValue_decimal m, hdecimal, Text.decimalValue_decimal]

theorem char_not_mem_numeral {n : ℕ} {c : Char} (hc : Text.isDigit c = false) :
    CodePoint.char c ∉ numeral n := by
  intro h
  obtain ⟨e, he, hec⟩ := List.mem_map.mp h
  have hdigit := Text.isDigit_of_mem_decimal he
  rw [CodePoint.char.inj hec, hc] at hdigit
  cases hdigit

/-! ### Nodes -/

/-- A label holds no double quote. -/
theorem quote_not_mem_label (s : Step) : CodePoint.char '"' ∉ label s := by
  intro h
  obtain ⟨p, -, hp⟩ := List.mem_flatMap.mp h
  split at hp
  · exact absurd hp (by decide)
  · next hne => exact hne (List.mem_singleton.mp hp).symm

/-- The lines of nodes from a place on. -/
def nodesText : ℕ → List Text → Text
  | _, [] => []
  | k, l :: ls => ("    s" : Text) ++ (numeral k ++ (("[\"" : Text) ++ (l ++ (("\"]\n" : Text) ++
      nodesText (k + 1) ls))))

/-- The lines of edges. -/
def edgesText : List Edge → Text
  | [] => []
  | e :: es => ("    s" : Text) ++ (numeral e.source ++ ((" -->|" : Text) ++ (e.caption ++
      (("| s" : Text) ++ (numeral e.target ++ (("\n" : Text) ++ edgesText es))))))

theorem flatMap_nodeText (k : ℕ) (ls : List Text) :
    (ls.mapIdx fun i => nodeText (k + i)).flatMap (· ++ ("\n" : Text)) = nodesText k ls := by
  induction ls generalizing k with
  | nil => rfl
  | cons l ls ih =>
    have hrest : (fun i => nodeText (k + (i + 1))) = fun i => nodeText (k + 1 + i) := by
      funext i
      rw [Nat.add_right_comm, Nat.add_assoc]
    have hend : ("\"]\n" : Text) = ("\"]" : Text) ++ ("\n" : Text) := rfl
    rw [List.mapIdx_cons, hrest, List.flatMap_cons, ih, nodesText, hend]
    simp only [nodeText, Nat.add_zero, List.append_assoc]

theorem flatMap_line (es : List Edge) :
    (es.map Edge.line).flatMap (· ++ ("\n" : Text)) = edgesText es := by
  induction es with
  | nil => rfl
  | cons e es ih =>
    rw [List.map_cons, List.flatMap_cons, ih, edgesText]
    simp only [Edge.line, List.append_assoc]

theorem sheet_eq (ls : List Text) (es : List Edge) :
    sheet ls es = ("graph TD" : Text) ++ (("\n" : Text) ++ (nodesText 0 ls ++ edgesText es)) := by
  have hnodes := flatMap_nodeText 0 ls
  simp only [Nat.zero_add] at hnodes
  rw [sheet, List.cons_append, List.flatMap_cons, List.flatMap_append, hnodes, flatMap_line,
    List.append_assoc]

/-- **The nodes end where the edges begin**: behind the number of a node stands a bracket, and
behind that of an edge a blank. -/
theorem nodes_ne_edges (k : ℕ) (l : Text) (ls : List Text) (es : List Edge) (t : Text) :
    nodesText k (l :: ls) ++ t ≠ edgesText es := by
  intro h
  cases es with
  | nil => cases h
  | cons e es =>
    rw [nodesText, edgesText] at h
    simp only [List.append_assoc] at h
    have hnumber := List.append_cancel_left h
    have hnext := (numeral_append_inj (c := '[') (d := ' ') rfl rfl hnumber).2.1
    exact absurd hnext (by decide)

theorem nodes_inj {ls ls' : List Text} (hls : ∀ l ∈ ls, CodePoint.char '"' ∉ l)
    (hls' : ∀ l ∈ ls', CodePoint.char '"' ∉ l) {k : ℕ} {es es' : List Edge}
    (h : nodesText k ls ++ edgesText es = nodesText k ls' ++ edgesText es') :
    ls = ls' ∧ edgesText es = edgesText es' := by
  induction ls generalizing k ls' with
  | nil =>
    cases ls' with
    | nil => exact ⟨rfl, h⟩
    | cons l ls' => exact absurd h.symm (nodes_ne_edges k l ls' es _)
  | cons l ls ih =>
    cases ls' with
    | nil => exact absurd h (nodes_ne_edges k l ls es' _)
    | cons l' ls' =>
      rw [nodesText, nodesText] at h
      simp only [List.append_assoc] at h
      have hlabels := List.append_cancel_left (List.append_cancel_left (List.append_cancel_left h))
      obtain ⟨rfl, hrest⟩ := append_separator_inj (a := CodePoint.char '"')
        (hls l List.mem_cons_self) (hls' l' List.mem_cons_self) hlabels
      have hnext : ("]\n" : Text) ++ (nodesText (k + 1) ls ++ edgesText es) =
          ("]\n" : Text) ++ (nodesText (k + 1) ls' ++ edgesText es') := hrest
      obtain ⟨rfl, hedges⟩ := ih (fun m hm => hls m (List.mem_cons_of_mem _ hm))
        (fun m hm => hls' m (List.mem_cons_of_mem _ hm)) (List.append_cancel_left hnext)
      exact ⟨rfl, hedges⟩

/-! ### Seams -/

/-- A bar, as it stands on both sides of what is written on an edge. -/
def bar : CodePoint := .char '|'

/-- What stands between the last bar of an edge and the first bar of the next one. -/
def link (target source : ℕ) : Text :=
  (" s" : Text) ++ numeral target ++ "\n" ++ "    s" ++ numeral source ++ " -->"

/-- **A seam**: what stands between the names on an edge and those on the next one. -/
def seam (target source : ℕ) : Text := bar :: link target source ++ [bar]

/-- **A name is seamed** if, with the bar that may follow it, it has a seam. The seam between an
edge to the first place and one from there does not count: the second one would stand in front. -/
def Seamed (w : Text) : Prop :=
  ∃ target source, (target ≠ 0 ∨ source ≠ 0) ∧ seam target source <:+: w ++ [bar]

theorem not_mem_link {c : Char} (hc : Text.isDigit c = false)
    (hmarks : c ∉ [' ', 's', '\n', '-', '>']) (target source : ℕ) :
    CodePoint.char c ∉ link target source := by
  have htexts : ∀ s : String, s.toList ⊆ [' ', 's', '\n', '-', '>'] →
      CodePoint.char c ∉ (s : Text) := fun s hs hmem => by
    obtain ⟨d, hd, hdc⟩ := List.mem_map.mp hmem
    exact hmarks (CodePoint.char.inj hdc ▸ hs hd)
  unfold link
  simp only [List.mem_append, not_or]
  exact ⟨⟨⟨⟨⟨htexts _ (by decide), char_not_mem_numeral hc⟩, htexts _ (by decide)⟩,
    htexts _ (by decide)⟩, char_not_mem_numeral hc⟩, htexts _ (by decide)⟩

theorem bar_not_mem_link (target source : ℕ) : bar ∉ link target source :=
  not_mem_link rfl (by decide) target source

/-- A seam in the names on an edge is a seam in one of them. -/
theorem exists_seamed {target source : ℕ} (hne : target ≠ 0 ∨ source ≠ 0) {ns : List Text}
    (h : seam target source <:+: List.intercalate (", " : Text) ns ++ [bar]) :
    ∃ n ∈ ns, Seamed n := by
  have hcomma : CodePoint.char ',' ∉ seam target source := by
    have hlink := not_mem_link (c := ',') rfl (by decide) target source
    simp [seam, bar, hlink]
  induction ns with
  | nil =>
    have hlen := h.length_le
    simp [seam] at hlen
  | cons n ns ih =>
    cases ns with
    | nil =>
      rw [List.intercalate_singleton] at h
      exact ⟨n, List.mem_singleton_self n, target, source, hne, h⟩
    | cons m ns =>
      rw [List.intercalate_cons_cons, List.append_assoc, List.append_assoc] at h
      rcases infix_of_separator hcomma h with hn | hrest
      · have hbar : seam target source <:+: n ++ [bar] := hn.trans (List.prefix_append _ _).isInfix
        exact ⟨n, List.mem_cons_self, target, source, hne, hbar⟩
      · rcases List.infix_cons_iff.mp hrest with hblank | hrest
        · exact absurd (List.cons_prefix_cons.mp hblank).1 (by decide)
        · obtain ⟨k, hk, hseamed⟩ := ih hrest
          exact ⟨k, List.mem_cons_of_mem _ hk, hseamed⟩

theorem bar_not_mem_last (target : ℕ) :
    bar ∉ (" s" : Text) ++ (numeral target ++ (("\n" : Text) ++ edgesText [])) := by
  have hnumeral : bar ∉ numeral target := char_not_mem_numeral rfl
  simp only [List.mem_append, hnumeral, edgesText, List.not_mem_nil, or_false, false_or]
  decide

theorem exists_link (target : ℕ) (d : Edge) (ds : List Edge) :
    ∃ u, (" s" : Text) ++ (numeral target ++ (("\n" : Text) ++ edgesText (d :: ds))) =
      link target d.source ++ bar :: u := by
  rw [edgesText]
  simp only [link, List.append_assoc]
  exact ⟨_, rfl⟩

/-- Where the names on an edge could also be longer, they would go on with the seam to the next
one. -/
theorem exists_seam {c c' : Text} {target : ℕ} {es : List Edge} {t : Text}
    (h : c ++ (("| s" : Text) ++ (numeral target ++ (("\n" : Text) ++ edgesText es))) =
      c' ++ bar :: t) (hlt : c.length < c'.length) :
    ∃ d ds, es = d :: ds ∧ seam target d.source <:+: c' ++ [bar] := by
  have hc : c <+: c' := List.prefix_of_prefix_length_le ⟨_, h⟩ (List.prefix_append _ _) hlt.le
  obtain ⟨m, rfl⟩ := hc
  rw [List.append_assoc] at h
  have hrest := List.append_cancel_left h
  cases m with
  | nil => simp at hlt
  | cons b m =>
    obtain ⟨rfl, hbehind⟩ : bar = b ∧
        (" s" : Text) ++ (numeral target ++ (("\n" : Text) ++ edgesText es)) = m ++ bar :: t :=
      List.cons.inj hrest
    cases es with
    | nil =>
      have hbar : bar ∈ m ++ bar :: t := by simp
      exact absurd (hbehind ▸ hbar) (bar_not_mem_last target)
    | cons d ds =>
      obtain ⟨u, hu⟩ := exists_link target d ds
      rw [hu] at hbehind
      have hm : link target d.source <+: m :=
        prefix_of_separator (bar_not_mem_link _ _) ⟨_, hbehind⟩
      have hlong : link target d.source ++ [bar] <+: m ++ bar :: t :=
        ⟨u, by rw [← hbehind]; simp⟩
      have hlen : (link target d.source ++ [bar]).length ≤ (m ++ [bar]).length := by
        simpa using hm.length_le
      have hbars : link target d.source ++ [bar] <+: m ++ [bar] :=
        List.prefix_of_prefix_length_le hlong ⟨t, by simp⟩ hlen
      have hseam : seam target d.source <+: (bar :: m) ++ [bar] :=
        List.cons_prefix_cons.mpr ⟨rfl, hbars⟩
      refine ⟨d, ds, rfl, ?_⟩
      rw [List.append_assoc]
      exact hseam.isInfix.trans (List.suffix_append _ _).isInfix

/-- The ends of an edge. -/
def Edge.ends (e : Edge) : ℕ × ℕ := (e.source, e.target)

/-- Edges in the order of their ends, none of which leads back to its source. -/
structure Ordered (es : List Edge) : Prop where
  increasing : es.Pairwise Edge.Before
  source_ne_target : ∀ e ∈ es, e.source ≠ e.target

theorem Ordered.tail {e : Edge} {es : List Edge} (h : Ordered (e :: es)) : Ordered es :=
  ⟨(List.pairwise_cons.mp h.increasing).2,
    fun d hd => h.source_ne_target d (List.mem_cons_of_mem _ hd)⟩

/-- Where the names on an edge go on behind those on another one, one of them is seamed. -/
theorem exists_seamed_of_length_lt {e e' : Edge} {es : List Edge} {t : Text}
    (hes : Ordered (e :: es))
    (h : e.caption ++ (("| s" : Text) ++ (numeral e.target ++ (("\n" : Text) ++ edgesText es))) =
      e'.caption ++ bar :: t) (hlt : e.caption.length < e'.caption.length) :
    ∃ w ∈ e'.names, Seamed w := by
  obtain ⟨d, ds, rfl, hseam⟩ := exists_seam h hlt
  have hbefore : e.Before d := (List.pairwise_cons.mp hes.increasing).1 d List.mem_cons_self
  have hloop := hes.source_ne_target e List.mem_cons_self
  have hne : e.target ≠ 0 ∨ d.source ≠ 0 := by
    rcases hbefore with hsource | ⟨hsource, -⟩ <;> omega
  exact exists_seamed hne hseam

/-- **The text of edges tells their ends** where no name is seamed. -/
theorem map_ends_eq {es es' : List Edge} (hes : Ordered es) (hes' : Ordered es')
    (hnames : ∀ e ∈ es, ∀ w ∈ e.names, ¬ Seamed w)
    (hnames' : ∀ e ∈ es', ∀ w ∈ e.names, ¬ Seamed w) (h : edgesText es = edgesText es') :
    es.map Edge.ends = es'.map Edge.ends := by
  induction es generalizing es' with
  | nil =>
    cases es' with
    | nil => rfl
    | cons e' es' => cases h
  | cons e es ih =>
    cases es' with
    | nil => cases h
    | cons e' es' =>
      rw [edgesText, edgesText] at h
      obtain ⟨hsource, -, harrow⟩ := numeral_append_inj (c := ' ') (d := ' ') rfl rfl
        (List.append_cancel_left h)
      have hbehind : ("-->|" : Text) ++ (e.caption ++ (("| s" : Text) ++ (numeral e.target ++
          (("\n" : Text) ++ edgesText es)))) = ("-->|" : Text) ++ (e'.caption ++ (("| s" : Text) ++
          (numeral e'.target ++ (("\n" : Text) ++ edgesText es')))) := harrow
      replace hbehind := List.append_cancel_left hbehind
      rcases Nat.lt_trichotomy e.caption.length e'.caption.length with hlt | heq | hgt
      · obtain ⟨w, hw, hseamed⟩ := exists_seamed_of_length_lt hes hbehind hlt
        exact absurd hseamed (hnames' e' List.mem_cons_self w hw)
      · obtain ⟨-, hrest⟩ := List.append_inj hbehind heq
        obtain ⟨htarget, -, hedges⟩ := numeral_append_inj (c := '\n') (d := '\n') rfl rfl
          (List.append_cancel_left hrest)
        have htail := ih hes.tail hes'.tail (fun d hd => hnames d (List.mem_cons_of_mem _ hd))
          (fun d hd => hnames' d (List.mem_cons_of_mem _ hd)) hedges
        rw [List.map_cons, List.map_cons, htail, Edge.ends, Edge.ends, hsource, htarget]
      · obtain ⟨w, hw, hseamed⟩ := exists_seamed_of_length_lt hes' hbehind.symm hgt
        exact absurd hseamed (hnames e List.mem_cons_self w hw)

/-! ### Diagrams that are the same -/

theorem Shows.ordered {steps : List Step} {es : List Edge} (h : Shows steps es) : Ordered es :=
  ⟨h.increasing, fun e he => ((h.leads_iff _ _).mp ⟨e, he, rfl, rfl⟩).1⟩

/-- A step reads a name, and one at another place writes it. -/
def Carries (steps : List Step) (w : Text) : Prop :=
  ∃ (i j : ℕ) (s t : Step), i ≠ j ∧ steps[i]? = some s ∧ steps[j]? = some t ∧
    Scalar.text w ∈ t.requires ∧ s.provides.contains (.text w) = true

/-- What is on the edges is what steps at different places share. -/
theorem Shows.carries_iff {steps : List Step} {es : List Edge} (h : Shows steps es) {w : Text} :
    (∃ e ∈ es, w ∈ e.names) ↔ Carries steps w := by
  constructor
  · rintro ⟨e, he, hw⟩
    obtain ⟨-, s, t, hs, ht, hnames⟩ := h.named e he
    have hshared : Scalar.text w ∈ t.requires.filter s.provides.contains :=
      hnames ▸ List.mem_map_of_mem hw
    obtain ⟨hreads, hwrites⟩ := List.mem_filter.mp hshared
    exact ⟨_, _, s, t, h.ordered.source_ne_target e he, hs, ht, hreads, hwrites⟩
  · rintro ⟨i, j, s, t, hne, hs, ht, hreads, hwrites⟩
    have hdep : t.dependsOn s = true := List.any_eq_true.mpr ⟨_, hreads, hwrites⟩
    obtain ⟨e, he, rfl, rfl⟩ := (h.leads_iff i j).mpr ⟨hne, s, t, hs, ht, hdep⟩
    have hshared : Scalar.text w ∈ e.names.map .text :=
      h.names_eq he hs ht ▸ List.mem_filter.mpr ⟨hreads, hwrites⟩
    obtain ⟨w', hw', heq⟩ := List.mem_map.mp hshared
    exact ⟨e, he, Scalar.text.inj heq ▸ hw'⟩

theorem leads_iff_mem_ends {es : List Edge} {i j : ℕ} :
    Leads es i j ↔ (i, j) ∈ es.map Edge.ends := by
  simp [Leads, Edge.ends]

/-- **A diagram tells the labels of a flow**, and if no name on an edge is seamed also its edges. -/
theorem feeds_iff_of_draw {f g : Flow} {T : Text} (hf : draw f = .ok T) (hg : draw g = .ok T) :
    f.steps.map label = g.steps.map label ∧
      ((∀ w, Carries f.steps w ∨ Carries g.steps w → ¬ Seamed w) →
        ∀ i j, Feeds f.steps i j ↔ Feeds g.steps i j) := by
  obtain ⟨es, hes, rfl⟩ := draw_eq_ok_iff.mp hf
  obtain ⟨es', hes', hsheet⟩ := draw_eq_ok_iff.mp hg
  rw [sheet_eq, sheet_eq] at hsheet
  have hbody := List.append_cancel_left (List.append_cancel_left hsheet)
  have hquotes : ∀ {steps : List Step}, ∀ l ∈ steps.map label, CodePoint.char '"' ∉ l := by
    rintro steps _ hl
    obtain ⟨s, -, rfl⟩ := List.mem_map.mp hl
    exact quote_not_mem_label s
  obtain ⟨hlabels, hedges⟩ := nodes_inj hquotes hquotes hbody
  refine ⟨hlabels.symm, fun hseams i j => ?_⟩
  have hends := map_ends_eq hes.ordered hes'.ordered
    (fun e he w hw => hseams w (Or.inl (hes.carries_iff.mp ⟨e, he, hw⟩)))
    (fun e he w hw => hseams w (Or.inr (hes'.carries_iff.mp ⟨e, he, hw⟩))) hedges.symm
  rw [← hes.leads_iff, ← hes'.leads_iff, leads_iff_mem_ends, leads_iff_mem_ends, hends]

/-! ### Steps for given edges -/

/-- The step at a place in a row of steps that has the given edges: it reads what is on the edge
that leads to it, and writes what is on those that lead from it. -/
def stepAt (es : List Edge) (place : ℕ) : Step where
  goal := none
  requires := ((es.find? (·.target == place)).elim [] Edge.names).map .text
  provides := ((es.filter (·.source == place)).flatMap Edge.names).map .text

/-- A flow that has the given edges. -/
def ofEdges (n : ℕ) (es : List Edge) : Flow := .ofSteps none none ((List.range n).map (stepAt es))

/-- **Edges that some steps have**: they lead to different places, there is a name on each of them,
and edges with a name in common come from one place. -/
structure Realizable (n : ℕ) (es : List Edge) : Prop where
  ordered : Ordered es
  lt : ∀ e ∈ es, e.source < n ∧ e.target < n
  names_ne_nil : ∀ e ∈ es, e.names ≠ []
  nodup_targets : (es.map Edge.target).Nodup
  source_eq : ∀ d ∈ es, ∀ e ∈ es, ∀ w ∈ d.names, w ∈ e.names → d.source = e.source

theorem step_ofEdges {n : ℕ} {es : List Edge} {k : ℕ} (hk : k < n) :
    (ofEdges n es).steps[k]? = some (stepAt es k) := by
  rw [ofEdges, Flow.steps_ofSteps, List.getElem?_map, List.getElem?_range hk]
  rfl

theorem eq_stepAt {n : ℕ} {es : List Edge} {k : ℕ} {s : Step}
    (h : (ofEdges n es).steps[k]? = some s) : s = stepAt es k := by
  have hk : k < n := by
    obtain ⟨hlt, -⟩ := List.getElem?_eq_some_iff.mp h
    simpa [ofEdges] using hlt
  exact Option.some.inj (h.symm.trans (step_ofEdges hk))

theorem label_ofEdges (n : ℕ) (es es' : List Edge) :
    (ofEdges n es).steps.map label = (ofEdges n es').steps.map label := by
  rw [ofEdges, ofEdges, Flow.steps_ofSteps, Flow.steps_ofSteps, List.map_map, List.map_map]
  rfl

theorem contains_provides_stepAt {es : List Edge} {k : ℕ} {w : Text} :
    (stepAt es k).provides.contains (.text w) = true ↔ ∃ e ∈ es, e.source = k ∧ w ∈ e.names := by
  simp only [stepAt, List.contains_iff_exists_mem_beq, List.mem_map, List.mem_flatMap,
    List.mem_filter, beq_iff_eq]
  constructor
  · rintro ⟨_, ⟨v, ⟨e, ⟨he, hk⟩, hv⟩, rfl⟩, hbeq⟩
    rw [Scalar.text_beq_text, beq_iff_eq] at hbeq
    exact ⟨e, he, hk, hbeq ▸ hv⟩
  · rintro ⟨e, he, hk, hw⟩
    exact ⟨_, ⟨w, ⟨e, ⟨he, hk⟩, hw⟩, rfl⟩, BEq.rfl⟩

section Realizable
variable {n : ℕ} {es : List Edge} (h : Realizable n es)
include h

theorem Realizable.requires_target {e : Edge} (he : e ∈ es) :
    (stepAt es e.target).requires = e.names.map .text := by
  have hfind : es.find? (·.target == e.target) = some e := by
    cases hd : es.find? (·.target == e.target) with
    | none => simpa using List.find?_eq_none.mp hd e he
    | some d =>
      have htarget : d.target = e.target := by simpa using List.find?_some hd
      have hde : d = e :=
        List.inj_on_of_nodup_map h.nodup_targets (List.mem_of_find?_eq_some hd) he htarget
      rw [hde]
  rw [stepAt, hfind]
  rfl

theorem Realizable.dependsOn_iff {i j : ℕ} :
    (stepAt es j).dependsOn (stepAt es i) = true ↔ Leads es i j := by
  unfold Step.dependsOn
  rw [List.any_eq_true]
  constructor
  · rintro ⟨v, hv, hprovides⟩
    cases hd : es.find? (·.target == j) with
    | none => simp [stepAt, hd] at hv
    | some d =>
      have htarget : d.target = j := by simpa using List.find?_some hd
      have hmem := List.mem_of_find?_eq_some hd
      rw [← htarget, h.requires_target hmem] at hv
      obtain ⟨w, hw, rfl⟩ := List.mem_map.mp hv
      obtain ⟨e, he, rfl, hwe⟩ := contains_provides_stepAt.mp hprovides
      exact ⟨d, hmem, h.source_eq d hmem e he w hw hwe, htarget⟩
  · rintro ⟨e, he, rfl, rfl⟩
    obtain ⟨w, hw⟩ := List.exists_mem_of_ne_nil _ (h.names_ne_nil e he)
    refine ⟨.text w, ?_, contains_provides_stepAt.mpr ⟨e, he, rfl, hw⟩⟩
    rw [h.requires_target he]
    exact List.mem_map_of_mem hw

/-- **The steps made for edges have them.** -/
theorem Realizable.shows : Shows (ofEdges n es).steps es where
  increasing := h.ordered.increasing
  leads_iff i j := by
    constructor
    · intro hleads
      obtain ⟨e, he, rfl, rfl⟩ := id hleads
      obtain ⟨hsource, htarget⟩ := h.lt e he
      exact ⟨h.ordered.source_ne_target e he, _, _, step_ofEdges hsource, step_ofEdges htarget,
        h.dependsOn_iff.mpr hleads⟩
    · rintro ⟨-, s, t, hs, ht, hdep⟩
      rw [eq_stepAt hs, eq_stepAt ht] at hdep
      exact h.dependsOn_iff.mp hdep
  named e he := by
    obtain ⟨hsource, htarget⟩ := h.lt e he
    refine ⟨h.names_ne_nil e he, _, _, step_ofEdges hsource, step_ofEdges htarget, ?_⟩
    rw [h.requires_target he, List.filter_eq_self.mpr]
    intro v hv
    obtain ⟨w, hw, rfl⟩ := List.mem_map.mp hv
    exact contains_provides_stepAt.mpr ⟨e, he, rfl, hw⟩

end Realizable

/-! ### Every seamed name misleads -/

theorem not_seamed_of_not_mem {w : Text} (h : bar ∉ w) : ¬ Seamed w := by
  rintro ⟨target, source, -, hseam⟩
  have hcount := hseam.sublist.count_le bar
  rw [List.count_append, List.count_eq_zero.mpr h] at hcount
  simp [seam] at hcount

theorem realizable_single {n p q : ℕ} {ns : List Text} (hpq : p ≠ q) (hlt : p < n ∧ q < n)
    (hns : ns ≠ []) : Realizable n [⟨p, q, ns⟩] := by
  constructor
  · constructor <;> simp [hpq]
  · simp [hlt]
  · simp [hns]
  · simp
  · simp

theorem realizable_pair {n p j i q : ℕ} {ns ns' : List Text} (hbefore : p < i ∨ p = i ∧ j < q)
    (hends : p ≠ j ∧ i ≠ q ∧ j ≠ q) (hlt : (p < n ∧ j < n) ∧ i < n ∧ q < n)
    (hns : ns ≠ []) (hns' : ns' ≠ []) (hapart : p = i ∨ ∀ w ∈ ns, w ∉ ns') :
    Realizable n [⟨p, j, ns⟩, ⟨i, q, ns'⟩] := by
  obtain ⟨hpj, hiq, hjq⟩ := hends
  constructor
  · constructor
    · simpa [Edge.Before] using hbefore
    · simp [hpj, hiq]
  · simp [hlt]
  · simp [hns, hns']
  · simp [hjq]
  · intro d hd e he w hwd hwe
    simp only [List.mem_cons, List.not_mem_nil, or_false] at hd he
    rcases hapart with rfl | hapart
    · rcases hd with rfl | rfl <;> rcases he with rfl | rfl <;> rfl
    · rcases hd with rfl | rfl <;> rcases he with rfl | rfl
      · rfl
      · exact absurd hwe (hapart w hwd)
      · exact absurd hwd (hapart w hwe)
      · rfl

theorem not_leads {es : List Edge} {i j : ℕ} (h : j ∉ es.map Edge.target) : ¬ Leads es i j := by
  rintro ⟨e, he, -, rfl⟩
  exact h (List.mem_map_of_mem he)

/-- The source of an edge to a place `j` that stands in front of one from `i`. -/
theorem exists_source {i j : ℕ} (h : j ≠ 0 ∨ i ≠ 0) : ∃ p ≤ i, p ≠ j := by
  rcases Nat.eq_zero_or_pos j with rfl | hj
  · exact ⟨i, le_rfl, by omega⟩
  · exact ⟨0, Nat.zero_le i, by omega⟩

/-- **An edge with a seam reads as two edges.** -/
theorem edgesText_of_seam {p j i q : ℕ} {ns ns₁ ns₂ : List Text} {es : List Edge}
    (h : Edge.caption ⟨p, q, ns⟩ =
      Edge.caption ⟨p, j, ns₁⟩ ++ (seam j i ++ Edge.caption ⟨i, q, ns₂⟩)) :
    edgesText (⟨p, q, ns⟩ :: es) = edgesText (⟨p, j, ns₁⟩ :: ⟨i, q, ns₂⟩ :: es) := by
  have hopening : (" -->|" : Text) = (" -->" : Text) ++ [bar] := rfl
  have hclosing : ("| s" : Text) = [bar] ++ (" s" : Text) := rfl
  simp only [edgesText, h, seam, link, hopening, hclosing, List.append_assoc, List.cons_append,
    List.nil_append]

theorem caption_pair (p q : ℕ) (n m : Text) :
    Edge.caption ⟨p, q, [n, m]⟩ = n ++ ((", " : Text) ++ m) := by
  rw [Edge.caption, List.intercalate_cons_cons, List.intercalate_singleton, List.append_assoc]

theorem caption_single (p q : ℕ) (n : Text) : Edge.caption ⟨p, q, [n]⟩ = n :=
  List.intercalate_singleton

/-- A row of letters that is longer than a name. -/
def filler (w : Text) : Text := List.replicate (w.length + 1) (.char 'x')

theorem not_seamed_filler (w : Text) : ¬ Seamed (filler w) :=
  not_seamed_of_not_mem fun h => absurd (List.eq_of_mem_replicate h) (by decide)

/-- **A name misleads**: of two flows with the same diagram the second one has a dependency that the
first one does not have, and the name is the only seamed one on the edges of the first one. -/
structure Misleads (w : Text) (f g : Flow) : Prop where
  drawn : ∃ T, draw f = .ok T ∧ draw g = .ok T
  apart : ∃ i j, Feeds g.steps i j ∧ ¬ Feeds f.steps i j
  carried : Carries f.steps w
  only : ∀ n, Carries f.steps n → Seamed n → n = w

theorem misleads_of_edges {w : Text} {n : ℕ} {e : Edge} {es es' : List Edge}
    (h : Realizable n (e :: es)) (h' : Realizable n es')
    (htext : edgesText (e :: es) = edgesText es') {i j : ℕ} (hleads : Leads es' i j)
    (hnot : ¬ Leads (e :: es) i j) (hw : w ∈ e.names)
    (hnames : ∀ d ∈ e :: es, ∀ m ∈ d.names, m = filler w ∨ m = w) :
    Misleads w (ofEdges n (e :: es)) (ofEdges n es') where
  drawn := by
    have hsheet : sheet ((ofEdges n es').steps.map label) es' =
        sheet ((ofEdges n (e :: es)).steps.map label) (e :: es) := by
      rw [sheet_eq, sheet_eq, htext, label_ofEdges n es' (e :: es)]
    exact ⟨_, draw_eq_ok_iff.mpr ⟨_, h.shows, rfl⟩, draw_eq_ok_iff.mpr ⟨_, h'.shows, hsheet⟩⟩
  apart := ⟨i, j, (h'.shows.leads_iff i j).mp hleads, mt (h.shows.leads_iff i j).mpr hnot⟩
  carried := h.shows.carries_iff.mp ⟨e, List.mem_cons_self, hw⟩
  only m hm hseamed := by
    obtain ⟨d, hd, hmem⟩ := h.shows.carries_iff.mpr hm
    rcases hnames d hd m hmem with rfl | rfl
    · exact absurd hseamed (not_seamed_filler w)
    · rfl

/-- A name that has a whole seam inside: the edge with it reads as two edges. -/
theorem misleads_inside {i j : ℕ} (hne : j ≠ 0 ∨ i ≠ 0) {u v w : Text}
    (hw : w = u ++ (seam j i ++ v)) : ∃ f g, Misleads w f g := by
  obtain ⟨p, hpi, hpj⟩ := exists_source hne
  have hone : Realizable (i + j + 2) [⟨p, i + j + 1, [filler w, w]⟩] :=
    realizable_single (by omega) (by omega) (List.cons_ne_nil _ _)
  have htwo : Realizable (i + j + 2)
      [⟨p, j, [filler w ++ ((", " : Text) ++ u)]⟩, ⟨i, i + j + 1, [v]⟩] := by
    refine realizable_pair (by omega) (by omega) (by omega) (List.cons_ne_nil _ _)
      (List.cons_ne_nil _ _) (Or.inr ?_)
    simp only [List.mem_singleton]
    rintro n rfl hv
    have hlen := congrArg List.length hv
    rw [filler, hw] at hlen
    simp only [List.length_append, List.length_replicate] at hlen
    omega
  have htext : edgesText [⟨p, i + j + 1, [filler w, w]⟩] =
      edgesText [⟨p, j, [filler w ++ ((", " : Text) ++ u)]⟩, ⟨i, i + j + 1, [v]⟩] := by
    refine edgesText_of_seam ?_
    rw [caption_pair, caption_single, caption_single, hw]
    simp only [List.append_assoc]
  have htarget : j ∉ [i + j + 1] := by
    rw [List.mem_singleton]; omega
  exact ⟨_, _, misleads_of_edges hone htwo htext ⟨_, List.mem_cons_self, rfl, rfl⟩
    (not_leads htarget) (by simp) (by simp)⟩

/-- A name that ends with a seam up to its last bar: the edge with it and the next one read as one
edge and another one, whose first name begins with the end of the first edge. -/
theorem misleads_end {i j : ℕ} (hne : j ≠ 0 ∨ i ≠ 0) {u w : Text}
    (hw : w ++ [bar] = u ++ seam j i) : ∃ f g, Misleads w f g := by
  obtain ⟨p, hpi, hpj⟩ := exists_source hne
  have hone : Realizable (i + j + 3)
      [⟨p, i + j + 1, [filler w, w]⟩, ⟨p, i + j + 2, [filler w]⟩] :=
    realizable_pair (by omega) (by omega) (by omega) (List.cons_ne_nil _ _)
      (List.cons_ne_nil _ _) (Or.inl rfl)
  have htwo : Realizable (i + j + 3) [⟨p, j, [filler w ++ ((", " : Text) ++ u)]⟩,
      ⟨i, i + j + 2, [link (i + j + 1) p ++ ([bar] ++ filler w)]⟩] := by
    refine realizable_pair (by omega) (by omega) (by omega) (List.cons_ne_nil _ _)
      (List.cons_ne_nil _ _) (Or.inr ?_)
    simp only [List.mem_singleton]
    rintro n rfl hv
    -- the one begins with a letter, the other one with a blank
    exact absurd (List.cons.inj hv).1 (by decide)
  -- a name with both seams, which is read as the one row of edges and as the other
  have hfirst : edgesText [⟨p, i + j + 2,
      [filler w ++ ((", " : Text) ++ (w ++ (seam (i + j + 1) p ++ filler w)))]⟩] =
      edgesText [⟨p, i + j + 1, [filler w, w]⟩, ⟨p, i + j + 2, [filler w]⟩] := by
    refine edgesText_of_seam ?_
    rw [caption_pair, caption_single, caption_single]
    simp only [List.append_assoc]
  have hsecond : edgesText [⟨p, i + j + 2,
      [filler w ++ ((", " : Text) ++ (w ++ (seam (i + j + 1) p ++ filler w)))]⟩] =
      edgesText [⟨p, j, [filler w ++ ((", " : Text) ++ u)]⟩,
        ⟨i, i + j + 2, [link (i + j + 1) p ++ ([bar] ++ filler w)]⟩] := by
    have hseams : w ++ seam (i + j + 1) p = u ++ (seam j i ++ (link (i + j + 1) p ++ [bar])) := by
      have hsplit : w ++ seam (i + j + 1) p = w ++ [bar] ++ (link (i + j + 1) p ++ [bar]) := by
        simp only [seam, List.append_assoc, List.cons_append, List.nil_append]
      rw [hsplit, hw, List.append_assoc]
    refine edgesText_of_seam ?_
    rw [caption_single, caption_single, caption_single, ← List.append_assoc w, hseams]
    simp only [List.append_assoc]
  have htarget : j ∉ [i + j + 1, i + j + 2] := by
    rw [List.mem_pair]; omega
  exact ⟨_, _, misleads_of_edges hone htwo (hfirst.symm.trans hsecond)
    ⟨_, List.mem_cons_self, rfl, rfl⟩ (not_leads htarget) (by simp) (by simp)⟩

/-- **Every seamed name misleads.** -/
theorem exists_misleads {w : Text} (h : Seamed w) : ∃ f g, Misleads w f g := by
  obtain ⟨j, i, hne, u, t, hw⟩ := h
  rcases t.eq_nil_or_concat with rfl | ⟨v, b, rfl⟩
  · rw [List.append_nil] at hw
    exact misleads_end hne hw.symm
  · rw [List.concat_eq_append, ← List.append_assoc, List.append_assoc u] at hw
    exact misleads_inside hne (List.append_inj_left' hw rfl).symm

/-- **A diagram can be read unless a name is seamed.** Two flows with the same diagram have equally
many steps, with the same labels; and if no name on an edge of either is seamed, then the same steps
depend on each other. This cannot be had for more names: every seamed one misleads. -/
theorem legible_unless_seamed (f g : Flow) :
    (∀ T, draw f = .ok T → draw g = .ok T →
      f.steps.length = g.steps.length ∧ f.steps.map label = g.steps.map label ∧
      ((∀ w, Carries f.steps w ∨ Carries g.steps w → ¬ Seamed w) →
        ∀ i j, Feeds f.steps i j ↔ Feeds g.steps i j)) ∧
    ∀ w, Seamed w → ∃ f g, Misleads w f g := by
  refine ⟨fun T hf hg => ?_, fun w hw => exists_misleads hw⟩
  obtain ⟨hlabels, hfeeds⟩ := feeds_iff_of_draw hf hg
  refine ⟨?_, hlabels, hfeeds⟩
  simpa using congrArg List.length hlabels

/-- The third step reads what the first one writes: one variable, whose name has a seam. -/
def disguised : Flow := .ofSteps (some "f") (some "g")
  [{ goal := some "a", provides := [.text "x| s1\n    s0 -->|y"] },
    { goal := some "b" },
    { goal := some "c", requires := [.text "x| s1\n    s0 -->|y"] }]

/-- The second step and the third one each read a variable that the first one writes. -/
def undisguised : Flow := .ofSteps (some "f") (some "g")
  [{ goal := some "a", provides := [.text "x", .text "y"] },
    { goal := some "b", requires := [.text "x"] },
    { goal := some "c", requires := [.text "y"] }]

/-- The text of both diagrams. -/
def misread : String :=
  "graph TD\n    s0[\"a\"]\n    s1[\"b\"]\n    s2[\"c\"]\n" ++
    "    s0 -->|x| s1\n    s0 -->|y| s2\n"

theorem not_legible_disguised :
    draw disguised = .ok misread ∧ draw undisguised = .ok misread ∧
      Feeds undisguised.steps 0 1 ∧ ¬ Feeds disguised.steps 0 1 := by
  have h : Shows disguised.steps [⟨0, 2, ["x| s1\n    s0 -->|y"]⟩] := by
    rw [shows_iff, disguised, Flow.steps_ofSteps]
    simp only [edges, shared_ofList]
    rfl
  have h' : Shows undisguised.steps [⟨0, 1, ["x"]⟩, ⟨0, 2, ["y"]⟩] := by
    rw [shows_iff, undisguised, Flow.steps_ofSteps]
    simp only [edges, shared_ofList]
    rfl
  refine ⟨draw_eq_ok_iff.mpr ⟨_, h, ?_⟩, draw_eq_ok_iff.mpr ⟨_, h', ?_⟩, ?_, ?_⟩
  · rw [disguised, Flow.steps_ofSteps]
    decide
  · rw [undisguised, Flow.steps_ofSteps]
    decide
  · exact (h'.leads_iff 0 1).mp ⟨_, List.mem_cons_self, rfl, rfl⟩
  · exact mt (h.leads_iff 0 1).mpr (not_leads (by decide))

end Stepwise.Diagram
