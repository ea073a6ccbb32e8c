import Mathlib.Data.List.Nodup
import Stepwise.Proofs.Document.Step
import Stepwise.Proofs.Step.Equality

/-!
# Steps that are built

The names of a step may be given in several forms, and what counts is the row of names that a form
stands for (`Given`). A step holds each name of a row once, where it comes first (`held`), and no row
of variables may have one that belongs to the engine.

* `variablesOf_eq_ok_iff`, `variablesOf_eq_error_iff`: what a row of variables gives, and what it is
  refused for.
* `build_eq_ok_iff`, `build_eq_error_iff`: so a step that is built holds its rows, and it is refused
  for the first row that has a variable of the engine.
* `build_parts`: what a step holds may be given again, and builds the same step.
* `built_of_given`: all of this, with the text of the refusal.
-/

namespace Stepwise.Step

open Document (scalarsOf_map completionOf_completion_eq_ok_iff)

/-- **The row of names that is given**: nothing, one name, or a collection of names, where a mapping
counts as its keys. -/
inductive Given : Value → List Text → Prop
  | nothing : Given .null []
  | single (t : Text) : Given (.text t) [t]
  | list (ts : List Text) : Given (.list (ts.map .text)) ts
  | tuple (ts : List Text) : Given (.tuple (ts.map .text)) ts
  | set (ts : List Text) : Given (.set (ts.map .text)) ts
  | keys {es : Entries Scalar Value} {ts : List Text} (h : es.keys = ts.map .text) :
      Given (.dict es) ts

/-- The row of plugins that is given; without one they are left open. -/
inductive GivenPlugins : Value → Option (List Text) → Prop
  | nothing : GivenPlugins .null none
  | row {v : Value} {ts : List Text} (present : v ≠ .null) (given : Given v ts) :
      GivenPlugins v (some ts)

/-- A variable that belongs to the engine. -/
def Reserved (t : Text) : Prop := t = ("_chatHistory" : String) ∨ t = ("_chatInput" : String)

instance : DecidablePred Reserved := fun _ => inferInstanceAs (Decidable (_ ∨ _))

/-- No variable of a row belongs to the engine. -/
def Free (ts : List Text) : Prop := ∀ t ∈ ts, ¬ Reserved t

instance (ts : List Text) : Decidable (Free ts) :=
  inferInstanceAs (Decidable (∀ t ∈ ts, ¬ Reserved t))

/-- The variables of a row that belong to the engine. -/
def reservedOf (ts : List Text) : List Text := ts.filter fun t => Reserved t

/-- What a step holds of a row of names: each name once, where it comes first. -/
def held (ts : List Text) : List Scalar := ts.eraseDups.map .text

/-! ### What is held of a row -/

theorem nodup_held (ts : List Text) : (held ts).Nodup :=
  List.Nodup.map (fun _ _ h => Scalar.text.inj h) (nodup_eraseDups ts)

theorem held_eraseDups (ts : List Text) : held ts.eraseDups = held ts := by
  unfold held
  rw [eraseDups_eq_self (nodup_eraseDups ts)]

theorem held_eq_nil_iff {ts : List Text} : held ts = [] ↔ ts = [] := by
  cases ts with
  | nil => exact iff_of_true rfl rfl
  | cons t ts => simp [held, List.eraseDups_cons]

theorem distinct_map_text (ts : List Text) : distinct (ts.map Scalar.text) = held ts := by
  unfold held
  rw [← distinct_eq_eraseDups]
  induction ts with
  | nil => rfl
  | cons t ts ih =>
    have hsame : ((fun n => !(Scalar.text t == n)) ∘ Scalar.text) = fun u => !(t == u) :=
      funext fun u => congrArg _ (Scalar.text_beq_text t u)
    rw [List.map_cons, distinct_cons, distinct_cons, ih, List.map_cons, List.filter_map, hsame]

theorem isReserved_text (t : Text) : isReserved (.text t) = decide (Reserved t) := by
  rw [Bool.eq_iff_iff, decide_eq_true_eq]
  simp [isReserved, reservedVariables, Reserved]

/-- Picking the variables of the engine goes along with taking out repetitions. -/
theorem filter_isReserved_held (ts : List Text) :
    (held ts).filter isReserved = held (reservedOf ts) := by
  have hsame : (isReserved ∘ Scalar.text) = fun t => decide (Reserved t) := funext isReserved_text
  have hcomm := filter_distinct (p := fun t => decide (Reserved t))
    (fun a b hab => by rw [eq_of_beq hab]) ts
  rw [distinct_eq_eraseDups, distinct_eq_eraseDups] at hcomm
  unfold held reservedOf
  rw [List.filter_map, hsame, hcomm]

theorem free_iff {ts : List Text} : Free ts ↔ held (reservedOf ts) = [] := by
  rw [held_eq_nil_iff, reservedOf, List.filter_eq_nil_iff]
  simp [Free]

theorem free_eraseDups_iff {ts : List Text} : Free ts.eraseDups ↔ Free ts := by
  simp [Free]

/-! ### Rows that are given -/

section Row
variable {v : Value} {ts : List Text}

theorem namesOf_of_given (h : Given v ts) : namesOf v = .ok (held ts) := by
  have hcollection : (scalarsOf (ts.map .text)).map distinct = .ok (held ts) := by
    rw [scalarsOf_map, ← distinct_map_text]
    rfl
  cases h with
  | nothing => rfl
  | single t => rfl
  | list => exact hcollection
  | tuple => exact hcollection
  | set => exact hcollection
  | @keys es _ hkeys =>
    show Except.ok (distinct (Entries.keys es)) = _
    rw [hkeys, distinct_map_text]

theorem pluginsOf_of_given {plugins : Option (List Text)} (h : GivenPlugins v plugins) :
    pluginsOf v = .ok (plugins.map held) := by
  cases h with
  | nothing => rfl
  | row present given =>
    have hpresent : pluginsOf v = ((namesOf v).map some).mapError .refused := by
      unfold pluginsOf
      split
      · exact absurd rfl present
      · rfl
    rw [hpresent, namesOf_of_given given]
    rfl

variable (h : Given v ts)
include h

theorem variablesOf_eq : variablesOf v =
    if (held (reservedOf ts)).isEmpty then .ok (held ts)
    else .error (.reserved (held (reservedOf ts))) := by
  rw [← filter_isReserved_held, variablesOf, namesOf_of_given h]
  rfl

theorem variablesOf_eq_ok_iff {ns : List Scalar} :
    variablesOf v = .ok ns ↔ Free ts ∧ held ts = ns := by
  rw [variablesOf_eq h, free_iff, ← List.isEmpty_iff]
  split
  · next hfree => simp [hfree]
  · next hfree => simp [hfree]

theorem variablesOf_eq_error_iff {e : BuildError} :
    variablesOf v = .error e ↔ ¬ Free ts ∧ e = .reserved (held (reservedOf ts)) := by
  rw [variablesOf_eq h, free_iff, ← List.isEmpty_iff]
  split
  · next hfree => simp [hfree]
  · next hfree => simp [hfree, eq_comm]

end Row

/-! ### Steps -/

/-- What the parts of a step stand for. -/
structure Rows where
  requires : List Text
  provides : List Text
  passthrough : List Text
  plugins : Option (List Text)
  completion : Completion

/-- The rows of variables, in the order in which they are checked. -/
def Rows.variables (r : Rows) : List (List Text) := [r.requires, r.provides, r.passthrough]

/-- **The parts of a step as they are given**: each row in one of the forms, and a policy. -/
structure GivenParts [Limits] (p : Parts) (r : Rows) : Prop where
  requires : Given p.requires r.requires
  provides : Given p.provides r.provides
  passthrough : Given p.passthrough r.passthrough
  plugins : GivenPlugins p.plugins r.plugins
  completion : completionOf p.completion = .ok r.completion

/-- The step that holds the rows, and the parts that are not names. -/
def Rows.step (r : Rows) (p : Parts) : Step where
  goal := p.goal
  requires := held r.requires
  provides := held r.provides
  passthrough := held r.passthrough
  completion := r.completion
  startingMessage := p.startingMessage
  transitionMessage := p.transitionMessage
  plugins := r.plugins.map held
  kind := p.kind

/-- What a step holds, as parts of a step. -/
def parts (s : Step) : Parts where
  goal := s.goal
  requires := .tuple (s.requires.map .scalar)
  provides := .tuple (s.provides.map .scalar)
  passthrough := .tuple (s.passthrough.map .scalar)
  completion := .completion s.completion
  startingMessage := s.startingMessage
  transitionMessage := s.transitionMessage
  plugins := s.plugins.elim .null fun ns => .tuple (ns.map .scalar)
  kind := s.kind

section Build
variable [Limits] {p : Parts} {r : Rows} (h : GivenParts p r)
include h

theorem build_eq_ok_iff {s : Step} :
    build p = .ok s ↔ (∀ ts ∈ r.variables, Free ts) ∧ s = r.step p := by
  rw [Document.build_eq_ok_iff, variablesOf_eq_ok_iff h.requires, variablesOf_eq_ok_iff h.provides,
    variablesOf_eq_ok_iff h.passthrough, pluginsOf_of_given h.plugins, h.completion]
  constructor
  · rintro ⟨⟨hrequires, h₁⟩, ⟨hprovides, h₂⟩, ⟨hpassthrough, h₃⟩, h₄, h₅, h₆, h₇, h₈, h₉⟩
    refine ⟨by simp [Rows.variables, hrequires, hprovides, hpassthrough], ?_⟩
    obtain ⟨goal, requires, provides, passthrough, completion, starting, transition, plugins,
      kind⟩ := s
    cases h₁; cases h₂; cases h₃; cases h₄; cases h₅; cases h₆; cases h₇; cases h₈; cases h₉
    rfl
  · rintro ⟨hfree, rfl⟩
    simp only [Rows.variables, List.forall_mem_cons] at hfree
    obtain ⟨hrequires, hprovides, hpassthrough, -⟩ := hfree
    exact ⟨⟨hrequires, rfl⟩, ⟨hprovides, rfl⟩, ⟨hpassthrough, rfl⟩, rfl, rfl, rfl, rfl, rfl, rfl⟩

/-- The first row that has a variable of the engine is what a step is refused for. -/
theorem build_of_first {ts : List Text} (hfirst : FirstWithout Free r.variables ts) :
    build p = .error (.reserved (held (reservedOf ts))) := by
  have hgives : ∀ {v : Value} {us : List Text}, Given v us → Free us →
      variablesOf v = .ok (held us) :=
    fun hv hus => (variablesOf_eq_ok_iff hv).mpr ⟨hus, rfl⟩
  have hrefuses : ∀ {v : Value} {us : List Text}, Given v us → ¬ Free us →
      variablesOf v = .error (.reserved (held (reservedOf us))) :=
    fun hv hus => (variablesOf_eq_error_iff hv).mpr ⟨hus, rfl⟩
  unfold build
  rcases firstWithout_cons.mp hfirst with ⟨hnot, rfl⟩ | ⟨hrequires, hfirst⟩
  · rw [hrefuses h.requires hnot]
    rfl
  rw [hgives h.requires hrequires]
  rcases firstWithout_cons.mp hfirst with ⟨hnot, rfl⟩ | ⟨hprovides, hfirst⟩
  · rw [hrefuses h.provides hnot]
    rfl
  rw [hgives h.provides hprovides]
  rcases firstWithout_cons.mp hfirst with ⟨hnot, rfl⟩ | ⟨-, hfirst⟩
  · rw [hrefuses h.passthrough hnot]
    rfl
  · exact absurd hfirst not_firstWithout_nil

theorem build_eq_error_iff {e : BuildError} : build p = .error e ↔
    ∃ ts, FirstWithout Free r.variables ts ∧ e = .reserved (held (reservedOf ts)) := by
  rcases exists_firstWithout Free r.variables with hfree | ⟨ts, hts⟩
  · rw [(build_eq_ok_iff h).mpr ⟨hfree, rfl⟩]
    refine iff_of_false (fun hbuild => by cases hbuild) ?_
    rintro ⟨ts, hts, -⟩
    exact hts.not (hfree ts hts.mem)
  · rw [build_of_first h hts]
    constructor
    · rintro ⟨⟩
      exact ⟨ts, hts, rfl⟩
    · rintro ⟨us, hus, rfl⟩
      rw [hts.unique hus]

/-- **What a step holds builds the same step.** -/
theorem build_parts {s : Step} (hs : build p = .ok s) : build s.parts = .ok s := by
  obtain ⟨hfree, rfl⟩ := (build_eq_ok_iff h).mp hs
  have hheld : ∀ ts, Given (.tuple ((held ts).map .scalar)) ts.eraseDups := by
    intro ts
    unfold held
    rw [List.map_map]
    exact .tuple ts.eraseDups
  have hparts : GivenParts (r.step p).parts
      ⟨r.requires.eraseDups, r.provides.eraseDups, r.passthrough.eraseDups,
        r.plugins.map List.eraseDups, r.completion⟩ := by
    refine ⟨hheld _, hheld _, hheld _, ?_, completionOf_completion_eq_ok_iff.mpr rfl⟩
    unfold parts Rows.step
    cases r.plugins with
    | none => exact .nothing
    | some ts => exact .row Value.noConfusion (hheld ts)
  refine (build_eq_ok_iff hparts).mpr ⟨?_, ?_⟩
  · simpa [Rows.variables, free_eraseDups_iff] using hfree
  · unfold Rows.step parts
    simp [held_eraseDups, Function.comp_def]

theorem build_refused_iff : (∃ e, build p = .error e) ↔ ¬ ∀ ts ∈ r.variables, Free ts := by
  simp only [build_eq_error_iff h]
  constructor
  · rintro ⟨_, ts, hts, -⟩ hfree
    exact hts.not (hfree ts hts.mem)
  · intro hnot
    obtain ⟨ts, hts⟩ := (exists_firstWithout Free r.variables).resolve_left hnot
    exact ⟨_, ts, hts, rfl⟩

end Build

theorem forall_free_iff {r : Rows} : (∀ ts ∈ r.variables, Free ts) ↔
    ∀ t ∈ r.requires ++ r.provides ++ r.passthrough, ¬ Reserved t := by
  simp [Rows.variables, Free, or_imp, forall_and]

theorem message_reserved_held (ts : List Text) : (BuildError.reserved (held ts)).message =
    "Invalid arguments: " ++ List.intercalate ("," : Text) ts.eraseDups := by
  have hplain : (held ts).map (fun n => (Value.scalar n).plain) = ts.eraseDups := by
    rw [held, List.map_map]
    exact List.map_id _
  rw [BuildError.message, hplain]

/-- **A step is refused exactly if a row of its variables has one that belongs to the engine.** The
refusal then names those of the first such row, each once, in the order in which they come first.
Otherwise the step holds the names of its rows, each once, in that order, and what it holds builds
an equal step. -/
theorem built_of_given [Limits] {p : Parts} {r : Rows} (h : GivenParts p r) :
    ((∃ e, build p = .error e) ↔ ∃ t ∈ r.requires ++ r.provides ++ r.passthrough, Reserved t) ∧
    (∀ e, build p = .error e → ∃ ts, FirstWithout Free r.variables ts ∧
      e = .reserved (held (reservedOf ts)) ∧ e.message =
        "Invalid arguments: " ++ List.intercalate ("," : Text) (reservedOf ts).eraseDups) ∧
    ∀ s, build p = .ok s → s = r.step p ∧
      (s.requires.Nodup ∧ s.provides.Nodup ∧ s.passthrough.Nodup ∧ ∀ ns ∈ s.plugins, ns.Nodup) ∧
      build s.parts = .ok s ∧ s.same s = true := by
  refine ⟨?_, fun e he => ?_, fun s hs => ?_⟩
  · rw [build_refused_iff h, forall_free_iff]
    simp only [not_forall, not_not, exists_prop]
  · obtain ⟨ts, hts, rfl⟩ := (build_eq_error_iff h).mp he
    exact ⟨ts, hts, rfl, message_reserved_held _⟩
  · have hbuilt := build_parts h hs
    obtain ⟨-, rfl⟩ := (build_eq_ok_iff h).mp hs
    refine ⟨rfl, ⟨nodup_held _, nodup_held _, nodup_held _, ?_⟩, hbuilt, same_iff.mpr rfl⟩
    intro ns hns
    obtain ⟨ts, -, rfl⟩ := Option.map_eq_some_iff.mp hns
    exact nodup_held ts

/-- Parts that give names twice, and variables of the engine as plugins. -/
def doubled (provides : List String) : Parts where
  requires := .list ((["x", "y", "x"].map Text.ofString).map .text)
  provides := .tuple ((provides.map Text.ofString).map .text)
  passthrough := .text ("y" : String)
  plugins := .list ((["_chatInput", "_chatInput"].map Text.ofString).map .text)

/-- What they stand for. -/
def doubledRows (provides : List String) : Rows where
  requires := ["x", "y", "x"].map Text.ofString
  provides := provides.map Text.ofString
  passthrough := [("y" : String)]
  plugins := some (["_chatInput", "_chatInput"].map Text.ofString)
  completion := .once

section Frames
attribute [local instance] Limits.thousandFrames

theorem givenParts_doubled (provides : List String) :
    GivenParts (doubled provides) (doubledRows provides) where
  requires := .list _
  provides := .tuple _
  passthrough := .single _
  plugins := .row Value.noConfusion (.list _)
  completion := completionOf_completion_eq_ok_iff.mpr rfl

/-- A step whose names are given twice is built again from what it holds. One that would provide
variables of the engine is refused for these. -/
theorem built_of_given_doubled :
    (GivenParts (doubled ["z", "z"]) (doubledRows ["z", "z"]) ∧
      ∃ s, build (doubled ["z", "z"]) = .ok s ∧ build s.parts = .ok s ∧
        s.provides = [.text ("z" : String)]) ∧
    (GivenParts (doubled ["_chatInput", "z", "_chatHistory", "_chatInput"])
        (doubledRows ["_chatInput", "z", "_chatHistory", "_chatInput"]) ∧
      ∃ e, build (doubled ["_chatInput", "z", "_chatHistory", "_chatInput"]) = .error e ∧
        e.message = "Invalid arguments: _chatInput,_chatHistory") := by
  refine ⟨⟨givenParts_doubled _, ?_⟩, givenParts_doubled _, ?_⟩
  · obtain ⟨hrefused, -, hbuilt⟩ := built_of_given (givenParts_doubled ["z", "z"])
    rcases hbuild : build (doubled ["z", "z"]) with e | s
    · exact absurd (hrefused.mp ⟨e, hbuild⟩) (by decide)
    · obtain ⟨hs, -, hagain, -⟩ := hbuilt s hbuild
      exact ⟨s, rfl, hagain, by rw [hs]; rfl⟩
  · obtain ⟨hrefused, hnamed, -⟩ :=
      built_of_given (givenParts_doubled ["_chatInput", "z", "_chatHistory", "_chatInput"])
    obtain ⟨e, he⟩ := hrefused.mpr (by decide)
    obtain ⟨ts, hts, -, hmessage⟩ := hnamed e he
    have hprovides : FirstWithout Free
        (doubledRows ["_chatInput", "z", "_chatHistory", "_chatInput"]).variables
        (["_chatInput", "z", "_chatHistory", "_chatInput"].map Text.ofString) :=
      firstWithout_cons.mpr (Or.inr ⟨by decide, firstWithout_cons.mpr (Or.inl ⟨by decide, rfl⟩)⟩)
    rw [hts.unique hprovides] at hmessage
    exact ⟨e, he, hmessage.trans (by decide)⟩

end Frames

end Stepwise.Step
