import Mathlib.Data.Set.Function
import Stepwise.Proofs.Progress.Client
import Stepwise.Proofs.Separation

/-!
# Histories that share a key

The key of a history joins the session and the step by an underscore, so two pairs of which one has
the underscore in the session and the other one in the step can be called the same.

* `history_latest_iff`: what is loaded for a pair is what was saved last for any pair that is called
  the same. It is what was saved last for the pair itself, in all runs over some pairs, exactly when
  no two of these are called the same; sessions without underscores never are, nor are such steps.
* `not_isolated_underscore`: the step `b_c` of the session `a` and the step `c` of the session `a_b`
  are.
-/

namespace Stepwise.ProgressStore

open Scalar

/-! ### What is called the same -/

/-- The character between a session and a step. -/
def underscore : Text.CodePoint := .char '_'

theorem joined_eq (q : Text × Text) : joined q = q.1 ++ underscore :: q.2 := by
  rw [joined, List.append_assoc]
  rfl

/-- A session without underscores is the part in front of the first one. -/
theorem joined_inj_of_session {q q' : Text × Text} (h : underscore ∉ q.1)
    (h' : underscore ∉ q'.1) (heq : joined q = joined q') : q = q' := by
  rw [joined_eq, joined_eq] at heq
  obtain ⟨hs, ht⟩ := append_separator_inj h h' heq
  exact Prod.ext hs ht

/-- A step without underscores is the part behind the last one. -/
theorem joined_inj_of_step {q q' : Text × Text} (h : underscore ∉ q.2)
    (h' : underscore ∉ q'.2) (heq : joined q = joined q') : q = q' := by
  have hrows := congrArg List.reverse heq
  simp only [joined_eq, List.reverse_append, List.reverse_cons, List.append_assoc,
    List.cons_append, List.nil_append] at hrows
  obtain ⟨ht, hs⟩ :=
    append_separator_inj (mt List.mem_reverse.mp h) (mt List.mem_reverse.mp h') hrows
  exact Prod.ext (List.reverse_injective hs) (List.reverse_injective ht)

namespace Client

/-! ### Runs over some pairs -/

section Runs
variable [Limits]

/-- **Isolated pairs of a session and a step**: in every run that saves histories for these only,
what is loaded for one of them is what was saved last for it. -/
def Isolated (pairs : Set (Text × Text)) : Prop :=
  ∀ actions, (run actions).Plain → (∀ e ∈ (run actions).histories, e.1 ∈ pairs) →
    ∀ q ∈ pairs, (run actions).store.history q.1 q.2 =
      .ok (latest (· = q) (run actions).histories)

/-- A client that saves a history for one pair and then one for another. -/
def twice (q q' : Text × Text) (own other : List Value) : List Action :=
  [.saveHistory q.1 q.2 own, .saveHistory q'.1 q'.2 other]

theorem histories_twice (q q' : Text × Text) {own other : List Value} {text text' : String}
    (hown : Json.write false (.list own) = .ok text)
    (hother : Json.write false (.list other) = .ok text') :
    (run (twice q q' own other)).histories = [(q, own), (q', other)] := by
  have hrun : run (twice q q' own other) =
      (({} : Client).act (.saveHistory q.1 q.2 own)).act (.saveHistory q'.1 q'.2 other) := rfl
  rw [hrun, act_saveHistory hown, act_saveHistory hother]
  rfl

theorem isolated_of_injOn {pairs : Set (Text × Text)} (h : Set.InjOn joined pairs) :
    Isolated pairs := by
  intro actions hplain hpairs q hq
  have hsame : latest (joined · = joined q) (run actions).histories =
      latest (· = q) (run actions).histories :=
    latest_congr fun e he => ⟨fun heq => h (hpairs e he) hq heq, congrArg joined⟩
  rw [(kept_run actions).history_eq hplain, hsame]

theorem injOn_of_isolated {pairs : Set (Text × Text)} (h : Isolated pairs) :
    Set.InjOn joined pairs := by
  intro q hq q' hq' heq
  have hempty : (Value.list []).MadeOf Exact := .list nofun
  have hlist : (Value.list [.null]).MadeOf Exact := .list (by simpa using .scalar trivial)
  obtain ⟨text', hnone, -⟩ := Json.read_write hempty Limits.writing_pos false
  obtain ⟨text, hnull, -⟩ := Json.read_write hlist Limits.writing_pos false
  -- a history for one pair, then another one for the other
  have hrun := histories_twice q q' hnull hnone
  have hplain : (run (twice q q' [.null] [])).Plain := by
    unfold Plain
    rw [hrun]
    simpa using Value.MadeOf.scalar trivial
  have hloaded := h _ hplain (by rw [hrun]; simp [hq, hq']) q hq
  rw [(kept_run _).history_eq hplain, hrun] at hloaded
  by_contra hne
  simp [latest, heq, Ne.symm hne] at hloaded

/-- **A history is loaded under what its session and step are called together.** So what is loaded
for a pair is what was saved last for it, in all runs over some pairs, exactly when no two of these
pairs are called the same. Pairs of which no session has an underscore are such, and pairs of which
no step has one. -/
theorem history_latest_iff (pairs : Set (Text × Text)) :
    (∀ actions, (run actions).Plain → ∀ s t, (run actions).store.history s t =
      .ok (latest (joined · = joined (s, t)) (run actions).histories)) ∧
    (Isolated pairs ↔ Set.InjOn joined pairs) ∧
    ((∀ q ∈ pairs, underscore ∉ q.1) → Isolated pairs) ∧
    ((∀ q ∈ pairs, underscore ∉ q.2) → Isolated pairs) := by
  refine ⟨fun actions h => (kept_run actions).history_eq h,
    ⟨injOn_of_isolated, isolated_of_injOn⟩, fun h => ?_, fun h => ?_⟩
  · exact isolated_of_injOn fun _ hq _ hq' => joined_inj_of_session (h _ hq) (h _ hq')
  · exact isolated_of_injOn fun _ hq _ hq' => joined_inj_of_step (h _ hq) (h _ hq')

end Runs

attribute [local instance] Limits.thousandFrames

/-- A history for the step `b_c` of the session `a`, then another one for the step `c` of the
session `a_b`: the first one is no longer what is loaded. -/
theorem not_isolated_underscore :
    (run (twice ("a", "b_c") ("a_b", "c") [.text "own"] [.text "other"])).Plain ∧
    latest (· = (("a", "b_c") : Text × Text))
      (run (twice ("a", "b_c") ("a_b", "c") [.text "own"] [.text "other"])).histories =
        some [.text "own"] ∧
    (run (twice ("a", "b_c") ("a_b", "c") [.text "own"] [.text "other"])).store.history "a" "b_c" =
      .ok (some [.text "other"]) := by
  obtain ⟨text, hown⟩ : ∃ text, Json.write false (.list [.text "own"]) = .ok text := ⟨_, rfl⟩
  obtain ⟨text', hother⟩ : ∃ text, Json.write false (.list [.text "other"]) = .ok text := ⟨_, rfl⟩
  have hrun := histories_twice ("a", "b_c") ("a_b", "c") hown hother
  have hplain : (run (twice ("a", "b_c") ("a_b", "c") [.text "own"] [.text "other"])).Plain := by
    unfold Plain
    rw [hrun]
    simp only [List.forall_mem_cons]
    exact ⟨⟨.scalar (Text.joined_ofChars _), nofun⟩, ⟨.scalar (Text.joined_ofChars _), nofun⟩, nofun⟩
  refine ⟨hplain, ?_, ?_⟩
  · rw [hrun]
    rfl
  · rw [(kept_run _).history_eq hplain, hrun]
    rfl

end Client

end Stepwise.ProgressStore
