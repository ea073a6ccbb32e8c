import Stepwise.Progress.Store
import Stepwise.Proofs.Json.Refusal
import Stepwise.Proofs.Progress.RoundTrip

/-!
# Clients of a store

A client holds progress, which it changes as it likes, and saves and loads progress and chat
histories. Beside the store stand the rows of what was asked for and of what was saved, so that it
can be said what the store should hold.

* `Client.Kept`: under the key of a session is the text of the progress that was saved for it last,
  and under the key of a history the text of the history that was saved last under that key. One
  action keeps this (`Kept.act`), and so does a run (`kept_run`).
* `progress_latest`: what is loaded for a session is the progress that was saved for it last, as it
  was then, if no two surrogates stand as a pair in it.
* `not_loaded_paired`: progress in which two do is loaded as something else.
-/

namespace Stepwise

open Scalar

/-! ### The last entry -/

section Latest
variable {κ α : Type}

/-- What the last entry holds whose key has a property. -/
def latest (p : κ → Prop) [DecidablePred p] (log : List (κ × α)) : Option α :=
  ((log.filter fun e => p e.1).getLast?).map Prod.snd

theorem latest_concat (p : κ → Prop) [DecidablePred p] (log : List (κ × α)) (k : κ) (a : α) :
    latest p (log ++ [(k, a)]) = if p k then some a else latest p log := by
  unfold latest
  rw [List.filter_append]
  by_cases hk : p k
  · simp [hk]
  · simp [hk]

theorem mem_of_latest {p : κ → Prop} [DecidablePred p] {log : List (κ × α)} {a : α}
    (h : latest p log = some a) : ∃ k, p k ∧ (k, a) ∈ log := by
  unfold latest at h
  obtain ⟨⟨k, b⟩, hlast, rfl⟩ := Option.map_eq_some_iff.mp h
  have hmem := List.mem_of_getLast? hlast
  rw [List.mem_filter, decide_eq_true_eq] at hmem
  exact ⟨k, hmem.2, hmem.1⟩

theorem latest_congr {p p' : κ → Prop} [DecidablePred p] [DecidablePred p'] {log : List (κ × α)}
    (h : ∀ e ∈ log, p e.1 ↔ p' e.1) : latest p log = latest p' log := by
  unfold latest
  have hfilter : (log.filter fun e => p e.1) = log.filter fun e => p' e.1 :=
    List.filter_congr fun e he => decide_eq_decide.mpr (h e he)
  rw [hfilter]

theorem rel_cases {β : Type} {R : α → β → Prop} {a : Option α} {b : Option β}
    (h : Option.Rel R a b) : (a = none ∧ b = none) ∨ ∃ x y, a = some x ∧ b = some y ∧ R x y := by
  cases h with
  | none => exact Or.inl ⟨rfl, rfl⟩
  | some h => exact Or.inr ⟨_, _, rfl, rfl, h⟩

end Latest

/-! ### Progress that cannot be written -/

/-- Progress with a part that no text stands for. -/
def Progress.HasForeign (p : Progress) : Prop := p.toValue.HasForeign

section ToText
variable [Limits]

theorem Progress.write_of_toText {p : Progress} {text : String} (h : p.toText = .ok text) :
    Json.write true p.toValue = .ok text := by
  unfold toText at h
  split_ifs at h
  exact mapError_eq_ok_iff.mp h

theorem Progress.not_toText_of_hasForeign {p : Progress} (h : p.HasForeign) {text : String} :
    p.toText ≠ .ok text := by
  intro htext
  have hwrite := write_of_toText htext
  rw [Json.write] at hwrite
  cases hw : Json.written true Limits.writing p.toValue with
  | error e => rw [hw] at hwrite; cases hwrite
  | ok w => exact Json.not_written_of_hasForeign h hw

/-- Progress without numbers of double width that was written is read as it was. -/
theorem Progress.ofText_of_toText {p : Progress} (hp : p.MadeOf FloatFree) {text : String}
    (h : p.toText = .ok text) : ofText text = .ok p := by
  have hread := Json.read_of_write (hp.toValue fun _ ht => ht) (write_of_toText h)
  rw [ofText, hread]
  exact ofValue_toValue p

end ToText

namespace ProgressStore

/-! ### The keys -/

/-- What a session and a step are called together. -/
def joined (q : Text × Text) : Text := q.1 ++ "_" ++ q.2

theorem progressKey_inj {s t : Text} : progressKey s = progressKey t ↔ s = t := by
  simp [progressKey]

theorem historyKey_inj {s t s' t' : Text} :
    historyKey s t = historyKey s' t' ↔ joined (s, t) = joined (s', t') := by
  have hkey : ∀ s t, historyKey s t = "ChatHistory_" ++ joined (s, t) := fun s t => by
    simp only [historyKey, joined, List.append_assoc]
  rw [hkey, hkey, List.append_right_inj]

theorem progressKey_ne_historyKey (s t u : Text) : progressKey s ≠ historyKey t u := by
  intro h
  have hhead : (progressKey s).head? = (historyKey t u).head? := congrArg List.head? h
  exact absurd hhead (show some (Text.CodePoint.char 'F') ≠ some (.char 'C') by decide)

/-! ### Texts under keys -/

theorem text?_put (st : ProgressStore) (k text j : Text) :
    (st.put k text).text? j = if k = j then some text else st.text? j := by
  simp [text?, put, Entries.get?_insert]

/-- A save puts a text in place if there is one. -/
theorem bind_put_eq_ok {ε : Type} {x : Except ε String} {st st' : ProgressStore} {k : Text} :
    (x >>= fun text => pure (st.put k text)) = .ok st' ↔
      ∃ text, x = .ok text ∧ st' = st.put k text := by
  cases x with
  | error e =>
    constructor
    · intro h
      cases h
    · rintro ⟨text, h, -⟩
      cases h
  | ok text =>
    constructor
    · intro h
      cases h
      exact ⟨text, rfl, rfl⟩
    · rintro ⟨text', h, rfl⟩
      cases h
      rfl

theorem stored?_of_text? {st : ProgressStore} {k text : Text} (h : st.text? k = some text)
    (hne : text ≠ []) : st.stored? k = some text := by
  simp [stored?, h, hne]

section Requests
variable [Limits] {st st' : ProgressStore} {s t : Text}

theorem saveProgress_eq_ok {p : Progress} : st.saveProgress s p = .ok st' ↔
    ∃ text, p.toText = .ok text ∧ st' = st.put (progressKey s) text :=
  bind_put_eq_ok

theorem saveHistory_eq_ok {h : Value} : st.saveHistory s t h = .ok st' ↔
    ∃ text, Json.write false h = .ok text ∧ st' = st.put (historyKey s t) text :=
  bind_put_eq_ok

theorem progress_of_text {text : Text} (htext : st.text? (progressKey s) = some text)
    {p : Progress} (hread : Progress.ofText text = .ok p) : st.progress s = .ok p := by
  have hne : text ≠ [] := by
    obtain ⟨v, hv, -⟩ := bind_eq_ok_iff.mp hread
    exact Json.ne_nil_of_read (mapError_eq_ok_iff.mp hv)
  unfold progress
  rw [stored?_of_text? htext hne]
  simp only [hread]
  rfl

theorem ofText_of_progress {text : Text} (htext : st.text? (progressKey s) = some text)
    (hne : text ≠ []) {p : Progress} (h : st.progress s = .ok p) : Progress.ofText text = .ok p := by
  unfold progress at h
  rw [stored?_of_text? htext hne] at h
  exact mapError_eq_ok_iff.mp h

theorem progress_of_none (htext : st.text? (progressKey s) = none) : st.progress s = .ok {} := by
  simp [progress, stored?, htext]

theorem progress_congr (h : st.text? (progressKey s) = st'.text? (progressKey s)) :
    st.progress s = st'.progress s := by
  simp [progress, stored?, h]

theorem history_of_text {text : Text} (htext : st.text? (historyKey s t) = some text)
    {xs : List Value} (hread : Json.read text = .ok (.list xs)) : st.history s t = .ok (some xs) := by
  unfold history
  rw [stored?_of_text? htext (Json.ne_nil_of_read hread)]
  simp only [hread]

theorem history_of_none (htext : st.text? (historyKey s t) = none) : st.history s t = .ok none := by
  simp [history, stored?, htext]

end Requests

/-! ### Clients -/

/-- What a client does: it changes the progress that it holds in any way, or calls the store. -/
inductive Action where
  | change (held : ℕ → Progress)
  | saveProgress (session : Text) (n : ℕ)
  | loadProgress (session : Text) (n : ℕ)
  | saveHistory (session step : Text) (history : List Value)
  | loadHistory (session step : Text)

/-- **A client of a store**, which holds progress under numbers. The three rows tell what has
happened so far and change nothing. -/
structure Client where
  store : ProgressStore := {}
  held : ℕ → Progress := fun _ => {}
  /-- the progress that was to be saved, as it was then -/
  asked : List (Text × Progress) := []
  /-- the progress of these that was saved -/
  saved : List (Text × Progress) := []
  /-- the histories that were saved, by session and step -/
  histories : List ((Text × Text) × List Value) := []

namespace Client

section Runs
variable [Limits]

/-- What an action makes of a client and its store. -/
def act (c : Client) : Action → Client
  | .change held => { c with held }
  | .saveProgress session n =>
    let asked := c.asked ++ [(session, c.held n)]
    match c.store.saveProgress session (c.held n) with
    | .ok store => { c with store, asked, saved := c.saved ++ [(session, c.held n)] }
    | .error _ => { c with asked }
  | .loadProgress session n =>
    match c.store.progress session with
    | .ok p => { c with held := fun m => if m = n then p else c.held m }
    | .error _ => c
  | .saveHistory session step history =>
    match c.store.saveHistory session step (.list history) with
    | .ok store => { c with store, histories := c.histories ++ [((session, step), history)] }
    | .error _ => c
  | .loadHistory _ _ => c

/-- A new client with a new store after some actions. -/
def run (actions : List Action) : Client := actions.foldl act {}

section Act
variable {c : Client} {s t : Text} {text : String}

theorem act_saveProgress {n : ℕ} (h : (c.held n).toText = .ok text) :
    c.act (.saveProgress s n) = { c with
      store := c.store.put (progressKey s) text
      asked := c.asked ++ [(s, c.held n)]
      saved := c.saved ++ [(s, c.held n)] } := by
  rw [act, saveProgress_eq_ok.mpr ⟨text, h, rfl⟩]

theorem act_saveProgress_refused {n : ℕ} (h : ∀ text, (c.held n).toText ≠ .ok text) :
    c.act (.saveProgress s n) = { c with asked := c.asked ++ [(s, c.held n)] } := by
  rw [act]
  cases hsave : c.store.saveProgress s (c.held n) with
  | error e => rfl
  | ok store =>
    obtain ⟨text, htext, -⟩ := saveProgress_eq_ok.mp hsave
    exact absurd htext (h text)

theorem act_saveHistory {xs : List Value} (h : Json.write false (.list xs) = .ok text) :
    c.act (.saveHistory s t xs) = { c with
      store := c.store.put (historyKey s t) text
      histories := c.histories ++ [((s, t), xs)] } := by
  rw [act, saveHistory_eq_ok.mpr ⟨text, h, rfl⟩]

theorem act_saveHistory_refused {xs : List Value}
    (h : ∀ text, Json.write false (.list xs) ≠ .ok text) : c.act (.saveHistory s t xs) = c := by
  rw [act]
  cases hsave : c.store.saveHistory s t (.list xs) with
  | error e => rfl
  | ok store =>
    obtain ⟨text, htext, -⟩ := saveHistory_eq_ok.mp hsave
    exact absurd htext (h text)

end Act

/-- **What an action can do**: it leaves the store as it is, or puts the text of some progress or of
a history under its key. -/
theorem act_cases (c : Client) (a : Action) :
    ((c.act a).store = c.store ∧ (c.act a).saved = c.saved ∧ (c.act a).histories = c.histories ∧
      ∀ e ∈ c.asked, e ∈ (c.act a).asked) ∨
    (∃ s n text, a = .saveProgress s n ∧ (c.held n).toText = .ok text ∧
      c.act a = { c with
        store := c.store.put (progressKey s) text
        asked := c.asked ++ [(s, c.held n)]
        saved := c.saved ++ [(s, c.held n)] }) ∨
    ∃ s t xs text, a = .saveHistory s t xs ∧ Json.write false (.list xs) = .ok text ∧
      c.act a = { c with
        store := c.store.put (historyKey s t) text
        histories := c.histories ++ [((s, t), xs)] } := by
  cases a with
  | change held => exact Or.inl ⟨rfl, rfl, rfl, fun _ he => he⟩
  | saveProgress s n =>
    by_cases h : ∃ text, (c.held n).toText = .ok text
    · obtain ⟨text, htext⟩ := h
      exact Or.inr (Or.inl ⟨s, n, text, rfl, htext, act_saveProgress htext⟩)
    · rw [act_saveProgress_refused (not_exists.mp h)]
      exact Or.inl ⟨rfl, rfl, rfl, fun _ he => List.mem_append_left _ he⟩
  | loadProgress s n =>
    rw [act]
    cases c.store.progress s with
    | error e => exact Or.inl ⟨rfl, rfl, rfl, fun _ he => he⟩
    | ok p => exact Or.inl ⟨rfl, rfl, rfl, fun _ he => he⟩
  | saveHistory s t xs =>
    by_cases h : ∃ text, Json.write false (.list xs) = .ok text
    · obtain ⟨text, htext⟩ := h
      exact Or.inr (Or.inr ⟨s, t, xs, text, rfl, htext, act_saveHistory htext⟩)
    · rw [act_saveHistory_refused (not_exists.mp h)]
      exact Or.inl ⟨rfl, rfl, rfl, fun _ he => he⟩
  | loadHistory s t => exact Or.inl ⟨rfl, rfl, rfl, fun _ he => he⟩

/-! ### What a store keeps -/

/-- **The store keeps what was saved last**, as a text under its key. -/
structure Kept (c : Client) : Prop where
  progress : ∀ s, Option.Rel (fun p (t : Text) => ∃ text : String, p.toText = .ok text ∧ t = text)
    (latest (· = s) c.saved) (c.store.text? (progressKey s))
  history : ∀ s t, Option.Rel
    (fun xs (t : Text) => ∃ text : String, Json.write false (.list xs) = .ok text ∧ t = text)
    (latest (joined · = joined (s, t)) c.histories) (c.store.text? (historyKey s t))
  saved : ∀ e ∈ c.saved, e ∈ c.asked

theorem kept_new : ({} : Client).Kept where
  progress _ := .none
  history _ _ := .none
  saved _ he := absurd he List.not_mem_nil

section Save
variable {c : Client} (h : c.Kept) {s : Text}
include h

theorem Kept.saveProgress {n : ℕ} {text : String} (htext : (c.held n).toText = .ok text) :
    Kept { c with
      store := c.store.put (progressKey s) text
      asked := c.asked ++ [(s, c.held n)]
      saved := c.saved ++ [(s, c.held n)] } where
  progress s' := by
    rw [latest_concat, text?_put]
    by_cases hs : s = s'
    · subst hs
      rw [if_pos rfl, if_pos rfl]
      exact .some ⟨text, htext, rfl⟩
    · rw [if_neg hs, if_neg fun hk => hs (progressKey_inj.mp hk)]
      exact h.progress s'
  history s' t' := by
    rw [text?_put, if_neg (progressKey_ne_historyKey s s' t')]
    exact h.history s' t'
  saved e he := by
    rcases List.mem_append.mp he with he | he
    · exact List.mem_append_left _ (h.saved e he)
    · exact List.mem_append_right _ he

theorem Kept.saveHistory {t : Text} {text : String} {xs : List Value}
    (htext : Json.write false (.list xs) = .ok text) :
    Kept { c with
      store := c.store.put (historyKey s t) text
      histories := c.histories ++ [((s, t), xs)] } where
  progress s' := by
    rw [text?_put, if_neg fun hk => progressKey_ne_historyKey s' s t hk.symm]
    exact h.progress s'
  history s' t' := by
    rw [latest_concat, text?_put]
    by_cases hs : joined (s, t) = joined (s', t')
    · rw [if_pos hs, if_pos (historyKey_inj.mpr hs)]
      exact .some ⟨text, htext, rfl⟩
    · rw [if_neg hs, if_neg fun hk => hs (historyKey_inj.mp hk)]
      exact h.history s' t'
  saved := h.saved

end Save

/-- One action keeps it. -/
theorem Kept.act {c : Client} (h : c.Kept) (a : Action) : (c.act a).Kept := by
  rcases act_cases c a with ⟨hstore, hsaved, hhistories, hasked⟩ |
    ⟨s, n, text, -, htext, he⟩ | ⟨s, t, xs, text, -, htext, he⟩
  · refine ⟨?_, ?_, ?_⟩
    · rw [hstore, hsaved]; exact h.progress
    · rw [hstore, hhistories]; exact h.history
    · rw [hsaved]; exact fun e he => hasked e (h.saved e he)
  · rw [he]; exact h.saveProgress htext
  · rw [he]; exact h.saveHistory htext

/-- A run keeps it. -/
theorem kept_run (actions : List Action) : (run actions).Kept :=
  List.foldlRecOn actions Client.act kept_new fun _ h a _ => h.act a

/-! ### What is loaded -/

/-- All histories that were saved are free of numbers of double width. -/
def Plain (c : Client) : Prop := ∀ e ∈ c.histories, ∀ v ∈ e.2, v.MadeOf FloatFree

theorem Kept.progress_eq {c : Client} (h : c.Kept)
    (hc : ∀ e ∈ c.asked, e.2.MadeOf FloatFree ∨ e.2.HasForeign) (s : Text) :
    c.store.progress s = .ok ((latest (· = s) c.saved).getD {}) := by
  rcases rel_cases (h.progress s) with ⟨hlast, htext⟩ | ⟨p, _, hlast, htext, text, hwrite, rfl⟩
  · rw [hlast, progress_of_none htext]
    rfl
  · obtain ⟨k, -, hmem⟩ := mem_of_latest hlast
    have hread : Progress.ofText (text : Text) = .ok p := by
      rcases hc _ (h.saved _ hmem) with hmade | hforeign
      · exact Progress.ofText_of_toText hmade hwrite
      · exact absurd hwrite (Progress.not_toText_of_hasForeign hforeign)
    rw [hlast, progress_of_text htext hread]
    rfl

theorem Kept.history_eq {c : Client} (h : c.Kept) (hc : c.Plain) (s t : Text) :
    c.store.history s t = .ok (latest (joined · = joined (s, t)) c.histories) := by
  rcases rel_cases (h.history s t) with ⟨hlast, htext⟩ | ⟨xs, _, hlast, htext, text, hwrite, rfl⟩
  · rw [hlast, history_of_none htext]
  · obtain ⟨k, -, hmem⟩ := mem_of_latest hlast
    have hread : Json.read text = .ok (.list xs) :=
      Json.read_of_write (.list (hc _ hmem)) hwrite
    rw [hlast, history_of_text htext hread]

/-- What is loaded for a session changes only with the progress that is saved for it. -/
theorem progress_act {c : Client} {a : Action} {s : Text}
    (h : ∀ n, a = .saveProgress s n → ∀ text, (c.held n).toText ≠ .ok text) :
    (c.act a).store.progress s = c.store.progress s := by
  refine progress_congr ?_
  rcases act_cases c a with ⟨hstore, -⟩ | ⟨s', n, text, ha, htext, he⟩ | ⟨s', t, xs, text, -, -, he⟩
  · rw [hstore]
  · have hs : s' ≠ s := by
      rintro rfl
      exact h n ha text htext
    rw [he, text?_put, if_neg fun hk => hs (progressKey_inj.mp hk)]
  · rw [he, text?_put, if_neg fun hk => progressKey_ne_historyKey s s' t hk.symm]

theorem not_toText_of_refused {st : ProgressStore} {s : Text} {p : Progress}
    {e : Progress.WriteError} (h : st.saveProgress s p = .error e) (text : String) :
    p.toText ≠ .ok text := by
  intro htext
  rw [saveProgress_eq_ok.mpr ⟨text, htext, rfl⟩] at h
  cases h

theorem exists_refused {p : Progress} (h : p.HasForeign) (st : ProgressStore) (s : Text) :
    ∃ e, st.saveProgress s p = .error e := by
  cases hsave : st.saveProgress s p with
  | error e => exact ⟨e, rfl⟩
  | ok st' =>
    obtain ⟨text, htext, -⟩ := saveProgress_eq_ok.mp hsave
    exact absurd htext (Progress.not_toText_of_hasForeign h)

theorem exists_saved {p : Progress} (h : p.MadeOf Exact) (hfits : p.Fits) (st : ProgressStore)
    (s : Text) : ∃ st', st.saveProgress s p = .ok st' := by
  obtain ⟨text, htext, -⟩ := Progress.ofText_toText h hfits
  exact ⟨_, saveProgress_eq_ok.mpr ⟨text, htext, rfl⟩⟩

/-- **The progress of a session is what was saved for it last**, as it was then, and fresh if
nothing was: in a run in which all progress to be saved has a foreign part, or is free of numbers of
double width and of texts, names and keys in which two surrogates stand as a pair. Progress with a
foreign part is refused; progress made of exact scalars is saved where there is room for it. A save
for another session, a save that is refused, and whatever else is no save of progress leave what is
loaded for a session as it was. -/
theorem progress_latest (actions : List Action)
    (h : ∀ e ∈ (run actions).asked, e.2.MadeOf FloatFree ∨ e.2.HasForeign) :
    (∀ s, (run actions).store.progress s =
      .ok ((latest (· = s) (run actions).saved).getD {})) ∧
    (∀ p : Progress, p.HasForeign → ∀ (st : ProgressStore) s, ∃ e, st.saveProgress s p = .error e) ∧
    (∀ p : Progress, p.MadeOf Exact → p.Fits →
      ∀ (st : ProgressStore) s, ∃ st', st.saveProgress s p = .ok st') ∧
    ∀ (c : Client) a s,
      (∀ n, a = .saveProgress s n → ∃ e, c.store.saveProgress s (c.held n) = .error e) →
        (c.act a).store.progress s = c.store.progress s := by
  refine ⟨(kept_run actions).progress_eq h, fun p hp => exists_refused hp,
    fun p hp hfits => exists_saved hp hfits, fun c a s hrefused => ?_⟩
  refine progress_act fun n ha => ?_
  obtain ⟨e, he⟩ := hrefused n ha
  exact not_toText_of_refused he

end Runs

section Frames

attribute [local instance] Limits.thousandFrames

/-- Progress of a flow whose first step is done. -/
def early : Progress where
  current := .int 1
  bindings := .dict [(.text "x", .list [.null])]
  steps := [(Text.ofString "0", { status := .completed, iterations := .int 1 })]

theorem madeOf_early {leaf : Scalar → Prop} (hnull : leaf .null)
    (hint : ∀ i : Int, i.natAbs ≤ 1 → leaf (.int i)) : early.MadeOf leaf := by
  have hone : (Value.int 1).MadeOf leaf := .scalar (hint 1 (by decide))
  have hlist : (Value.list [.null]).MadeOf leaf := .list (by simpa using .scalar hnull)
  refine ⟨hone, .dict (by decide) ?_ ?_, by decide, by decide, ?_, ?_⟩
  · simp [Progress.isName_ofString]
  · simpa using hlist
  · simpa [early] using hone
  · simpa [early] using Value.madeOf_empty

/-- The same progress with a set under the variable. -/
def spoilt : Progress := { early with bindings := .dict [(.text "x", .set [.null])] }

theorem hasForeign_spoilt : spoilt.HasForeign := by
  have hbindings : spoilt.bindings.HasForeign :=
    .dict (e := (.text "x", .set [.null])) (List.mem_singleton_self _) (.set [.null])
  unfold Progress.HasForeign Progress.toValue
  exact .dict (e := (.text "variables", spoilt.bindings)) (by simp) hbindings

/-- A client that saves progress for the session `s`, spoils it, fails to save that, and saves a
history of a step that is called like the key of the session. -/
def spoiling : List Action :=
  [.change fun _ => early, .saveProgress "s" 0, .change fun _ => spoilt, .saveProgress "s" 0,
    .saveHistory "s" "FlowStatus_s" [.null], .loadHistory "s" "0"]

theorem run_spoiling : (run spoiling).asked = [(("s" : Text), early), ("s", spoilt)] ∧
    (run spoiling).saved = [(("s" : Text), early)] ∧ (run spoiling).held = fun _ => spoilt := by
  have hfits : early.Fits := ⟨by decide, by decide⟩
  have hmade : early.MadeOf Exact :=
    madeOf_early trivial fun i hi => exact_int (hi.trans (by decide))
  obtain ⟨text, htext, -⟩ := Progress.ofText_toText hmade hfits
  have hlist : (Value.list [.null]).MadeOf Exact := .list (by simpa using .scalar trivial)
  obtain ⟨word, hword, -⟩ := Json.read_write hlist (by decide) false
  have hrun : run spoiling =
      ((((({ held := fun _ => early } : Client).act (.saveProgress "s" 0)).act
        (.change fun _ => spoilt)).act (.saveProgress "s" 0)).act
          (.saveHistory "s" "FlowStatus_s" [.null])).act (.loadHistory "s" "0") := rfl
  rw [hrun, act_saveProgress (c := { held := fun _ => early }) htext, act]
  rw [act_saveProgress_refused fun _ => Progress.not_toText_of_hasForeign hasForeign_spoilt]
  rw [act_saveHistory hword]
  exact ⟨rfl, rfl, rfl⟩

theorem progress_latest_spoiling :
    (∀ e ∈ (run spoiling).asked, e.2.MadeOf FloatFree ∨ e.2.HasForeign) ∧
      (run spoiling).store.progress "s" = .ok early ∧ (run spoiling).store.progress "t" = .ok {} ∧
      (∃ e, (run spoiling).store.saveProgress "s" ((run spoiling).held 0) = .error e) ∧
      ((run spoiling).act (.saveProgress "s" 0)).store.progress "s" = .ok early := by
  obtain ⟨hasked, hsaved, hheld⟩ := run_spoiling
  have hmade : ∀ e ∈ (run spoiling).asked, e.2.MadeOf FloatFree ∨ e.2.HasForeign := by
    rw [hasked]
    simp only [List.forall_mem_cons]
    exact ⟨Or.inl (madeOf_early trivial fun _ _ => trivial), Or.inr hasForeign_spoilt, nofun⟩
  obtain ⟨hlatest, hrefused, -, hother⟩ := progress_latest spoiling hmade
  have hs := hlatest "s"
  have ht := hlatest "t"
  rw [hsaved] at hs ht
  have hsave : ∃ e, (run spoiling).store.saveProgress "s" ((run spoiling).held 0) = .error e := by
    rw [hheld]
    exact hrefused spoilt hasForeign_spoilt _ _
  refine ⟨hmade, hs, ht, hsave, ?_⟩
  have hkept := hother (run spoiling) (.saveProgress "s" 0) "s"
    (fun n hn => by cases hn; exact hsave)
  rw [hkept]
  exact hs

/-- A variable is called by two surrogates that stand as a pair, which are one character where they
are read. -/
def paired : Progress where
  bindings := .dict [(.text [.surrogate ⟨61, by decide⟩, .surrogate ⟨1536, by decide⟩], .int 1)]

/-- A client that saves this progress for the session `s`. -/
def pairing : List Action := [.change fun _ => paired, .saveProgress "s" 0]

/-- Not all progress without numbers of double width is loaded as it was saved. -/
theorem not_loaded_paired : paired.hasFloat = false ∧ (run pairing).saved = [(("s" : Text), paired)] ∧
    (run pairing).store.progress "s" ≠ .ok paired := by
  obtain ⟨text, htext, hne⟩ : ∃ text, paired.toText = .ok text ∧ (text : Text) ≠ [] :=
    ⟨_, rfl, by decide⟩
  have hrun : run pairing = ({ held := fun _ => paired } : Client).act (.saveProgress "s" 0) := rfl
  rw [hrun, act_saveProgress (c := { held := fun _ => paired }) htext]
  refine ⟨rfl, rfl, fun hload => ?_⟩
  have hput := text?_put {} (progressKey "s") text (progressKey "s")
  rw [if_pos rfl] at hput
  have hread := ofText_of_progress hput hne hload
  -- no name that is read has such a pair
  cases (Progress.madeOf_of_ofText (Text.allChars_ofString text) hread).bindings with
  | dict _ names =>
    obtain ⟨t, ht, hjoined⟩ := names _ (List.mem_singleton_self _)
    cases ht
    exact absurd hjoined (by decide)

end Frames

end Client

end ProgressStore

end Stepwise
