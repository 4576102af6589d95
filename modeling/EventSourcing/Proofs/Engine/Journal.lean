import EventSourcing.Proofs.Engine.Outcome

/-! What a command leaves in the journal. Most entries are routine: the stages that a command goes
through, and what is counted on the way. Besides them there is what the store has answered to the
appends for the command: to the first one, and to a second one if the first was refused. -/

namespace EventSourcing

/-- The stages of a command but for the fatal one, and what is counted. -/
def Entry.isRoutine : Entry → Bool
  | .stage s => s ≠ .appendFatal
  | .metric _ => true
  | _ => false

/-- What the store has answered to an append, by the entry that the append has left. -/
def Entry.answer? : Entry → Option (Attempt StoreError Message)
  | .appended m => some (.ok m)
  | .refused fault => some (.error fault)
  | _ => none

namespace World

/-- What the store has answered to all appends, in their order. -/
def attempts (w : World) : List (Attempt StoreError Message) := w.journal.filterMap Entry.answer?

def attemptsUntil (w w' : World) : List (Attempt StoreError Message) :=
  w'.attempts.drop w.attempts.length

/-- From `w` to `w'` the journal has gained the listed entries, and routine ones among them. -/
def Logs (w w' : World) (entries : List Entry) : Prop :=
  ∃ added, w'.journal = w.journal ++ added ∧ added.filter (!·.isRoutine) = entries

section

variable {a b c w w' : World} {l l' : List Entry}

theorem Logs.of_eq (h : w'.journal = w.journal) : w.Logs w' [] := ⟨[], by simp [h], rfl⟩

theorem Logs.refl (w : World) : w.Logs w [] := .of_eq rfl

theorem Logs.trans (h : a.Logs b l) (h' : b.Logs c l') : a.Logs c (l ++ l') := by
  obtain ⟨added, hb, rfl⟩ := h
  obtain ⟨added', hc, rfl⟩ := h'
  exact ⟨added ++ added', by rw [hc, hb, List.append_assoc], List.filter_append _ _⟩

theorem Logs.before (h : a.Logs b l) (hj : c.journal = b.journal) : a.Logs c l := by
  simpa using h.trans (.of_eq hj)

theorem Logs.record (h : w.Logs w' l) (entry : Entry) :
    w.Logs (w'.record entry) (l ++ [entry].filter (!·.isRoutine)) :=
  h.trans ⟨[entry], rfl, rfl⟩

theorem Logs.enter (h : w.Logs w' l) {s : Stage} (hs : s ≠ .appendFatal) :
    w.Logs (w'.enter s) l := by
  have hr := h.record (.stage s)
  rwa [List.filter_cons_of_neg (by simp [Entry.isRoutine, hs]), List.filter_nil,
    List.append_nil] at hr

theorem Logs.count (h : w.Logs w' l) (m : Metric) : w.Logs (w'.count m) l := by
  have hr := h.record (.metric m)
  rwa [List.filter_cons_of_neg (by simp [Entry.isRoutine]), List.filter_nil, List.append_nil] at hr

theorem Logs.filterMap {β : Type} (h : w.Logs w' l) {f : Entry → Option β}
    (hf : ∀ entry, entry.isRoutine = true → f entry = none) :
    w'.journal.filterMap f = w.journal.filterMap f ++ l.filterMap f := by
  obtain ⟨added, hjournal, rfl⟩ := h
  rw [hjournal, List.filterMap_append, List.filterMap_filter]
  congr 2
  funext entry
  cases hr : entry.isRoutine with
  | true => simp [hf entry hr]
  | false => simp

theorem Logs.attemptsUntil_eq (h : w.Logs w' l) : w.attemptsUntil w' = l.filterMap Entry.answer? := by
  have hattempts : w'.attempts = w.attempts ++ l.filterMap Entry.answer? := by
    refine h.filterMap ?_
    intro entry hr
    cases entry with
    | appended event => cases hr
    | refused fault => cases hr
    | _ => rfl
  rw [attemptsUntil, hattempts, List.drop_left]

end

theorem journal_history (w : World) (domain : Int32) (a : Address) :
    (w.history domain a).2.journal = w.journal := by
  rw [history_eq]

end World

variable {α σ : Type} [Content α]

namespace Engine

theorem logs_load (domain : Int32) (a : Address) (w : World) : w.Logs (load domain a w).2 [] := by
  have h := w.journal_history domain a
  unfold load
  split
  · next he =>
    rw [he] at h
    exact .of_eq h
  · next w' he =>
    rw [he] at h
    exact ((World.Logs.of_eq h).count _).before (World.journal_history _ _ _)

theorem logs_hydrate (e : Engine α σ) (command : Message) (w : World) :
    w.Logs (e.hydrate command w).2 [] := by
  unfold hydrate
  split
  · exact (World.Logs.refl w).enter (by decide)
  next task ht =>
  dsimp only
  have hl := logs_load task.domain.shortId (Address.of task.payload command.id) (w.enter .hydrating)
  have hw := ((World.Logs.refl w).enter (s := .hydrating) (by decide)).trans hl
  split
  · next h =>
    rw [h] at hw
    exact hw.enter (by decide)
  next h =>
  rw [h] at hw
  split
  · exact hw
  · split
    · exact hw.enter (by decide)
    · exact hw.enter (by decide)

omit [Content α] in
theorem logs_execute {e : Engine α σ} {h : Handler α σ} {i : Invocation α σ} (hq : (h.run i).Quiet)
    (next : Int32) (w : World) : w.Logs (e.execute (.ready h i next) w).2 [] := by
  rw [execute_snd, hq.run_world]
  exact (World.Logs.refl w).enter (by decide)

theorem logs_outcome {e : Engine α σ} (hq : e.wiring.Quiet) (command : Message) (w : World) :
    w.Logs (e.outcome command w).2 [] := by
  have hh := ((World.Logs.refl w).count .commandsHandled).trans (e.logs_hydrate command _)
  have hcases := e.hydrate_cases command (w.count .commandsHandled)
  unfold outcome
  generalize e.hydrate command (w.count .commandsHandled) = run at hh hcases ⊢
  obtain ⟨result, w'⟩ := run
  dsimp only at hcases
  rcases hcases with ⟨x, next, hx, -, rfl⟩ | ⟨-, -, text, rfl⟩ | ⟨-, rfl⟩
  · exact hh.trans (logs_execute (hq _ _ hx.accepts.handler _) next w')
  · exact hh
  · exact hh

omit [Content α] in
theorem logs_closing (e : Engine α σ) (c : Context α) (w : World) : w.Logs (e.closing c w) [] := by
  have h : w.Logs
      { w with reports := (c.error e.reporter "Error event not published in handler").reports } [] :=
    .of_eq rfl
  unfold closing
  dsimp only
  split
  · exact (h.count .commandErrors).enter (by decide)
  · exact h.enter (by decide)

end Engine

def Entry.ofAnswer : Attempt StoreError Message → Entry
  | .ok m => .appended m
  | .error fault => .refused fault

namespace Engine

theorem logs_appendPending (e : Engine α σ) (command : Message) (p : Payload α) (options : Options)
    (w : World) :
    w.Logs (e.appendPending command p options w).2
      [.ofAnswer (e.appendPending command p options w).1] := by
  rw [appendPending_eq, World.append_eq]
  split
  · exact ⟨_, rfl, rfl⟩
  · split
    · exact ⟨_, rfl, rfl⟩
    · exact ⟨_, rfl, rfl⟩

theorem logs_firstAppend (e : Engine α σ) (command : Message) (c : Context α) (w : World) :
    w.Logs (e.firstAppend command c w).2 [.ofAnswer (e.firstAppend command c w).1] :=
  (e.logs_closing c w).trans (e.logs_appendPending command _ _ _)

theorem logs_secondAppend (e : Engine α σ) (command : Message) (refusal : StoreError) (w : World) :
    w.Logs (e.secondAppend command refusal w).2
      [.ofAnswer (e.secondAppend command refusal w).1] := by
  unfold secondAppend
  have h : w.Logs { w.count .appendRetries with reports := w.reports + 1 } [] :=
    ((World.Logs.refl w).count .appendRetries).before rfl
  exact h.trans (e.logs_appendPending command _ _ _)

/-- How a command ends, and what it has entered by then besides routine. With room for one more event
no version overflows, so nothing else than a second refusal makes the engine panic. -/
inductive Closes (room : Prop) : Except Panic Message → List Entry → Prop
  | appended (m : Message) : Closes room (.ok m) [.appended m]
  | reported (refusal : StoreError) (m : Message) :
    Closes room (.ok m) [.refused (.error refusal), .appended m]
  | fatal (refusal refusal' : StoreError) (p : Panic) :
    Closes room (.error p)
      [.refused (.error refusal), .refused (.error refusal'), .stage .appendFatal]
  | overflowed (h : ¬ room) (p : Panic) : Closes room (.error p) [.refused (.panic p)]
  | reportOverflowed (h : ¬ room) (refusal : StoreError) (p : Panic) :
    Closes room (.error p) [.refused (.error refusal), .refused (.panic p)]
  | unhydrated (h : ¬ room) (p : Panic) : Closes room (.error p) []

theorem logs_finalize (e : Engine α σ) (command : Message) (c : Context α) (w : World) :
    ∃ entries, Closes w.HasRoom (e.finalize command c w).1 entries ∧
      w.Logs (e.finalize command c w).2 entries := by
  have h₁ := e.logs_firstAppend command c w
  have hfirst (hw : w.HasRoom) := e.firstAppend_ne_panic command hw c
  rw [finalize_eq]
  rcases e.firstAppend_cases command c w with
    ⟨m, w₁, hf, -⟩ | ⟨refusal | p, w₁, hf, hs, -, hv⟩
  · rw [hf] at h₁ ⊢
    exact ⟨_, .appended m, h₁⟩
  · have hsecond (hw : w.HasRoom) := e.secondAppend_ne_panic command (hw.of_eq hs hv) refusal
    have h₂ := e.logs_secondAppend command refusal w₁
    rw [hf] at h₁ ⊢
    dsimp only
    rcases hr : e.secondAppend command refusal w₁ with ⟨(refusal' | p) | m, w₂⟩
    · rw [hr] at h₂
      exact ⟨_, .fatal refusal refusal' _, (h₁.trans h₂).record (.stage .appendFatal)⟩
    · rw [hr] at h₂ hsecond
      exact ⟨_, .reportOverflowed (fun hw => hsecond hw p rfl) refusal p, h₁.trans h₂⟩
    · rw [hr] at h₂
      exact ⟨_, .reported refusal m, h₁.trans h₂⟩
  · rw [hf] at h₁ hfirst ⊢
    exact ⟨_, .overflowed (fun hw => hfirst hw p rfl) p, h₁⟩

theorem logs_handle {e : Engine α σ} (hq : e.wiring.Quiet) (command : Message) (w : World) :
    ∃ entries, Closes w.HasRoom (e.handle command w).1 entries ∧
      w.Logs (e.handle command w).2 entries := by
  have ho := logs_outcome hq command w
  have hread := onlyReads_outcome hq command w
  have hhydrated (hw : w.HasRoom) := exists_outcome (not_overflows hw : ¬ e.Overflows command w)
  rw [handle_eq]
  rcases hc : e.outcome command w with ⟨p | c, w₁⟩
  · rw [hc] at ho hhydrated
    refine ⟨[], .unhydrated ?_ p, ho⟩
    intro hw
    obtain ⟨c, h⟩ := hhydrated hw
    cases h
  · rw [hc] at ho hread
    have hroom : w₁.HasRoom ↔ w.HasRoom :=
      ⟨fun h => h.of_eq hread.store.symm hread.view.symm, fun h => h.of_eq hread.store hread.view⟩
    obtain ⟨entries, hcloses, hl⟩ := e.logs_finalize command c w₁
    rw [hroom] at hcloses
    dsimp only
    rcases hf : e.finalize command c w₁ with ⟨p | m, w₂⟩
    · rw [hf] at hcloses hl
      exact ⟨entries, hcloses, ho.trans hl⟩
    · rw [hf] at hcloses hl
      have hpublished : w.Logs ((w₂.enter .appended).publish m) entries :=
        ((ho.trans hl).enter (s := .appended) (by decide)).before rfl
      exact ⟨entries, hcloses, hpublished.count .commandsTimed⟩

end Engine
end EventSourcing
