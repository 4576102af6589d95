import EventSourcing.Proofs.Engine.Journal
import EventSourcing.Proofs.Engine.Minimal
import EventSourcing.Proofs.Store.Reports
import EventSourcing.ValueChanger.Domain

/-! A command leads to one event or to none. The event answered is the only change of the store, and
it is published once. None is appended only if the store refuses both appends tried, and then the
engine panics and has changed nothing. Which of the two it is does not depend on how far the command
came or on what its handler did. -/

namespace EventSourcing

variable {α σ : Type} [Content α]

namespace Engine

variable {e : Engine α σ} {command : Message} {w : World}

/-- How finalizing a command can end: with the event that the first append or the second one made, or
with a panic and nothing changed. -/
theorem finalize_cases (e : Engine α σ) (command : Message) (c : Context α) (w : World) :
    (∃ m w', e.finalize command c w = (.ok m, w') ∧ w.store.Appends e.registry m w'.store ∧
        w'.publisher = w.publisher ∧ m.origin = command.origin) ∨
      ∃ p w', e.finalize command c w = (.error p, w') ∧ w'.store = w.store ∧
        w'.publisher = w.publisher := by
  rw [finalize_eq]
  rcases e.firstAppend_cases command c w with
    ⟨m, w₁, h, happends, hpub, horigin⟩ | ⟨refusal | q, w₁, h, hs, hpub, -⟩
  · rw [h]
    exact .inl ⟨m, w₁, rfl, happends, hpub, horigin⟩
  · rw [h]
    dsimp only
    rcases e.secondAppend_cases command refusal w₁ with
      ⟨m, w₂, h, happends, hpub', horigin⟩ | ⟨refusal' | q, w₂, h, hs', hpub'⟩
    · rw [h]
      rw [hs] at happends
      exact .inl ⟨m, w₂, rfl, happends, hpub'.trans hpub, horigin⟩
    · rw [h]
      exact .inr ⟨_, _, rfl, hs'.trans hs, hpub'.trans hpub⟩
    · rw [h]
      exact .inr ⟨q, w₂, rfl, hs'.trans hs, hpub'.trans hpub⟩
  · rw [h]
    exact .inr ⟨q, w₁, rfl, hs, hpub⟩

theorem handle_cases (hq : e.wiring.Quiet) (command : Message) (w : World) :
    (∃ m w', e.handle command w = (.ok m, w') ∧ w.store.Appends e.registry m w'.store ∧
        w'.publisher = w.publisher.publish m ∧ m.origin = command.origin) ∨
      ∃ p w', e.handle command w = (.error p, w') ∧ w'.store = w.store ∧
        w'.publisher = w.publisher := by
  have hread := onlyReads_outcome hq command w
  rw [handle_eq]
  rcases hc : e.outcome command w with ⟨p | c, w₁⟩
  · rw [hc] at hread
    exact .inr ⟨p, w₁, rfl, hread.store, hread.publisher⟩
  · rw [hc] at hread
    dsimp only
    rcases e.finalize_cases command c w₁ with
      ⟨m, w₂, h, happends, hpub, horigin⟩ | ⟨p, w₂, h, hs, hpub⟩
    · rw [h]
      rw [hread.store] at happends
      rw [hread.publisher] at hpub
      exact .inl ⟨m, _, rfl, happends, congrArg (Publisher.publish m) hpub, horigin⟩
    · rw [h]
      exact .inr ⟨p, w₂, rfl, hs.trans hread.store, hpub.trans hread.publisher⟩

/-- What the store has answered to the appends for a command, as the journal tells after it. -/
def attempts (e : Engine α σ) (command : Message) (w : World) : List (Attempt StoreError Message) :=
  w.attemptsUntil (e.handle command w).2

theorem attempts_of_firstAppend (hq : e.wiring.Quiet) {c : Context α} {w₁ : World} {m : Message}
    (houtcome : e.outcome command w = (.ok c, w₁))
    (hfirst : (e.firstAppend command c w₁).1 = .ok m) : e.attempts command w = [.ok m] := by
  have hlogs := (logs_outcome hq command w).trans
    (e.logs_firstAppend command c (e.outcome command w).2)
  rw [houtcome, hfirst] at hlogs
  rw [attempts, handle_of_firstAppend houtcome hfirst]
  have hpublished : w.Logs (((e.firstAppend command c w₁).2.enter .appended).publish m)
      [.appended m] := (hlogs.enter (s := .appended) (by decide)).before rfl
  exact (hpublished.count .commandsTimed).attemptsUntil_eq

/-- With room, a panic means that both appends were refused. -/
theorem handle_eq_error_iff (hq : e.wiring.Quiet) (hw : w.HasRoom) :
    (∃ p, (e.handle command w).1 = .error p) ↔
      ∃ refusal refusal', e.attempts command w = [refuse refusal, refuse refusal'] := by
  obtain ⟨entries, hcloses, hlogs⟩ := logs_handle hq command w
  rw [attempts, hlogs.attemptsUntil_eq]
  generalize (e.handle command w).1 = result at hcloses ⊢
  cases hcloses with
  | appended m => exact ⟨nofun, nofun⟩
  | reported refusal m => exact ⟨nofun, nofun⟩
  | fatal refusal refusal' p => exact ⟨fun _ => ⟨refusal, refusal', rfl⟩, fun _ => ⟨p, rfl⟩⟩
  | overflowed h p => exact absurd hw h
  | reportOverflowed h refusal p => exact absurd hw h
  | unhydrated h p => exact absurd hw h

/-- A command is answered with one event, appended and published, or it panics with nothing done.
It panics just when both appends are refused. -/
theorem handle_appends_one_event (e : Engine α σ) (command : Message) (w : World)
    (hq : e.wiring.Quiet) (hw : w.HasRoom) :
    ((∃ m w', e.handle command w = (.ok m, w') ∧ w.store.Adds m w'.store ∧
          m.origin = command.origin ∧ w'.publisher = w.publisher.publish m) ∨
        ∃ p w', e.handle command w = (.error p, w') ∧ w'.store = w.store ∧
          w'.publisher = w.publisher) ∧
      ((∃ p, (e.handle command w).1 = .error p) ↔
        ∃ refusal refusal', e.attempts command w = [refuse refusal, refuse refusal']) := by
  refine ⟨?_, handle_eq_error_iff hq hw⟩
  rcases handle_cases hq command w with ⟨m, w', h, happends, hpub, horigin⟩ | hp
  · exact .inl ⟨m, w', h, happends.adds, horigin, hpub⟩
  · exact .inr hp

/-- A command to the smallest engine, whose first append is refused. The report of that is appended
and published, after an event that was published before. -/
theorem handle_appends_one_event_diskFull :
    let e : Engine ValueChanger.Change ValueChanger.Value := minimal "test/source"
    let w (publisher : Publisher) : World := { World.fresh publisher fun _ => 0 with
      outage := ⟨[], [some (.unavailable "maintenance")], id⟩ }
    let before := e.registry.report 3 1 0 [] ⟨"disk full"⟩
    let m := e.registry.report 1 1 0 []
      ⟨"Error appending event [ Event store unavailable: maintenance ]"⟩
    e.wiring.Quiet ∧
      ∀ publisher ∈ [Publisher.recording [before], .channel [before]],
        (w publisher).HasRoom ∧
          (e.attempts diskFull (w publisher)).map Except.toOption = [none, some m] ∧
          ∃ w', e.handle diskFull (w publisher) = (.ok m, w') ∧
            (w publisher).store.Adds m w'.store ∧ w'.publisher = publisher.publish m ∧
            (w'.publisher = .recording [before, m] ∨ w'.publisher = .channel [before, m]) := by
  intro e w before m
  have hq : e.wiring.Quiet := Wiring.quiet_minimal
  have hdecided : ∀ publisher ∈ [Publisher.recording [before], .channel [before]],
      (e.handle diskFull (w publisher)).1.toOption = some m ∧
        (e.attempts diskFull (w publisher)).map Except.toOption = [none, some m] ∧
        (publisher.publish m = .recording [before, m] ∨
          publisher.publish m = .channel [before, m]) := by
    unfold m before e minimal Registry.minimal
    rw [systemDomain_eq]
    decide +kernel
  refine ⟨hq, ?_⟩
  intro publisher hp
  obtain ⟨hok, hattempts, hpublished⟩ := hdecided publisher hp
  have hw : (w publisher).HasRoom := (World.hasRoom_fresh publisher fun _ => 0).of_eq rfl rfl
  rcases (handle_appends_one_event e diskFull (w publisher) hq hw).1 with
    ⟨m', w', h, hadds, -, hpublisher⟩ | ⟨p, w', h, -⟩
  · rw [h] at hok
    obtain rfl : m' = m := Option.some.inj hok
    exact ⟨hw, hattempts, w', h, hadds, hpublisher, hpublisher ▸ hpublished⟩
  · rw [h] at hok
    cases hok

end Engine
end EventSourcing
