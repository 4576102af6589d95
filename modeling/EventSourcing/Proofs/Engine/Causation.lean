import EventSourcing.Proofs.Engine.Runs
import EventSourcing.Proofs.Message.Header
import EventSourcing.Proofs.Message.Origin

/-! Chains of causes. An event carries the chain of its command, and a service gives its commands
the chain of the event that it is reacting to, with that event in front. So in a run whose outside
commands have no cause, the chain of an event lists the events that led to it, each of which was
appended before the next one. -/

namespace EventSourcing

/-- The event carries the chain that its cause, one of the events of `log`, hands on. -/
def Effect.Follows (log : List Effect) : Effect → Prop
  | ⟨none, event⟩ => event.origin = []
  | ⟨some cause, event⟩ => cause ∈ log.map Effect.event ∧ event.origin = cause.chain

/-- Each event of a log follows those before it. -/
def Causal (log : List Effect) : Prop :=
  ∀ (i : Nat) (effect : Effect), log[i]? = some effect → effect.Follows (log.take i)

/-- The ancestors of an event of a log, from the most recent to the root: its cause, and the
ancestors of its cause, which stands before it. -/
inductive Lineage (log : List Effect) : Nat → List Message → Prop
  | root {i : Nat} {event : Message} (h : log[i]? = some ⟨none, event⟩) : Lineage log i []
  | step {i j : Nat} {event parent : Message} {cause : Option Message} {ancestors : List Message}
      (h : log[i]? = some ⟨some parent, event⟩) (hj : j < i)
      (hparent : log[j]? = some ⟨cause, parent⟩) (hl : Lineage log j ancestors) :
      Lineage log i (parent :: ancestors)

theorem Effect.Follows.append {log : List Effect} {effect : Effect} (h : effect.Follows log)
    (later : List Effect) : effect.Follows (log ++ later) := by
  obtain ⟨_ | cause, event⟩ := effect
  · exact h
  · refine ⟨?_, h.2⟩
    rw [List.map_append]
    exact List.mem_append_left _ h.1

namespace Causal

variable {log : List Effect}

theorem nil : Causal [] := fun _ _ h => nomatch h

theorem append (h : Causal log) {later : List Effect}
    (hlater : ∀ effect ∈ later, effect.Follows log) : Causal (log ++ later) := by
  intro i effect hi
  rcases Nat.lt_or_ge i log.length with hlt | hge
  · rw [List.getElem?_append_left hlt] at hi
    rw [List.take_append_of_le_length (Nat.le_of_lt hlt)]
    exact h i effect hi
  · rw [List.getElem?_append_right hge] at hi
    rw [List.take_append, List.take_of_length_le hge]
    exact (hlater effect (List.mem_of_getElem? hi)).append _

theorem list (h : Causal log) {cause : Option Message} {events : List Message}
    (hevents : ∀ event ∈ events, (⟨cause, event⟩ : Effect).Follows log) :
    Causal (log ++ Effect.list cause events) := by
  refine h.append ?_
  intro effect heffect
  obtain ⟨event, hevent, rfl⟩ := List.mem_map.1 heffect
  exact hevents event hevent

theorem exists_lineage (h : Causal log) {i : Nat} {effect : Effect} (hi : log[i]? = some effect) :
    ∃ ancestors, Lineage log i ancestors := by
  -- The cause stands before the event, so the chain of causes comes to an end.
  induction i using Nat.strongRecOn generalizing effect with
  | ind i ih =>
    have hfollows := h i effect hi
    obtain ⟨_ | parent, event⟩ := effect
    · exact ⟨[], .root hi⟩
    · obtain ⟨⟨cause, event'⟩, hmem, rfl⟩ := List.mem_map.1 hfollows.1
      obtain ⟨j, hj⟩ := List.mem_iff_getElem?.1 hmem
      rw [List.getElem?_take] at hj
      split at hj
      · next hlt =>
        obtain ⟨ancestors, hl⟩ := ih j hlt hj
        exact ⟨_, .step hi hlt hj hl⟩
      · cases hj

end Causal

namespace Lineage

variable {log : List Effect} {i : Nat} {ancestors : List Message} {effect : Effect}

theorem origin_eq (hl : Lineage log i ancestors) (h : Causal log) (hi : log[i]? = some effect) :
    effect.event.origin = ancestors.map fun event => Record.ofHeader event.header := by
  induction hl generalizing effect with
  | root hroot =>
    obtain rfl := Option.some.inj (hi.symm.trans hroot)
    exact h _ _ hroot
  | step hstep _ hparent _ ih =>
    obtain rfl := Option.some.inj (hi.symm.trans hstep)
    obtain ⟨-, horigin⟩ := h _ _ hstep
    rw [List.map_cons, ← ih hparent]
    exact horigin

end Lineage

theorem Modifier.ofRecord?_ofHeader (h : Header) :
    ofRecord? (some (Record.ofHeader h)) = .id h.id :=
  congrArg Modifier.id (Record.fields_snapshot h []).2.2.1

section

variable {event : Message} {ancestors : List Message}
  (h : event.origin = ancestors.map fun event => Record.ofHeader event.header)

include h

theorem Modifier.originStack_zero {parent : Message} (hp : parent ∈ ancestors.head?) :
    originStack event 0 = .id parent.id := by
  have hfirst : event.origin[(0 : UInt64).toNat]? = some (Record.ofHeader parent.header) := by
    show event.origin[0]? = _
    rw [h, ← List.head?_eq_getElem?, List.head?_map, hp]
    rfl
  rw [originStack, hfirst]
  exact ofRecord?_ofHeader _

theorem Modifier.originQueue_zero {root : Message} (hroot : root ∈ ancestors.getLast?) :
    originQueue event 0 = .ok (.id root.id) := by
  have hlast : event.origin.reverse[(0 : UInt64).toNat]? = some (Record.ofHeader root.header) := by
    show event.origin.reverse[0]? = _
    rw [h, ← List.head?_eq_getElem?, List.head?_reverse, List.getLast?_map, hroot]
    rfl
  rw [originQueue_eq_ok (by decide), hlast, ofRecord?_ofHeader]
  rfl

end

variable {α σ : Type} [Content α]

namespace Engine

variable {e : Engine α σ} {start w w' : World} {log : List Effect}

/-- What a step of a run gains joins the log, if it follows what is there. -/
theorem causal_gains {cause : Option Message} {added : List Message} (h : Causal log)
    (hwaiting : ∀ event ∈ w.publisher.waiting, event ∈ log.map Effect.event)
    (hgains : w.Gains w' added)
    (hadded : ∀ event ∈ added, (⟨cause, event⟩ : Effect).Follows log) :
    Causal (log ++ Effect.list cause added) ∧
      ∀ event ∈ w'.publisher.waiting,
        event ∈ (log ++ Effect.list cause added).map Effect.event := by
  refine ⟨h.list hadded, ?_⟩
  intro event hevent
  rw [List.map_append, Effect.map_event_list, List.mem_append]
  exact (hgains.mem_waiting hevent).imp (hwaiting event) id

theorem causal_dispatch (hc : e.wiring.Confined) (h : Causal log)
    (hwaiting : ∀ event ∈ w.publisher.waiting, event ∈ log.map Effect.event) {cause : Message}
    (hcause : cause ∈ log.map Effect.event) :
    Causal (log ++ Effect.list cause (w.appendedUntil (e.dispatch cause w).2)) ∧
      ∀ event ∈ (e.dispatch cause w).2.publisher.waiting,
        event ∈ (log ++ Effect.list cause (w.appendedUntil (e.dispatch cause w).2)).map
          Effect.event := by
  obtain ⟨added, hgains, horigin⟩ := gainsFrom_dispatch hc cause w
  rw [hgains.appendedUntil_eq]
  exact causal_gains h hwaiting hgains fun event hevent => ⟨hcause, horigin event hevent⟩

/-- In a run whose outside commands have no cause, each event follows the log before it. -/
theorem Run.causal (hrun : e.Run (·.origin = []) start log w) (hc : e.wiring.Confined)
    (hstart : start.publisher.waiting = []) :
    Causal log ∧ ∀ event ∈ w.publisher.waiting, event ∈ log.map Effect.event := by
  -- What is delivered was appended in the run, because whatever waits in the channel was.
  induction hrun with
  | start =>
    rw [hstart]
    exact ⟨.nil, nofun⟩
  | @handled log w _ command hcommand ih =>
    obtain ⟨hgains, horigin⟩ := gains_handle hc.handlers command w
    refine causal_gains ih.1 ih.2 hgains ?_
    intro event hevent
    exact (horigin event (toOption_eq_some_iff.1 (Option.mem_toList.1 hevent))).trans hcommand
  | @delivered log _ w _ event ht ih =>
    obtain ⟨hcausal, hwaiting⟩ := ih
    rw [World.waiting_of_take ht, List.forall_mem_cons] at hwaiting
    exact causal_dispatch hc hcausal hwaiting.2 hwaiting.1
  | dispatched _ hevent ih => exact causal_dispatch hc ih.1 ih.2 hevent

/-- In a run whose outside commands have no cause, an event has an empty chain if its command came
from outside, and else the chain of the event that was being delivered, with that event in front,
which was appended before. So the chain lists the ancestors of the event up to the root, and the
first and the last member of it lead to the aggregates of its direct cause and of the root. A report
that takes the place of a refused event has the chain of its command as well. -/
theorem origin_lists_ancestors (e : Engine α σ) (hc : e.wiring.Confined) {start w : World}
    {log : List Effect} (hstart : start.publisher.waiting = [])
    (hrun : e.Run (·.origin = []) start log w) :
    w.appended = start.appended ++ log.map Effect.event ∧ Causal log ∧
      (∀ (i : Nat) (effect : Effect), log[i]? = some effect →
        (∃ ancestors, Lineage log i ancestors) ∧ ∀ ancestors, Lineage log i ancestors →
          effect.event.origin = ancestors.map (fun event => Record.ofHeader event.header) ∧
          (∀ parent ∈ ancestors.head?,
            Modifier.originStack effect.event 0 = .id parent.id) ∧
          ∀ root ∈ ancestors.getLast?, Modifier.originQueue effect.event 0 = .ok (.id root.id)) ∧
      ∀ command w₁ m w₂, e.handle command w₁ = (.ok m, w₂) → m.origin = command.origin := by
  obtain ⟨hcausal, -⟩ := hrun.causal hc hstart
  refine ⟨hrun.appended_eq hc, hcausal, ?_, ?_⟩
  · intro i effect hi
    refine ⟨hcausal.exists_lineage hi, ?_⟩
    intro ancestors hl
    have horigin := hl.origin_eq hcausal hi
    exact ⟨horigin, fun parent => Modifier.originStack_zero horigin,
      fun root => Modifier.originQueue_zero horigin⟩
  · intro command w₁ m w₂ h
    exact (gains_handle hc.handlers command w₁).2 m (congrArg Prod.fst h)

theorem handle_echoing :
    let e : Engine ValueChanger.Change ValueChanger.Value := echoing
    let run := e.handle diskFull (.fresh (.channel []) fun _ => 0)
    run.1.toOption.isSome ∧
      (run.2.take.map fun taken =>
        (taken.2.appendedUntil (e.dispatch taken.1 taken.2).2).length) = some 1 := by
  unfold echoing Registry.minimal
  rw [systemDomain_eq]
  decide +kernel

/-- An error is raised and its report delivered, which leads to a second report. -/
theorem origin_lists_ancestors_diskFull :
    let e : Engine ValueChanger.Change ValueChanger.Value := echoing
    let start := World.fresh (.channel []) fun _ => 0
    ∃ cause effect w, e.wiring.Confined ∧ start.publisher.waiting = [] ∧
      e.Run (·.origin = []) start [⟨none, cause⟩, ⟨some cause, effect⟩] w ∧
      Causal [⟨none, cause⟩, ⟨some cause, effect⟩] ∧
      effect.origin = [Record.ofHeader cause.header] := by
  intro e start
  have hc : e.wiring.Confined := Wiring.confined_echoing
  obtain ⟨hanswered, hlength⟩ : (e.handle diskFull start).1.toOption.isSome ∧
      ((e.handle diskFull start).2.take.map fun taken =>
        (taken.2.appendedUntil (e.dispatch taken.1 taken.2).2).length) = some 1 := handle_echoing
  obtain ⟨cause, hcause⟩ := Option.isSome_iff_exists.1 hanswered
  obtain ⟨⟨event, w⟩, ht, hone⟩ := Option.map_eq_some_iff.1 hlength
  obtain ⟨effect, heffect⟩ := List.length_eq_one_iff.1 hone
  obtain rfl : event = cause := by
    obtain ⟨queue, hqueue, -⟩ := World.take_eq_some ht
    have hgains := (gains_handle hc.handlers diskFull start).1
    rw [hcause] at hgains
    have hchannel := hgains.channel (rfl : start.publisher = .channel [])
    rw [hqueue] at hchannel
    cases hchannel
    rfl
  have hrun : e.Run (·.origin = []) start _ _ :=
    (Run.start.handled (rfl : diskFull.origin = [])).delivered ht
  rw [hcause, heffect] at hrun
  have hcausal := (origin_lists_ancestors e hc rfl hrun).2.1
  have hchain : effect.origin = Record.ofHeader event.header :: event.origin :=
    (hcausal 1 ⟨some event, effect⟩ rfl).2
  have hroot : event.origin = [] := hcausal 0 ⟨none, event⟩ rfl
  rw [hroot] at hchain
  exact ⟨event, effect, _, hc, rfl, hrun, hcausal, hchain⟩

end Engine
end EventSourcing
