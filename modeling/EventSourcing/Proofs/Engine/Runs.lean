import EventSourcing.Proofs.Engine.Gains

/-! Runs of an engine: commands are submitted from outside, and events are delivered that the run
has appended, by the dispatcher or directly. The log of a run tells, for each event appended, during
the delivery of which event its command was issued. A drain is a run that only delivers. -/

namespace EventSourcing

/-- An event that was appended, and the event that was being delivered then if the command came from
a service. -/
structure Effect where
  cause : Option Message
  event : Message

namespace Effect

def list (cause : Option Message) (events : List Message) : List Effect :=
  events.map fun event => ⟨cause, event⟩

@[simp] theorem map_event_list (cause : Option Message) (events : List Message) :
    (list cause events).map Effect.event = events := by
  rw [list, List.map_map]
  exact List.map_id events

end Effect

def World.appendedUntil (w w' : World) : List Message := w'.appended.drop w.appended.length

theorem World.Gains.appendedUntil_eq {w w' : World} {added : List Message} (h : w.Gains w' added) :
    w.appendedUntil w' = added := by
  rw [appendedUntil, h.appended, List.drop_left]

def Publisher.waiting : Publisher → List Message
  | .channel queue => queue
  | _ => []

variable {α σ : Type} [Content α]

namespace Engine

/-- The log and the world that a run from `start` on can lead to. Outside commands are such that
`submits` holds of them. Calls may panic, and a panic in a delivery ends the drain that it belongs
to. -/
inductive Run (e : Engine α σ) (submits : Message → Prop) (start : World) :
    List Effect → World → Prop
  | start : Run e submits start [] start
  | handled {log : List Effect} {w : World} (h : Run e submits start log w) {command : Message}
      (hc : submits command) :
      Run e submits start (log ++ Effect.list none (e.handle command w).1.toOption.toList)
        (e.handle command w).2
  | delivered {log : List Effect} {w w' : World} (h : Run e submits start log w) {event : Message}
      (ht : w.take = some (event, w')) :
      Run e submits start
        (log ++ Effect.list event (w'.appendedUntil (e.dispatch event w').2))
        (e.dispatch event w').2
  | dispatched {log : List Effect} {w : World} (h : Run e submits start log w) {event : Message}
      (hevent : event ∈ log.map Effect.event) :
      Run e submits start
        (log ++ Effect.list event (w.appendedUntil (e.dispatch event w).2))
        (e.dispatch event w).2

end Engine

theorem Publisher.mem_waiting_publish {p : Publisher} {m event : Message}
    (h : event ∈ (p.publish m).waiting) : event ∈ p.waiting ∨ event = m := by
  cases p with
  | channel queue => simpa [publish, waiting] using h
  | _ => cases h

namespace World

variable {w w' : World} {event : Message} {added : List Message}

theorem take_eq_some (h : w.take = some (event, w')) :
    ∃ queue, w.publisher = .channel (event :: queue) ∧ w'.publisher = .channel queue ∧
      w'.store = w.store ∧ w'.journal = w.journal ++ [.taken event] := by
  unfold take at h
  split at h
  · next queue hq =>
    cases h
    exact ⟨queue, hq, rfl, rfl, rfl⟩
  · cases h

theorem take_eq_none {queue : List Message} (hw : w.publisher = .channel queue)
    (h : w.take = none) : queue = [] := by
  unfold take at h
  rw [hw] at h
  cases queue with
  | nil => rfl
  | cons event rest => cases h

theorem appended_of_take (h : w.take = some (event, w')) : w'.appended = w.appended := by
  obtain ⟨_, -, -, -, hjournal⟩ := take_eq_some h
  rw [appended, hjournal, List.filterMap_append]
  exact List.append_nil _

theorem taken_of_take (h : w.take = some (event, w')) : w'.taken = w.taken ++ [event] := by
  obtain ⟨_, -, -, -, hjournal⟩ := take_eq_some h
  rw [taken, hjournal, List.filterMap_append]
  rfl

theorem waiting_of_take (h : w.take = some (event, w')) :
    w.publisher.waiting = event :: w'.publisher.waiting := by
  obtain ⟨_, hw, hw', -, -⟩ := take_eq_some h
  rw [hw, hw']
  rfl

/-- Nothing waits but what waited before and what was gained. -/
theorem Gains.mem_waiting (h : w.Gains w' added) (hm : event ∈ w'.publisher.waiting) :
    event ∈ w.publisher.waiting ∨ event ∈ added := by
  rw [h.publisher] at hm
  generalize w.publisher = p at hm ⊢
  clear h
  induction added generalizing p with
  | nil => exact .inl hm
  | cons m rest ih =>
    rcases ih (p.publish m) hm with hm | hm
    · rcases Publisher.mem_waiting_publish hm with hm | rfl
      · exact .inl hm
      · exact .inr List.mem_cons_self
    · exact .inr (List.mem_cons_of_mem m hm)

end World

theorem Publisher.foldl_publish_channel (added queue : List Message) :
    added.foldl (fun (p : Publisher) m => p.publish m) (.channel queue) =
      .channel (queue ++ added) := by
  induction added generalizing queue with
  | nil => rw [List.append_nil, List.foldl_nil]
  | cons m rest ih =>
    rw [List.foldl_cons]
    show rest.foldl _ (Publisher.channel (queue ++ [m])) = _
    rw [ih, List.append_assoc, List.singleton_append]

theorem World.Gains.channel {w w' : World} {added queue : List Message} (h : w.Gains w' added)
    (hw : w.publisher = .channel queue) : w'.publisher = .channel (queue ++ added) := by
  rw [h.publisher, hw, Publisher.foldl_publish_channel]

namespace Engine

variable {e : Engine α σ} {submits : Message → Prop} {start w w' : World} {log : List Effect}
  {result : Except Panic Nat}

theorem gains_dispatch (hc : e.wiring.Confined) (event : Message) (w : World) :
    w.Gains (e.dispatch event w).2 (w.appendedUntil (e.dispatch event w).2) := by
  obtain ⟨added, hgains, -⟩ := gainsFrom_dispatch hc event w
  rwa [hgains.appendedUntil_eq]

/-- All that happens in a run is that events are gained, which the log then lists, and taken. -/
theorem Run.gains_induction (hrun : e.Run submits start log w) (hc : e.wiring.Confined)
    {P : World → List Message → Prop} (init : P start [])
    (gain : ∀ {w w' events added}, P w events → w.Gains w' added → P w' (events ++ added))
    (take : ∀ {w w' events event}, P w events → w.take = some (event, w') → P w' events) :
    P w (log.map Effect.event) := by
  induction hrun with
  | start => exact init
  | @handled log w _ command _ ih =>
    rw [List.map_append, Effect.map_event_list]
    exact gain ih (gains_handle hc.handlers command w).1
  | @delivered log _ w _ event ht ih =>
    rw [List.map_append, Effect.map_event_list]
    exact gain (take ih ht) (gains_dispatch hc event w)
  | @dispatched log w _ event _ ih =>
    rw [List.map_append, Effect.map_event_list]
    exact gain ih (gains_dispatch hc event w)

theorem Run.appended_eq (hrun : e.Run submits start log w) (hc : e.wiring.Confined) :
    w.appended = start.appended ++ log.map Effect.event := by
  refine hrun.gains_induction hc (P := fun w events => w.appended = start.appended ++ events)
    (List.append_nil _).symm ?_ ?_
  · intro w w' events added h hgains
    rw [hgains.appended, h, List.append_assoc]
  · intro w w' events event h ht
    rw [World.appended_of_take ht, h]

theorem exists_run_of_drain (hrun : e.Run submits start log w) {fuel : Nat}
    (h : e.drain fuel w = some (result, w')) : ∃ later, e.Run submits start (log ++ later) w' := by
  induction fuel generalizing log w result with
  | zero =>
    unfold drain at h
    split at h
    · cases h
    · cases h
      exact ⟨[], by rwa [List.append_nil]⟩
  | succ fuel ih =>
    unfold drain at h
    split at h
    · cases h
      exact ⟨[], by rwa [List.append_nil]⟩
    next event w₁ ht =>
    have hnext := hrun.delivered ht
    split at h
    · next p w₂ hd =>
      rw [hd] at hnext
      cases h
      exact ⟨_, hnext⟩
    · next n w₂ hd =>
      rw [hd] at hnext
      obtain ⟨⟨result', w₃⟩, hdrain, hresult⟩ := Option.map_eq_some_iff.1 h
      cases hresult
      obtain ⟨later, hlater⟩ := ih hnext hdrain
      exact ⟨_, List.append_assoc .. ▸ hlater⟩

end Engine

/-! A run with a cause and an effect. -/

def Service.echo : Service α where
  name := "echo"
  uri := systemUri
  subscriptions := [⟨systemUri, "ErrorRaised"⟩]
  react
    | _, .errorRaised error =>
      if error.message = "disk full" then .issue (.error "the disk was full") fun _ => .done
      else .done
    | _, _ => .done

def Wiring.echoing : Wiring α σ where
  handlers := Wiring.minimal.handlers
  services := [.echo]
  subscribers := Table.empty.insert
    ⟨textHash32 systemUri, (errorRaisedEntry : MessageType α).typeId⟩ [0]

theorem Wiring.confined_echoing : (echoing : Wiring α σ).Confined where
  handlers := quiet_minimal
  services s hs event p := by
    rw [List.mem_singleton.1 hs]
    cases p with
    | errorRaised error =>
      show Reaction.Quiet (if error.message = "disk full" then _ else _)
      split
      · exact .issue _ fun _ => .done
      · exact .done
    | _ => exact .done

namespace Engine

def echoing : Engine α σ where
  registry := .minimal "test/source"
  wiring := .echoing
  reporter := .standard fun n => Int64.ofNat n + 1

theorem drain_echoing :
    let e : Engine ValueChanger.Change ValueChanger.Value := echoing
    (e.drain 3 (e.handle diskFull (.fresh (.channel []) fun _ => 0)).2).map (·.1.toOption) =
      some (some 2) := by
  unfold echoing Registry.minimal
  rw [systemDomain_eq]
  decide +kernel

end Engine
end EventSourcing
