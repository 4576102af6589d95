import EventSourcing.Proofs.Engine.Runs

/-! The order of delivery. Where events are published to a channel, each one that is appended waits
there until the dispatcher takes it, so what was taken and what is waiting make up what was
appended. This is so at any moment of a run, also when services append further events in a
delivery. -/

namespace EventSourcing

/-- From `w`, whose channel was empty, to `w'` just `events` were appended, in this order: they
stand in the journal and in the streams of their aggregates, and the dispatcher has taken the first
of them and finds the others in the channel. -/
structure World.Accounts (w w' : World) (events : List Message) : Prop where
  appended : w'.appended = w.appended ++ events
  stream : ∀ k, w'.store.stream k = w.store.stream k ++ events.filter (·.aggregateKey = k)
  split : ∃ taken queue, w'.taken = w.taken ++ taken ∧ w'.publisher = .channel queue ∧
    taken ++ queue = events

namespace World.Accounts

variable {w a b : World} {events : List Message}

theorem refl (hw : w.publisher = .channel []) : w.Accounts w [] where
  appended := (List.append_nil _).symm
  stream _ := (List.append_nil _).symm
  split := ⟨[], [], (List.append_nil _).symm, hw, rfl⟩

/-- What is gained joins the end of the channel. -/
theorem gains (h : w.Accounts a events) {added : List Message} (hg : a.Gains b added) :
    w.Accounts b (events ++ added) where
  appended := by rw [hg.appended, h.appended, List.append_assoc]
  stream k := by rw [hg.stream, h.stream, List.filter_append, List.append_assoc]
  split := by
    obtain ⟨taken, queue, htaken, hqueue, rfl⟩ := h.split
    exact ⟨taken, queue ++ added, hg.taken.trans htaken, hg.channel hqueue,
      (List.append_assoc ..).symm⟩

/-- What is taken leaves the front of the channel. -/
theorem take (h : w.Accounts a events) {event : Message} (ht : a.take = some (event, b)) :
    w.Accounts b events := by
  obtain ⟨rest, hrest, hb, hs, -⟩ := take_eq_some ht
  refine ⟨(appended_of_take ht).trans h.appended, ?_, ?_⟩
  · rw [hs]
    exact h.stream
  · obtain ⟨taken, queue, htaken, hqueue, rfl⟩ := h.split
    obtain rfl : queue = event :: rest := Publisher.channel.inj (hqueue.symm.trans hrest)
    refine ⟨taken ++ [event], rest, ?_, hb, List.append_assoc ..⟩
    rw [taken_of_take ht, htaken, List.append_assoc]

end World.Accounts

variable {α σ : Type} [Content α]

namespace Engine

variable {e : Engine α σ} {submits : Message → Prop} {start w w' : World} {log : List Effect}

theorem Run.accounts (hrun : e.Run submits start log w) (hc : e.wiring.Confined)
    (hstart : start.publisher = .channel []) : start.Accounts w (log.map Effect.event) :=
  hrun.gains_induction hc (.refl hstart) (fun h hgains => h.gains hgains) fun h ht => h.take ht

/-- A drain that ends without a panic has emptied the channel, and counts what it has taken. -/
theorem taken_of_drain (hc : e.wiring.Confined) {fuel n : Nat} {queue : List Message}
    (hw : w.publisher = .channel queue) (h : e.drain fuel w = some (.ok n, w')) :
    w'.publisher = .channel [] ∧ ∃ taken, w'.taken = w.taken ++ taken ∧ taken.length = n := by
  induction fuel generalizing w queue n with
  | zero =>
    unfold drain at h
    split at h
    · cases h
    · next hnone =>
      cases h
      obtain rfl := World.take_eq_none hw (Option.not_isSome_iff_eq_none.1 hnone)
      exact ⟨hw, [], (List.append_nil _).symm, rfl⟩
  | succ fuel ih =>
    unfold drain at h
    split at h
    · next hnone =>
      cases h
      obtain rfl := World.take_eq_none hw hnone
      exact ⟨hw, [], (List.append_nil _).symm, rfl⟩
    next event w₁ ht =>
    obtain ⟨rest, -, hw₁, -, -⟩ := World.take_eq_some ht
    -- What the delivery appends comes behind the events that are waiting, and is taken after them.
    have hgains := gains_dispatch hc event w₁
    split at h
    · cases h
    · next w₂ hd =>
      rw [hd] at hgains
      obtain ⟨⟨result, w₃⟩, hdrain, hresult⟩ := Option.map_eq_some_iff.1 h
      cases result with
      | error p => cases hresult
      | ok n' =>
        cases hresult
        obtain ⟨hempty, taken, htaken, rfl⟩ := ih (hgains.channel hw₁) hdrain
        refine ⟨hempty, event :: taken, ?_, rfl⟩
        rw [htaken, hgains.taken, World.taken_of_take ht, List.append_assoc, List.singleton_append]

/-- Nothing that is appended is lost, delivered twice or out of turn: what the dispatcher has taken,
and after it what is in the channel, is what was appended in the run, in the order of the appends. A
drain goes the run on, and when it ends without a panic it leaves the channel empty and has counted
what it took. -/
theorem events_delivered_in_order (e : Engine α σ) (hc : e.wiring.Confined)
    (submits : Message → Prop) {start w : World} {log : List Effect}
    (hstart : start.publisher = .channel []) (hrun : e.Run submits start log w) :
    start.Accounts w (log.map Effect.event) ∧
      ∀ fuel result w', e.drain fuel w = some (result, w') →
        (∃ later, e.Run submits start (log ++ later) w') ∧
          ∀ n, result = .ok n → w'.publisher = .channel [] ∧
            ∃ taken, w'.taken = w.taken ++ taken ∧ taken.length = n := by
  have haccounts := hrun.accounts hc hstart
  refine ⟨haccounts, ?_⟩
  intro fuel result w' hdrain
  refine ⟨exists_run_of_drain hrun hdrain, ?_⟩
  rintro n rfl
  obtain ⟨_, queue, -, hqueue, -⟩ := haccounts.split
  exact taken_of_drain hc hqueue hdrain

/-- An error is raised, and the drain delivers the report of it and the one that the service issues
then. -/
theorem events_delivered_in_order_diskFull :
    let e : Engine ValueChanger.Change ValueChanger.Value := echoing
    let start := World.fresh (.channel []) fun _ => 0
    let log := [] ++ Effect.list none (e.handle diskFull start).1.toOption.toList
    let w := (e.handle diskFull start).2
    e.wiring.Confined ∧ start.publisher = .channel [] ∧ e.Run (fun _ => True) start log w ∧
      start.Accounts w (log.map Effect.event) ∧
      ∃ w', e.drain 3 w = some (.ok 2, w') ∧ w'.publisher = .channel [] ∧
        ∃ taken, w'.taken = w.taken ++ taken ∧ taken.length = 2 := by
  intro e start log w
  have hc : e.wiring.Confined := Wiring.confined_echoing
  have hrun : e.Run (fun _ => True) start log w := Run.start.handled trivial
  obtain ⟨haccounts, hdrains⟩ := events_delivered_in_order e hc _ rfl hrun
  obtain ⟨⟨result, w'⟩, hdrain, hresult⟩ := Option.map_eq_some_iff.1 drain_echoing
  have hok : result = .ok 2 := toOption_eq_some_iff.1 hresult
  rw [hok] at hdrain
  exact ⟨hc, rfl, hrun, haccounts, w', hdrain, (hdrains 3 _ w' hdrain).2 2 rfl⟩

end Engine
end EventSourcing
