import EventSourcing.Proofs.Engine.Causation
import EventSourcing.Proofs.ValueChanger.Runs

/-! Reactions of the janitor. The janitor addresses its command to the version after the reset that it
reacts to, but a command is handled at the version that its aggregate has come to by then. So the event
that clears the aggregate comes after all that was stored before the delivery. It follows the reset if
nothing has slipped in between, and else it takes away the value that was set since. -/

namespace EventSourcing

def listed (log : List Effect) (k : AggregateKey) : List Message :=
  (log.map Effect.event).filter (·.aggregateKey = k)

/-- The streams tell what was gained, if it is one event at most. -/
theorem World.Gains.eq_toList {w w' : World} {added : List Message} {answer : Option Message}
    (h : w.Gains w' added)
    (hs : ∀ k, w'.store.stream k = w.store.stream k ++ answer.toList.filter (·.aggregateKey = k)) :
    added = answer.toList := by
  have hfilter (k : AggregateKey) :
      added.filter (·.aggregateKey = k) = answer.toList.filter (·.aggregateKey = k) :=
    List.append_cancel_left ((h.stream k).symm.trans (hs k))
  have hmem : ∀ m ∈ added, m ∈ answer.toList := by
    intro m hm
    have hown : m ∈ added.filter (·.aggregateKey = m.aggregateKey) :=
      List.mem_filter.2 ⟨hm, decide_eq_true rfl⟩
    rw [hfilter] at hown
    exact List.mem_of_mem_filter hown
  cases answer with
  | none => exact List.eq_nil_iff_forall_not_mem.2 fun m hm => nomatch hmem m hm
  | some m =>
    have hone (x : Message) (hx : x ∈ added) : x = m := List.mem_singleton.1 (hmem x hx)
    have hadded : added.filter (·.aggregateKey = m.aggregateKey) = added :=
      List.filter_eq_self.2 fun x hx => decide_eq_true (hone x hx ▸ rfl)
    rw [← hadded, hfilter]
    exact List.filter_cons_of_pos (decide_eq_true rfl)

namespace ValueChanger

variable {reportIds : Nat → Int64} {e : Engine Change Value} {w : World} {log : List Effect}

/-- What a delivery leads to after the events of `log` is the answer to the command that the janitor
issues for a reset. -/
def Reacts (e : Engine Change Value) (log : List Effect) : Effect → Prop
  | ⟨none, _⟩ => True
  | ⟨some r, m⟩ => resets r = true ∧ ∃ version time u, nextVersion? r.version = some version ∧
    Sound u ∧ (∀ k, u.store.stream k = listed log k) ∧
      (e.handle (clearing e.registry.sourceId r version time) u).1 = .ok m

/-- What reacts to a log may be appended to it. -/
theorem reacts_append (h : ∀ i effect, log[i]? = some effect → Reacts e (log.take i) effect)
    {cause answer : Option Message} (ha : ∀ m ∈ answer, Reacts e log ⟨cause, m⟩) :
    ∀ i effect, (log ++ Effect.list cause answer.toList)[i]? = some effect →
      Reacts e ((log ++ Effect.list cause answer.toList).take i) effect := by
  intro i effect hi
  rcases Nat.lt_or_ge i log.length with hlt | hge
  · rw [List.getElem?_append_left hlt] at hi
    rw [List.take_append_of_le_length (Nat.le_of_lt hlt)]
    exact h i effect hi
  · rw [List.getElem?_append_right hge] at hi
    cases answer with
    | none => cases hi
    | some m =>
      have hfirst : i - log.length = 0 := by
        have hone := (List.getElem?_eq_some_iff.1 hi).1
        simpa [Effect.list] using hone
      rw [hfirst] at hi
      obtain rfl : ⟨cause, m⟩ = effect := Option.some.inj hi
      obtain rfl : i = log.length := by omega
      rw [List.take_left]
      exact ha m rfl

section

variable (h : Assembled reportIds e)

include h

theorem exists_reaction (hw : Sound w) (hlog : ∀ k, w.store.stream k = listed log k)
    (event : Message) :
    ∃ answer : Option Message, w.appendedUntil (e.dispatch event w).2 = answer.toList ∧
      ∀ m ∈ answer, Reacts e log ⟨some event, m⟩ := by
  have hgains := Engine.gains_dispatch h.confined event w
  rcases h.dispatch_cases event w with hread | ⟨hr, version, hv, hread⟩
  · refine ⟨none, hgains.eq_toList ?_, nofun⟩
    intro k
    rw [hread.store]
    exact (List.append_nil _).symm
  · have hs : Sound w.now.2 := hw.of_onlyReads (.now w)
    have hanswer := (Engine.gains_handle h.selfContained.quiet
      (clearing e.registry.sourceId event version w.now.1) w.now.2).1
    refine ⟨(e.handle (clearing e.registry.sourceId event version w.now.1) w.now.2).1.toOption,
      hgains.eq_toList ?_, ?_⟩
    · intro k
      rw [hread.store]
      exact hanswer.stream k
    · intro m hm
      exact ⟨hr, version, w.now.1, w.now.2, hv, hs, hlog, toOption_eq_some_iff.1 hm⟩

variable {submits : Message → Prop} {time : Nat → Int64}

theorem stream_eq_listed (hrun : e.Run submits (world time) log w) (k : AggregateKey) :
    w.store.stream k = listed log k := by
  rw [stream_eq h hrun, hrun.appended_eq h.confined]
  rfl

theorem reacts_run (hrun : e.Run submits (world time) log w) :
    ∀ i effect, log[i]? = some effect → Reacts e (log.take i) effect := by
  induction hrun with
  | start => exact nofun
  | handled _ _ ih => exact reacts_append ih fun _ _ => trivial
  | delivered hrun ht ih =>
    have hs := ((Sound.world time).run h hrun).take ht
    obtain ⟨queue, -, -, hstore, -⟩ := World.take_eq_some ht
    obtain ⟨answer, hanswer, hreacts⟩ := exists_reaction h hs (fun k => by
      rw [hstore]
      exact stream_eq_listed h hrun k) _
    rw [hanswer]
    exact reacts_append ih hreacts
  | dispatched hrun _ ih =>
    have hs := (Sound.world time).run h hrun
    obtain ⟨answer, hanswer, hreacts⟩ := exists_reaction h hs (stream_eq_listed h hrun) _
    rw [hanswer]
    exact reacts_append ih hreacts

theorem exists_history (hrun : e.Run submits (world time) log w) {m : Message}
    (hd : m.domain = textHash32 uri) : ∃ cs v, History (listed log m.aggregateKey) cs v := by
  rw [← stream_eq_listed h hrun, aggregateKey_eq hd]
  exact ((Sound.world time).run h hrun).history m.id

/-- The header tells which event of a run it is. -/
theorem eq_of_header (hrun : e.Run submits (world time) log w) {m n : Message}
    (hd : m.domain = textHash32 uri) (hm : m ∈ log.map Effect.event)
    (hn : n ∈ log.map Effect.event) (hheader : m.header = n.header) : m = n := by
  obtain ⟨cs, v, hs⟩ := exists_history h hrun hd
  have hkey : n.aggregateKey = m.aggregateKey := by
    unfold Message.aggregateKey Message.domain Message.id
    rw [hheader]
  refine hs.eq_of_version (List.mem_filter.2 ⟨hm, decide_eq_true rfl⟩)
    (List.mem_filter.2 ⟨hn, decide_eq_true hkey⟩) ?_
  exact congrArg Header.version hheader

/-- The first record of a chain leads to the event that has brought the chain's event about. -/
theorem cause_eq (hrun : e.Run (·.origin = []) (world time) log w) {i : Nat}
    {cause : Option Message} {c r : Message} (hi : log[i]? = some ⟨cause, c⟩)
    (hd : r.domain = textHash32 uri) (hr : r ∈ log.map Effect.event)
    (horigin : c.origin.head? = some (.ofHeader r.header)) :
    cause = some r ∧ r ∈ (log.take i).map Effect.event := by
  have hfollows := (hrun.causal h.confined rfl).1 i _ hi
  cases cause with
  | none =>
    have hnil : c.origin = [] := hfollows
    rw [hnil] at horigin
    cases horigin
  | some parent =>
    obtain ⟨hparent, hchain⟩ : parent ∈ (log.take i).map Effect.event ∧ c.origin = parent.chain :=
      hfollows
    rw [hchain] at horigin
    have hheader : parent.header = r.header :=
      Record.ofHeader_injective (Option.some.inj horigin)
    have hmem : parent ∈ log.map Effect.event := by
      rw [List.map_take] at hparent
      exact List.mem_of_mem_take hparent
    obtain rfl := eq_of_header h hrun hd hr hmem hheader.symm
    exact ⟨rfl, hparent⟩

end

/-- The log of the run in which a reset is overtaken. -/
theorem exists_log_overtaken :
    ∃ first second third r m c w, attended.drain 3 overtaken = some (.ok 3, w) ∧
      attended.Run (·.origin = []) (world fun _ => 0) [⟨first, r⟩, ⟨second, m⟩, ⟨third, c⟩] w ∧
      Reading.of r = ⟨header 1, none, some (.custom (.valueSet ⟨reset, ""⟩))⟩ ∧
      Reading.of m = ⟨header 2, none, some (.custom (.valueSet ⟨"b", reset⟩))⟩ ∧
      Reading.of c =
        ⟨header 3, some (.ofHeader (header 1)), some (.custom (.valueCleared ⟨"b"⟩))⟩ := by
  have h := assembled (engine_eq "test/source" fun n => Int64.ofNat n + 1)
  obtain ⟨w, r, m, c, hdrain, happended, hreadings⟩ := exists_drain_overtaken
  obtain ⟨log, hrun⟩ : ∃ log, attended.Run (·.origin = []) (world fun _ => 0) log overtaken :=
    exists_run_overtaken fun _ => rfl
  obtain ⟨later, hrun⟩ := Engine.exists_run_of_drain hrun hdrain
  have hlog := hrun.appended_eq h.confined
  rw [happended] at hlog
  obtain ⟨⟨first, _⟩, rest, hfirst, rfl, hrest⟩ := List.map_eq_cons_iff.1 hlog.symm
  obtain ⟨⟨second, _⟩, last, rfl, rfl, hlast⟩ := List.map_eq_cons_iff.1 hrest
  obtain ⟨⟨third, _⟩, none, rfl, rfl, hnone⟩ := List.map_eq_cons_iff.1 hlast
  obtain rfl := List.map_eq_nil_iff.1 hnone
  rw [hfirst] at hrun
  exact ⟨first, second, third, _, _, _, w, hdrain, hrun, hreadings⟩

/-- The first event of that log has set the reset value. -/
theorem resets_of_reading {r : Message} {version : Int32} {cause : Option Record} {previous : String}
    (h : Reading.of r = ⟨header version, cause, some (.custom (.valueSet ⟨reset, previous⟩))⟩) :
    resets r = true :=
  resets_iff.2 ⟨congrArg AggregateKey.domain (aggregateKey_of_reading h), previous,
    toOption_eq_some_iff.1 (congrArg Reading.payload h)⟩

/-- An event that has cleared a value in reaction to a reset goes on with the history that its aggregate
had at the delivery: it has the version after that history, and the value that it has taken away is the
one that the history has led to. The command was addressed to the version after the reset, but the event
has that version just if the reset was still the last event, and then it has taken the reset value away.
The commands submitted may be any messages without a cause. -/
theorem reaction_clears_current_value {sourceUri : String} {time : Nat → Int64}
    (he : engine sourceUri reportIds = .ok e) (hrun : e.Run (·.origin = []) (world time) log w)
    {i : Nat} {cause : Option Message} {c r : Message} {previous : String}
    (hi : log[i]? = some ⟨cause, c⟩) (hd : c.domain = textHash32 uri)
    (hc : domain.decodeEvent c = .ok (.custom (.valueCleared ⟨previous⟩)))
    (hr : r ∈ log.map Effect.event) (hreset : resets r = true)
    (horigin : c.origin.head? = some (.ofHeader r.header)) :
    let events := listed (log.take i) r.aggregateKey
    (cause = some r ∧ ∃ version now u,
      (e.handle (clearing e.registry.sourceId r version now) u).1 = .ok c ∧
      (clearing e.registry.sourceId r version now).version.toInt = r.version.toInt + 1 ∧
      u.store.stream r.aggregateKey = events) ∧
    c.aggregateKey = r.aggregateKey ∧ r ∈ events ∧ c.version.toInt = events.length + 1 ∧
    (∃ cs, History events cs previous) ∧ previous ≠ "" ∧
    (c.version.toInt = r.version.toInt + 1 ↔ events.getLast? = some r) ∧
    (events.getLast? = some r → previous = reset) := by
  intro events
  have h := assembled he
  obtain ⟨hdomain, _, hdecode⟩ := resets_iff.1 hreset
  obtain ⟨rfl, hbefore⟩ := cause_eq h hrun hi hdomain hr horigin
  have hmem : r ∈ events := List.mem_filter.2 ⟨hbefore, decide_eq_true rfl⟩
  obtain ⟨-, version, now, u, hnext, hu, hstream, hm⟩ := reacts_run h hrun i _ hi
  -- The command is handled at the history that its aggregate has come to.
  obtain ⟨cs, v, hs⟩ := hu.history c.id
  rw [← aggregateKey_eq hd] at hs
  obtain ⟨hcommand, hversion, _, c', -, hon, hc'⟩ := h.change_of_handle hu.outage hm hd hs
  have hkey : c.aggregateKey = r.aggregateKey := hcommand.trans (aggregateKey_eq hdomain).symm
  rw [hkey, hstream] at hs hversion
  obtain ⟨v', hlink⟩ := link_of_on hon
  obtain rfl : c' = .valueCleared ⟨previous⟩ := by
    cases hc'.symm.trans hc
    rfl
  obtain ⟨rfl, hne⟩ : v = previous ∧ previous ≠ "" := by
    cases hlink with
    | cleared hv => exact ⟨rfl, hv⟩
  refine ⟨⟨rfl, version, now, u, hm, ?_, hstream _⟩, hkey, hmem, hversion, ⟨cs, hs⟩, hne, ?_,
    fun hlast => hs.eq_of_getLast? hlast hdecode⟩
  · obtain ⟨j, hj⟩ := List.mem_iff_getElem?.1 hmem
    have hplace := hs.version j r hj
    have hnext := nextVersion?_eq_some_iff.1 hnext
    show (Options.new r.id version 0).version.toInt = _
    rw [Options.version_new (by omega), hnext]
  · rw [hs.getLast?_eq_some_iff hmem]
    omega

/-- The event that the late delivery has brought about stands after two others. -/
theorem reaction_clears_current_value_overtaken :
    ∃ log w r m c cause, engine "test/source" (fun n => Int64.ofNat n + 1) = .ok attended ∧
      attended.Run (·.origin = []) (world fun _ => 0) log w ∧
      log[2]? = some ⟨cause, c⟩ ∧ c.domain = textHash32 uri ∧
      domain.decodeEvent c = .ok (.custom (.valueCleared ⟨"b"⟩)) ∧
      r ∈ log.map Effect.event ∧ resets r = true ∧
      c.origin.head? = some (.ofHeader r.header) ∧ cause = some r ∧
      listed (log.take 2) r.aggregateKey = [r, m] ∧ c.version.toInt = 3 ∧
      ∃ cs, History [r, m] cs "b" := by
  have he := engine_eq "test/source" fun n => Int64.ofNat n + 1
  obtain ⟨first, second, third, r, m, c, w, -, hrun, hr, hm, hc⟩ := exists_log_overtaken
  have hd : c.domain = textHash32 uri :=
    congrArg AggregateKey.domain (aggregateKey_of_reading hc)
  have hdecode : domain.decodeEvent c = .ok (.custom (.valueCleared ⟨"b"⟩)) :=
    toOption_eq_some_iff.1 (congrArg Reading.payload hc)
  have hreset := resets_of_reading hr
  have hmem : r ∈ [(⟨first, r⟩ : Effect), ⟨second, m⟩, ⟨third, c⟩].map Effect.event :=
    List.mem_cons_self
  have hheader : r.header = header 1 := congrArg Reading.header hr
  have horigin : c.origin.head? = some (.ofHeader r.header) := by
    rw [hheader]
    exact congrArg Reading.cause hc
  have hlisted : listed ([⟨first, r⟩, ⟨second, m⟩, ⟨third, c⟩].take 2) r.aggregateKey = [r, m] := by
    simp [listed, aggregateKey_of_reading hr, aggregateKey_of_reading hm]
  obtain ⟨⟨hcause, -⟩, -, -, hversion, hhistory, -⟩ :=
    reaction_clears_current_value he hrun (i := 2) rfl hd hdecode hmem hreset horigin
  rw [hlisted] at hversion hhistory
  exact ⟨_, w, r, m, c, third, he, hrun, rfl, hd, hdecode, hmem, hreset, horigin, hcause, hlisted,
    hversion, hhistory⟩

/-- A reset is not always cleared by the next event: the reaction to it takes away the value that was
set after it. -/
theorem stale_reaction_clears_newer_value :
    ∃ first second third r m c w,
      engine "test/source" (fun n => Int64.ofNat n + 1) = .ok attended ∧
      attended.drain 3 overtaken = some (.ok 3, w) ∧
      attended.Run (·.origin = []) (world fun _ => 0) [⟨first, r⟩, ⟨second, m⟩, ⟨third, c⟩] w ∧
      resets r = true ∧ m.aggregateKey = r.aggregateKey ∧ c.aggregateKey = r.aggregateKey ∧
      domain.decodeEvent m = .ok (.custom (.valueSet ⟨"b", reset⟩)) ∧
      domain.decodeEvent c = .ok (.custom (.valueCleared ⟨"b"⟩)) ∧
      c.origin.head? = some (.ofHeader r.header) ∧
      ¬ c.version.toInt = r.version.toInt + 1 ∧ "b" ≠ reset := by
  obtain ⟨first, second, third, r, m, c, w, hdrain, hrun, hr, hm, hc⟩ := exists_log_overtaken
  have hrheader : r.header = header 1 := congrArg Reading.header hr
  have hcheader : c.header = header 3 := congrArg Reading.header hc
  refine ⟨first, second, third, r, m, c, w, engine_eq .., hdrain, hrun, resets_of_reading hr, ?_, ?_,
    toOption_eq_some_iff.1 (congrArg Reading.payload hm),
    toOption_eq_some_iff.1 (congrArg Reading.payload hc), ?_, ?_, by decide⟩
  · rw [aggregateKey_of_reading hm, aggregateKey_of_reading hr]
  · rw [aggregateKey_of_reading hc, aggregateKey_of_reading hr]
  · rw [hrheader]
    exact congrArg Reading.cause hc
  · unfold Message.version
    rw [hrheader, hcheader]
    decide

end ValueChanger
end EventSourcing
