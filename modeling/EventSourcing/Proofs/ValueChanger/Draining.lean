import EventSourcing.Proofs.Engine.Invocation
import EventSourcing.Proofs.ValueChanger.Runs

/-! Draining the channel of the application. An aggregate whose value is the reset value has an event in
the channel that has set it, because nothing but the delivery of this event takes the event out of there,
and that delivery clears the value. The event that a delivery appends resets nothing. So a drain takes
the events that were waiting and one more for each reset among them, and no reset value is left then. -/

namespace EventSourcing

theorem World.take_of_channel {w : World} {event : Message} {rest : List Message}
    (h : w.publisher = .channel (event :: rest)) :
    w.take = some (event, { w with publisher := .channel rest }.record (.taken event)) := by
  unfold take
  rw [h]

/-- A drain of the world `w` comes to the world `w'`, without a panic on the way. -/
inductive Engine.Delivers {α σ : Type} [Content α] (e : Engine α σ) : World → World → Prop
  | refl (w : World) : Delivers e w w
  | step {w w₁ w₂ w' : World} {event : Message} {n : Nat} (ht : w.take = some (event, w₁))
      (hd : e.dispatch event w₁ = (.ok n, w₂)) (h : Delivers e w₂ w') : Delivers e w w'

namespace Engine

variable {α σ : Type} [Content α] {e : Engine α σ} {start w w' : World}

theorem Delivers.exists_run (h : e.Delivers w w') {submits : Message → Prop} {log : List Effect}
    (hrun : e.Run submits start log w) : ∃ later, e.Run submits start (log ++ later) w' := by
  induction h generalizing log with
  | refl w => exact ⟨[], by rwa [List.append_nil]⟩
  | @step w w₁ w₂ w' event n ht hd _ ih =>
    have hnext := hrun.delivered ht
    rw [hd] at hnext
    obtain ⟨later, hlater⟩ := ih hnext
    exact ⟨_, List.append_assoc .. ▸ hlater⟩

/-- A drain comes to its end through the worlds that it comes to. -/
theorem Delivers.exists_drain (h : e.Delivers w w') {fuel : Nat} {result : Except Panic Nat}
    {last : World} (hd : e.drain fuel w = some (result, last)) :
    ∃ fuel' result', e.drain fuel' w' = some (result', last) := by
  induction h generalizing fuel result with
  | refl w => exact ⟨fuel, result, hd⟩
  | @step w w₁ w₂ w' event n ht hdispatch _ ih =>
    cases fuel with
    | zero =>
      unfold drain at hd
      rw [ht] at hd
      cases hd
    | succ fuel =>
      unfold drain at hd
      rw [ht] at hd
      dsimp only at hd
      rw [hdispatch] at hd
      obtain ⟨⟨result', w₃⟩, hdrain, hend⟩ := Option.map_eq_some_iff.1 hd
      cases hend
      exact ih hdrain

end Engine

namespace ValueChanger

variable {reportIds : Nat → Int64} {e : Engine Change Value} {command event m : Message}
  {w w' : World} {queue rest : List Message}

/-- The histories of the value changer are not as long as they can be, and the next report goes to an
aggregate without events. -/
structure Roomy (reportIds : Nat → Int64) (w : World) : Prop where
  short : ∀ id,
    ((w.store.stream ⟨textHash32 uri, id⟩).length : Int) < Int32.maxValue.toInt
  unused : w.store.stream ⟨textHash32 systemUri, reportIds w.reports⟩ = []

/-- The worlds that commands and drains lead to, with room in each drain. -/
inductive Session (reportIds : Nat → Int64) (e : Engine Change Value) (start : World) : World → Prop
  | start : Session reportIds e start start
  | handled {w : World} (h : Session reportIds e start w) (command : Message) :
    Session reportIds e start (e.handle command w).2
  | drained {w w' : World} (h : Session reportIds e start w)
      (hroom : ∀ w₁, e.Delivers w w₁ → Roomy reportIds w₁) {fuel : Nat}
      {result : Except Panic Nat} (hd : e.drain fuel w = some (result, w')) :
    Session reportIds e start w'

/-- For every aggregate at the reset value there is an event among these that has set it. -/
def Awaited (queue : List Message) (w : World) : Prop :=
  ∀ id cs, History (w.store.stream ⟨textHash32 uri, id⟩) cs reset →
    ∃ m ∈ queue, m.id = id ∧ resets m = true

/-- The events in the channel are stored, and all resets that are not overtaken are among them. -/
structure Tended (queue : List Message) (w : World) : Prop where
  sound : Sound w
  publisher : w.publisher = .channel queue
  stored : ∀ m ∈ queue, m ∈ w.store.stream m.aggregateKey
  awaited : Awaited queue w

def toTake (queue : List Message) : Nat := queue.length + queue.countP resets

section Gains

variable {added : List Message}

/-- Where a gain leads to the reset value, it has added the event that has set it. -/
theorem Awaited.gains (h : Awaited queue w) (hg : w.Gains w' added) :
    Awaited (queue ++ added) w' := by
  intro id cs hs
  rw [hg.stream] at hs
  rcases List.eq_nil_or_concat (added.filter (·.aggregateKey = ⟨textHash32 uri, id⟩)) with
    hnil | ⟨front, m, hlast⟩
  · rw [hnil, List.append_nil] at hs
    obtain ⟨m, hm, hreset⟩ := h id cs hs
    exact ⟨m, List.mem_append_left _ hm, hreset⟩
  · have hmem : m ∈ added.filter (·.aggregateKey = ⟨textHash32 uri, id⟩) := by
      rw [hlast]
      simp
    obtain ⟨hm, hkey⟩ := List.mem_filter.1 hmem
    rw [decide_eq_true_eq] at hkey
    rw [hlast, List.concat_eq_append, ← List.append_assoc] at hs
    obtain ⟨_, c, v, -, -, hdecode, hlink⟩ := hs.exists_of_snoc
    refine ⟨m, List.mem_append_right _ hm, congrArg AggregateKey.id hkey, ?_⟩
    generalize hv : reset = v' at hlink
    cases hlink with
    | set _ _ =>
      subst hv
      exact resets_iff.2 ⟨congrArg AggregateKey.domain hkey, v, hdecode⟩
    | cleared _ => exact absurd hv (by decide)

theorem stored_gains (h : ∀ m ∈ queue, m ∈ w.store.stream m.aggregateKey)
    (hg : w.Gains w' added) : ∀ m ∈ queue ++ added, m ∈ w'.store.stream m.aggregateKey := by
  intro m hm
  rw [hg.stream]
  rcases List.mem_append.1 hm with hm | hm
  · exact List.mem_append_left _ (h m hm)
  · exact List.mem_append_right _ (List.mem_filter.2 ⟨hm, decide_eq_true rfl⟩)

theorem Tended.gains (h : Tended queue w) (hs : Sound w') (hg : w.Gains w' added) :
    Tended (queue ++ added) w' :=
  ⟨hs, hg.channel h.publisher, stored_gains h.stored hg, h.awaited.gains hg⟩

end Gains

/-- An event need not be waited for if it has reset nothing or its aggregate has another value. -/
theorem Awaited.drop (h : Awaited (event :: rest) w)
    (hne : ∀ cs, resets event = true →
      ¬ History (w.store.stream ⟨textHash32 uri, event.id⟩) cs reset) : Awaited rest w := by
  intro id cs hs
  obtain ⟨m, hm, rfl, hr⟩ := h id cs hs
  rcases List.mem_cons.1 hm with rfl | hm
  · exact absurd hs (hne cs hr)
  · exact ⟨m, hm, rfl, hr⟩

theorem Tended.of_onlyReads (h : Tended queue w) (hread : w.OnlyReads w') : Tended queue w' where
  sound := h.sound.of_onlyReads hread
  publisher := hread.publisher.trans h.publisher
  stored := by
    rw [hread.store]
    exact h.stored
  awaited := by
    unfold Awaited
    rw [hread.store]
    exact h.awaited

/-- The event has just been taken from the front of the channel. -/
structure Taken (event : Message) (rest : List Message) (w : World) : Prop where
  sound : Sound w
  publisher : w.publisher = .channel rest
  stored : ∀ m ∈ event :: rest, m ∈ w.store.stream m.aggregateKey
  awaited : Awaited (event :: rest) w

theorem Tended.take (h : Tended (event :: rest) w) (hroom : Roomy reportIds w) :
    ∃ w', w.take = some (event, w') ∧ Taken event rest w' ∧ Roomy reportIds w' := by
  have ht := World.take_of_channel h.publisher
  exact ⟨_, ht, ⟨h.sound.take ht, rfl, h.stored, h.awaited⟩, hroom.short, hroom.unused⟩

section Stored

variable (hw : Sound w) (hd : m.domain = textHash32 uri) (hm : m ∈ w.store.stream m.aggregateKey)

include hw hd hm

theorem Sound.exists_decodeEvent : ∃ p, domain.decodeEvent m = .ok p := by
  obtain ⟨cs, v, hs⟩ := hw.history m.id
  rw [aggregateKey_eq hd] at hm
  obtain ⟨p, -, hp⟩ := (images_of_mapM_eq_ok hs.decoded).1 m hm
  exact ⟨p, hp⟩

theorem Sound.exists_nextVersion (hroom : Roomy reportIds w) :
    ∃ version, nextVersion? m.version = some version := by
  obtain ⟨cs, v, hs⟩ := hw.history m.id
  rw [aggregateKey_eq hd] at hm
  obtain ⟨i, hi⟩ := List.mem_iff_getElem?.1 hm
  have hversion := hs.version i m hi
  have hplace := (List.getElem?_eq_some_iff.1 hi).1
  have hshort := hroom.short m.id
  refine Option.ne_none_iff_exists'.1 fun hnone => ?_
  rw [nextVersion?_eq_none_iff.1 hnone] at hversion
  omega

end Stored

namespace Assembled

variable (h : Assembled reportIds e)

include h

theorem accepts_clearing (source time : Int64) (event : Message) (version : Int32) :
    e.Accepts (clearing source event version time) ⟨domain, handler, .custom (.clearValue ⟨⟩)⟩ := by
  obtain ⟨hne, hdecode⟩ := Change.decoder_entry (.clearValue ⟨⟩) rfl
  exact ⟨h.byShortId, ⟨clearValueEntry, clearValue_byId, MessageType.extract_eq_ok rfl hne hdecode⟩,
    h.wired⟩

/-- With room the command of the janitor is answered, and leaves no value behind. The answer resets
nothing. -/
theorem handle_clearing (hw : Sound w) (hroom : Roomy reportIds w) (event : Message)
    (source time : Int64) (version : Int32) :
    ∃ m, (e.handle (clearing source event version time) w).1 = .ok m ∧ resets m = false ∧
      ∃ cs, History ((e.handle (clearing source event version time) w).2.store.stream
        ⟨textHash32 uri, event.id⟩) cs "" := by
  have ha := h.accepts_clearing source time event version
  generalize hcommand : clearing source event version time = command at ha
  have hkey : command.aggregateKey = ⟨textHash32 uri, event.id⟩ := by
    rw [← hcommand]
    rfl
  obtain ⟨cs, v, hs⟩ := hw.history event.id
  have hlen := hroom.short event.id
  rw [← hkey] at hs hlen ⊢
  rw [Engine.stream_handle h.selfContained]
  by_cases hv : v = ""
  · obtain ⟨m, hm, hdomain⟩ := h.handle_of_none hw.outage ha hs hlen (if_pos hv) hroom.unused
    have hreport : m.domain ≠ textHash32 uri := by
      rw [hdomain]
      exact Ne.symm shortId_ne_system
    refine ⟨m, hm, Bool.eq_false_iff.2 fun hr => hreport (resets_iff.1 hr).1, ?_⟩
    rw [Engine.gained_eq_nil, List.append_nil]
    · exact ⟨cs, hv ▸ hs⟩
    · intro n hn hk
      obtain rfl := Except.ok.inj (hm.symm.trans hn)
      exact hreport (congrArg AggregateKey.domain (hk.trans hkey))
  · obtain ⟨m, hm, hk, hdecode⟩ := h.handle_of_on hw.outage ha hs hlen (if_neg hv)
    refine ⟨m, hm, ?_, ?_⟩
    · refine Bool.eq_false_iff.2 fun hr => ?_
      obtain ⟨-, previous, hset⟩ := resets_iff.1 hr
      cases hdecode.symm.trans hset
    · have hs' := hs
      rw [← hk] at hs'
      have hdomain : m.domain = textHash32 uri := congrArg AggregateKey.domain (hk.trans hkey)
      have hversion := (h.change_of_handle hw.outage hm hdomain hs').2.1
      rw [hk] at hversion
      rw [Engine.gained_eq_singleton hm hk]
      exact ⟨_, hs.snoc hversion hdecode (.cleared hv)⟩

/-- The delivery of an event that has reset nothing changes nothing. -/
theorem deliver_of_not_resets (hw : Taken event rest w) (hr : resets event = false) :
    ∃ n w', e.dispatch event w = (.ok n, w') ∧ Tended rest w' := by
  obtain ⟨result, w', hd, hread, hdecodes⟩ := h.dispatch_of_not_resets (w := w) hr
  obtain ⟨n, rfl⟩ := hdecodes fun hdomain =>
    hw.sound.exists_decodeEvent hdomain (hw.stored event List.mem_cons_self)
  have hidle : Tended rest w :=
    ⟨hw.sound, hw.publisher, fun m hm => hw.stored m (List.mem_cons_of_mem event hm),
      hw.awaited.drop (by simp [hr])⟩
  exact ⟨n, w', hd, hidle.of_onlyReads hread⟩

/-- The delivery of a reset adds one event to the channel, which has reset nothing. The reset need not
be waited for then, because its aggregate has no value any more. -/
theorem deliver_of_resets (hw : Taken event rest w) (hroom : Roomy reportIds w)
    (hr : resets event = true) :
    ∃ m w', e.dispatch event w = (.ok 1, w') ∧ Tended (rest ++ [m]) w' ∧ resets m = false := by
  obtain ⟨hdomain, -⟩ := resets_iff.1 hr
  obtain ⟨version, hversion⟩ :=
    hw.sound.exists_nextVersion hdomain (hw.stored event List.mem_cons_self) hroom
  obtain ⟨w', hread, hd⟩ := h.dispatch_of_resets (w := w) hr hversion
  have hw : Taken event rest w.now.2 :=
    ⟨hw.sound.of_onlyReads (.now w), hw.publisher, hw.stored, hw.awaited⟩
  have hroom : Roomy reportIds w.now.2 := ⟨hroom.short, hroom.unused⟩
  generalize w.now.2 = w₁ at hw hroom hread hd
  generalize hcommand : clearing e.registry.sourceId event version w.now.1 = command at hread hd
  obtain ⟨m, hm, hne, cs, hcleared⟩ :=
    h.handle_clearing hw.sound hroom event e.registry.sourceId w.now.1 version
  rw [hcommand] at hm hcleared
  have hgains := (Engine.gains_handle h.selfContained.quiet command w₁).1
  rw [hm] at hd hgains
  have hdropped : Awaited (rest ++ [m]) _ := (hw.awaited.gains hgains).drop fun cs' _ hreset =>
    absurd (hcleared.unique hreset).2 (by decide)
  have hcleaned : Tended (rest ++ [m]) _ :=
    ⟨hw.sound.handle h command, hgains.channel hw.publisher,
      stored_gains (fun m hm => hw.stored m (List.mem_cons_of_mem event hm)) hgains, hdropped⟩
  exact ⟨m, w', hd, hcleaned.of_onlyReads hread, hne⟩

/-- A delivery with room takes one event and leaves one less to take. -/
theorem deliver (hw : Tended (event :: rest) w) (hroom : Roomy reportIds w) :
    ∃ w₁ n w₂ queue, w.take = some (event, w₁) ∧ e.dispatch event w₁ = (.ok n, w₂) ∧
      Tended queue w₂ ∧ toTake (event :: rest) = toTake queue + 1 := by
  obtain ⟨w₁, ht, hw₁, hroom⟩ := hw.take hroom
  unfold toTake
  rw [List.length_cons]
  cases hr : resets event with
  | false =>
    obtain ⟨n, w₂, hd, hw₂⟩ := h.deliver_of_not_resets hw₁ hr
    refine ⟨w₁, n, w₂, rest, ht, hd, hw₂, ?_⟩
    rw [List.countP_cons_of_neg (by simp [hr])]
    omega
  | true =>
    obtain ⟨m, w₂, hd, hw₂, hne⟩ := h.deliver_of_resets hw₁ hroom hr
    refine ⟨w₁, 1, w₂, rest ++ [m], ht, hd, hw₂, ?_⟩
    rw [List.countP_cons_of_pos hr, List.countP_append, List.countP_singleton, hne,
      List.length_append, List.length_singleton]
    simp only [Bool.false_eq_true, if_false]
    omega

/-- A drain with room takes what there is to take, and leaves nothing awaited. -/
theorem drain_eq {n : Nat} (hw : Tended queue w) (hn : toTake queue = n)
    (hroom : ∀ w', e.Delivers w w' → Roomy reportIds w') :
    ∃ w', Tended [] w' ∧
      ∀ fuel, e.drain fuel w = if n ≤ fuel then some (.ok n, w') else none := by
  induction n generalizing queue w with
  | zero =>
    obtain rfl : queue = [] := List.eq_nil_of_length_eq_zero (by unfold toTake at hn; omega)
    have ht : w.take = none := by
      unfold World.take
      rw [hw.publisher]
    refine ⟨w, hw, ?_⟩
    intro fuel
    rw [if_pos (Nat.zero_le fuel)]
    cases fuel with
    | zero =>
      unfold Engine.drain
      rw [ht]
      rfl
    | succ fuel =>
      unfold Engine.drain
      rw [ht]
  | succ n ih =>
    obtain ⟨event, rest, rfl⟩ : ∃ event rest, queue = event :: rest := by
      refine List.exists_cons_of_ne_nil ?_
      rintro rfl
      cases hn
    obtain ⟨w₁, k, w₂, queue, ht, hd, hw₂, htoTake⟩ := h.deliver hw (hroom w (.refl w))
    obtain ⟨w', hw', hdrain⟩ :=
      ih hw₂ (by omega) fun w' hdelivers => hroom w' (.step ht hd hdelivers)
    refine ⟨w', hw', ?_⟩
    intro fuel
    cases fuel with
    | zero =>
      unfold Engine.drain
      rw [ht]
      rfl
    | succ fuel =>
      unfold Engine.drain
      rw [ht]
      dsimp only
      rw [hd]
      dsimp only
      rw [hdrain]
      by_cases hfuel : n ≤ fuel
      · rw [if_pos hfuel, if_pos (Nat.succ_le_succ hfuel)]
        rfl
      · rw [if_neg hfuel, if_neg (by omega)]
        rfl

theorem tended (time : Nat → Int64) (hsession : Session reportIds e (world time) w) :
    ∃ queue, Tended queue w := by
  induction hsession with
  | start =>
    refine ⟨[], .world time, rfl, nofun, ?_⟩
    intro id cs hs
    have hnil : History ((world time).store.stream ⟨textHash32 uri, id⟩) [] "" := .nil
    exact absurd (hs.unique hnil).2 (by decide)
  | handled _ command ih =>
    obtain ⟨queue, hw⟩ := ih
    exact ⟨_, hw.gains (hw.sound.handle h command)
      (Engine.gains_handle h.selfContained.quiet command _).1⟩
  | drained _ hroom hd ih =>
    obtain ⟨queue, hw⟩ := ih
    obtain ⟨w', hw', hdrain⟩ := h.drain_eq hw rfl hroom
    rw [hdrain] at hd
    split at hd
    · cases hd
      exact ⟨[], hw'⟩
    · cases hd

end Assembled

theorem roomy_overtaken (h : attended.Delivers overtaken w) :
    Roomy (fun n => Int64.ofNat n + 1) w := by
  have ha := assembled (engine_eq "test/source" fun n => Int64.ofNat n + 1)
  obtain ⟨last, r, m, c, hdrain, happended, hr, hm, hc⟩ := exists_drain_overtaken
  obtain ⟨log, hrun⟩ : ∃ log, attended.Run (fun _ => True) (world fun _ => 0) log overtaken :=
    exists_run_overtaken fun _ => trivial
  obtain ⟨before, hrun⟩ := h.exists_run hrun
  obtain ⟨fuel, result, hdrain⟩ := h.exists_drain hdrain
  obtain ⟨after, hend⟩ := Engine.exists_run_of_drain hrun hdrain
  -- All that is appended on the way is one of the three events appended in the end.
  have hfront : last.appended = w.appended ++ after.map Effect.event := by
    rw [hend.appended_eq ha.confined, hrun.appended_eq ha.confined]
    simp only [List.map_append, List.append_assoc]
  rw [happended] at hfront
  have hlength := congrArg List.length hfront
  rw [List.length_append] at hlength
  have hkeys : ∀ x ∈ w.appended, x.aggregateKey = ⟨textHash32 uri, 1⟩ := by
    intro x hx
    have hx : x ∈ [r, m, c] := by
      rw [hfront]
      exact List.mem_append_left _ hx
    simp only [List.mem_cons, List.not_mem_nil, or_false] at hx
    rcases hx with rfl | rfl | rfl
    · exact aggregateKey_of_reading hr
    · exact aggregateKey_of_reading hm
    · exact aggregateKey_of_reading hc
  refine ⟨?_, ?_⟩
  · intro id
    have hfilter := List.length_filter_le (·.aggregateKey = ⟨textHash32 uri, id⟩) w.appended
    rw [stream_eq ha hrun, Int32.toInt_maxValue]
    simp only [List.length_cons, List.length_nil] at hlength
    omega
  · rw [stream_eq ha hrun, List.filter_eq_nil_iff]
    intro x hx
    rw [hkeys x hx, decide_eq_true_eq]
    exact fun hk => shortId_ne_system (AggregateKey.mk.inj hk).1

/-- However commands and drains have come to a world, a drain with room ends, after it has taken just
the events that were waiting and one more for each of them that has set a value to the reset value.
The channel is empty then, and no aggregate is at the reset value. -/
theorem drain_clears_resets {sourceUri : String} {time : Nat → Int64}
    (he : engine sourceUri reportIds = .ok e) (hsession : Session reportIds e (world time) w)
    (hroom : ∀ w', e.Delivers w w' → Roomy reportIds w') :
    ∃ queue w', w.publisher = .channel queue ∧
      (∀ fuel, e.drain fuel w =
        if queue.length + queue.countP resets ≤ fuel then
          some (.ok (queue.length + queue.countP resets), w')
        else none) ∧
      (∃ taken, w'.taken = w.taken ++ taken ∧
        taken.length = queue.length + queue.countP resets) ∧
      w'.publisher = .channel [] ∧
      ∀ id, ∃ s, domain.replay (w'.store.stream ⟨textHash32 uri, id⟩) = .ok (.custom s) ∧
        s.value ≠ reset := by
  have h := assembled he
  obtain ⟨queue, hw⟩ := h.tended time hsession
  obtain ⟨w', hw', hdrain⟩ := h.drain_eq hw rfl hroom
  have hend := hdrain (toTake queue)
  rw [if_pos (Nat.le_refl _)] at hend
  obtain ⟨hempty, htaken⟩ := Engine.taken_of_drain h.confined hw.publisher hend
  refine ⟨queue, w', hw.publisher, hdrain, htaken, hempty, ?_⟩
  intro id
  obtain ⟨cs, v, hs⟩ := hw'.sound.history id
  refine ⟨_, hs.replay, ?_⟩
  rintro rfl
  obtain ⟨m, hm, -⟩ := hw'.awaited id cs hs
  cases hm

/-- Two events are waiting, one of which is a reset, so three are taken. -/
theorem drain_clears_resets_overtaken :
    ∃ queue w', engine "test/source" (fun n => Int64.ofNat n + 1) = .ok attended ∧
      Session (fun n => Int64.ofNat n + 1) attended (world fun _ => 0) overtaken ∧
      (∀ w, attended.Delivers overtaken w → Roomy (fun n => Int64.ofNat n + 1) w) ∧
      overtaken.publisher = .channel queue ∧ queue.length + queue.countP resets = 3 ∧
      attended.drain 2 overtaken = none ∧ attended.drain 3 overtaken = some (.ok 3, w') ∧
      w'.publisher = .channel [] ∧
      ∀ id, ∃ s, domain.replay (w'.store.stream ⟨textHash32 uri, id⟩) = .ok (.custom s) ∧
        s.value ≠ reset := by
  have he : engine "test/source" (fun n => Int64.ofNat n + 1) = .ok attended := engine_eq ..
  have hsession : Session (fun n => Int64.ofNat n + 1) attended (world fun _ => 0) overtaken :=
    (Session.start.handled _).handled _
  obtain ⟨queue, w', hqueue, hdrain, -, hempty, hvalues⟩ :=
    drain_clears_resets he hsession fun _ => roomy_overtaken
  obtain ⟨last, -, -, -, hend, -⟩ := exists_drain_overtaken
  have hthree := hdrain 3
  rw [hend] at hthree
  split at hthree
  case isFalse => cases hthree
  obtain ⟨hn, rfl⟩ := Prod.mk.inj (Option.some.inj hthree)
  have hn := (Except.ok.inj hn).symm
  refine ⟨queue, last, he, hsession, fun _ => roomy_overtaken, hqueue, hn, ?_, hend, hempty, hvalues⟩
  rw [hdrain 2, hn]
  rfl

end ValueChanger
end EventSourcing
