import EventSourcing.Proofs.ValueChanger.Handling

/-! What the janitor does. A delivery changes nothing in the store unless the event delivered has set an
aggregate to the reset value. Then the janitor issues one command, which asks to clear that aggregate.
The command carries the version after that of the event, but a command is handled at whatever version
its aggregate has come to by then. -/

namespace EventSourcing

/-- Reading the clock is reading. -/
theorem World.OnlyReads.now (w : World) : w.OnlyReads w.now.2 :=
  ⟨rfl, rfl, List.suffix_refl _, rfl, rfl, rfl, rfl⟩

namespace ValueChanger

/-- The payload of an event that sets a value to the reset value. -/
def isReset : Payload Change → Bool
  | .custom (.valueSet e) => e.value = reset
  | _ => false

theorem isReset_iff {p : Payload Change} :
    isReset p = true ↔ ∃ previous, p = .custom (.valueSet ⟨reset, previous⟩) := by
  unfold isReset
  split
  · next e =>
    rw [decide_eq_true_eq]
    refine ⟨?_, ?_⟩
    · intro h
      exact ⟨e.previous, by rw [← h]⟩
    · rintro ⟨previous, h⟩
      cases h
      rfl
  · next hne =>
    refine ⟨nofun, ?_⟩
    rintro ⟨previous, rfl⟩
    exact absurd rfl (hne _)

/-- The event has set an aggregate of the value changer to the reset value. -/
def resets (event : Message) : Bool :=
  event.domain = textHash32 uri ∧ (domain.decodeEvent event).toOption.any isReset

theorem tidy_eq_done {event : Message} {p : Payload Change} (h : isReset p = false) :
    tidy event p = .done := by
  unfold isReset at h
  unfold tidy
  split
  · exact if_pos (of_decide_eq_false h)
  · rfl

theorem resets_eq_false {event : Message} {p : Payload Change} (h : resets event = false)
    (hd : event.domain = textHash32 uri) (hp : domain.decodeEvent event = .ok p) :
    isReset p = false := by
  unfold resets at h
  rw [hp, decide_eq_false_iff_not] at h
  exact Bool.eq_false_iff.2 fun hr => h ⟨hd, hr⟩

theorem resets_iff {event : Message} :
    resets event = true ↔ event.domain = textHash32 uri ∧
      ∃ previous, domain.decodeEvent event = .ok (.custom (.valueSet ⟨reset, previous⟩)) := by
  unfold resets
  rw [decide_eq_true_eq, Option.any_eq_true]
  refine and_congr_right fun _ => ?_
  refine ⟨?_, ?_⟩
  · rintro ⟨p, hp, hr⟩
    obtain ⟨previous, rfl⟩ := isReset_iff.1 hr
    exact ⟨previous, toOption_eq_some_iff.1 hp⟩
  · rintro ⟨previous, hp⟩
    exact ⟨_, toOption_eq_some_iff.2 hp, isReset_iff.2 ⟨previous, rfl⟩⟩

/-- The command that the janitor issues for an event, at a version that is one at least. -/
def clearing (source : Int64) (event : Message) (version : Int32) (time : Int64) : Message where
  header := ⟨source, textHash32 uri, event.id, (Options.new event.id version 0).version⟩
  origin := event.chain
  timestamp := time
  typeId := clearValueEntry.typeId
  data := Json.encode (⟨⟩ : ClearValue)

section Types

theorem of_extract_eq_ok {t : MessageType Change} {m : Message} {p : Payload Change}
    (h : t.extract m = .ok p) : m.typeId = t.typeId ∧ t.decoder m.data = .ok p := by
  unfold MessageType.extract MessageType.decode Decoder.run at h
  split at h
  · cases h
  next ht =>
  split at h
  · cases h
  split at h
  · next hp =>
    cases h
    exact ⟨not_not.1 ht, hp⟩
  · cases h
  · cases h

theorem exists_of_decode {ε τ : Type} {read : Except ε τ} {wrap : τ → Payload Change}
    {p : Payload Change} (h : Attempt.ofExcept (read.map wrap) = .ok p) : ∃ x, wrap x = p := by
  obtain ⟨x, -, hx⟩ := map_eq_ok_iff.1 (ofExcept_eq_ok_iff.1 h)
  exact ⟨x, hx⟩

theorem typeId_of_decodeEvent {m : Message} {c : Change}
    (h : domain.decodeEvent m = .ok (.custom c)) : m.typeId = c.entry.typeId := by
  obtain ⟨t, ht, hextract⟩ := Domain.decodeEvent_eq_ok_iff.1 h
  obtain ⟨htype, hdecode⟩ := of_extract_eq_ok hextract
  have hmem : t ∈ entries :=
    Catalog.mem_entries_ofMembers.1 (Catalog.mem_entries_of_byId (Option.filter_eq_some_iff.1 ht).1)
  simp only [entries, List.mem_cons, List.not_mem_nil, or_false] at hmem
  rw [htype]
  rcases hmem with rfl | rfl | rfl | rfl
  · obtain ⟨x, hx⟩ := exists_of_decode hdecode
    cases hx
    rfl
  · obtain ⟨x, hx⟩ := exists_of_decode hdecode
    cases hx
    rfl
  · obtain ⟨x, hx⟩ := exists_of_decode hdecode
    cases hx
    rfl
  · obtain ⟨x, hx⟩ := exists_of_decode hdecode
    cases hx
    rfl

theorem isCommand_valueSet : valueSetEntry.typeId.isCommand = false := by decide +kernel

end Types

variable {reportIds : Nat → Int64} {e : Engine Change Value} {event : Message} {w : World}

namespace Assembled

variable (h : Assembled reportIds e)

include h

theorem reaction_eq_ok_iff (hd : event.domain = textHash32 uri) {r : Reaction Change} :
    e.reaction janitor event = .ok r ↔
      ∃ p, domain.decodeEvent event = .ok p ∧ r = tidy event p := by
  have hhome : ¬ (e.registry.domainByUri janitor.uri).isNone = true := by
    rw [show janitor.uri = uri from rfl, h.byUri]
    exact nofun
  unfold Engine.reaction
  rw [hd, h.byShortId, bind_eq_ok_iff]
  refine exists_congr fun p => ?_
  rw [mapError_eq_ok_iff, if_neg hhome]
  refine and_congr_right fun _ => ?_
  refine ⟨?_, ?_⟩
  · intro hr
    cases hr
    rfl
  · rintro rfl
    rfl

/-- What is no event of a value that was set is delivered to nobody. -/
theorem dispatch_unheard
    (hne : ¬ (event.domain = textHash32 uri ∧ event.typeId = valueSetEntry.typeId)) :
    e.dispatch event w = (.ok 0, w) := by
  unfold Engine.dispatch
  rw [h.services, if_neg hne]
  split
  · rfl
  · rfl

theorem dispatch_heard (hd : event.domain = textHash32 uri)
    (ht : event.typeId = valueSetEntry.typeId) :
    e.dispatch event w =
      ((e.deliver janitor event w).1.map fun _ => 1, (e.deliver janitor event w).2) := by
  have hcommand : ¬ event.isCommand = true := by
    unfold Message.isCommand
    rw [ht, isCommand_valueSet]
    exact Bool.false_ne_true
  unfold Engine.dispatch
  rw [if_neg hcommand, h.services, if_pos ⟨hd, ht⟩]
  dsimp only [Engine.deliverAll, List.length_singleton]
  rcases e.deliver janitor event w with ⟨p | x, w'⟩
  · rfl
  · rfl

/-- What the janitor issues is the command that clears the aggregate of the event. -/
theorem issue_eq (event : Message) (version : Int32) (w : World) :
    e.issue event w (.publish (.custom (.clearValue ⟨⟩)) [.id event.id, .version version]) =
      ((e.handle (clearing e.registry.sourceId event version w.now.1) w.now.2).1.map .ok,
        (e.handle (clearing e.registry.sourceId event version w.now.1) w.now.2).2) := by
  let options := Options.new event.id version 0
  have hcommand : e.registry.newMessage options.resolvedId options.version w.now.1 event.chain
      (.custom (.clearValue ⟨⟩)) =
        .ok (clearing e.registry.sourceId event version w.now.1) := by
    rw [Options.resolvedId_new]
    exact Registry.newMessage_eq_ok_iff.2
      ⟨domain, clearValueEntry, _, h.byUri, messageType_domain (.clearValue ⟨⟩), rfl, rfl⟩
  show e.issueWith event (.custom (.clearValue ⟨⟩)) options w = _
  unfold Engine.issueWith
  rw [if_pos (show options.timestamp = 0 from rfl)]
  dsimp only
  rw [hcommand]

/-- The janitor clears the aggregate of an event that has set it to the reset value. -/
theorem dispatch_of_resets (hr : resets event = true) {version : Int32}
    (hv : nextVersion? event.version = some version) :
    ∃ w', (e.handle (clearing e.registry.sourceId event version w.now.1) w.now.2).2.OnlyReads w' ∧
      e.dispatch event w =
        ((e.handle (clearing e.registry.sourceId event version w.now.1) w.now.2).1.map fun _ => 1,
          w') := by
  obtain ⟨hd, previous, hp⟩ := resets_iff.1 hr
  have hreaction := (h.reaction_eq_ok_iff hd).2 ⟨_, hp, rfl⟩
  unfold tidy at hreaction
  dsimp only at hreaction
  rw [if_neg (not_not.2 rfl), hv] at hreaction
  have ht := typeId_of_decodeEvent hp
  dsimp only [Change.entry] at ht
  rw [h.dispatch_heard hd ht]
  unfold Engine.deliver
  rw [hreaction]
  dsimp only
  unfold Engine.react
  rw [h.issue_eq event version w]
  rcases e.handle (clearing e.registry.sourceId event version w.now.1) w.now.2 with ⟨p | m, w₁⟩
  · exact ⟨w₁, .refl w₁, rfl⟩
  · exact ⟨w₁.count .eventsDispatched, (World.OnlyReads.refl w₁).count _, rfl⟩

/-- The janitor panics if there is no version after that of the event. -/
theorem dispatch_of_last (hr : resets event = true) (hv : nextVersion? event.version = none) :
    e.dispatch event w = (.error .addOverflow, w) := by
  obtain ⟨hd, previous, hp⟩ := resets_iff.1 hr
  have hreaction := (h.reaction_eq_ok_iff hd).2 ⟨_, hp, rfl⟩
  unfold tidy at hreaction
  dsimp only at hreaction
  rw [if_neg (not_not.2 rfl), hv] at hreaction
  have ht := typeId_of_decodeEvent hp
  dsimp only [Change.entry] at ht
  rw [h.dispatch_heard hd ht]
  unfold Engine.deliver
  rw [hreaction]
  rfl

/-- Every other delivery does nothing. It ends in a panic only if the event cannot be decoded. -/
theorem dispatch_of_not_resets (hr : resets event = false) :
    ∃ result w', e.dispatch event w = (result, w') ∧ w.OnlyReads w' ∧
      ((event.domain = textHash32 uri → ∃ p, domain.decodeEvent event = .ok p) →
        ∃ n, result = .ok n) := by
  by_cases hheard : event.domain = textHash32 uri ∧ event.typeId = valueSetEntry.typeId
  case neg => exact ⟨_, w, h.dispatch_unheard hheard, .refl w, fun _ => ⟨0, rfl⟩⟩
  obtain ⟨hd, ht⟩ := hheard
  rw [h.dispatch_heard hd ht]
  unfold Engine.deliver
  cases hreaction : e.reaction janitor event with
  | error q =>
    refine ⟨_, w, rfl, .refl w, ?_⟩
    intro hdecode
    obtain ⟨p, hp⟩ := hdecode hd
    rw [(h.reaction_eq_ok_iff hd).2 ⟨p, hp, rfl⟩] at hreaction
    cases hreaction
  | ok r =>
    obtain ⟨p, hp, rfl⟩ := (h.reaction_eq_ok_iff hd).1 hreaction
    have hdone : tidy event p = .done := tidy_eq_done (resets_eq_false hr hd hp)
    rw [hdone]
    exact ⟨_, _, rfl, (World.OnlyReads.refl w).count _, fun _ => ⟨1, rfl⟩⟩

/-- A delivery changes nothing, or the janitor has reacted to it with a command. -/
theorem dispatch_cases (event : Message) (w : World) :
    w.OnlyReads (e.dispatch event w).2 ∨
      resets event = true ∧ ∃ version, nextVersion? event.version = some version ∧
        (e.handle (clearing e.registry.sourceId event version w.now.1) w.now.2).2.OnlyReads
          (e.dispatch event w).2 := by
  cases hr : resets event with
  | false =>
    obtain ⟨result, w', hdispatch, hread, -⟩ := h.dispatch_of_not_resets (w := w) hr
    rw [hdispatch]
    exact .inl hread
  | true =>
    cases hv : nextVersion? event.version with
    | none =>
      rw [h.dispatch_of_last hr hv]
      exact .inl (.refl w)
    | some version =>
      obtain ⟨w', hread, hdispatch⟩ := h.dispatch_of_resets (w := w) hr hv
      rw [hdispatch]
      exact .inr ⟨rfl, version, rfl, hread⟩

end Assembled

end ValueChanger
end EventSourcing
