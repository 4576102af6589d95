import EventSourcing.Proofs.Domain.Lookup
import EventSourcing.Proofs.Json.RoundTrip
import EventSourcing.Proofs.Store.Reports
import EventSourcing.Proofs.Store.Run

/-! Where stored events come from, and what they are read back as. Every event of a store was put
there by an append that succeeded (`Appended`). The append has filed it under a domain that the
registry has, as an event of the type that the domain lists the payload under. Where the events of a
domain have ids of their own, the reader finds this very type, and it decodes the payload that was
appended (`Reads`), if the decoder undoes the encoding. -/

namespace EventSourcing

variable {α σ : Type}

def Operation.payload? : Operation α → Option (Payload α)
  | .append _ _ _ _ p => some p
  | .appendKeyed _ _ _ p => some p
  | _ => none

namespace Registry

/-- No two event types of one domain share their id. -/
def DistinctEvents (r : Registry α σ) : Prop :=
  ∀ k d, r.domain k = some d → (d.catalog.events.all.map MessageType.typeId).Nodup

def Reads (r : Registry α σ) (m : Message) (p : Payload α) : Prop :=
  ∃ d t, r.domain m.domain = some d ∧ d.catalog.events.byId m.typeId = some t ∧ t.extract m = .ok p

theorem distinctEvents_minimal (sourceUri : String) :
    (minimal sourceUri : Registry α σ).DistinctEvents := by
  intro k d hd
  unfold domain minimal at hd
  rw [Table.get?_insert] at hd
  split at hd
  · cases hd
    unfold Catalog.events Catalog.View.all
    rw [catalog_systemDomain]
    simp [systemCatalog]
  · cases hd

variable [Content α]

/-- What `p` is encoded to is not empty, and it decodes to `p`. -/
def Inverts (r : Registry α σ) (p : Payload α) : Prop :=
  ∀ d t data, r.Lists p d t → p.encode = .ok data → data ≠ [] ∧ t.decoder data = .ok p

theorem Built.inverts_errorRaised {r : Registry α σ} (hr : r.Built) (e : ErrorRaised) :
    r.Inverts (.errorRaised e) := by
  intro d t data hl hdata
  have hsystem := hr.lists_errorRaised e
  obtain rfl : systemDomain = d := Option.some.inj (hsystem.domain.symm.trans hl.domain)
  obtain rfl : errorRaisedEntry = t := Option.some.inj (hsystem.entry.symm.trans hl.entry)
  cases hdata
  exact ⟨Json.LawfulCodec.encode_ne_nil e,
    PayloadType.decode_encode "ErrorRaised" systemUri .errorRaised e⟩

theorem Makes.reads {r : Registry α σ} (hr : r.Filed) (hids : r.DistinctEvents) {id now : Int64}
    {v : Int32} {origin : List Record} {p : Payload α} {m : Message}
    (h : r.Makes id v now origin p m) (hp : r.Inverts p) : r.Reads m p := by
  obtain ⟨d, t, data, hl, hdata, rfl⟩ := h
  obtain ⟨hd, hc⟩ := hr.domain_shortId hl.domain
  obtain ⟨hne, hdecode⟩ := hp d t data hl hdata
  have ht := Catalog.mem_entries_of_byInstance hl.entry
  exact ⟨d, t, hd, hc.events_byId (hids d.shortId d hd) ht hl.event,
    MessageType.extract_eq_ok rfl hne hdecode⟩

end Registry

namespace Store

variable [Content α]

/-- The call puts `p` into the store, as the event `m`. -/
inductive Puts (r : Registry α σ) (s : Store) : Operation α → Payload α → Message → Prop
  | append {now id v origin p m s'} (h : s.append r now id v origin p = (.ok m, s')) :
    Puts r s (.append now id v origin p) p m
  | appendKeyed {now key origin p m s'} (h : s.appendKeyed r now key origin p = (.ok m, s')) :
    Puts r s (.appendKeyed now key origin p) p m

/-- One of the calls of a run puts `p` into the store, as the event `m`. -/
def Appended (r : Registry α σ) (ops : List (Operation α)) (p : Payload α) (m : Message) : Prop :=
  ∃ before op after, ops = before ++ op :: after ∧ (run r before).Puts r op p m

variable {r : Registry α σ} {s : Store} {op : Operation α} {ops : List (Operation α)}
  {p : Payload α} {m : Message} {k : AggregateKey}

theorem Puts.makes (h : s.Puts r op p m) : ∃ id v now origin, r.Makes id v now origin p m := by
  cases h with
  | append h => exact ⟨_, _, _, _, (append_eq_ok_iff.1 h).1⟩
  | appendKeyed h =>
    obtain ⟨-, v, hmake, -⟩ := appendKeyed_eq_ok_iff.1 h
    exact ⟨_, v, _, _, hmake⟩

theorem Puts.payload (h : s.Puts r op p m) : op.payload? = some p := by
  cases h with
  | append h => rfl
  | appendKeyed h => rfl

/-- An event that is stored after a call was stored before, or the call has put it there. -/
theorem mem_stream_perform (h : m ∈ (s.perform r op).stream k) :
    m ∈ s.stream k ∨ ∃ p, s.Puts r op p m := by
  cases op with
  | append now id v origin p =>
    rcases s.append_cases r now id v origin p with ⟨n, s', hok⟩ | ⟨fault, hfault⟩
    · rw [perform, hok] at h
      rcases (appends_of_append hok).mem_stream_iff.1 h with h | ⟨rfl, -⟩
      · exact .inl h
      · exact .inr ⟨p, .append hok⟩
    · rw [perform, hfault] at h
      exact .inl h
  | appendKeyed now key origin p =>
    rcases s.appendKeyed_cases r now key origin p with ⟨n, s', hok⟩ | ⟨fault, hfault⟩
    · rw [perform, hok] at h
      rcases (appends_of_appendKeyed hok).mem_stream_iff.1 h with h | ⟨rfl, -⟩
      · exact .inl h
      · exact .inr ⟨p, .appendKeyed hok⟩
    · rw [perform, hfault] at h
      exact .inl h
  | storeSnapshot record => exact .inl h
  | deleteEvent x v =>
    simp only [perform, stream_deleteEvent] at h
    split at h
    · next hk => exact .inl (hk ▸ (List.mem_filter.1 h).1)
    · exact .inl h
  | deleteAggregate x =>
    simp only [perform, stream_deleteAggregate] at h
    split at h
    · cases h
    · exact .inl h
  | clear => cases h

theorem Appended.snoc (h : Appended r ops p m) (op : Operation α) :
    Appended r (ops ++ [op]) p m := by
  obtain ⟨before, x, after, rfl, hx⟩ := h
  exact ⟨before, x, after ++ [op], by simp, hx⟩

theorem exists_appended_of_mem (h : m ∈ (run r ops).stream k) : ∃ p, Appended r ops p m := by
  -- The calls are taken from the front, so the claim is generalised over those already made.
  suffices hall : ∀ (after before : List (Operation α)),
      (∀ n ∈ (run r before).stream k, ∃ p, Appended r before p n) →
        ∀ n ∈ (run r (before ++ after)).stream k, ∃ p, Appended r (before ++ after) p n from
    hall ops [] (fun n hn => nomatch hn) m h
  intro after
  induction after with
  | nil => simp
  | cons op rest ih =>
    intro before hbefore
    have hcons : before ++ op :: rest = before ++ [op] ++ rest := by simp
    rw [hcons]
    refine ih (before ++ [op]) ?_
    intro n hn
    rw [run_append] at hn
    rcases mem_stream_perform hn with hn | ⟨p, hp⟩
    · obtain ⟨p, hp⟩ := hbefore n hn
      exact ⟨p, hp.snoc op⟩
    · exact ⟨p, before, op, [], rfl, hp⟩

theorem Appended.reads (hr : r.Built) (hids : r.DistinctEvents)
    (hops : ∀ op ∈ ops, ∀ p, op.payload? = some p → r.Inverts p) (h : Appended r ops p m) :
    r.Reads m p := by
  obtain ⟨before, op, after, rfl, hput⟩ := h
  obtain ⟨id, v, now, origin, hmake⟩ := hput.makes
  exact hmake.reads hr.filed hids (hops op (by simp) p hput.payload)

end Store
end EventSourcing
