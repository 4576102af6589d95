import EventSourcing.Domain.Registry
import EventSourcing.Proofs.Domain.Compiled

/-! Built registries. A registry is built from the system domain and compiled domains by adding one
at a time, so each domain in it is compiled and registered under its own short id. A domain packs the
payloads that it has a type for. -/

namespace EventSourcing

variable {α σ : Type}

theorem Domain.newMessage_eq_ok_iff [Content α] {d : Domain α σ} {source id now : Int64}
    {v : Int32} {origin : List Record} {p : Payload α} {m : Message} :
    d.newMessage source id v now origin p = .ok m ↔
      ∃ t data, d.messageType p = some t ∧ p.encode = .ok data ∧
        m = ⟨⟨source, d.shortId, id, v⟩, origin, now, t.typeId, data⟩ := by
  unfold newMessage
  refine ⟨?_, ?_⟩
  · intro h
    split at h
    case h_2 => cases h
    next t ht =>
    obtain ⟨data, hp, h⟩ := bind_eq_ok_iff.1 h
    cases h
    exact ⟨t, data, ht, mapError_eq_ok_iff.1 hp, rfl⟩
  · rintro ⟨t, data, ht, hp, rfl⟩
    simp only [ht, hp]
    rfl

namespace Registry

/-- A registry built from compiled domains. -/
def Built (r : Registry α σ) : Prop :=
  ∃ source domains, (∀ d ∈ domains, Domain.Compiled d) ∧ build source domains = .ok r

theorem add_eq_ok_iff {r r' : Registry α σ} {d : Domain α σ} :
    r.add d = .ok r' ↔
      r.domain d.shortId = none ∧ r.uris.get? d.uri = none ∧
        r' = { r with
          domains := r.domains.insert d.shortId d, uris := r.uris.insert d.uri d.shortId } := by
  unfold add domain
  split
  · next h =>
    simp only [reduceCtorEq, false_iff, not_and]
    intro hid huri
    simp [Table.contains, hid, huri] at h
  · next h =>
    simp only [Table.contains, not_or, Bool.not_eq_true, Option.isSome_eq_false_iff,
      Option.isNone_iff_eq_none] at h
    simp only [Except.ok.injEq, h.1, h.2, true_and]
    exact eq_comm

/-- Each domain of a registry is compiled and stands under its short id. -/
def Filed (r : Registry α σ) : Prop := ∀ k d, r.domain k = some d → d.shortId = k ∧ d.Compiled

theorem filed_add {r r' : Registry α σ} {d : Domain α σ} (hr : r.Filed) (hd : d.Compiled)
    (h : r.add d = .ok r') : r'.Filed := by
  obtain ⟨-, -, rfl⟩ := add_eq_ok_iff.1 h
  intro k x hx
  unfold domain at hx
  rw [Table.get?_insert] at hx
  split at hx
  · next hk =>
    cases hx
    exact ⟨hk, hd⟩
  · exact hr k x hx

theorem filed_foldlM_add {r r' : Registry α σ} {domains : List (Domain α σ)} (hr : r.Filed)
    (hd : ∀ d ∈ domains, d.Compiled) (h : domains.foldlM add r = .ok r') : r'.Filed := by
  induction domains generalizing r with
  | nil =>
    cases h
    exact hr
  | cons d rest ih =>
    rw [List.foldlM_cons] at h
    obtain ⟨mid, hmid, h⟩ := bind_eq_ok_iff.1 h
    refine ih (filed_add hr (hd d List.mem_cons_self) hmid) ?_ h
    exact fun x hx => hd x (List.mem_cons_of_mem d hx)

theorem Built.filed {r : Registry α σ} (h : r.Built) : r.Filed := by
  obtain ⟨source, domains, hd, h⟩ := h
  obtain ⟨system, hs, h⟩ := bind_eq_ok_iff.1 h
  have hc : Domain.Compiled system := ⟨systemDefinition, mapError_eq_ok_iff.1 hs⟩
  have he : (empty source : Registry α σ).Filed := by
    intro k d hk
    cases hk
  refine filed_foldlM_add he ?_ h
  intro d hd'
  rcases List.mem_cons.1 hd' with rfl | hd'
  · exact hc
  · exact hd d hd'

theorem Filed.domain_shortId {r : Registry α σ} (h : r.Filed) {uri : String} {d : Domain α σ}
    (hd : r.domainByUri uri = some d) : r.domain d.shortId = some d ∧ d.Compiled := by
  obtain ⟨k, _, hk⟩ := Option.bind_eq_some_iff.1 hd
  obtain ⟨rfl, hc⟩ := h k d hk
  exact ⟨hk, hc⟩

end Registry

end EventSourcing
