import EventSourcing.Proofs.Domain.Directory
import EventSourcing.Proofs.Domain.Search

/-! URIs that are written differently. Two texts write one URI if they have one normal form. Wherever a
URI that is given meets a stored one, only the given one is put into normal form: the stored one came from
a compiled definition and is in normal form already. So compiling, the lookups of a catalog and those of a
registry all ask whether both texts write one URI. -/

namespace EventSourcing

/-- The texts write one URI. -/
def Uri.Same (uri uri' : String) : Prop := Uri.normalize uri = Uri.normalize uri'

theorem Uri.same_iff {uri stored : String} (h : Uri.normalize stored = stored) :
    Uri.Same uri stored ↔ Uri.normalize uri = stored := by
  unfold Uri.Same
  rw [h]

variable {α σ : Type}

theorem Definition.normalize_resolvedUri (definition : Definition α σ) :
    Uri.normalize definition.resolvedUri = definition.resolvedUri := by
  rw [definition.resolvedUri_eq, Uri.normalize_normalize]

/-- A member compiles just if it belongs to the domain, however its URI is written, and has a version. -/
theorem Member.compile_eq_ok_iff_same (definition : Definition α σ) {kind : Kind} {m : Member α}
    {t : MessageType α} :
    m.compile kind definition.resolvedUri = .ok t ↔
      Uri.Same m.type.uri definition.resolvedUri ∧
        ∃ v, m.HasVersion v ∧ t = m.entry kind definition.resolvedUri v := by
  rw [Member.compile_eq_ok_iff, Uri.same_iff definition.normalize_resolvedUri]
  simp only [Member.version_eq_ok_iff]

theorem Domain.Compiled.byOwner_eq_some_iff_same {d : Domain α σ} (h : d.Compiled) {name uri : String}
    {t : MessageType α} :
    d.catalog.byOwner name uri = some t ↔
      t ∈ d.catalog.entries ∧ t.displayName = name ∧ Uri.Same uri t.domainUri := by
  rw [h.byOwner_eq_some_iff]
  apply and_congr_right
  intro ht
  rw [h.domainUri_of_mem ht, Uri.same_iff h.normalize_uri]

theorem Registry.Built.domainByUri_eq_some_iff_same {r : Registry α σ} (hr : r.Built) {uri : String}
    {d : Domain α σ} :
    r.domainByUri uri = some d ↔ r.domain d.shortId = some d ∧ Uri.Same uri d.uri := by
  rw [hr.domainByUri_eq_some_iff]
  apply and_congr_right
  intro hd
  rw [Uri.same_iff (hr.filed _ d hd).2.normalize_uri]

/-- The normal form has no two colons next to each other and is its own normal form, and just the texts
without two such colons are. In it each longest run of colons is replaced by half as many slashes, and by
a colon behind them if its length is odd, and all else is kept. Stored URIs are in normal form, so the
URI of a payload type agrees with that of a definition, of a catalog entry or of a registered domain just
if both have one normal form. -/
theorem uris_compared_in_normal_form [Content α] :
    (∀ uri : String,
      ¬ [':', ':'] <:+: (Uri.normalize uri).toList ∧
      Uri.normalize (Uri.normalize uri) = Uri.normalize uri ∧
      (Uri.normalize uri = uri ↔ ¬ [':', ':'] <:+: uri.toList) ∧
      (Uri.normalize uri).toList = (Uri.pieces uri.toList).flatMap Uri.normalPiece) ∧
    (∀ (definition : Definition α σ) (kind : Kind) (m : Member α) (t : MessageType α),
      m.compile kind definition.resolvedUri = .ok t ↔
        Uri.Same m.type.uri definition.resolvedUri ∧
          ∃ v, m.HasVersion v ∧ t = m.entry kind definition.resolvedUri v) ∧
    (∀ d : Domain α σ, d.Compiled →
      Uri.normalize d.uri = d.uri ∧
      (∀ t ∈ d.catalog.entries, t.domainUri = d.uri) ∧
      (∀ (p : Payload α) t, d.catalog.byInstance p = some t ↔
        t ∈ d.catalog.entries ∧ t.displayName = p.name ∧ Uri.Same p.uri t.domainUri) ∧
      ∀ (type : PayloadType α) t, d.catalog.byType type = some t ↔
        t ∈ d.catalog.entries ∧ t.displayName = type.name ∧ Uri.Same type.uri t.domainUri) ∧
    ∀ r : Registry α σ, r.Built →
      (∀ uri d, r.domainByUri uri = some d ↔ r.domain d.shortId = some d ∧ Uri.Same uri d.uri) ∧
      ∀ (p : Payload α) d, r.domainOf p = some d ↔
        r.domain d.shortId = some d ∧ Uri.Same p.uri d.uri := by
  refine ⟨?_, ?_, ?_, ?_⟩
  · intro uri
    have htext : (Uri.normalize uri).toList = Uri.normalizeChars uri.toList := String.toList_ofList
    rw [htext]
    exact ⟨Uri.not_infix_normalizeChars uri.toList, Uri.normalize_normalize uri,
      Uri.normalize_eq_self_iff, Uri.normalizeChars_eq_flatMap uri.toList⟩
  · intro definition kind m t
    exact Member.compile_eq_ok_iff_same definition
  · intro d hd
    refine ⟨hd.normalize_uri, ?_, ?_, ?_⟩
    · intro t ht
      exact hd.domainUri_of_mem ht
    · intro p t
      exact hd.byOwner_eq_some_iff_same
    · intro type t
      exact hd.byOwner_eq_some_iff_same
  · intro r hr
    refine ⟨?_, ?_⟩
    · intro uri d
      exact hr.domainByUri_eq_some_iff_same
    · intro p d
      exact hr.domainByUri_eq_some_iff_same

/-- Of two ways to write the URI of the system domain with colons, one has a colon too many. -/
theorem uris_compared_in_normal_form_system :
    let d : Domain ValueChanger.Change ValueChanger.Value := systemDomain
    let r : Registry ValueChanger.Change ValueChanger.Value := .minimal "test/source"
    d.Compiled ∧ r.Built ∧
      (Uri.normalize "cqrs:::system::v1").toList =
        (Uri.pieces "cqrs:::system::v1".toList).flatMap Uri.normalPiece ∧
      Uri.normalize "cqrs:::system::v1" = "cqrs/:system/v1" ∧
      d.catalog.byType .errorRaised = some errorRaisedEntry ∧
      r.domainByUri "cqrs::system::v1" = some d ∧ r.domainByUri "cqrs:::system::v1" = none := by
  intro d r
  have hd : d.Compiled := compiled_systemDomain
  have hr : r.Built := Registry.built_minimal "test/source"
  have h := uris_compared_in_normal_form (α := ValueChanger.Change) (σ := ValueChanger.Value)
  obtain ⟨htexts, -, hdomains, hregistries⟩ := h
  obtain ⟨-, -, -, hbyType⟩ := hdomains d hd
  obtain ⟨hbyUri, -⟩ := hregistries r hr
  have hodd : Uri.normalize "cqrs:::system::v1" = "cqrs/:system/v1" := by decide +kernel
  refine ⟨hd, hr, (htexts _).2.2.2, hodd, ?_, ?_, ?_⟩
  · refine (hbyType _ _).2 ⟨?_, rfl, rfl⟩
    exact Catalog.mem_entries_ofMembers.2 (by simp)
  · refine (hbyUri _ _).2 ⟨Registry.domain_minimal "test/source", ?_⟩
    show Uri.normalize "cqrs::system::v1" = Uri.normalize systemUri
    decide +kernel
  · rw [Option.eq_none_iff_forall_ne_some]
    intro x hx
    obtain ⟨hlisted, hsame⟩ := (hbyUri _ x).1 hx
    have hx : d = x := by
      unfold Registry.domain at hlisted
      simp only [r, Registry.minimal, Table.get?_insert, Table.get?_empty] at hlisted
      split at hlisted
      · exact Option.some.inj hlisted
      · cases hlisted
    have huri : x.uri = systemUri := hx ▸ rfl
    unfold Uri.Same at hsame
    rw [hodd, huri, normalize_systemUri] at hsame
    exact absurd hsame (by decide)

end EventSourcing
