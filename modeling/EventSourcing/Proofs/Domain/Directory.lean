import Mathlib.Data.List.Induction
import EventSourcing.Proofs.Domain.Checks
import EventSourcing.Proofs.Domain.NormalForm
import EventSourcing.Proofs.Domain.System
import EventSourcing.Proofs.Table
import EventSourcing.ValueChanger.Domain

/-! The registry as a directory of domains. It keeps two tables, of domains by short id and of short ids
by URI. A short id is the hash of the URI, so a new short id means a new URI, and both tables list the
same domains. This makes a lookup by either of them a search of the list of domains, in which nothing
depends on the order of registration. -/

namespace EventSourcing

variable {α σ : Type}

theorem uri_of_compile {definition : Definition α σ} {d : Domain α σ}
    (h : definition.compile = .ok d) : d.uri = definition.resolvedUri := by
  obtain ⟨_, _, _, _, _, _, -, -, -, -, -, -, rfl⟩ := Definition.compile_eq_ok_iff_groups.1 h
  rfl

namespace Domain.Compiled

variable {d : Domain α σ}

theorem shortId_eq (h : d.Compiled) : d.shortId = textHash32 d.uri := by
  obtain ⟨definition, h⟩ := h
  obtain ⟨_, _, _, _, _, _, -, -, -, -, -, -, rfl⟩ := Definition.compile_eq_ok_iff_groups.1 h
  rfl

theorem normalize_uri (h : d.Compiled) : Uri.normalize d.uri = d.uri := by
  obtain ⟨definition, h⟩ := h
  rw [uri_of_compile h, definition.resolvedUri_eq, Uri.normalize_normalize]

end Domain.Compiled

theorem compiled_systemDomain : (systemDomain : Domain α σ).Compiled :=
  ⟨systemDefinition, compile_systemDefinition⟩

namespace Registry

/-- Both tables of the registry list these domains, in the order of their registration. -/
structure Indexes (r : Registry α σ) (listed : List (Domain α σ)) : Prop where
  domains : r.domains.entries = listed.map fun d => (d.shortId, d)
  uris : r.uris.entries = listed.map fun d => (d.uri, d.shortId)

variable {r r' : Registry α σ} {listed domains : List (Domain α σ)} {d : Domain α σ}

theorem indexes_empty (sourceUri : String) : (empty sourceUri : Registry α σ).Indexes [] := ⟨rfl, rfl⟩

namespace Indexes

theorem nodup (h : r.Indexes listed) : (listed.map Domain.shortId).Nodup := by
  have hdistinct := r.domains.distinct
  rwa [h.domains, List.map_map] at hdistinct

theorem domain_eq_some_iff (h : r.Indexes listed) {shortId : Int32} :
    r.domain shortId = some d ↔ d ∈ listed ∧ d.shortId = shortId := by
  unfold domain
  rw [Table.get?_eq_some_iff, h.domains, List.mem_map]
  refine ⟨?_, ?_⟩
  · rintro ⟨x, hx, he⟩
    cases he
    exact ⟨hx, rfl⟩
  · rintro ⟨hd, rfl⟩
    exact ⟨d, hd, rfl⟩

theorem domainByUri_eq_some_iff (h : r.Indexes listed) {uri : String} :
    r.domainByUri uri = some d ↔ d ∈ listed ∧ d.uri = Uri.normalize uri := by
  unfold domainByUri
  simp only [Option.bind_eq_some_iff, Table.get?_eq_some_iff, h.uris, List.mem_map]
  refine ⟨?_, ?_⟩
  · rintro ⟨shortId, ⟨x, hx, he⟩, hd⟩
    obtain ⟨huri, hid⟩ := Prod.mk.inj he
    obtain ⟨hdl, hd⟩ := h.domain_eq_some_iff.1 (Table.get?_eq_some_iff.2 hd)
    obtain rfl := eq_of_pairwise_ne (List.pairwise_map.1 h.nodup) hx hdl (hid.trans hd.symm)
    exact ⟨hx, huri⟩
  · rintro ⟨hd, huri⟩
    refine ⟨d.shortId, ⟨d, hd, by rw [huri]⟩, ?_⟩
    rw [h.domains]
    exact List.mem_map_of_mem hd

theorem lookups_eq (h : r.Indexes listed) (h' : r'.Indexes domains)
    (hsame : ∀ d, d ∈ domains ↔ d ∈ listed) :
    (∀ shortId, r'.domain shortId = r.domain shortId) ∧
      ∀ uri, r'.domainByUri uri = r.domainByUri uri := by
  refine ⟨?_, ?_⟩
  · intro shortId
    ext d
    rw [h.domain_eq_some_iff, h'.domain_eq_some_iff, hsame]
  · intro uri
    ext d
    rw [h.domainByUri_eq_some_iff, h'.domainByUri_eq_some_iff, hsame]

/-- A domain is refused just if its short id is taken: a URI that is taken has its short id. -/
theorem refuses_iff (h : r.Indexes listed) (hlisted : ∀ x ∈ listed, x.Compiled) (hd : d.Compiled) :
    (r.domains.contains d.shortId = true ∨ r.uris.contains d.uri = true) ↔
      d.shortId ∈ listed.map Domain.shortId := by
  rw [Table.contains_iff, Table.contains_iff, h.domains, h.uris, List.map_map, List.map_map]
  refine ⟨?_, .inl⟩
  rintro (hid | huri)
  · exact hid
  · obtain ⟨x, hx, huri⟩ := List.mem_map.1 huri
    refine List.mem_map.2 ⟨x, hx, ?_⟩
    rw [(hlisted x hx).shortId_eq, hd.shortId_eq]
    exact congrArg textHash32 huri

theorem add_of_taken (h : r.Indexes listed) (hlisted : ∀ x ∈ listed, x.Compiled) (hd : d.Compiled)
    (htaken : d.shortId ∈ listed.map Domain.shortId) : r.add d = .error (.duplicateDomain d.uri) :=
  if_pos ((h.refuses_iff hlisted hd).2 htaken)

theorem add_of_free (h : r.Indexes listed) (hlisted : ∀ x ∈ listed, x.Compiled) (hd : d.Compiled)
    (hfree : d.shortId ∉ listed.map Domain.shortId) :
    ∃ r', r.add d = .ok r' ∧ r'.Indexes (listed ++ [d]) := by
  have hrefuses := mt (h.refuses_iff hlisted hd).1 hfree
  have hnew := not_or.1 hrefuses
  rw [Table.contains_iff, Table.contains_iff] at hnew
  refine ⟨_, if_neg hrefuses, ?_, ?_⟩
  · rw [List.map_append, ← h.domains]
    exact Table.entries_insert_of_new hnew.1 d
  · rw [List.map_append, ← h.uris]
    exact Table.entries_insert_of_new hnew.2 d.shortId

end Indexes

theorem sourceUri_add (h : r.add d = .ok r') : r'.sourceUri = r.sourceUri ∧ r'.sourceId = r.sourceId := by
  obtain ⟨-, -, rfl⟩ := add_eq_ok_iff.1 h
  exact ⟨rfl, rfl⟩

section Repetition

variable (listed domains) in
/-- Of the domains, in their order, `d` is the first one whose short id repeats an earlier one. The
listed domains come before all of them. -/
def FirstRepeated (d : Domain α σ) : Prop :=
  ∃ before after, domains = before ++ d :: after ∧ ((listed ++ before).map Domain.shortId).Nodup ∧
    d.shortId ∈ (listed ++ before).map Domain.shortId

theorem exists_firstRepeated (hlisted : (listed.map Domain.shortId).Nodup)
    (h : ¬ ((listed ++ domains).map Domain.shortId).Nodup) : ∃ d, FirstRepeated listed domains d := by
  induction domains using List.reverseRecOn with
  | nil =>
    rw [List.append_nil] at h
    exact absurd hlisted h
  | append_singleton before d ih =>
    by_cases hbefore : ((listed ++ before).map Domain.shortId).Nodup
    · refine ⟨d, before, [], rfl, hbefore, ?_⟩
      by_contra hfree
      refine h ?_
      rw [← List.append_assoc, List.map_append]
      refine List.nodup_append.2 ⟨hbefore, List.nodup_singleton _, ?_⟩
      rintro id hid _ hd rfl
      exact hfree (List.mem_singleton.1 hd ▸ hid)
    · obtain ⟨first, init, rest, rfl, hinit⟩ := ih hbefore
      exact ⟨first, init, rest ++ [d], by simp, hinit⟩

theorem foldlM_add_of_nodup (h : r.Indexes listed) (hcompiled : ∀ x ∈ listed ++ domains, x.Compiled)
    (hnodup : ((listed ++ domains).map Domain.shortId).Nodup) :
    ∃ r', domains.foldlM add r = .ok r' ∧ r'.Indexes (listed ++ domains) ∧
      r'.sourceUri = r.sourceUri ∧ r'.sourceId = r.sourceId := by
  induction domains generalizing r listed with
  | nil => exact ⟨r, rfl, by rwa [List.append_nil], rfl, rfl⟩
  | cons d rest ih =>
    have hlisted : ∀ x ∈ listed, x.Compiled := fun x hx => hcompiled x (List.mem_append_left _ hx)
    have hfree : d.shortId ∉ listed.map Domain.shortId := by
      rw [List.map_append, List.nodup_append] at hnodup
      exact fun htaken => hnodup.2.2 _ htaken _ (by simp) rfl
    obtain ⟨mid, hadd, hmid⟩ := h.add_of_free hlisted (hcompiled d (by simp)) hfree
    rw [List.append_cons] at hcompiled hnodup ⊢
    obtain ⟨r', hfold, hr', hsource⟩ := ih hmid hcompiled hnodup
    rw [List.foldlM_cons, hadd, ← (sourceUri_add hadd).1, ← (sourceUri_add hadd).2]
    exact ⟨r', hfold, hr', hsource⟩

theorem foldlM_add_of_firstRepeated (h : r.Indexes listed)
    (hcompiled : ∀ x ∈ listed ++ domains, x.Compiled) (hd : FirstRepeated listed domains d) :
    domains.foldlM add r = .error (.duplicateDomain d.uri) := by
  obtain ⟨before, after, rfl, hbefore, hrepeated⟩ := hd
  have hadded : ∀ x ∈ listed ++ before, x.Compiled := by
    intro x hx
    refine hcompiled x ?_
    rw [← List.append_assoc]
    exact List.mem_append_left _ hx
  obtain ⟨mid, hmid, hindexes, -⟩ := foldlM_add_of_nodup h hadded hbefore
  rw [List.foldlM_append, hmid]
  show (d :: after).foldlM add mid = _
  rw [List.foldlM_cons, hindexes.add_of_taken hadded (hcompiled d (by simp)) hrepeated]
  rfl

end Repetition

section Building

variable (sourceUri : String) (hdomains : ∀ x ∈ domains, x.Compiled)

theorem build_eq (domains : List (Domain α σ)) :
    build sourceUri domains = (systemDomain :: domains).foldlM add (empty sourceUri) := by
  unfold build
  rw [compile_systemDefinition]
  rfl

include hdomains

theorem compiled_of_mem_cons : ∀ x ∈ systemDomain :: domains, x.Compiled :=
  List.forall_mem_cons.2 ⟨compiled_systemDomain, hdomains⟩

theorem build_of_nodup (hnodup : ((systemDomain :: domains).map Domain.shortId).Nodup) :
    ∃ r, build sourceUri domains = .ok r ∧ r.Indexes (systemDomain :: domains) ∧
      r.sourceUri = sourceUri ∧ r.sourceId = textHash sourceUri := by
  rw [build_eq]
  exact foldlM_add_of_nodup (indexes_empty sourceUri) (compiled_of_mem_cons hdomains) hnodup

theorem build_of_firstRepeated (hd : FirstRepeated [systemDomain] domains d) :
    build sourceUri domains = .error (.duplicateDomain d.uri) := by
  obtain ⟨before, after, rfl, hbefore, hrepeated⟩ := hd
  rw [build_eq]
  refine foldlM_add_of_firstRepeated (indexes_empty sourceUri) (compiled_of_mem_cons hdomains) ?_
  exact ⟨systemDomain :: before, after, rfl, hbefore, hrepeated⟩

theorem build_cases :
    (((systemDomain :: domains).map Domain.shortId).Nodup ∧ ∃ r, build sourceUri domains = .ok r) ∨
      ∃ d, FirstRepeated [systemDomain] domains d ∧
        build sourceUri domains = .error (.duplicateDomain d.uri) := by
  by_cases hnodup : ((systemDomain :: domains).map Domain.shortId).Nodup
  · obtain ⟨r, hr, -⟩ := build_of_nodup sourceUri hdomains hnodup
    exact .inl ⟨hnodup, r, hr⟩
  · have hsystem : ([(systemDomain : Domain α σ)].map Domain.shortId).Nodup := List.nodup_singleton _
    obtain ⟨d, hd⟩ := exists_firstRepeated hsystem hnodup
    exact .inr ⟨d, hd, build_of_firstRepeated sourceUri hdomains hd⟩

theorem build_eq_ok_iff :
    (∃ r, build sourceUri domains = .ok r) ↔ ((systemDomain :: domains).map Domain.shortId).Nodup := by
  refine ⟨?_, ?_⟩
  · rintro ⟨r, hr⟩
    rcases build_cases sourceUri hdomains with ⟨hnodup, -⟩ | ⟨d, -, herror⟩
    · exact hnodup
    · cases hr.symm.trans herror
  · intro hnodup
    obtain ⟨r, hr, -⟩ := build_of_nodup sourceUri hdomains hnodup
    exact ⟨r, hr⟩

theorem build_eq_error_iff {error : RegistryError} :
    build sourceUri domains = .error error ↔
      ∃ d, FirstRepeated [systemDomain] domains d ∧ error = .duplicateDomain d.uri := by
  refine ⟨?_, ?_⟩
  · intro h
    rcases build_cases sourceUri hdomains with ⟨-, r, hr⟩ | ⟨d, hd, herror⟩
    · cases h.symm.trans hr
    · exact ⟨d, hd, Except.error.inj (h.symm.trans herror)⟩
  · rintro ⟨d, hd, rfl⟩
    exact build_of_firstRepeated sourceUri hdomains hd

theorem indexes_of_build {r : Registry α σ} (h : build sourceUri domains = .ok r) :
    r.Indexes (systemDomain :: domains) ∧ r.sourceUri = sourceUri ∧
      r.sourceId = textHash sourceUri := by
  obtain ⟨r', hr', hindexes⟩ :=
    build_of_nodup sourceUri hdomains ((build_eq_ok_iff sourceUri hdomains).1 ⟨r, h⟩)
  obtain rfl := Except.ok.inj (h.symm.trans hr')
  exact hindexes

end Building

theorem Built.domainByUri_eq_some_iff (hr : r.Built) {uri : String} :
    r.domainByUri uri = some d ↔ r.domain d.shortId = some d ∧ Uri.normalize uri = d.uri := by
  obtain ⟨source, domains, hdomains, hbuild⟩ := hr
  have hindexes := (indexes_of_build source hdomains hbuild).1
  rw [hindexes.domainByUri_eq_some_iff, hindexes.domain_eq_some_iff, eq_comm (a := d.uri)]
  simp

/-- A registry is built just if the short ids of the system domain and of the listed ones are distinct,
and else the first domain that repeats one is named. It holds these domains, each of which is found by
its short id and by its URI, however the URI is written. In another order the same domains make a
registry that answers alike. -/
theorem build_resolves_listed [Content α] (sourceUri : String) (domains : List (Domain α σ))
    (hdomains : ∀ d ∈ domains, d.Compiled) :
    (systemDefinition : Definition α σ).compile = .ok systemDomain ∧
      ((∃ r, build sourceUri domains = .ok r) ↔
        ((systemDomain :: domains).map Domain.shortId).Nodup) ∧
      (∀ error, build sourceUri domains = .error error ↔
        ∃ d, FirstRepeated [systemDomain] domains d ∧ error = .duplicateDomain d.uri) ∧
      (∀ r, build sourceUri domains = .ok r →
        r.sourceUri = sourceUri ∧ r.sourceId = textHash sourceUri ∧
        r.domains.values.Perm (systemDomain :: domains) ∧
        (∀ shortId d, r.domain shortId = some d ↔
          d ∈ systemDomain :: domains ∧ d.shortId = shortId) ∧
        (∀ uri d, r.domainByUri uri = some d ↔
          d ∈ systemDomain :: domains ∧ d.uri = Uri.normalize uri) ∧
        (∀ (p : Payload α) d, r.domainOf p = some d ↔
          d ∈ systemDomain :: domains ∧ d.uri = Uri.normalize p.uri) ∧
        ∀ d ∈ systemDomain :: domains, r.domainByUri d.uri = some d) ∧
      ∀ domains', domains.Perm domains' →
        ((∃ r, build sourceUri domains = .ok r) ↔ ∃ r, build sourceUri domains' = .ok r) ∧
        ∀ r r', build sourceUri domains = .ok r → build sourceUri domains' = .ok r' →
          (∀ shortId, r'.domain shortId = r.domain shortId) ∧
          (∀ uri, r'.domainByUri uri = r.domainByUri uri) ∧
          ∀ p : Payload α, r'.domainOf p = r.domainOf p := by
  refine ⟨compile_systemDefinition, build_eq_ok_iff sourceUri hdomains,
    fun error => build_eq_error_iff sourceUri hdomains, ?_, ?_⟩
  · intro r hr
    obtain ⟨hindexes, huri, hid⟩ := indexes_of_build sourceUri hdomains hr
    refine ⟨huri, hid, ?_, fun _ _ => hindexes.domain_eq_some_iff,
      fun _ _ => hindexes.domainByUri_eq_some_iff, fun _ _ => hindexes.domainByUri_eq_some_iff, ?_⟩
    · unfold Table.values
      rw [hindexes.domains, List.map_map]
      exact .of_eq (List.map_id _)
    · intro d hd
      refine hindexes.domainByUri_eq_some_iff.2 ⟨hd, ?_⟩
      exact (compiled_of_mem_cons hdomains d hd).normalize_uri.symm
  · intro domains' hperm
    have hdomains' : ∀ d ∈ domains', d.Compiled := fun d hd => hdomains d (hperm.mem_iff.2 hd)
    have hall : (systemDomain :: domains).Perm (systemDomain :: domains') := hperm.cons systemDomain
    refine ⟨?_, ?_⟩
    · rw [build_eq_ok_iff sourceUri hdomains, build_eq_ok_iff sourceUri hdomains']
      exact (hall.map Domain.shortId).nodup_iff
    · intro r r' hr hr'
      have hindexes := (indexes_of_build sourceUri hdomains hr).1
      have hindexes' := (indexes_of_build sourceUri hdomains' hr').1
      obtain ⟨hids, huris⟩ := hindexes.lookups_eq hindexes' fun d => hall.symm.mem_iff
      exact ⟨hids, huris, fun p => huris p.uri⟩

def relocated (location : String) : Definition ValueChanger.Change ValueChanger.Value :=
  { ValueChanger.definition with
    location
    commands := some ⟨.command, [⟨{ ValueChanger.setValueType with uri := location }, none⟩]⟩
    events := some ⟨.event, [⟨{ ValueChanger.valueSetType with uri := location }, none⟩]⟩ }

/-- Two domains whose URIs are distinct and have one short id. -/
theorem build_resolves_listed_collision :
    ∃ d d' : Domain ValueChanger.Change ValueChanger.Value,
      (relocated "shop::cart5640::v1").compile = .ok d ∧
      (relocated "shop::cart64210::v1").compile = .ok d' ∧
      (∃ r, build "test/source" [d] = .ok r ∧ r.domainByUri "shop::cart5640::v1" = some d ∧
        r.domainByUri "shop/cart64210/v1" = none) ∧
      build "test/source" [d, d'] = .error (.duplicateDomain "shop/cart64210/v1") := by
  obtain ⟨d, hd⟩ : ∃ d, (relocated "shop::cart5640::v1").compile = .ok d :=
    exists_eq_ok_of_isOk (by decide +kernel)
  obtain ⟨d', hd'⟩ : ∃ d', (relocated "shop::cart64210::v1").compile = .ok d' :=
    exists_eq_ok_of_isOk (by decide +kernel)
  have huri : d.uri = "shop/cart5640/v1" := (uri_of_compile hd).trans (by decide +kernel)
  have huri' : d'.uri = "shop/cart64210/v1" := (uri_of_compile hd').trans (by decide +kernel)
  have hcompiled : d.Compiled := ⟨_, hd⟩
  have hcompiled' : d'.Compiled := ⟨_, hd'⟩
  have hsystem : textHash32 systemUri ≠ textHash32 "shop/cart5640/v1" := by decide +kernel
  have hcollide : textHash32 "shop/cart64210/v1" = textHash32 "shop/cart5640/v1" := by decide +kernel
  have hids : [textHash32 systemUri, d.shortId].Nodup := by
    rw [hcompiled.shortId_eq, huri]
    simpa using hsystem
  obtain ⟨-, hok, -, hlookups, -⟩ := build_resolves_listed "test/source" [d]
    (List.forall_mem_singleton.2 hcompiled)
  obtain ⟨-, -, herror, -, -⟩ := build_resolves_listed "test/source" [d, d']
    (List.forall_mem_cons.2 ⟨hcompiled, List.forall_mem_singleton.2 hcompiled'⟩)
  refine ⟨d, d', hd, hd', ?_, ?_⟩
  · obtain ⟨r, hr⟩ := hok.2 hids
    obtain ⟨-, -, -, -, hbyUri, -, -⟩ := hlookups r hr
    refine ⟨r, hr, (hbyUri _ d).2 ⟨by simp, huri.trans (by decide +kernel)⟩, ?_⟩
    rw [Option.eq_none_iff_forall_ne_some]
    intro x hx
    obtain ⟨hmem, hx⟩ := (hbyUri _ x).1 hx
    have hne : systemUri ≠ Uri.normalize "shop/cart64210/v1" := by decide +kernel
    have hne' : "shop/cart5640/v1" ≠ Uri.normalize "shop/cart64210/v1" := by decide +kernel
    rcases List.mem_cons.1 hmem with rfl | hmem
    · exact hne hx
    · rw [List.mem_singleton.1 hmem, huri] at hx
      exact hne' hx
  · rw [← huri']
    refine (herror _).2 ⟨d', ⟨[d], [], rfl, hids, ?_⟩, rfl⟩
    rw [hcompiled'.shortId_eq, huri', hcollide, ← huri, ← hcompiled.shortId_eq]
    simp

end Registry
end EventSourcing
