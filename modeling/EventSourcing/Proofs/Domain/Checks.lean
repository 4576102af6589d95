import EventSourcing.Proofs.Checked
import EventSourcing.Proofs.Domain.Lookup
import EventSourcing.Proofs.Domain.Naming
import EventSourcing.Proofs.Domain.NormalForm

/-! The checks of a definition. Compiling makes them in a fixed order: the aggregate, the URI and
the two groups first, and then the members, commands before events, each by its version, its owner
and its names. A definition compiles just if all of them hold, and else the first one that does not
is reported. -/

namespace EventSourcing

variable {α σ : Type}

inductive Check (α : Type)
  | aggregateGiven
  | stateEncodes
  | uriVersioned
  | groupGiven (kind : Kind)
  | versionResolves (m : Member α)
  | ownerAgrees (m : Member α)
  /-- The member shares no name with those before it. -/
  | namesFree (before : List (Member α)) (m : Member α)

def Check.ofMembers : List (Member α) → List (Member α) → List (Check α)
  | _, [] => []
  | before, m :: rest =>
    .versionResolves m :: .ownerAgrees m :: .namesFree before m :: ofMembers (before ++ [m]) rest

/-- The two members have one display name or one canonical name. -/
def Member.Clashes (m n : Member α) : Prop :=
  m.type.name = n.type.name ∨
    ∃ v w, m.HasVersion v ∧ n.HasVersion w ∧
      canonicalName (Text.lowercase m.type.name) v = canonicalName (Text.lowercase n.type.name) w

namespace Definition

def members (d : Definition α σ) (kind : Kind) : List (Member α) :=
  ((d.group kind).map Group.members).getD []

def checks (d : Definition α σ) : List (Check α) :=
  [.aggregateGiven, .stateEncodes, .uriVersioned, .groupGiven .command, .groupGiven .event] ++
    Check.ofMembers [] (d.members .command ++ d.members .event)

/-- When a check holds of a definition, and what is reported when it does not. -/
def rules (d : Definition α σ) : Rules (Check α) CompileError where
  Holds
    | .aggregateGiven => ∃ aggregate, d.aggregate = some aggregate
    | .stateEncodes => ∀ aggregate, d.aggregate = some aggregate →
        ∃ state, aggregate.encode aggregate.initial = .ok state
    | .uriVersioned => Uri.Versioned d.resolvedUri
    | .groupGiven kind => ∃ g, d.group kind = some g ∧ g.kind = kind ∧ g.members ≠ []
    | .versionResolves m => ∃ v, m.HasVersion v
    | .ownerAgrees m => Uri.normalize m.type.uri = d.resolvedUri
    | .namesFree before m => ∀ b ∈ before, ¬ b.Clashes m
  Reports
    | .aggregateGiven, error => error = .aggregateNotProvided
    | .stateEncodes, error => ∃ aggregate reason, d.aggregate = some aggregate ∧
        aggregate.encode aggregate.initial = .error reason ∧
        error = .invalidAggregate aggregate.name reason
    | .uriVersioned, error => error = .invalidDomainUri d.resolvedUri
    | .groupGiven .command, error => error = .commandsNotProvided
    | .groupGiven .event, error => error = .eventsNotProvided
    | .versionResolves m, error =>
        ∃ text, m.VersionText text ∧ error = .invalidMessageVersion m.type.name (String.ofList text)
    | .ownerAgrees m, error => error = .invalidMessage m.type.name m.type.uri
    | .namesFree _ m, error => error = .duplicateMessage m.type.name

end Definition

namespace Check

theorem ofMembers_append (before first second : List (Member α)) :
    ofMembers before (first ++ second) =
      ofMembers before first ++ ofMembers (before ++ first) second := by
  induction first generalizing before with
  | nil => rw [List.append_nil]; rfl
  | cons m rest ih =>
    rw [List.cons_append, ofMembers, ofMembers, ih, List.append_assoc]
    rfl

end Check

namespace Member

theorem HasVersion.unique {m : Member α} {v w : UInt8} (hv : m.HasVersion v) (hw : m.HasVersion w) :
    v = w := by
  rw [← version_eq_ok_iff] at hv hw
  exact Except.ok.inj (hv.symm.trans hw)

theorem VersionText.unique {m : Member α} {text text' : List Char} (h : m.VersionText text)
    (h' : m.VersionText text') : text = text' := by
  rw [versionText_iff] at h h'
  exact Option.some.inj (h.symm.trans h')

/-- The entry has the names of the member. -/
def Named (m : Member α) (t : MessageType α) : Prop :=
  t.displayName = m.type.name ∧
    ∃ v, m.HasVersion v ∧ t.canonicalName = canonicalName (Text.lowercase m.type.name) v

theorem named_of_compile {m : Member α} {kind : Kind} {uri : String} {t : MessageType α}
    (h : m.compile kind uri = .ok t) : m.Named t := by
  obtain ⟨-, v, hv, rfl⟩ := compile_eq_ok_iff.1 h
  exact ⟨rfl, v, version_eq_ok_iff.1 hv, rfl⟩

theorem Named.clashes_iff {m n : Member α} {t u : MessageType α} (ht : m.Named t) (hu : n.Named u) :
    m.Clashes n ↔ t.displayName = u.displayName ∨ t.canonicalName = u.canonicalName := by
  obtain ⟨htname, v, hv, ht⟩ := ht
  obtain ⟨huname, w, hw, hu⟩ := hu
  unfold Clashes
  rw [htname, huname, ht, hu]
  refine or_congr_right ⟨?_, fun h => ⟨v, w, hv, hw, h⟩⟩
  rintro ⟨v', w', hv', hw', h⟩
  rwa [hv.unique hv', hw.unique hw']

structure Listed (members : List (Member α)) (entries : List (MessageType α)) : Prop where
  entry : ∀ m ∈ members, ∃ t ∈ entries, m.Named t
  member : ∀ t ∈ entries, ∃ m ∈ members, m.Named t

theorem Listed.snoc {members : List (Member α)} {entries : List (MessageType α)}
    (h : Listed members entries) {m : Member α} {t : MessageType α} (hm : m.Named t) :
    Listed (members ++ [m]) (entries ++ [t]) where
  entry := by
    intro n hn
    rcases List.mem_append.1 hn with hn | hn
    · obtain ⟨u, hu, hnamed⟩ := h.entry n hn
      exact ⟨u, List.mem_append_left _ hu, hnamed⟩
    · rw [List.mem_singleton.1 hn]
      exact ⟨t, List.mem_append_right _ List.mem_cons_self, hm⟩
  member := by
    intro u hu
    rcases List.mem_append.1 hu with hu | hu
    · obtain ⟨n, hn, hnamed⟩ := h.member u hu
      exact ⟨n, List.mem_append_left _ hn, hnamed⟩
    · rw [List.mem_singleton.1 hu]
      exact ⟨m, List.mem_append_right _ List.mem_cons_self, hm⟩

end Member

namespace Definition

variable (d : Definition α σ)

theorem decides_version (m : Member α) :
    d.rules.Decides [.versionResolves m] (m.version (Text.lowercase m.type.name)) := by
  cases h : m.version (Text.lowercase m.type.name) with
  | ok v => exact .cons ⟨v, Member.version_eq_ok_iff.1 h⟩ (.ok v)
  | error error =>
    refine .fail ?_ (Member.exists_of_version_eq_error h)
    rintro ⟨v, hv⟩
    rw [Member.version_eq_ok_iff.2 hv] at h
    cases h

theorem decides_entry (kind : Kind) (m : Member α) :
    d.rules.Decides [.versionResolves m, .ownerAgrees m] (m.compile kind d.resolvedUri) := by
  unfold Member.compile
  refine (d.decides_version m).bind ?_
  intro v _
  dsimp only
  split
  · next howner => exact .fail howner rfl
  · next howner =>
    have hagrees : Uri.normalize m.type.uri = d.resolvedUri := Decidable.not_not.1 howner
    exact .cons hagrees (.ok _)

theorem decides_compileOnto (kind : Kind) {before : List (Member α)}
    {entries : List (MessageType α)} (h : Member.Listed before entries) (m : Member α) :
    d.rules.Decides [.versionResolves m, .ownerAgrees m, .namesFree before m]
      (m.compileOnto kind d.resolvedUri entries) := by
  unfold Member.compileOnto
  refine (d.decides_entry kind m).bind ?_
  intro t ht
  have hm := Member.named_of_compile ht
  dsimp only
  split
  · next hany =>
    refine .fail ?_ rfl
    simp only [List.any_eq_true, decide_eq_true_eq] at hany
    obtain ⟨u, hu, hclash⟩ := hany
    obtain ⟨b, hb, hnamed⟩ := h.member u hu
    exact fun hfree => hfree b hb ((hnamed.clashes_iff hm).2 hclash)
  · next hany =>
    refine .cons ?_ (.ok _)
    intro b hb hclash
    obtain ⟨u, hu, hnamed⟩ := h.entry b hb
    refine hany (List.any_eq_true.2 ⟨u, hu, decide_eq_true ?_⟩)
    exact (hnamed.clashes_iff hm).1 hclash

theorem decides_entries (kind : Kind) {before : List (Member α)} {entries : List (MessageType α)}
    (h : Member.Listed before entries) (members : List (Member α)) :
    d.rules.Decides (Check.ofMembers before members)
        (members.foldlM (Member.compileOnto kind d.resolvedUri) entries) ∧
      ∀ entries', members.foldlM (Member.compileOnto kind d.resolvedUri) entries = .ok entries' →
        Member.Listed (before ++ members) entries' := by
  -- Names are compared with the entries made so far, which have the names of the members before.
  induction members generalizing before entries with
  | nil =>
    refine ⟨.ok entries, ?_⟩
    intro entries' hentries
    cases hentries
    rwa [List.append_nil]
  | cons m rest ih =>
    have hnext {next : List (MessageType α)}
        (hnext : m.compileOnto kind d.resolvedUri entries = .ok next) :
        Member.Listed (before ++ [m]) next := by
      obtain ⟨t, ht, -, rfl⟩ := Member.compileOnto_eq_ok_iff.1 hnext
      exact h.snoc (Member.named_of_compile ht)
    rw [List.foldlM_cons]
    refine ⟨?_, ?_⟩
    · exact (d.decides_compileOnto kind h m).bind fun next h' => (ih (hnext h')).1
    · intro entries' hentries
      obtain ⟨next, h', hentries⟩ := bind_eq_ok_iff.1 hentries
      have hlisted := (ih (hnext h')).2 entries' hentries
      rwa [List.append_assoc] at hlisted

/-- The group that is given for a kind, of this kind itself and not empty. -/
theorem members?_group_eq_some_iff (kind : Kind) {members : List (Member α)} :
    Group.members? kind (d.group kind) = some members ↔
      d.rules.Holds (.groupGiven kind) ∧ members = d.members kind := by
  unfold Group.members? Definition.members
  simp only [Option.map_eq_some_iff, Option.filter_eq_some_iff, decide_eq_true_eq]
  refine ⟨?_, ?_⟩
  · rintro ⟨g, ⟨hg, hkind, hne⟩, rfl⟩
    exact ⟨⟨g, hg, hkind, hne⟩, by rw [hg]; rfl⟩
  · rintro ⟨⟨g, hg, hkind, hne⟩, rfl⟩
    exact ⟨g, ⟨hg, hkind, hne⟩, by rw [hg]; rfl⟩

theorem decides_members (f : List (MessageType α) → Domain α σ) :
    d.rules.Decides (Check.ofMembers [] (d.members .command ++ d.members .event)) (do
      let entries ← (d.members .command).foldlM (Member.compileOnto .command d.resolvedUri) []
      let entries ← (d.members .event).foldlM (Member.compileOnto .event d.resolvedUri) entries
      return f entries) := by
  have hnil : Member.Listed ([] : List (Member α)) [] := ⟨nofun, nofun⟩
  obtain ⟨hcommands, hlisted⟩ := d.decides_entries .command hnil (d.members .command)
  rw [Check.ofMembers_append]
  refine hcommands.bind ?_
  intro entries hentries
  obtain ⟨hevents, -⟩ := d.decides_entries .event (hlisted entries hentries) (d.members .event)
  rw [← List.append_nil (Check.ofMembers _ (d.members .event))]
  exact hevents.bind fun entries _ => .ok (f entries)

theorem decides_compile : d.rules.Decides d.checks d.compile := by
  unfold compile checks
  dsimp only
  split
  case h_2 hnone =>
    refine .fail ?_ rfl
    rintro ⟨aggregate, ha⟩
    exact hnone aggregate ha
  next aggregate ha =>
  refine .cons ⟨aggregate, ha⟩ ?_
  split
  case h_1 reason hreason =>
    refine .fail ?_ ⟨aggregate, reason, ha, hreason, rfl⟩
    intro hstate
    obtain ⟨state, hs⟩ := hstate aggregate ha
    cases hreason.symm.trans hs
  next state hs =>
  have hstate : d.rules.Holds .stateEncodes := by
    intro aggregate' ha'
    obtain rfl := Option.some.inj (ha.symm.trans ha')
    exact ⟨state, hs⟩
  refine .cons hstate ?_
  split
  case h_2 hnone =>
    refine .fail ?_ rfl
    intro hversioned
    obtain ⟨⟨name, version⟩, hu⟩ := Uri.exists_nameAndVersion_iff.2 hversioned
    exact hnone name version hu
  next name version hu =>
  refine .cons (Uri.exists_nameAndVersion_iff.1 ⟨_, hu⟩) ?_
  split
  case h_2 hnone =>
    refine .fail ?_ rfl
    intro hgiven
    exact hnone _ ((d.members?_group_eq_some_iff .command).2 ⟨hgiven, rfl⟩)
  next commands hc =>
  obtain ⟨hgiven, rfl⟩ := (d.members?_group_eq_some_iff .command).1 hc
  refine .cons hgiven ?_
  split
  case h_2 hnone =>
    refine .fail ?_ rfl
    intro hgiven
    exact hnone _ ((d.members?_group_eq_some_iff .event).2 ⟨hgiven, rfl⟩)
  next events he =>
  obtain ⟨hgiven, rfl⟩ := (d.members?_group_eq_some_iff .event).1 he
  exact .cons hgiven (d.decides_members _)

theorem reports_unique (check : Check α) (error error' : CompileError)
    (h : d.rules.Reports check error) (h' : d.rules.Reports check error') : error = error' := by
  cases check with
  | stateEncodes =>
    obtain ⟨aggregate, reason, ha, hreason, rfl⟩ := h
    obtain ⟨aggregate', reason', ha', hreason', rfl⟩ := h'
    obtain rfl := Option.some.inj (ha.symm.trans ha')
    rw [Except.error.inj (hreason.symm.trans hreason')]
  | groupGiven kind =>
    cases kind with
    | command => exact Eq.trans h (Eq.symm h')
    | event => exact Eq.trans h (Eq.symm h')
  | versionResolves m =>
    obtain ⟨text, htext, rfl⟩ := h
    obtain ⟨text', htext', rfl⟩ := h'
    rw [htext.unique htext']
  | _ => exact Eq.trans h (Eq.symm h')

theorem resolvedUri_eq :
    d.resolvedUri = Uri.normalize ((d.uri.filter (· ≠ "")).getD d.location) := by
  unfold resolvedUri
  cases d.uri with
  | none => rfl
  | some uri =>
    by_cases h : uri = ""
    · simp [Option.filter, h]
    · simp [Option.filter, h]

/-- The resolved URI has slashes for the pairs of colons, and no pair is left. -/
theorem toList_resolvedUri :
    d.resolvedUri.toList =
        (Uri.pieces ((d.uri.filter (· ≠ "")).getD d.location).toList).flatMap Uri.normalPiece ∧
      ¬ [':', ':'] <:+: d.resolvedUri.toList := by
  rw [d.resolvedUri_eq, ← Uri.normalizeChars_eq_flatMap]
  unfold Uri.normalize
  rw [String.toList_ofList]
  exact ⟨rfl, Uri.not_infix_normalizeChars _⟩

/-- A definition compiles just if all its checks hold. Otherwise the first check that does not hold
is reported. The URI that the checks are about is the override, or the location if there is no
override or an empty one, with slashes for pairs of colons. -/
theorem compile_reports_first_failure (d : Definition α σ) :
    d.resolvedUri = Uri.normalize ((d.uri.filter (· ≠ "")).getD d.location) ∧
      (d.resolvedUri.toList =
          (Uri.pieces ((d.uri.filter (· ≠ "")).getD d.location).toList).flatMap Uri.normalPiece ∧
        ¬ [':', ':'] <:+: d.resolvedUri.toList) ∧
      ((∃ domain, d.compile = .ok domain) ↔ ∀ check ∈ d.checks, d.rules.Holds check) ∧
      ∀ error, d.compile = .error error ↔ d.rules.FirstFailure d.checks error :=
  ⟨d.resolvedUri_eq, d.toList_resolvedUri, d.decides_compile.exists_ok_iff,
    fun _ => d.decides_compile.error_iff d.reports_unique⟩

/-- A location may be the path of a module. -/
example : Uri.normalize "app::domains::flow/v2" = "app/domains/flow/v2" := by decide +kernel

end Definition
end EventSourcing
