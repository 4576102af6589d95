import Mathlib.Data.List.Induction
import EventSourcing.Proofs.Message.Header

/-! The readings of a header. Its fields are cut out of the bytes at fixed places when a header is made
of them, one at a time when a record is asked for them, and one after the other when a record is
decoded. All three cut at the same places, and what is cut there is what the fields are written as, so
24 bytes and the header that they are read as determine each other. -/

namespace EventSourcing

namespace Bytes

theorem toNat_append_singleton (b : Bytes) (x : UInt8) :
    toNat (b ++ [x]) = toNat b * 256 + x.toNat := by
  simp [toNat]

theorem toNat_lt (b : Bytes) : toNat b < 256 ^ b.length := by
  induction b using List.reverseRecOn with
  | nil => exact Nat.one_pos
  | append_singleton b x ih =>
    have hx := x.toNat_lt
    rw [toNat_append_singleton, List.length_append, List.length_singleton, Nat.pow_succ]
    omega

/-- A number is written in the digits that it is read from. -/
theorem bigEndian_toNat (b : Bytes) : bigEndian b.length (toNat b) = b := by
  induction b using List.reverseRecOn with
  | nil => rfl
  | append_singleton b x ih =>
    have hx := x.toNat_lt
    have hdiv : (toNat b * 256 + x.toNat) / 256 = toNat b := by omega
    have hlast : UInt8.ofNat (toNat b * 256 + x.toNat) = x := by
      rw [← UInt8.toNat_inj, UInt8.toNat_ofNat']
      omega
    rw [toNat_append_singleton, List.length_append, List.length_singleton, bigEndian, hdiv, hlast, ih]

theorem ofInt64_toInt64 {b : Bytes} (h : b.length = 8) : ofInt64 (toInt64 b) = b := by
  have hlt : toNat b < 2 ^ 64 := by simpa [h] using toNat_lt b
  have hnat : (toInt64 b).toUInt64.toNat = toNat b := by
    simpa [toInt64] using hlt
  rw [ofInt64, hnat, ← h, bigEndian_toNat]

theorem ofInt32_toInt32 {b : Bytes} (h : b.length = 4) : ofInt32 (toInt32 b) = b := by
  have hlt : toNat b < 2 ^ 32 := by simpa [h] using toNat_lt b
  have hnat : (toInt32 b).toUInt32.toNat = toNat b := by
    simpa [toInt32] using hlt
  rw [ofInt32, hnat, ← h, bigEndian_toNat]

end Bytes

theorem length_slice {b : Bytes} {start count : Nat} (h : start + count ≤ b.length) :
    (slice b start count).length = count := by
  rw [slice, List.length_take, List.length_drop]
  omega

theorem take_append_slice (b : Bytes) (start count : Nat) :
    b.take start ++ slice b start count = b.take (start + count) :=
  List.take_add.symm

namespace Header

/-- The header that stands at the front of `b`, each field at its place. -/
def front (b : Bytes) : Header :=
  ⟨Bytes.toInt64 (slice b 0 8), Bytes.toInt32 (slice b 8 4), Bytes.toInt64 (slice b 12 8),
    Bytes.toInt32 (slice b 20 4)⟩

theorem bytes_front {b : Bytes} (h : 24 ≤ b.length) : (front b).bytes = b.take 24 := by
  have hfields : (front b).bytes = slice b 0 8 ++ slice b 8 4 ++ slice b 12 8 ++ slice b 20 4 := by
    unfold bytes front
    rw [Bytes.ofInt64_toInt64 (length_slice (by omega)),
      Bytes.ofInt32_toInt32 (length_slice (by omega)),
      Bytes.ofInt64_toInt64 (length_slice (by omega)),
      Bytes.ofInt32_toInt32 (length_slice (by omega))]
  rw [hfields, ← List.nil_append (slice b 0 8), ← List.take_zero (l := b), take_append_slice,
    take_append_slice, take_append_slice, take_append_slice]

theorem ofBytes_eq (b : Bytes) :
    ofBytes b = if b.length < 24 then .error (.tooShort b.length) else .ok (front b) := rfl

end Header

namespace Record

/-- Every reading of the record shows the header. -/
structure ReadsAs (r : Record) (h : Header) : Prop where
  source : r.source = h.source
  domain : r.domain = h.domain
  id : r.id = h.id
  version : r.version = h.version
  uuid : r.uuid = h.bytes
  header : r.header = h
  text : r.text = h.text

/-- Decoding all fields in one pass cuts them where they are read one by one. -/
theorem header_eq_front (r : Record) : r.header = Header.front r.bytes := by
  simp [header, Header.front, slice, List.splitAt_eq, List.drop_drop]

theorem readsAs_front (r : Record) : r.ReadsAs (Header.front r.bytes) where
  source := rfl
  domain := rfl
  id := rfl
  version := rfl
  uuid := (Header.bytes_front r.full).symm
  header := r.header_eq_front
  text := rfl

theorem front_snapshot (h : Header) (state : Bytes) : Header.front (snapshot h state).bytes = h := by
  obtain ⟨hsource, hdomain, hid, hversion⟩ := fields_snapshot h state
  obtain ⟨source, domain, id, version⟩ := h
  exact (Header.mk.injEq ..).symm ▸ ⟨hsource, hdomain, hid, hversion⟩

theorem readsAs_snapshot (h : Header) (state : Bytes) : (snapshot h state).ReadsAs h := by
  have hreads := (snapshot h state).readsAs_front
  rwa [front_snapshot] at hreads

theorem snapshot_header_state (r : Record) : snapshot r.header r.state = r := by
  obtain ⟨b, hfull⟩ := r
  simp only [snapshot, header_eq_front, state, mk.injEq]
  rw [Header.bytes_front hfull, List.take_append_drop]

theorem eq_snapshot_iff {r : Record} {h : Header} {state : Bytes} :
    r = snapshot h state ↔ r.header = h ∧ r.state = state := by
  refine ⟨?_, ?_⟩
  · rintro rfl
    exact ⟨(readsAs_snapshot h state).header, state_snapshot h state⟩
  · rintro ⟨rfl, rfl⟩
    exact r.snapshot_header_state.symm

theorem bytes_ofHeader (h : Header) : (ofHeader h).bytes = h.bytes := List.append_nil _

theorem header_eq_of_uuid {r r' : Record} (h : r.uuid = r'.uuid) : r.header = r'.header := by
  have hfront (r : Record) : Header.front (r.bytes.take 24) = Header.front r.bytes := by
    simp [Header.front, slice, List.drop_take, List.take_take]
  rw [header_eq_front, header_eq_front, ← hfront r, ← hfront r']
  exact congrArg Header.front h

end Record

theorem Header.front_bytes (h : Header) : front h.bytes = h := by
  rw [← Record.bytes_ofHeader]
  exact Record.front_snapshot h []

/-- The encoded header is read back as itself, as a header and as a record. All bytes are accepted of
which there are enough for a header, and then both forms agree in every reading, the header is written
as the first of the bytes again, and the rest of them is the state. Header and state determine a record,
and the bytes of a header determine the header. -/
theorem forms_of_header_agree :
    (∀ h : Header, h.bytes.length = 24 ∧ Header.ofBytes h.bytes = .ok h ∧
        ∃ r, Record.ofBytes h.bytes = .ok r ∧ r = .ofHeader h ∧ r.ReadsAs h) ∧
      (∀ b : Bytes,
        (b.length < 24 → Header.ofBytes b = .error (.tooShort b.length) ∧
          Record.ofBytes b = .error (.tooShort b.length)) ∧
        (24 ≤ b.length → ∃ h r, Header.ofBytes b = .ok h ∧ Record.ofBytes b = .ok r ∧ r.bytes = b ∧
          r.ReadsAs h ∧ h.bytes = b.take 24 ∧ r.state = b.drop 24)) ∧
      (∀ (h : Header) (state : Bytes) (r : Record),
        r = .snapshot h state ↔ r.header = h ∧ r.state = state) ∧
      (∀ h h' : Header, h.bytes = h'.bytes → h = h') ∧
      ∀ r r' : Record, r.uuid = r'.uuid → r.header = r'.header := by
  have hrecord : ∀ h : Header, Record.ofBytes h.bytes = .ok (.ofHeader h) := by
    intro h
    unfold Record.ofBytes
    rw [dif_neg (by simp), Except.ok.injEq, Record.mk.injEq]
    exact (Record.bytes_ofHeader h).symm
  refine ⟨?_, ?_, fun _ _ _ => Record.eq_snapshot_iff, ?_, fun _ _ => Record.header_eq_of_uuid⟩
  · intro h
    refine ⟨h.length_bytes, ?_, _, hrecord h, rfl, Record.readsAs_snapshot h []⟩
    rw [Header.ofBytes_eq, if_neg (by simp), Header.front_bytes]
  · intro b
    refine ⟨fun hshort => ⟨if_pos hshort, dif_pos hshort⟩, ?_⟩
    intro hb
    exact ⟨.front b, ⟨b, hb⟩, if_neg (Nat.not_lt.2 hb), dif_neg (Nat.not_lt.2 hb), rfl,
      Record.readsAs_front _, Header.bytes_front hb, rfl⟩
  · intro h h' hbytes
    rw [← Header.front_bytes h, hbytes, Header.front_bytes]

/-- All bits of the fields are set, one byte follows, and one byte too few is refused. -/
theorem forms_of_header_agree_negative :
    let b : Bytes := List.replicate 24 255 ++ [7]
    24 ≤ b.length ∧
      (∃ h r, Header.ofBytes b = .ok h ∧ h = ⟨-1, -1, -1, -1⟩ ∧ Record.ofBytes b = .ok r ∧
        r.ReadsAs h ∧ r.state = [7]) ∧
      (b.take 23).length < 24 ∧ Header.ofBytes (b.take 23) = .error (.tooShort 23) ∧
      Record.ofBytes (b.take 23) = .error (.tooShort 23) := by
  intro b
  have hb : 24 ≤ b.length := by decide
  have hshort : (b.take 23).length < 24 := by decide
  obtain ⟨-, hbytes, -, -, -⟩ := forms_of_header_agree
  obtain ⟨h, r, hh, hr, -, hreads, -, hstate⟩ := (hbytes b).2 hb
  have hfront : h = ⟨-1, -1, -1, -1⟩ := by
    rw [Header.ofBytes_eq, if_neg (Nat.not_lt.2 hb), Except.ok.injEq] at hh
    rw [← hh]
    decide
  obtain ⟨herror, herror'⟩ := (hbytes (b.take 23)).1 hshort
  exact ⟨hb, ⟨h, r, hh, hfront, hr, hreads, hstate⟩, hshort, herror, herror'⟩

end EventSourcing
