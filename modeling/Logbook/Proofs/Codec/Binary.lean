import Logbook.Codec.Basic
import Logbook.Proofs.Codec.Varint
import Logbook.Proofs.Flags
import Logbook.Proofs.Text.Utf8

/-! The compact binary layout: its grammar, which is exactly what is read, and of the byte strings that
are read as one message the written one as the shortest. -/
namespace Logbook

def Message.FitsMemory : Message → Prop
  | .record r => r.key.utf8ByteSize < Codec.Binary.capacity ∧ r.data.length < Codec.Binary.capacity
  | .text s => s.utf8ByteSize < Codec.Binary.capacity

namespace Codec.Binary

/-- The byte strings that stand for a byte string: its length in some form, and its bytes. -/
def Spells (content bs : Bytes) : Prop :=
  content.length < capacity ∧ ∃ form, Varint.Form content.length form ∧ bs = form ++ content

inductive Stands : Message → Bytes → Prop where
  | text {s : String} {bs : Bytes} : Spells (Text.Utf8.encode s) bs → Stands (.text s) bs
  | record {r : Record} {key data watermark : Bytes} : Spells (Text.Utf8.encode r.key) key →
      Spells r.data data → Varint.Form r.watermark.toNat watermark →
      Stands (.record r) (key ++ data ++ watermark ++ [r.flags.bits])

variable {bs rest content : Bytes} {s : String} {r : Record} {m : Message} {t : MessageType}

theorem readBytes_eq_ok :
    readBytes bs = .ok (content, rest) ↔ ∃ front, Spells content front ∧ bs = front ++ rest := by
  rw [readBytes, bind_eq_ok]
  constructor
  · rintro ⟨⟨n, after⟩, number, ok⟩
    obtain ⟨form, is, rfl⟩ := Varint.read_eq_ok.mp (mapError_eq_ok.mp number)
    simp only at ok
    split at ok
    · cases ok
    case isFalse fits =>
      obtain ⟨rfl, rfl⟩ := take_eq_ok.mp (mapError_eq_ok.mp ok)
      exact ⟨form ++ content, ⟨by omega, form, is, rfl⟩, (List.append_assoc ..).symm⟩
  · rintro ⟨front, ⟨fits, form, is, rfl⟩, rfl⟩
    refine ⟨(content.length, content ++ rest), ?_, ?_⟩
    · exact mapError_eq_ok.mpr (Varint.read_eq_ok.mpr ⟨form, is, List.append_assoc ..⟩)
    · simp only
      rw [if_neg (by omega)]
      exact mapError_eq_ok.mpr (take_eq_ok.mpr ⟨rfl, rfl⟩)

theorem readText_eq_ok :
    readText bs = .ok (s, rest) ↔
      ∃ front, Spells (Text.Utf8.encode s) front ∧ bs = front ++ rest := by
  rw [readText, bind_eq_ok]
  constructor
  · rintro ⟨⟨content, after⟩, taken, ok⟩
    simp only at ok
    split at ok
    case h_1 s' decoded =>
      cases ok
      rw [← Text.Utf8.decode_eq_ok.mp decoded]
      exact readBytes_eq_ok.mp taken
    case h_2 => cases ok
  · intro front
    refine ⟨(Text.Utf8.encode s, rest), readBytes_eq_ok.mpr front, ?_⟩
    simp only [Text.Utf8.decode_encode]
    rfl

theorem readFlags_eq_ok {flags : Flags} :
    readFlags bs = .ok (flags, rest) ↔ bs = flags.bits :: rest := by
  constructor
  · intro ok
    rcases bs with _ | ⟨b, bs⟩
    · cases ok
    simp only [readFlags] at ok
    split at ok
    case h_1 flags' known =>
      cases ok
      rw [Flags.ofBits_eq_ok.mp known]
    case h_2 => cases ok
  · rintro rfl
    simp only [readFlags, Flags.ofBits_eq_ok.mpr rfl]

theorem readRecord_eq_ok :
    readRecord bs = .ok (r, rest) ↔ ∃ front, Stands (.record r) front ∧ bs = front ++ rest := by
  simp only [readRecord, bind_eq_ok]
  constructor
  · rintro ⟨⟨key, afterKey⟩, keyRead, ⟨data, afterData⟩, dataRead, ⟨n, afterNumber⟩, numberRead,
      ⟨flags, afterFlags⟩, flagsRead, ok⟩
    cases ok
    obtain ⟨k, key, rfl⟩ := readText_eq_ok.mp keyRead
    obtain ⟨d, data, rfl⟩ := readBytes_eq_ok.mp dataRead
    obtain ⟨w, number, rfl⟩ := Varint.read_eq_ok.mp (mapError_eq_ok.mp numberRead)
    obtain rfl := readFlags_eq_ok.mp flagsRead
    have value : n.toUInt64.toNat = n := Nat.mod_eq_of_lt number.lt
    rw [← value] at number
    exact ⟨_, .record key data number, by simp⟩
  · rintro ⟨front, stands, rfl⟩
    cases stands with
    | @record _ k d w key data watermark =>
      refine ⟨(r.key, d ++ w ++ [r.flags.bits] ++ rest), readText_eq_ok.mpr ⟨k, key, by simp⟩,
        (r.data, w ++ [r.flags.bits] ++ rest), readBytes_eq_ok.mpr ⟨d, data, by simp⟩,
        (r.watermark.toNat, r.flags.bits :: rest),
        mapError_eq_ok.mpr (Varint.read_eq_ok.mpr ⟨w, watermark, by simp⟩),
        (r.flags, rest), readFlags_eq_ok.mpr rfl, ?_⟩
      simp only [Nat.toUInt64, UInt64.ofNat_toNat]
      rfl

/-- The grammar is what is read. -/
theorem read_eq_ok :
    read t bs = .ok (m, rest) ↔ t.Admits m ∧ ∃ front, Stands m front ∧ bs = front ++ rest := by
  have record : (readRecord bs >>= fun x => pure (Message.record x.1, x.2)) = .ok (m, rest) ↔
      (∃ r, m = .record r) ∧ ∃ front, Stands m front ∧ bs = front ++ rest := by
    rw [bind_eq_ok]
    constructor
    · rintro ⟨⟨r, after⟩, ok, same⟩
      cases same
      exact ⟨⟨r, rfl⟩, readRecord_eq_ok.mp ok⟩
    · rintro ⟨⟨r, rfl⟩, front⟩
      exact ⟨(r, rest), readRecord_eq_ok.mpr front, rfl⟩
  have text : (readText bs >>= fun x => pure (Message.text x.1, x.2)) = .ok (m, rest) ↔
      (∃ s, m = .text s) ∧ ∃ front, Stands m front ∧ bs = front ++ rest := by
    rw [bind_eq_ok]
    constructor
    · rintro ⟨⟨s, after⟩, ok, same⟩
      cases same
      obtain ⟨front, spells, rfl⟩ := readText_eq_ok.mp ok
      exact ⟨⟨s, rfl⟩, front, .text spells, rfl⟩
    · rintro ⟨⟨s, rfl⟩, front, stands, rfl⟩
      cases stands with
      | text spells => exact ⟨(s, rest), readText_eq_ok.mpr ⟨front, spells, rfl⟩, rfl⟩
  cases t with
  | record => exact record.trans (and_congr_left' (by cases m <;> simp [MessageType.Admits]))
  | string => exact text.trans (and_congr_left' (by cases m <;> simp [MessageType.Admits]))
  | named path => exact text.trans (and_congr_left' (by cases m <;> simp [MessageType.Admits]))

theorem readAll_eq_ok : readAll t bs = .ok m ↔ t.Admits m ∧ Stands m bs := by
  rw [readAll, bind_eq_ok]
  constructor
  · rintro ⟨⟨m, rest⟩, ok, whole⟩
    simp only at whole
    split at whole
    case isTrue empty =>
      cases whole
      obtain ⟨admitted, front, stands, rfl⟩ := read_eq_ok.mp ok
      rw [List.isEmpty_iff.mp empty, List.append_nil]
      exact ⟨admitted, stands⟩
    case isFalse => cases whole
  · rintro ⟨admitted, stands⟩
    exact ⟨(m, []), read_eq_ok.mpr ⟨admitted, bs, stands, (List.append_nil bs).symm⟩, rfl⟩

/-! The written form. -/

theorem Spells.fits (spells : Spells content bs) : content.length < capacity := spells.1

theorem length_writeBytes (content : Bytes) : content.length ≤ (writeBytes content).length := by
  rw [writeBytes, List.length_append]
  omega

theorem spells_writeBytes (fits : content.length < capacity) : Spells content (writeBytes content) :=
  ⟨fits, _, Varint.form_write (Nat.lt_trans fits (by decide)), rfl⟩

theorem Spells.noLonger (spells : Spells content bs) : Bytes.NoLonger (writeBytes content) bs := by
  obtain ⟨-, form, is, rfl⟩ := spells
  exact is.noLonger.append (.refl _)

theorem Stands.fitsMemory (stands : Stands m bs) : m.FitsMemory := by
  cases stands with
  | text content =>
    have fits := content.fits
    rwa [Text.Utf8.length_encode] at fits
  | record key data =>
    have fits := key.fits
    rw [Text.Utf8.length_encode] at fits
    exact ⟨fits, data.fits⟩

theorem stands_write (fits : m.FitsMemory) : Stands m (write m) := by
  cases m with
  | text s =>
    apply Stands.text
    apply spells_writeBytes
    rw [Text.Utf8.length_encode]
    exact fits
  | record r =>
    apply Stands.record
    · apply spells_writeBytes
      rw [Text.Utf8.length_encode]
      exact fits.1
    · exact spells_writeBytes fits.2
    · exact Varint.form_write r.watermark.toNat_lt

theorem Stands.noLonger (stands : Stands m bs) : Bytes.NoLonger (write m) bs := by
  cases stands with
  | text content => exact content.noLonger
  | record key data watermark =>
    exact ((key.noLonger.append data.noLonger).append watermark.noLonger).append (.refl _)

theorem decode_binary : Codec.binary.decode t bs = .ok m ↔ t.Admits m ∧ Stands m bs :=
  mapError_eq_ok.trans readAll_eq_ok

/-- What the binary layout keeps of messages, and how short it is. Every message that memory holds is
read back, and of the byte strings that are read as a message the written one is the shortest. -/
structure Compact (t : MessageType) : Prop where
  returns : ∀ m, t.Admits m → ((∃ bs, Codec.binary.encode m = .ok bs ∧
    Codec.binary.decode t bs = .ok m) ↔ m.FitsMemory)
  shortest : ∀ bs m, Codec.binary.decode t bs = .ok m → ∃ form, Codec.binary.encode m = .ok form ∧
    form.length ≤ bs.length ∧ (form.length = bs.length → bs = form)

theorem compact_layout (t : MessageType) : Compact t := by
  constructor
  case returns =>
    intro m admitted
    constructor
    · rintro ⟨bs, -, ok⟩
      exact (decode_binary.mp ok).2.fitsMemory
    · intro fits
      exact ⟨write m, rfl, decode_binary.mpr ⟨admitted, stands_write fits⟩⟩
  case shortest =>
    intro bs m ok
    refine ⟨write m, rfl, ?_⟩
    rcases (decode_binary.mp ok).2.noLonger with shorter | rfl
    · exact ⟨by omega, fun same => by omega⟩
    · exact ⟨Nat.le_refl _, fun _ => rfl⟩

end Codec.Binary

end Logbook
