import Logbook.Proofs.Codec.Binary

/-! Frames: the grammar of a frame, which is exactly what is accepted, and accesses that stay inside the
bytes given. -/
namespace Logbook.Codec.Frame

/-- The frame of a payload, part by part: magic, fingerprint of the schema, length, payload and
checksum. -/
def Frames (schema : String) (payload bs : Bytes) : Prop :=
  payload.length < 0x100000000 ∧
    bs = [0xc3, 0x01] ++ Bytes.ofNatLE 4 (Checksum.crc32 (Text.Utf8.encode schema)).toNat ++
      Bytes.ofNatLE 4 payload.length ++ payload ++
      Bytes.ofNatLE 4 (Checksum.crc32 payload).toNat

def parts (first second : UInt8) (found length : UInt32) (rest : Bytes) : Bytes :=
  first :: second :: (Bytes.ofNatLE 4 found.toNat ++ (Bytes.ofNatLE 4 length.toNat ++ rest))

variable {schema : String} {bs payload rest : Bytes} {t : MessageType} {m : Message}

theorem word_append (w : UInt32) (rest : Bytes) : word (Bytes.ofNatLE 4 w.toNat ++ rest) = w := by
  rw [word, Bytes.take_word, Bytes.toNatLE_word w.toNat_lt]
  exact UInt32.ofNat_toNat

theorem exists_word (enough : 4 ≤ bs.length) :
    ∃ (w : UInt32) (rest : Bytes), bs = Bytes.ofNatLE 4 w.toNat ++ rest := by
  obtain ⟨n, rest, fits, rfl⟩ := Bytes.exists_word enough
  have value : n.toUInt32.toNat = n := Nat.mod_eq_of_lt fits
  exact ⟨n.toUInt32, rest, by rw [value]⟩

theorem exists_parts (long : 14 ≤ bs.length) : ∃ first second found length rest,
    bs = parts first second found length rest ∧ 4 ≤ rest.length := by
  rcases bs with _ | ⟨first, _ | ⟨second, bs⟩⟩
  · simp at long
  · simp at long
  obtain ⟨found, bs, rfl⟩ := @exists_word bs (by simp at long; omega)
  obtain ⟨length, rest, rfl⟩ := @exists_word bs (by simp at long; omega)
  exact ⟨first, second, found, length, rest, rfl, by simp at long; omega⟩

theorem unwrap_short (short : bs.length < 14) :
    unwrap schema bs = .error (.tooShort bs.length) := if_pos short

theorem unwrap_long (other : unwrap schema bs ≠ .error (.tooShort bs.length)) : 14 ≤ bs.length := by
  apply Nat.le_of_not_lt
  intro short
  exact other (unwrap_short short)

section

variable (first second : UInt8) (found length : UInt32)

theorem length_parts : (parts first second found length rest).length = 10 + rest.length := by
  simp [parts]
  omega

theorem drop_parts (k : Nat) :
    (parts first second found length rest).drop (10 + k) = rest.drop k := by
  have places : 10 + k = 4 + (4 + k) + 1 + 1 := by omega
  rw [places, parts, List.drop_succ_cons, List.drop_succ_cons, Bytes.drop_word,
    Bytes.drop_word]

/-- What is checked, one part after the other. -/
theorem unwrap_parts (enough : 4 ≤ rest.length) :
    unwrap schema (parts first second found length rest) =
      if [first, second] ≠ magic then .error .magic
      else if found ≠ fingerprint schema then .error (.schema (fingerprint schema) found)
      else if rest.length ≠ length.toNat + 4 then .error (.length length.toNat (10 + rest.length))
      else if word (rest.drop length.toNat) ≠ Checksum.crc32 (rest.take length.toNat) then
        .error (.checksum (word (rest.drop length.toNat)) (Checksum.crc32 (rest.take length.toNat)))
      else .ok (rest.take length.toNat) := by
  have start : (parts first second found length rest).take 2 = [first, second] := rfl
  have foundAt : word ((parts first second found length rest).drop 2) = found := word_append found _
  have lengthAt : word ((parts first second found length rest).drop 6) = length := by
    have places : (parts first second found length rest).drop 6 =
        Bytes.ofNatLE 4 length.toNat ++ rest := Bytes.drop_word 4 found.toNat 0 _
    rw [places, word_append]
  have body : (parts first second found length rest).drop 10 = rest := drop_parts _ _ _ _ 0
  have long : ¬(parts first second found length rest).length < headerSize + trailerSize := by
    rw [length_parts, headerSize, trailerSize]
    omega
  rw [unwrap, if_neg long]
  simp only [start, foundAt, lengthAt, headerSize, trailerSize, drop_parts, body, length_parts,
    Nat.add_sub_cancel_left]

end

/-- Four bytes are those of their word. -/
theorem ofNatLE_word (four : bs.length = 4) : Bytes.ofNatLE 4 (word bs).toNat = bs := by
  obtain ⟨w, rest, rfl⟩ := @exists_word bs (by omega)
  have none : rest = [] := by
    rw [List.length_append, Bytes.length_ofNatLE] at four
    exact List.eq_nil_of_length_eq_zero (by omega)
  rw [word_append, none, List.append_nil]

theorem frames_iff_parts :
    Frames schema payload bs ↔ payload.length < 0x100000000 ∧
      bs = parts 0xc3 0x01 (fingerprint schema) payload.length.toUInt32
        (payload ++ Bytes.ofNatLE 4 (Checksum.crc32 payload).toNat) := by
  rw [Frames]
  apply and_congr_right
  intro fits
  have value : payload.length.toUInt32.toNat = payload.length := Nat.mod_eq_of_lt fits
  simp only [parts, value, fingerprint, List.append_assoc, List.cons_append, List.nil_append]

/-- What is accepted are the frames. -/
theorem unwrap_eq_ok : unwrap schema bs = .ok payload ↔ Frames schema payload bs := by
  rw [frames_iff_parts]
  constructor
  · intro ok
    have long : 14 ≤ bs.length := unwrap_long (by rw [ok]; exact nofun)
    -- each check that was passed fixes one of the parts
    obtain ⟨first, second, found, length, rest, rfl, enough⟩ := exists_parts long
    rw [unwrap_parts _ _ _ _ enough] at ok
    simp only [check_eq_ok, Decidable.not_not, Except.ok.injEq] at ok
    obtain ⟨start, rfl, size, sum, rfl⟩ := ok
    obtain ⟨rfl, rfl⟩ : first = 0xc3 ∧ second = 0x01 := by simpa [magic] using start
    have taken : (rest.take length.toNat).length = length.toNat :=
      List.length_take_of_le (by omega)
    have last : Bytes.ofNatLE 4 (Checksum.crc32 (rest.take length.toNat)).toNat =
        rest.drop length.toNat := by
      rw [← sum]
      apply ofNatLE_word
      rw [List.length_drop]
      omega
    rw [taken]
    refine ⟨length.toNat_lt, ?_⟩
    rw [last, List.take_append_drop, Nat.toUInt32, UInt32.ofNat_toNat]
  · rintro ⟨fits, rfl⟩
    have value : payload.length.toUInt32.toNat = payload.length := Nat.mod_eq_of_lt fits
    rw [unwrap_parts _ _ _ _ (by simp), value, List.take_left, List.drop_left]
    have sum := word_append (Checksum.crc32 payload) []
    rw [List.append_nil] at sum
    simp only [check_eq_ok, Decidable.not_not, sum, and_true]
    simp [magic]

theorem read_eq_ok :
    read schema t bs = .ok m ↔
      ∃ payload, unwrap schema bs = .ok payload ∧ Binary.readAll t payload = .ok m := by
  rw [read, bind_eq_ok]
  apply exists_congr
  intro payload
  apply and_congr_right
  intro _
  rw [Binary.readAll]
  cases Binary.read t payload with
  | error f =>
    constructor <;>
    · intro same
      cases same
  | ok front =>
    obtain ⟨m', rest⟩ := front
    cases rest with
    | nil =>
      constructor <;>
      · intro same
        cases same
        rfl
    | cons =>
      constructor <;>
      · intro same
        cases same

theorem decode_frame :
    (Codec.frame schema).decode t bs = .ok m ↔
      ∃ payload, Frames schema payload bs ∧ Codec.binary.decode t payload = .ok m := by
  rw [Codec.decode, mapError_eq_ok, read_eq_ok]
  simp only [unwrap_eq_ok, Codec.decode, mapError_eq_ok]

/-- The fingerprint is told apart from all that follows it. -/
theorem unwrap_eq_schema {expected found : UInt32} :
    unwrap schema bs = .error (.schema expected found) ↔
      expected = fingerprint schema ∧ found ≠ fingerprint schema ∧ 14 ≤ bs.length ∧
        ∃ rest, bs = [0xc3, 0x01] ++ Bytes.ofNatLE 4 found.toNat ++ rest := by
  constructor
  · intro refused
    have long : 14 ≤ bs.length := unwrap_long (by rw [refused]; exact nofun)
    obtain ⟨first, second, found, length, rest, rfl, enough⟩ := exists_parts long
    rw [unwrap_parts _ _ _ _ enough] at refused
    split at refused
    · cases refused
    case isFalse start =>
      split at refused
      case isTrue unknown =>
        cases refused
        obtain ⟨rfl, rfl⟩ : first = 0xc3 ∧ second = 0x01 := by simpa [magic] using start
        exact ⟨rfl, unknown, long, _, rfl⟩
      case isFalse =>
        split at refused
        · cases refused
        split at refused
        all_goals cases refused
  · rintro ⟨rfl, unknown, long, rest, rfl⟩
    simp at long
    obtain ⟨length, rest, rfl⟩ := @exists_word rest (by omega)
    have whole : [0xc3, 0x01] ++ Bytes.ofNatLE 4 found.toNat ++
        (Bytes.ofNatLE 4 length.toNat ++ rest) = parts 0xc3 0x01 found length rest := rfl
    rw [whole, unwrap_parts _ _ _ _ (by simp at long; omega), if_neg (by simp [magic]),
      if_pos unknown]

/-- As `unwrap`, with every access and every sum guarded: none is a look past the end of the bytes, or
a size that is no 64-bit word. -/
def guardedUnwrap (schema : String) (bs : Bytes) : Option (Except Fault Bytes) :=
  if bs.length < headerSize + trailerSize then some (.error (.tooShort bs.length))
  else do
    let (start, rest) ← Bytes.split? 2 bs
    if start ≠ magic then some (.error .magic)
    else do
      let (found, rest) ← Bytes.word? 4 rest
      if found.toUInt32 ≠ fingerprint schema then
        some (.error (.schema (fingerprint schema) found.toUInt32))
      else do
        let (length, rest) ← Bytes.word? 4 rest
        let size ← Bytes.sum? length trailerSize
        if rest.length ≠ size then some (.error (.length length bs.length))
        else do
          let (payload, rest) ← Bytes.split? length rest
          let (expected, _) ← Bytes.word? 4 rest
          let actual := Checksum.crc32 payload
          if expected.toUInt32 ≠ actual then some (.error (.checksum expected.toUInt32 actual))
          else some (.ok payload)

theorem guardedUnwrap_eq : guardedUnwrap schema bs = some (unwrap schema bs) := by
  rw [guardedUnwrap]
  split
  case isTrue short => rw [unwrap_short short]
  case isFalse long =>
    obtain ⟨first, second, found, length, rest, rfl, enough⟩ := exists_parts (Nat.le_of_not_lt long)
    have start : Bytes.split? 2 (parts first second found length rest) =
        some ([first, second], Bytes.ofNatLE 4 found.toNat ++
          (Bytes.ofNatLE 4 length.toNat ++ rest)) := Bytes.split?_eq (by rw [length_parts]; omega)
    have value (w : UInt32) (rest : Bytes) :
        Bytes.word? 4 (Bytes.ofNatLE 4 w.toNat ++ rest) = some (w.toNat, rest) :=
      Bytes.word?_word w.toNat_lt rest
    have size : Bytes.sum? length.toNat trailerSize = some (length.toNat + 4) :=
      Bytes.sum?_eq (by have := length.toNat_lt; rw [trailerSize]; omega)
    have back (w : UInt32) : w.toNat.toUInt32 = w := UInt32.ofNat_toNat
    simp only [start, value, size, back, bind, Option.bind_some]
    rw [unwrap_parts _ _ _ _ enough]
    by_cases fits : rest.length = length.toNat + 4
    · have body : Bytes.split? length.toNat rest =
          some (rest.take length.toNat, rest.drop length.toNat) := Bytes.split?_eq (by omega)
      have last : Bytes.word? 4 (rest.drop length.toNat) =
          some ((word (rest.drop length.toNat)).toNat, []) := by
        have four : (rest.drop length.toNat).length = 4 := by
          rw [List.length_drop]
          omega
        have last := value (word (rest.drop length.toNat)) []
        rwa [List.append_nil, ofNatLE_word four] at last
      simp only [body, last, back, Option.bind_some, apply_ite some, length_parts]
    · simp only [if_pos fits, apply_ite some, length_parts]

/-- Frames and the binary layout. What is decoded are the frames around payloads that the binary layout
decodes, and what is written is the frame around what it writes, if a frame has place for that. Of the
byte strings that begin as frames do, those with another fingerprint are told apart, whatever follows.
No access is outside of the bytes given. -/
structure AcceptsFrames (schema : String) (t : MessageType) : Prop where
  decodes : ∀ bs m, (Codec.frame schema).decode t bs = .ok m ↔
    ∃ payload, Frames schema payload bs ∧ Codec.binary.decode t payload = .ok m
  encodes : ∀ m bs, (Codec.frame schema).encode m = .ok bs ↔
    ∃ payload, Codec.binary.encode m = .ok payload ∧ Frames schema payload bs
  oversized : ∀ m payload, Codec.binary.encode m = .ok payload → 0x100000000 ≤ payload.length →
    (Codec.frame schema).encode m = .error (.oversizedPayload payload.length)
  returns : ∀ m bs, t.Admits m → (Codec.frame schema).encode m = .ok bs →
    (Codec.frame schema).decode t bs = .ok m
  mismatch : ∀ bs, (∃ fault, (Codec.frame schema).decode t bs = .error fault ∧
      (CodecError.decode (.frame schema) fault).kind = .schemaMismatch) ↔
    14 ≤ bs.length ∧ ∃ found rest, bs = [0xc3, 0x01] ++ Bytes.ofNatLE 4 found.toNat ++ rest ∧
      found ≠ Checksum.crc32 (Text.Utf8.encode schema)
  inside : ∀ bs, guardedUnwrap schema bs = some (unwrap schema bs)

theorem encode_frame :
    (Codec.frame schema).encode m = .ok bs ↔ Frames schema (Binary.write m) bs := by
  have same : wrap schema (Binary.write m) = [0xc3, 0x01] ++
      Bytes.ofNatLE 4 (Checksum.crc32 (Text.Utf8.encode schema)).toNat ++
      Bytes.ofNatLE 4 (Binary.write m).length ++ Binary.write m ++
      Bytes.ofNatLE 4 (Checksum.crc32 (Binary.write m)).toNat := rfl
  rw [Codec.encode, Frames, ← same, lengthLimit]
  split
  case isTrue fits =>
    rw [Except.ok.injEq]
    exact ⟨fun whole => ⟨fits, whole.symm⟩, fun whole => whole.2.symm⟩
  case isFalse long => exact ⟨nofun, fun whole => absurd whole.1 long⟩

/-- What fits a frame fits memory. -/
theorem fitsMemory_of_fits (fits : (Binary.write m).length < 0x100000000) : m.FitsMemory := by
  have small : 0x100000000 ≤ Binary.capacity := by decide
  cases m with
  | text s =>
    have content := Binary.length_writeBytes (Text.Utf8.encode s)
    rw [Text.Utf8.length_encode] at content
    rw [Binary.write, Binary.writeText] at fits
    exact (by omega : s.utf8ByteSize < Binary.capacity)
  | record r =>
    have key := Binary.length_writeBytes (Text.Utf8.encode r.key)
    have data := Binary.length_writeBytes r.data
    rw [Text.Utf8.length_encode] at key
    simp only [Binary.write, Binary.writeRecord, Binary.writeText, List.length_append] at fits
    exact ⟨by omega, by omega⟩

theorem read_eq_schema {expected found : UInt32} :
    read schema t bs = .error (.schema expected found) ↔
      unwrap schema bs = .error (.schema expected found) := by
  rw [read]
  cases unwrap schema bs with
  | error f =>
    constructor <;>
    · intro same
      cases same
      rfl
  | ok payload =>
    refine ⟨fun refused => ?_, nofun⟩
    simp only [bind, Except.bind] at refused
    split at refused
    · split at refused
      all_goals cases refused
    · cases refused

theorem decode_mismatch :
    (∃ fault, (Codec.frame schema).decode t bs = .error fault ∧
      (CodecError.decode (.frame schema) fault).kind = .schemaMismatch) ↔
    ∃ expected found, unwrap schema bs = .error (.schema expected found) := by
  simp only [← read_eq_schema (t := t)]
  rw [Codec.decode]
  constructor
  · rintro ⟨fault, refused, kind⟩
    cases result : read schema t bs with
    | ok m =>
      rw [result] at refused
      cases refused
    | error f =>
      rw [result] at refused
      cases refused
      cases f with
      | schema expected found => exact ⟨expected, found, rfl⟩
      | payload f => cases f <;> cases kind
      | _ => cases kind
  · rintro ⟨expected, found, result⟩
    rw [result]
    exact ⟨_, rfl, rfl⟩

theorem accepts_frames (schema : String) (t : MessageType) : AcceptsFrames schema t := by
  constructor
  case decodes => exact fun bs m => decode_frame
  case encodes =>
    intro m bs
    rw [encode_frame]
    exact ⟨fun framed => ⟨_, rfl, framed⟩, fun ⟨_, written, framed⟩ => by cases written; exact framed⟩
  case oversized =>
    intro m payload written long
    cases written
    exact if_neg (Nat.not_lt.mpr long)
  case returns =>
    intro m bs admitted written
    have framed := encode_frame.mp written
    exact decode_frame.mpr ⟨_, framed, Binary.decode_binary.mpr
      ⟨admitted, Binary.stands_write (fitsMemory_of_fits framed.1)⟩⟩
  case mismatch =>
    intro bs
    rw [decode_mismatch]
    simp only [unwrap_eq_schema]
    constructor
    · rintro ⟨_, found, rfl, unknown, long, rest, whole⟩
      exact ⟨long, found, rest, whole, unknown⟩
    · rintro ⟨long, found, rest, whole, unknown⟩
      exact ⟨_, found, rfl, unknown, long, rest, whole⟩
  case inside => exact fun bs => guardedUnwrap_eq

end Logbook.Codec.Frame
