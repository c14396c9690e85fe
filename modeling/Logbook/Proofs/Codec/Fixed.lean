import Logbook.Proofs.Codec.Binary

/-! The fixed record layout: reading accepts exactly what writing produces, so each record has one byte
string, and every access stays inside the bytes given. -/
namespace Logbook.Codec.Fixed

def Fits (r : Record) : Prop := r.key.utf8ByteSize < 0x100000000 ∧ r.data.length < 0x100000000

/-- A byte, two words and what follows them: what any byte string of thirteen bytes or more begins
with. -/
def parts (first : UInt8) (watermark : UInt64) (length : UInt32) (rest : Bytes) : Bytes :=
  first :: (Bytes.ofNatLE 8 watermark.toNat ++ (Bytes.ofNatLE 4 length.toNat ++ rest))

variable {bs rest : Bytes} {r : Record} {m : Message}

theorem exists_parts (long : 17 ≤ bs.length) : ∃ first watermark length rest,
    bs = parts first watermark length rest ∧ 4 ≤ rest.length := by
  rcases bs with _ | ⟨first, bs⟩
  · simp at long
  rw [List.length_cons] at long
  obtain ⟨watermark, bs, fits, rfl⟩ := @Bytes.exists_word 8 bs (by omega)
  rw [List.length_append, Bytes.length_ofNatLE] at long
  obtain ⟨length, rest, small, rfl⟩ := @Bytes.exists_word 4 bs (by omega)
  rw [List.length_append, Bytes.length_ofNatLE] at long
  refine ⟨first, watermark.toUInt64, length.toUInt32, rest, ?_, by omega⟩
  have value : watermark.toUInt64.toNat = watermark := Nat.mod_eq_of_lt fits
  have short : length.toUInt32.toNat = length := Nat.mod_eq_of_lt small
  rw [parts, value, short]

theorem read_short (short : bs.length < 17) : read bs = .error .tooShort := by
  cases bs with
  | nil => rfl
  | cons b rest => exact if_pos short

section

variable (first : UInt8) (watermark : UInt64) (length : UInt32)

theorem length_parts : (parts first watermark length rest).length = 13 + rest.length := by
  simp [parts]
  omega

def checks (rest : Bytes) : Except Fault Record :=
  match Flags.ofBits first with
  | .error e => .error (.flags e)
  | .ok flags =>
    if rest.length < length.toNat + 4 then .error .truncatedKey
    else match Text.Utf8.decode (rest.take length.toNat) with
      | .error f => .error (.keyNotUtf8 f)
      | .ok key =>
        let size := Bytes.toNatLE ((rest.drop length.toNat).take 4)
        let data := (rest.drop length.toNat).drop 4
        if data.length ≠ size then .error (.dataLength size data.length)
        else .ok { key, data, watermark, flags }

theorem read_parts (enough : 4 ≤ rest.length) :
    read (parts first watermark length rest) = checks first watermark length rest := by
  have long : ¬(parts first watermark length rest).length < fixedSize := by
    rw [length_parts, fixedSize]
    omega
  have body : (Bytes.ofNatLE 8 watermark.toNat ++ (Bytes.ofNatLE 4 length.toNat ++ rest)).drop 12 =
      rest := (Bytes.drop_word 8 _ 4 _).trans (Bytes.drop_word 4 _ 0 rest)
  have lengthAt : (Bytes.ofNatLE 8 watermark.toNat ++ (Bytes.ofNatLE 4 length.toNat ++ rest)).drop 8 =
      Bytes.ofNatLE 4 length.toNat ++ rest := Bytes.drop_word 8 _ 0 _
  have value : Bytes.toNatLE (Bytes.ofNatLE 8 watermark.toNat) = watermark.toNat :=
    Bytes.toNatLE_word watermark.toNat_lt
  have short : Bytes.toNatLE (Bytes.ofNatLE 4 length.toNat) = length.toNat :=
    Bytes.toNatLE_word length.toNat_lt
  have back : watermark.toNat.toUInt64 = watermark := UInt64.ofNat_toNat
  rw [parts] at long ⊢
  simp only [read, if_neg long, body, lengthAt, Bytes.take_word, value, short, back]
  rfl

end

theorem write_eq_parts (fits : Fits r) :
    write r = parts r.flags.bits r.watermark r.key.utf8ByteSize.toUInt32
      (Text.Utf8.encode r.key ++ (Bytes.ofNatLE 4 r.data.length ++ r.data)) := by
  have key : r.key.utf8ByteSize.toUInt32.toNat = r.key.utf8ByteSize := Nat.mod_eq_of_lt fits.1
  simp only [write, parts, key, Text.Utf8.length_encode, List.append_assoc, List.cons_append]

/-- What is accepted is what is written. -/
theorem read_eq_ok : read bs = .ok r ↔ Fits r ∧ bs = write r := by
  constructor
  · intro ok
    have long : 17 ≤ bs.length := by
      apply Nat.le_of_not_lt
      intro short
      cases (read_short short).symm.trans ok
    obtain ⟨first, watermark, length, rest, rfl, enough⟩ := exists_parts long
    rw [read_parts _ _ _ enough, checks] at ok
    split at ok
    · cases ok
    case _ flags known =>
      obtain rfl := Flags.ofBits_eq_ok.mp known
      obtain ⟨room, ok⟩ := check_eq_ok.mp ok
      split at ok
      · cases ok
      case _ key text =>
        obtain ⟨size, ok⟩ := check_eq_ok.mp ok
        cases ok
        -- key and data are cut out of `rest`, and put together again they are all of it
        have keyBytes := Text.Utf8.decode_eq_ok.mp text
        have keySize : key.utf8ByteSize = length.toNat := by
          rw [← Text.Utf8.length_encode, ← keyBytes]
          exact List.length_take_of_le (by omega)
        have tailSize : (rest.drop length.toNat).length = rest.length - length.toNat :=
          List.length_drop
        obtain ⟨n, data, small, tail⟩ := @Bytes.exists_word 4 (rest.drop length.toNat) (by omega)
        have dataAt : (rest.drop length.toNat).drop 4 = data := by
          rw [tail]
          exact Bytes.drop_word 4 n 0 data
        rw [dataAt, tail, Bytes.take_word, Bytes.toNatLE_word small, Decidable.not_not] at size
        have fits : Fits ⟨key, data, watermark, flags⟩ :=
          ⟨by rw [keySize]; exact length.toNat_lt, by rw [size]; exact small⟩
        rw [dataAt]
        refine ⟨fits, ?_⟩
        rw [write_eq_parts fits, keySize, size, ← tail, ← keyBytes, List.take_append_drop,
          Nat.toUInt32, UInt32.ofNat_toNat]
  · rintro ⟨fits, rfl⟩
    have key : r.key.utf8ByteSize.toUInt32.toNat = (Text.Utf8.encode r.key).length := by
      rw [Text.Utf8.length_encode]
      exact Nat.mod_eq_of_lt fits.1
    have known : Flags.ofBits r.flags.bits = .ok r.flags := Flags.ofBits_eq_ok.mpr rfl
    have data : Bytes.toNatLE (Bytes.ofNatLE 4 r.data.length) = r.data.length :=
      Bytes.toNatLE_word fits.2
    have body : (Bytes.ofNatLE 4 r.data.length ++ r.data).drop 4 = r.data :=
      Bytes.drop_word 4 _ 0 _
    rw [write_eq_parts fits, read_parts _ _ _ (by simp; omega), checks, known, key, List.take_left,
      List.drop_left]
    simp only [Text.Utf8.decode_encode, body, Bytes.take_word, data]
    rw [if_neg (by simp), if_neg (by simp)]

/-- As `read`, with every access and every sum guarded: none is a look past the end of the bytes, or a
size that is no 64-bit word. -/
def guardedRead (bs : Bytes) : Option (Except Fault Record) :=
  if bs.length < fixedSize then some (.error .tooShort)
  else do
    let (first, rest) ← Bytes.word? 1 bs
    match Flags.ofBits first.toUInt8 with
    | .error e => some (.error (.flags e))
    | .ok flags =>
      let (watermark, rest) ← Bytes.word? 8 rest
      let (keyLength, rest) ← Bytes.word? 4 rest
      let room ← Bytes.sum? keyLength 4
      if rest.length < room then some (.error .truncatedKey)
      else do
        let (keyBytes, rest) ← Bytes.split? keyLength rest
        match Text.Utf8.decode keyBytes with
        | .error f => some (.error (.keyNotUtf8 f))
        | .ok key =>
          let (dataLength, data) ← Bytes.word? 4 rest
          if data.length ≠ dataLength then some (.error (.dataLength dataLength data.length))
          else some (.ok { key, data, watermark := watermark.toUInt64, flags })

theorem guardedRead_eq : guardedRead bs = some (read bs) := by
  rw [guardedRead]
  split
  case isTrue short => rw [read_short short]
  case isFalse long =>
    obtain ⟨first, watermark, length, rest, rfl, enough⟩ := exists_parts (Nat.le_of_not_lt long)
    have start : Bytes.word? 1 (parts first watermark length rest) =
        some (first.toNat, Bytes.ofNatLE 8 watermark.toNat ++
          (Bytes.ofNatLE 4 length.toNat ++ rest)) := by
      rw [Bytes.word?_eq (by rw [length_parts]; omega)]
      rfl
    have second : Bytes.word? 8 (Bytes.ofNatLE 8 watermark.toNat ++
          (Bytes.ofNatLE 4 length.toNat ++ rest)) =
        some (watermark.toNat, Bytes.ofNatLE 4 length.toNat ++ rest) :=
      Bytes.word?_word watermark.toNat_lt _
    have third : Bytes.word? 4 (Bytes.ofNatLE 4 length.toNat ++ rest) =
        some (length.toNat, rest) := Bytes.word?_word length.toNat_lt rest
    have room : Bytes.sum? length.toNat 4 = some (length.toNat + 4) :=
      Bytes.sum?_eq (by have := length.toNat_lt; omega)
    have firstBack : first.toNat.toUInt8 = first := UInt8.ofNat_toNat
    have watermarkBack : watermark.toNat.toUInt64 = watermark := UInt64.ofNat_toNat
    rw [read_parts _ _ _ enough, checks]
    simp only [start, bind, Option.bind_some, firstBack]
    cases Flags.ofBits first with
    | error e => rfl
    | ok flags =>
      simp only [second, third, room, Option.bind_some, watermarkBack]
      by_cases short : rest.length < length.toNat + 4
      · rw [if_pos short, if_pos short]
      · have key : Bytes.split? length.toNat rest =
            some (rest.take length.toNat, rest.drop length.toNat) := Bytes.split?_eq (by omega)
        have data : Bytes.word? 4 (rest.drop length.toNat) =
            some (Bytes.toNatLE ((rest.drop length.toNat).take 4),
              (rest.drop length.toNat).drop 4) :=
          Bytes.word?_eq (by rw [List.length_drop]; omega)
        rw [if_neg short, if_neg short]
        simp only [key, Option.bind_some]
        cases Text.Utf8.decode (rest.take length.toNat) with
        | error f => rfl
        | ok text => simp only [data, Option.bind_some, apply_ite some]

theorem decode_eq : Codec.fixed.decode .record bs = ((read bs).mapError .fixed).map .record := rfl

theorem decode_fixed : Codec.fixed.decode .record bs = .ok m ↔ Codec.fixed.encode m = .ok bs := by
  rw [decode_eq, map_eq_ok]
  simp only [mapError_eq_ok, read_eq_ok]
  cases m with
  | text s => exact ⟨nofun, nofun⟩
  | record r =>
    rw [Codec.encode]
    constructor
    · rintro ⟨_, ⟨fits, rfl⟩, same⟩
      cases same
      exact if_pos fits
    · intro written
      split at written
      case isTrue fits =>
        cases written
        exact ⟨r, ⟨fits, rfl⟩, rfl⟩
      case isFalse => cases written

/-- The fixed layout gives a record of 32-bit lengths one byte string, of the record's size. What it
decodes are these byte strings; all others it refuses, and none is looked past its end. -/
structure OneForm : Prop where
  returns : ∀ r : Record, r.key.utf8ByteSize < 0x100000000 → r.data.length < 0x100000000 →
    ∃ bs, Codec.fixed.encode (.record r) = .ok bs ∧ bs.length = r.size ∧
      Codec.fixed.decode .record bs = .ok (.record r)
  accepts : ∀ bs m, Codec.fixed.decode .record bs = .ok m ↔ Codec.fixed.encode m = .ok bs
  refuses : ∀ bs, (∀ m, Codec.fixed.encode m ≠ .ok bs) → ∃ fault,
    Codec.fixed.decode .record bs = .error fault ∧
      (CodecError.decode .fixed fault).kind = .decode
  inside : ∀ bs, guardedRead bs = some (read bs)

theorem one_form : OneForm := by
  constructor
  case returns =>
    intro r keyFits dataFits
    have written : Codec.fixed.encode (.record r) = .ok (write r) := if_pos ⟨keyFits, dataFits⟩
    refine ⟨write r, written, ?_, decode_fixed.mpr written⟩
    simp [write, Record.size]
    omega
  case accepts => exact fun bs m => decode_fixed
  case refuses =>
    intro bs foreign
    cases result : Codec.fixed.decode .record bs with
    | ok m => exact absurd (decode_fixed.mp result) (foreign m)
    | error fault =>
      refine ⟨fault, rfl, ?_⟩
      rw [decode_eq] at result
      cases given : read bs with
      | ok r =>
        rw [given] at result
        cases result
      | error f =>
        rw [given] at result
        cases result
        rfl
  case inside => exact fun bs => guardedRead_eq

end Logbook.Codec.Fixed
