import Logbook.Proofs.Codec.Frame
import Logbook.Proofs.Codec.Fixed

/-! Where messages end: of the bytes that the binary layout, frames and the fixed layout decode, none
begin with others that they decode, and bytes that are cut off or go on are told to be malformed. -/
namespace Logbook.Codec

namespace Binary

/-- Reading that looks at the bytes it takes and at no others: of their front alone it reads the same,
unless the front is too short. -/
def Frugal {α : Type} (read : Bytes → Except Fault (α × Bytes)) : Prop :=
  ∀ front more a rest, read (front ++ more) = .ok (a, rest) →
    (∃ left, read front = .ok (a, left) ∧ rest = left ++ more) ∨
      ∃ count, read front = .error (.read (.missing count))

variable {α β : Type} {bs more : Bytes} {t : MessageType} {m : Message}

theorem Frugal.bind {read : Bytes → Except Fault (α × Bytes)}
    {next : α → Bytes → Except Fault (β × Bytes)} (first : Frugal read)
    (second : ∀ a, Frugal (next a)) : Frugal fun bs => read bs >>= fun x => next x.1 x.2 := by
  intro front more b rest ok
  obtain ⟨⟨a, after⟩, taken, ok⟩ := bind_eq_ok.mp ok
  rcases first front more a after taken with ⟨left, again, rfl⟩ | ⟨count, short⟩
  · have follows : (read front >>= fun x => next x.1 x.2) = next a left := by
      rw [again]
      rfl
    simp only [follows]
    exact second a left more b rest ok
  · right
    refine ⟨count, ?_⟩
    simp only [short]
    rfl

theorem frugal_ok (a : α) : Frugal fun bs => .ok (a, bs) := by
  intro front more b rest ok
  cases ok
  exact .inl ⟨front, rfl, rfl⟩

theorem frugal_error (fault : Fault) : Frugal fun _ => (.error fault : Except Fault (α × Bytes)) :=
  nofun

theorem frugal_take (n : Nat) : Frugal fun bs => lift (take n bs) := by
  intro front more content rest ok
  obtain ⟨size, whole⟩ := take_eq_ok.mp (mapError_eq_ok.mp ok)
  rcases List.append_eq_append_iff.mp whole with ⟨tail, rfl, rfl⟩ | ⟨left, rfl, rfl⟩
  case inl =>
    by_cases short : front.length < n
    · right
      refine ⟨n - front.length, ?_⟩
      simp only [lift, take, if_pos short]
      rfl
    · -- the front is the content and ends with it
      obtain rfl : tail = [] := by
        apply List.eq_nil_of_length_eq_zero
        rw [List.length_append] at size
        omega
      rw [List.append_nil] at size ⊢
      exact .inl ⟨[], mapError_eq_ok.mpr (take_eq_ok.mpr ⟨size, (List.append_nil _).symm⟩), rfl⟩
  case inr => exact .inl ⟨left, mapError_eq_ok.mpr (take_eq_ok.mpr ⟨size, rfl⟩), rfl⟩

theorem frugal_readWord (width : Nat) : Frugal fun bs => lift (Varint.readWord width bs) := by
  have same : (fun bs => lift (Varint.readWord width bs)) =
      fun bs => lift (take width bs) >>= fun x => .ok (x.1.toNatLE, x.2) := by
    funext bs
    rw [Varint.readWord]
    cases take width bs with
    | ok parts => rfl
    | error fault => rfl
  rw [same]
  exact (frugal_take width).bind fun _ => frugal_ok _

theorem frugal_number : Frugal fun bs => lift (Varint.read bs) := by
  intro front more n rest ok
  obtain ⟨form, is, whole⟩ := Varint.read_eq_ok.mp (mapError_eq_ok.mp ok)
  rcases front with _ | ⟨b, front⟩
  · exact .inr ⟨1, rfl⟩
  cases is with
  | byte small =>
    obtain ⟨rfl, rfl⟩ := List.cons_eq_cons.mp whole
    exact .inl ⟨front, mapError_eq_ok.mpr (Varint.read_eq_ok.mpr ⟨_, .byte small, rfl⟩), rfl⟩
  | word marker width known fits =>
    obtain ⟨rfl, word⟩ := List.cons_eq_cons.mp whole
    have after : lift (Varint.read (b :: front)) = lift (Varint.readWord width front) := by
      rw [Varint.read_marked known]
    simp only [after]
    exact frugal_readWord width front more n rest
      (mapError_eq_ok.mpr (Varint.readWord_eq_ok.mpr ⟨fits, word⟩))

theorem frugal_readBytes : Frugal readBytes := by
  have content (n : Nat) : Frugal fun rest =>
      if capacity ≤ n then .error .capacity else lift (take n rest) := by
    split
    · exact frugal_error _
    · exact frugal_take n
  exact frugal_number.bind content

theorem frugal_decoded (content : Bytes) : Frugal fun rest =>
    match Text.Utf8.decode content with
    | .ok s => .ok (s, rest)
    | .error f => .error (.notUtf8 f) := by
  split
  · exact frugal_ok _
  · exact frugal_error _

theorem frugal_readText : Frugal readText := frugal_readBytes.bind frugal_decoded

theorem frugal_readFlags : Frugal readFlags := by
  intro front more flags rest ok
  have whole := readFlags_eq_ok.mp ok
  cases front with
  | nil => exact .inr ⟨1, rfl⟩
  | cons b front =>
    obtain ⟨rfl, rfl⟩ := List.cons_eq_cons.mp whole
    exact .inl ⟨front, readFlags_eq_ok.mpr rfl, rfl⟩

theorem frugal_readRecord : Frugal readRecord := by
  have last (key : String) (data : Bytes) (n : Nat) :=
    frugal_readFlags.bind fun flags => frugal_ok (Record.mk key data n.toUInt64 flags)
  exact frugal_readText.bind fun key => frugal_readBytes.bind fun data =>
    frugal_number.bind fun n => last key data n

theorem frugal_read : Frugal (read t) := by
  cases t with
  | record => exact frugal_readRecord.bind fun _ => frugal_ok _
  | string => exact frugal_readText.bind fun _ => frugal_ok _
  | named path => exact frugal_readText.bind fun _ => frugal_ok _

/-- What is cut off misses bytes. -/
theorem readAll_truncated (ok : readAll t (bs ++ more) = .ok m) (cut : more ≠ []) :
    ∃ count, readAll t bs = .error (.read (.missing count)) := by
  obtain ⟨admitted, stands⟩ := readAll_eq_ok.mp ok
  have whole : read t (bs ++ more) = .ok (m, []) :=
    read_eq_ok.mpr ⟨admitted, _, stands, (List.append_nil _).symm⟩
  rcases frugal_read bs more m [] whole with ⟨left, -, empty⟩ | ⟨count, short⟩
  · exact absurd (List.append_eq_nil_iff.mp empty.symm).2 cut
  · refine ⟨count, ?_⟩
    rw [readAll, short]
    rfl

/-- What goes on is told by how much. -/
theorem readAll_extended (ok : readAll t bs = .ok m) (longer : more ≠ []) :
    readAll t (bs ++ more) = .error (.trailing more.length) := by
  obtain ⟨admitted, stands⟩ := readAll_eq_ok.mp ok
  have front : read t (bs ++ more) = .ok (m, more) := read_eq_ok.mpr ⟨admitted, bs, stands, rfl⟩
  rw [readAll, front]
  cases more with
  | nil => exact absurd rfl longer
  | cons b rest => rfl

end Binary

namespace Frame

variable {schema : String} {bs cs payload rest rest' : Bytes} {first second first' second' : UInt8}
  {found length found' length' : UInt32} {t : MessageType} {m : Message}

theorem parts_append (more : Bytes) :
    parts first second found length rest ++ more = parts first second found length (rest ++ more) := by
  simp only [parts, List.cons_append, List.append_assoc]

theorem parts_inj
    (same : parts first second found length rest = parts first' second' found' length' rest') :
    first = first' ∧ second = second' ∧ found = found' ∧ length = length' ∧ rest = rest' := by
  obtain ⟨firsts, same⟩ := List.cons_eq_cons.mp same
  obtain ⟨seconds, words⟩ := List.cons_eq_cons.mp same
  obtain ⟨founds, words⟩ := Bytes.word_append_inj found.toNat_lt found'.toNat_lt words
  obtain ⟨lengths, rests⟩ := Bytes.word_append_inj length.toNat_lt length'.toNat_lt words
  exact ⟨firsts, seconds, UInt32.toNat_inj.mp founds, UInt32.toNat_inj.mp lengths, rests⟩

/-- What begins a frame and has bytes enough has the header of the frame, as has what goes on after it. -/
theorem related_parts (ok : unwrap schema bs = .ok payload) (related : cs <+: bs ∨ bs <+: cs)
    (long : 14 ≤ cs.length) : ∃ rest, 4 ≤ rest.length ∧
      cs = parts 0xc3 0x01 (fingerprint schema) payload.length.toUInt32 rest := by
  obtain ⟨-, whole⟩ := frames_iff_parts.mp (unwrap_eq_ok.mp ok)
  rcases related with ⟨more, rfl⟩ | ⟨more, rfl⟩
  · obtain ⟨first, second, found, length, rest, rfl, enough⟩ := exists_parts long
    rw [parts_append] at whole
    obtain ⟨rfl, rfl, rfl, rfl, -⟩ := parts_inj whole
    exact ⟨rest, enough, rfl⟩
  · rw [whole, parts_append]
    refine ⟨_, ?_, rfl⟩
    simp only [List.length_append, Bytes.length_ofNatLE]
    omega

/-- A front of a frame, and what goes on after a frame, is refused for its length. -/
theorem unwrap_related (ok : unwrap schema bs = .ok payload) (related : cs <+: bs ∨ bs <+: cs)
    (other : cs.length ≠ bs.length) :
    unwrap schema cs = .error (.tooShort cs.length) ∨
      unwrap schema cs = .error (.length payload.length cs.length) := by
  by_cases short : cs.length < 14
  · exact .inl (unwrap_short short)
  right
  obtain ⟨rest, enough, rfl⟩ := related_parts ok related (Nat.le_of_not_lt short)
  obtain ⟨fits, rfl⟩ := frames_iff_parts.mp (unwrap_eq_ok.mp ok)
  have value : payload.length.toUInt32.toNat = payload.length := Nat.mod_eq_of_lt fits
  have size : rest.length ≠ payload.length + 4 := by
    rw [length_parts, length_parts, List.length_append, Bytes.length_ofNatLE] at other
    omega
  rw [unwrap_parts _ _ _ _ enough, if_neg (by simp [magic]), if_neg (by simp), value, if_pos size,
    length_parts]

end Frame

namespace Fixed

variable {bs cs more : Bytes} {r r' : Record}

/-- A record's bytes go on in no other record's bytes. -/
theorem write_append (fits : Fits r) (fits' : Fits r') (same : write r ++ more = write r') :
    more = [] := by
  simp only [write, List.cons_append, List.append_assoc] at same
  obtain ⟨-, words⟩ := List.cons_eq_cons.mp same
  obtain ⟨-, words⟩ := Bytes.word_append_inj r.watermark.toNat_lt r'.watermark.toNat_lt words
  rw [Fits, ← Text.Utf8.length_encode] at fits fits'
  obtain ⟨size, texts⟩ := Bytes.word_append_inj fits.1 fits'.1 words
  obtain ⟨-, words⟩ := List.append_inj texts size
  obtain ⟨size, contents⟩ := Bytes.word_append_inj fits.2 fits'.2 words
  apply List.eq_nil_of_length_eq_zero
  have sizes := congrArg List.length contents
  rw [List.length_append] at sizes
  omega

/-- Of two byte strings that are read neither begins with the other. -/
theorem read_related (ok : read bs = .ok r) (also : read cs = .ok r')
    (related : cs <+: bs ∨ bs <+: cs) : cs = bs := by
  obtain ⟨fits, rfl⟩ := read_eq_ok.mp ok
  obtain ⟨fits', rfl⟩ := read_eq_ok.mp also
  rcases related with ⟨more, whole⟩ | ⟨more, whole⟩
  · rwa [write_append fits' fits whole, List.append_nil] at whole
  · rw [write_append fits fits' whole, List.append_nil] at whole
    exact whole.symm

theorem decode_refused {t : MessageType} {fault : DecodeFault}
    (refused : Codec.fixed.decode t bs = .error fault) :
    (CodecError.decode .fixed fault).kind = .decode := by
  rw [Codec.decode] at refused
  split at refused
  · cases result : read bs with
    | ok r =>
      rw [result] at refused
      cases refused
    | error f =>
      rw [result] at refused
      cases refused
      rfl
  · cases refused
    rfl

theorem decode_eq_ok {t : MessageType} {m : Message} (ok : Codec.fixed.decode t bs = .ok m) :
    ∃ r, read bs = .ok r := by
  rw [Codec.decode] at ok
  split at ok
  · obtain ⟨r, result, -⟩ := map_eq_ok.mp ok
    exact ⟨r, mapError_eq_ok.mp result⟩
  · cases ok

end Fixed

/-- A codec that finds the end of a message by what it reads. No bytes that it decodes begin with others
that it decodes; cut off or going on, they are refused as malformed. -/
structure SelfDelimiting (c : Codec) (t : MessageType) : Prop where
  apart : ∀ bs cs m n, c.decode t bs = .ok m → c.decode t cs = .ok n → bs <+: cs → bs = cs
  truncated : ∀ bs more m, c.decode t (bs ++ more) = .ok m → more ≠ [] → ∃ fault,
    c.decode t bs = .error fault ∧ (CodecError.decode c fault).kind = .decode
  extended : ∀ bs more m, c.decode t bs = .ok m → more ≠ [] → ∃ fault,
    c.decode t (bs ++ more) = .error fault ∧ (CodecError.decode c fault).kind = .decode

variable {c : Codec} {t : MessageType}

def RefusesRelated (c : Codec) (t : MessageType) : Prop :=
  ∀ bs cs m, c.decode t bs = .ok m → cs <+: bs ∨ bs <+: cs → cs.length ≠ bs.length → ∃ fault,
    c.decode t cs = .error fault ∧ (CodecError.decode c fault).kind = .decode

theorem RefusesRelated.selfDelimiting (refuses : RefusesRelated c t) : SelfDelimiting c t := by
  constructor
  case apart =>
    intro bs cs m n ok also related
    apply related.eq_of_length
    apply Classical.byContradiction
    intro other
    obtain ⟨fault, refused, -⟩ := refuses cs bs n also (.inl related) other
    cases refused.symm.trans ok
  case truncated =>
    intro bs more m ok cut
    exact refuses _ bs m ok (.inl (List.prefix_append bs more)) (by simpa using cut)
  case extended =>
    intro bs more m ok longer
    exact refuses bs _ m ok (.inr (List.prefix_append bs more)) (by simpa using longer)

theorem refusesRelated_binary : RefusesRelated .binary t := by
  intro bs cs m ok related other
  have whole := mapError_eq_ok.mp ok
  rcases related with ⟨more, rfl⟩ | ⟨more, rfl⟩
  · have cut : more ≠ [] := by simpa using other
    obtain ⟨count, short⟩ := Binary.readAll_truncated whole cut
    exact ⟨.binary (.read (.missing count)), by rw [decode, short]; rfl, rfl⟩
  · have longer : more ≠ [] := by simpa using other
    have rest := Binary.readAll_extended whole longer
    exact ⟨.binary (.trailing more.length), by rw [decode, rest]; rfl, rfl⟩

theorem refusesRelated_frame {schema : String} : RefusesRelated (.frame schema) t := by
  intro bs cs m ok related other
  obtain ⟨payload, opened, -⟩ := Frame.read_eq_ok.mp (mapError_eq_ok.mp ok)
  rcases Frame.unwrap_related opened related other with refused | refused
  · exact ⟨.frame (.tooShort cs.length), by rw [decode, Frame.read, refused]; rfl, rfl⟩
  · exact ⟨.frame (.length payload.length cs.length), by rw [decode, Frame.read, refused]; rfl, rfl⟩

theorem refusesRelated_fixed : RefusesRelated .fixed t := by
  intro bs cs m ok related other
  obtain ⟨r, given⟩ := Fixed.decode_eq_ok ok
  cases result : Codec.fixed.decode t cs with
  | error fault => exact ⟨fault, rfl, Fixed.decode_refused result⟩
  | ok n =>
    obtain ⟨r', also⟩ := Fixed.decode_eq_ok result
    exact absurd (congrArg List.length (Fixed.read_related given also related)) other

theorem self_delimiting (schema : String) (t : MessageType) :
    SelfDelimiting .binary t ∧ SelfDelimiting (.frame schema) t ∧ SelfDelimiting .fixed t :=
  ⟨refusesRelated_binary.selfDelimiting, refusesRelated_frame.selfDelimiting,
    refusesRelated_fixed.selfDelimiting⟩

end Logbook.Codec
