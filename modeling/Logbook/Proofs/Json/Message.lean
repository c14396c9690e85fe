import Logbook.Proofs.Json.Number
import Logbook.Proofs.Json.Text
import Logbook.Proofs.Lookup

/-! Messages as JSON: what is written in either layout is read back. -/
namespace Logbook.Json

def Blank (bs : Bytes) : Prop := ∀ b ∈ bs, isBlank b = true

variable {α : Type} {gap rest after : Bytes} {b : UInt8} {n : Nat} {l : Layout} {depth : Nat}

theorem blank_line (l : Layout) (depth : Nat) : Blank (l.line depth) := by
  cases l with
  | compact => exact nofun
  | pretty =>
    intro b here
    rcases List.mem_cons.mp here with rfl | here
    · rfl
    · rw [List.eq_of_mem_replicate here]
      rfl

def SkipsBlanks (read : Bytes → Reading α) : Prop :=
  ∀ gap bs, Blank gap → read (gap ++ bs) = read bs

theorem skipBlanks_append (blank : Blank gap) : skipBlanks (gap ++ rest) = skipBlanks rest :=
  List.dropWhile_append_of_pos blank

theorem skipBlanks_cons (solid : isBlank b = false) : skipBlanks (b :: rest) = b :: rest := by
  simp [skipBlanks, solid]

theorem readStart_cons {read : UInt8 → Bytes → Reading α} (solid : isBlank b = false) :
    readStart read (b :: rest) = read b rest := by
  rw [readStart, skipBlanks_cons solid]

theorem skipsBlanks_readStart (read : UInt8 → Bytes → Reading α) : SkipsBlanks (readStart read) := by
  intro gap bs blank
  rw [readStart, readStart, skipBlanks_append blank]

/-! ### Values -/

theorem readString_writeText (s : String) (rest : Bytes) :
    readString (writeText s ++ rest) = .ok (s, rest) := by
  have whole : writeText s ++ rest = 0x22 :: (s.toList.flatMap escapeChar ++ 0x22 :: rest) := by
    simp [writeText]
  rw [whole, readString, readStart_cons rfl, if_pos rfl, readText_escaped]

/-- A digit is no blank, no sign and no bracket. -/
theorem solid_digitByte {d : Nat} (small : d < 10) : isBlank (Text.digitByte d) = false ∧
    Text.digitByte d ≠ 0x2d ∧ Text.digitByte d ≠ 0x5d := by
  have each : ∀ d, d < 10 → isBlank (Text.digitByte d) = false ∧
      Text.digitByte d ≠ 0x2d ∧ Text.digitByte d ≠ 0x5d := by decide
  exact each d small

theorem readInteger_writeNat {expected : String} {max : Nat} (small : max ≤ maxSignificand)
    (fits : n ≤ max) (ends : EndsNumber rest) :
    readInteger expected max (writeNat n ++ rest) = .ok (n, rest) := by
  obtain ⟨d, tail, digit, -, first⟩ := writeNat_first n
  obtain ⟨solid, sign, -⟩ := solid_digitByte digit
  have number := readUnsigned_writeNat (Nat.le_trans fits small) ends
  rw [first, List.cons_append] at number ⊢
  rw [readInteger, readStart_cons solid, if_neg sign, if_pos (isDigit_digitByte digit).1, number]
  exact if_pos fits

theorem readByte_writeNat (b : UInt8) (ends : EndsNumber rest) :
    readByte (writeNat b.toNat ++ rest) = .ok (b, rest) := by
  have := b.toNat_lt
  have back : b.toNat.toUInt8 = b := UInt8.ofNat_toNat
  rw [readByte, readInteger_writeNat (by decide) (by omega) ends]
  simp [Except.map, back]

theorem readWatermark_writeNat (w : UInt64) (ends : EndsNumber rest) :
    readWatermark (writeNat w.toNat ++ rest) = .ok (w, rest) := by
  have := w.toNat_lt
  have back : w.toNat.toUInt64 = w := UInt64.ofNat_toNat
  rw [readWatermark, readInteger_writeNat (by decide) (by omega) ends]
  simp [Except.map, back]

theorem readFlags_writeNat (flags : Flags) (ends : EndsNumber rest) :
    readFlags (writeNat flags.bits.toNat ++ rest) = .ok (flags, rest) := by
  rw [readFlags, readByte_writeNat _ ends]
  have known : Flags.ofBits flags.bits = .ok flags := dif_pos flags.known
  simp only [bind, Except.bind, known]
  rfl

/-! ### Items -/

/-- What stands in front of an item: a comma, unless it is the first one, and a new line. -/
def lead (first : Bool) (l : Layout) (depth : Nat) : Bytes :=
  (if first then [] else [0x2c]) ++ l.line depth

theorem skipBlanks_line (solid : isBlank b = false) :
    skipBlanks (l.line depth ++ b :: rest) = b :: rest := by
  rw [skipBlanks_append (blank_line l depth), skipBlanks_cons solid]

theorem skipBlanks_comma (bs : Bytes) :
    skipBlanks (lead false l depth ++ bs) = 0x2c :: (l.line depth ++ bs) := skipBlanks_cons rfl

theorem nextElement_lead (first : Bool) (solid : isBlank b = false) (opens : b ≠ 0x5d) :
    nextElement first (lead first l depth ++ b :: rest) = .ok (true, b :: rest) := by
  cases first with
  | true =>
    rw [lead, nextElement, if_pos rfl, List.nil_append, skipBlanks_line solid]
    simp [opens]
  | false =>
    rw [nextElement, skipBlanks_comma]
    simp [skipBlanks_line solid, opens]

theorem nextKey_lead (first : Bool) :
    nextKey first (lead first l depth ++ 0x22 :: rest) = .ok (true, rest) := by
  have quote : isBlank 0x22 = false := rfl
  cases first with
  | true =>
    rw [lead, nextKey, if_pos rfl, List.nil_append, skipBlanks_line quote]
    simp
  | false =>
    rw [nextKey, skipBlanks_comma]
    simp [skipBlanks_line quote]

theorem nextElement_close (first : Bool) :
    nextElement first (l.line depth ++ 0x5d :: rest) = .ok (false, 0x5d :: rest) := by
  rw [nextElement, skipBlanks_line rfl]
  simp

theorem nextKey_close (first : Bool) :
    nextKey first (l.line depth ++ 0x7d :: rest) = .ok (false, rest) := by
  rw [nextKey, skipBlanks_line rfl]
  simp

/-- Items, one by one. -/
theorem writeItems_cons (item : Bytes) (items : List Bytes) :
    writeItems l depth (item :: items) = lead true l (depth + 1) ++ item ++
      items.flatMap (lead false l (depth + 1) ++ ·) ++ l.line depth := by
  simp [writeItems, intercalate_cons, lead]

theorem endsNumber_cons (stop : b ∈ [0x0a, 0x2c, 0x5d, 0x7d]) : EndsNumber (b :: rest) := by
  rintro _ _ ⟨⟩
  simp only [List.mem_cons, List.not_mem_nil, or_false] at stop
  rcases stop with rfl | rfl | rfl | rfl <;> decide

theorem endsNumber_lead : EndsNumber (lead false l depth ++ rest) := endsNumber_cons (by decide)

theorem endsNumber_close (stop : b = 0x5d ∨ b = 0x7d) :
    EndsNumber (l.line depth ++ b :: rest) := by
  cases l with
  | compact =>
    apply endsNumber_cons
    rcases stop with rfl | rfl <;> decide
  | pretty => exact endsNumber_cons (by decide)

/-! ### Data -/

theorem readElements_lead {fuel : Nat} {first : Bool} {data : Bytes} (ends : EndsNumber rest)
    (ok : readElements fuel false rest = .ok (data, after)) :
    readElements (fuel + 1) first (lead first l depth ++ (writeNat b.toNat ++ rest)) =
      .ok (b :: data, after) := by
  obtain ⟨d, tail, small, -, digits⟩ := writeNat_first b.toNat
  obtain ⟨solid, -, bracket⟩ := solid_digitByte small
  have number := readByte_writeNat b ends
  rw [digits, List.cons_append] at number ⊢
  rw [readElements, nextElement_lead first solid bracket]
  simp only [bind, Except.bind, if_true, number, ok, pure, Except.pure]

theorem readElements_close (fuel : Nat) (first : Bool) :
    readElements (fuel + 1) first (l.line depth ++ 0x5d :: rest) = .ok ([], 0x5d :: rest) := by
  rw [readElements, nextElement_close]
  rfl

theorem writeNat_length_pos (n : Nat) : 0 < (writeNat n).length := by
  obtain ⟨d, tail, -, -, first⟩ := writeNat_first n
  rw [first]
  exact Nat.succ_pos _

def elements (l : Layout) (depth : Nat) (data rest : Bytes) : Bytes :=
  data.flatMap (fun b => lead false l (depth + 1) ++ writeNat b.toNat) ++
    (l.line depth ++ 0x5d :: rest)

theorem elements_cons (data : Bytes) : elements l depth (b :: data) rest =
    lead false l (depth + 1) ++ (writeNat b.toNat ++ elements l depth data rest) := by
  simp [elements]

theorem endsNumber_elements (data : Bytes) : EndsNumber (elements l depth data rest) := by
  cases data with
  | nil => exact endsNumber_close (.inl rfl)
  | cons b data =>
    rw [elements_cons]
    exact endsNumber_lead

theorem readElements_elements (data : Bytes) (fuel : Nat)
    (enough : (elements l depth data rest).length ≤ fuel) :
    readElements fuel false (elements l depth data rest) = .ok (data, 0x5d :: rest) := by
  -- every element takes a byte, so the fuel outlasts them
  induction data generalizing fuel with
  | nil =>
    cases fuel with
    | zero => simp [elements] at enough
    | succ fuel => exact readElements_close fuel false
  | cons b data ih =>
    have number := writeNat_length_pos b.toNat
    rw [elements_cons] at enough ⊢
    rw [List.length_append, List.length_append] at enough
    cases fuel with
    | zero => omega
    | succ fuel => exact readElements_lead (endsNumber_elements data) (ih fuel (by omega))

theorem readData_writeData (data rest : Bytes) :
    readData (writeData l depth data ++ rest) = .ok (data, rest) := by
  have close : endList (0x5d :: rest) = .ok rest := rfl
  cases data with
  | nil => rfl
  | cons b data =>
    have whole : writeData l depth (b :: data) ++ rest =
        0x5b :: (lead true l (depth + 1) ++ (writeNat b.toNat ++ elements l depth data rest)) := by
      simp [writeData, writeItems_cons, elements, List.flatMap_map]
    rw [whole, readData, readStart_cons rfl, if_neg (by decide), if_pos rfl,
      readElements_lead (endsNumber_elements data) (readElements_elements data _ (by simp; omega))]
    simp only [Except.bind, close, Except.map]

/-! ### Records -/

theorem skipsBlanks_string : SkipsBlanks readString := skipsBlanks_readStart _

theorem skipsBlanks_data : SkipsBlanks readData := skipsBlanks_readStart _

theorem skipsBlanks_integer (expected : String) (max : Nat) :
    SkipsBlanks (readInteger expected max) := skipsBlanks_readStart _

theorem skipsBlanks_watermark : SkipsBlanks readWatermark := by
  intro gap bs blank
  rw [readWatermark, readWatermark, skipsBlanks_integer _ _ gap bs blank]

theorem skipsBlanks_flags : SkipsBlanks readFlags := by
  intro gap bs blank
  rw [readFlags, readFlags, readByte, readByte, skipsBlanks_integer _ _ gap bs blank]

/-- The value of a field that was not there before. -/
theorem readField_colon {name : String} {present : Option α} {read : Bytes → Reading α}
    (absent : present = none) (skips : SkipsBlanks read) (bs : Bytes) :
    readField name present read (l.colon ++ bs) = read bs := by
  subst absent
  cases l with
  | compact => rfl
  | pretty =>
    have blank : Blank [0x20] := by simp [Blank, isBlank]
    exact skips [0x20] bs blank

def field (first : Bool) (l : Layout) (name : String) (value rest : Bytes) : Bytes :=
  lead first l 1 ++ (writeText name ++ l.colon ++ value ++ rest)

theorem readFields_field {fuel : Nat} {first : Bool} {name : String} {value : Bytes} {fs : Fields} :
    readFields (fuel + 1) first fs (field first l name value rest) =
      (fs.readNamed name (l.colon ++ (value ++ rest))).bind fun x => readFields fuel false x.1 x.2 := by
  have whole : writeText name ++ l.colon ++ value ++ rest = 0x22 ::
      (name.toList.flatMap escapeChar ++ 0x22 :: (l.colon ++ (value ++ rest))) := by simp [writeText]
  rw [field, whole, readFields, nextKey_lead]
  simp only [bind, Except.bind, if_true, readText_escaped]

def leading (l : Layout) (r : Record) (rest : Bytes) : Bytes :=
  field true l "key" (writeText r.key) <| field false l "data" (writeData l 1 r.data) <|
    field false l "watermark" (writeNat r.watermark.toNat) rest

def Fields.leading (r : Record) : Fields :=
  { key := some r.key, data := some r.data, watermark := some r.watermark }

theorem readFields_leading (fuel : Nat) (r : Record) (ends : EndsNumber rest) :
    readFields (fuel + 3) true {} (leading l r rest) = readFields fuel false (.leading r) rest := by
  have key (rest : Bytes) : Fields.readNamed {} "key" (l.colon ++ (writeText r.key ++ rest)) =
      .ok ({ key := some r.key }, rest) := by
    rw [Fields.readNamed, if_pos rfl, readField_colon rfl skipsBlanks_string, readString_writeText]
    rfl
  have data (rest : Bytes) : Fields.readNamed { key := some r.key } "data"
      (l.colon ++ (writeData l 1 r.data ++ rest)) =
      .ok ({ key := some r.key, data := some r.data }, rest) := by
    rw [Fields.readNamed, if_neg (by decide), if_pos rfl, readField_colon rfl skipsBlanks_data,
      readData_writeData]
    rfl
  have watermark : Fields.readNamed { key := some r.key, data := some r.data } "watermark"
      (l.colon ++ (writeNat r.watermark.toNat ++ rest)) = .ok (.leading r, rest) := by
    rw [Fields.readNamed, if_neg (by decide), if_neg (by decide), if_pos rfl,
      readField_colon rfl skipsBlanks_watermark, readWatermark_writeNat _ ends]
    rfl
  rw [leading, readFields_field, key, Except.bind, readFields_field, data, Except.bind,
    readFields_field, watermark]
  rfl

/-- The flags are the last field. -/
theorem readFields_flags (fuel : Nat) (r : Record) (value rest : Bytes) :
    readFields (fuel + 4) true {} (leading l r (field false l "flags" value rest)) =
      (readFlags (value ++ rest)).bind fun x =>
        readFields fuel false { Fields.leading r with flags := some x.1 } x.2 := by
  have ends : EndsNumber (field false l "flags" value rest) := endsNumber_lead
  have colon : readField "flags" (Fields.leading r).flags readFlags (l.colon ++ (value ++ rest)) =
      readFlags (value ++ rest) := readField_colon rfl skipsBlanks_flags _
  rw [readFields_leading (fuel + 1) r ends, readFields_field, Fields.readNamed, if_neg (by decide),
    if_neg (by decide), if_neg (by decide), if_pos rfl, colon]
  cases readFlags (value ++ rest) <;> rfl

def fields (l : Layout) (r : Record) (rest : Bytes) : Bytes :=
  field true l "key" (writeText r.key) <| field false l "data" (writeData l 1 r.data) <|
    field false l "watermark" (writeNat r.watermark.toNat) <|
      field false l "flags" (writeNat r.flags.bits.toNat) (l.line 0 ++ 0x7d :: rest)

theorem writeRecord_fields (r : Record) (rest : Bytes) :
    writeRecord l r ++ rest = 0x7b :: fields l r rest := by
  simp [writeRecord, writeItems_cons, fields, field]

theorem readFields_close {fs : Fields} (fuel : Nat) (first : Bool) :
    readFields (fuel + 1) first fs (l.line depth ++ 0x7d :: rest) = .ok (fs, rest) := by
  rw [readFields, nextKey_close]
  rfl

theorem readFields_fields (fuel : Nat) (r : Record) (rest : Bytes) :
    readFields (fuel + 5) true {} (fields l r rest) =
      .ok (⟨some r.key, some r.data, some r.watermark, some r.flags⟩, rest) := by
  have parts : fields l r rest = leading l r
      (field false l "flags" (writeNat r.flags.bits.toNat) (l.line 0 ++ 0x7d :: rest)) := rfl
  rw [parts, readFields_flags (fuel + 1), readFlags_writeNat _ (endsNumber_close (.inr rfl))]
  exact readFields_close fuel false

theorem readRecord_writeRecord (r : Record) (rest : Bytes) :
    readRecord (writeRecord l r ++ rest) = .ok (r, rest) := by
  -- four fields and the brace are five steps, each of at least one byte
  have long : 4 ≤ (fields l r rest).length := by
    simp [fields, field, writeText]
    omega
  obtain ⟨fuel, size⟩ : ∃ fuel, (fields l r rest).length + 1 = fuel + 5 :=
    ⟨(fields l r rest).length - 4, by omega⟩
  rw [writeRecord_fields, readRecord, readStart_cons rfl, if_neg (by decide), if_pos rfl, size,
    readFields_fields]
  rfl

theorem readMessage_write {t : MessageType} {m : Message} (admitted : t.Admits m) :
    readMessage t (write l m ++ rest) = .ok (m, rest) := by
  cases m with
  | record r =>
    cases t with
    | record =>
      rw [readMessage, write, readRecord_writeRecord]
      rfl
    | string => cases admitted
    | named path => cases admitted
  | text s =>
    cases t with
    | record => cases admitted
    | string | named path =>
      rw [readMessage, write, readString_writeText]
      · rfl
      · exact nofun

theorem read_write {t : MessageType} {m : Message} (admitted : t.Admits m) :
    read t (write l m) = .ok m := by
  have front : readMessage t (write l m ++ []) = .ok (m, []) := readMessage_write admitted
  rw [List.append_nil] at front
  rw [read, front]
  rfl

end Logbook.Json
