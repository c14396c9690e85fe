import Logbook.Message
import Logbook.Text.Utf8

/-!
The fixed record layout: flags, watermark, length and bytes of the key, length and bytes of the
data. Every word has its full width, so each record has one encoding.
-/
namespace Logbook.Codec.Fixed

/-- Flags, watermark and the two lengths. -/
def fixedSize : Nat := 17

inductive Fault where
  | tooShort
  | flags (e : ArgumentError)
  | truncatedKey
  | keyNotUtf8 (f : Text.Utf8.Fault)
  | dataLength (expected found : Nat)
deriving DecidableEq, Repr

def Fault.message : Fault → String
  | tooShort => "buffer shorter than fixed header"
  | flags e => e.message
  | truncatedKey => "truncated key"
  | keyNotUtf8 f => "key is not UTF-8: " ++ f.message
  | dataLength expected found => s!"expected {expected} data bytes, found {found}"

def write (r : Record) : Bytes :=
  let key := Text.Utf8.encode r.key
  r.flags.bits :: Bytes.ofNatLE 8 r.watermark.toNat ++ Bytes.ofNatLE 4 key.length ++ key ++
    Bytes.ofNatLE 4 r.data.length ++ r.data

def read (bs : Bytes) : Except Fault Record :=
  match bs with
  | [] => .error .tooShort
  | b :: rest =>
    if bs.length < fixedSize then .error .tooShort
    else match Flags.ofBits b with
      | .error e => .error (.flags e)
      | .ok flags =>
        let watermark := Bytes.toNatLE (rest.take 8)
        let keyLength := Bytes.toNatLE ((rest.drop 8).take 4)
        let afterLength := rest.drop 12
        if afterLength.length < keyLength + 4 then .error .truncatedKey
        else match Text.Utf8.decode (afterLength.take keyLength) with
          | .error f => .error (.keyNotUtf8 f)
          | .ok key =>
            let afterKey := afterLength.drop keyLength
            let dataLength := Bytes.toNatLE (afterKey.take 4)
            let data := afterKey.drop 4
            if data.length ≠ dataLength then .error (.dataLength dataLength data.length)
            else .ok { key, data, watermark := watermark.toUInt64, flags }

end Logbook.Codec.Fixed
