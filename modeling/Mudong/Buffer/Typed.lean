import Mathlib.Algebra.Ring.Int.Defs
import Mudong.Buffer.Spec
import Mudong.Lib.Endian

namespace mudong.ev

/-- `htobe16` and its siblings: the integer whose memory image on this machine is the big-endian one of `x`. -/
def htobe (host : Endian.Order) (n x : Nat) : Nat := host.value (Endian.bigEndian n x)

/-- `be16toh` and its siblings: the integer of which the memory image of `x` is the big-endian one. -/
def betoh (host : Endian.Order) (n x : Nat) : Nat := Endian.bigValue (host.bytes n x)

theorem bytes_htobe (host : Endian.Order) (n x : Nat) : host.bytes n (htobe host n x) = Endian.bigEndian n x := by
  have hbytes := host.bytes_value (Endian.bigEndian n x)
  rw [Endian.length_bigEndian] at hbytes
  exact hbytes

theorem betoh_value (host : Endian.Order) (bytes : List UInt8) :
    betoh host bytes.length (host.value bytes) = Endian.bigValue bytes := by
  rw [betoh, host.bytes_value]

namespace Buffer

/-- The shape of `appendInt16`, `appendInt32` and `appendInt64`, on the bits of the argument. -/
def appendInt (b : Buffer) (host : Endian.Order) (n x : Nat) : Option Buffer :=
  b.appendVoid (host.bytes n (htobe host n x))

def appendInt64 (b : Buffer) (host : Endian.Order) (x : Int64) : Option Buffer := b.appendInt host 8 x.toUInt64.toNat
def appendInt32 (b : Buffer) (host : Endian.Order) (x : Int32) : Option Buffer := b.appendInt host 4 x.toUInt32.toNat
def appendInt16 (b : Buffer) (host : Endian.Order) (x : Int16) : Option Buffer := b.appendInt host 2 x.toUInt16.toNat
def appendInt8 (b : Buffer) (x : Int8) : Option Buffer := b.appendVoid [x.toUInt8]

/-- The shape of `peekInt16`, `peekInt32` and `peekInt64`, with the bits of the result. -/
def peekInt (b : Buffer) (host : Endian.Order) (n : Nat) : Option Nat := do
  guard (n ≤ b.readableBytes)
  return betoh host n (host.value (Slice.window b.buffer_ b.peek (b.peek + n)))

def peekInt64 (b : Buffer) (host : Endian.Order) : Option Int64 :=
  (b.peekInt host 8).map fun x => (UInt64.ofNat x).toInt64

def peekInt32 (b : Buffer) (host : Endian.Order) : Option Int32 :=
  (b.peekInt host 4).map fun x => (UInt32.ofNat x).toInt32

def peekInt16 (b : Buffer) (host : Endian.Order) : Option Int16 :=
  (b.peekInt host 2).map fun x => (UInt16.ofNat x).toInt16

def peekInt8 (b : Buffer) : Option Int8 := do
  guard (1 ≤ b.readableBytes)
  let x ← b.buffer_[b.peek]?
  return x.toInt8

def readInt64 (b : Buffer) (host : Endian.Order) : Option (Int64 × Buffer) := do
  let result ← b.peekInt64 host
  return (result, ← b.retrieveInt64)

def readInt32 (b : Buffer) (host : Endian.Order) : Option (Int32 × Buffer) := do
  let result ← b.peekInt32 host
  return (result, ← b.retrieveInt32)

def readInt16 (b : Buffer) (host : Endian.Order) : Option (Int16 × Buffer) := do
  let result ← b.peekInt16 host
  return (result, ← b.retrieveInt16)

def readInt8 (b : Buffer) : Option (Int8 × Buffer) := do
  let result ← b.peekInt8
  return (result, ← b.retrieveInt8)

/-- The shape of `prependInt16`, `prependInt32` and `prependInt64`, on the bits of the argument. -/
def prependInt (b : Buffer) (host : Endian.Order) (n x : Nat) : Option Buffer :=
  b.prepend (host.bytes n (htobe host n x))

def prependInt64 (b : Buffer) (host : Endian.Order) (x : Int64) : Option Buffer := b.prependInt host 8 x.toUInt64.toNat
def prependInt32 (b : Buffer) (host : Endian.Order) (x : Int32) : Option Buffer := b.prependInt host 4 x.toUInt32.toNat
def prependInt16 (b : Buffer) (host : Endian.Order) (x : Int16) : Option Buffer := b.prependInt host 2 x.toUInt16.toNat
def prependInt8 (b : Buffer) (x : Int8) : Option Buffer := b.prepend [x.toUInt8]

inductive IntType where
  | int8
  | int16
  | int32
  | int64
  deriving DecidableEq, Repr

def IntType.size : IntType → Nat
  | .int8 => 1
  | .int16 => 2
  | .int32 => 4
  | .int64 => 8

/-- A value of one of the four integer types. -/
inductive Value where
  | int8 (x : Int8)
  | int16 (x : Int16)
  | int32 (x : Int32)
  | int64 (x : Int64)
  deriving DecidableEq

namespace Value

def type : Value → IntType
  | .int8 _ => .int8
  | .int16 _ => .int16
  | .int32 _ => .int32
  | .int64 _ => .int64

def toInt : Value → Int
  | .int8 x => x.toInt
  | .int16 x => x.toInt
  | .int32 x => x.toInt
  | .int64 x => x.toInt

/-- The big-endian two's-complement encoding. -/
def encoding (v : Value) : List UInt8 :=
  Endian.bigEndian v.type.size (v.toInt % 256 ^ v.type.size).toNat

/-- The `appendIntN` of the value's type. -/
def append (host : Endian.Order) (b : Buffer) : Value → Option Buffer
  | .int8 x => b.appendInt8 x
  | .int16 x => b.appendInt16 host x
  | .int32 x => b.appendInt32 host x
  | .int64 x => b.appendInt64 host x

/-- The `prependIntN` of the value's type. -/
def prepend (host : Endian.Order) (b : Buffer) : Value → Option Buffer
  | .int8 x => b.prependInt8 x
  | .int16 x => b.prependInt16 host x
  | .int32 x => b.prependInt32 host x
  | .int64 x => b.prependInt64 host x

end Value

/-- The `readIntN` of the type. -/
def IntType.read (host : Endian.Order) (b : Buffer) : IntType → Option (Value × Buffer)
  | .int8 => b.readInt8.map fun (x, rest) => (.int8 x, rest)
  | .int16 => (b.readInt16 host).map fun (x, rest) => (.int16 x, rest)
  | .int32 => (b.readInt32 host).map fun (x, rest) => (.int32 x, rest)
  | .int64 => (b.readInt64 host).map fun (x, rest) => (.int64 x, rest)

def appendAll (host : Endian.Order) : Buffer → List Value → Option Buffer
  | b, [] => some b
  | b, v :: vs => do appendAll host (← v.append host b) vs

def prependAll (host : Endian.Order) : Buffer → List Value → Option Buffer
  | b, [] => some b
  | b, v :: vs => do prependAll host (← v.prepend host b) vs

/-- The values read, in order, and the buffer left behind. -/
def readAll (host : Endian.Order) : Buffer → List IntType → Option (List Value × Buffer)
  | b, [] => some ([], b)
  | b, t :: ts => do
    let (v, rest) ← t.read host b
    let (vs, last) ← readAll host rest ts
    return (v :: vs, last)

/-- The bits of a machine integer are its two's complement. -/
theorem toNat_eq_twosComplement {w : Nat} (bits : BitVec w) : bits.toNat = (bits.toInt % (2 ^ w : Nat)).toNat := by
  rw [← BitVec.toNat_ofInt, BitVec.ofInt_toInt]

namespace Value

variable (host : Endian.Order) (v : Value)

/-- The value converted to the unsigned type of its width. -/
def bits : Value → Nat
  | .int8 x => x.toUInt8.toNat
  | .int16 x => x.toUInt16.toNat
  | .int32 x => x.toUInt32.toNat
  | .int64 x => x.toUInt64.toNat

theorem length_encoding : v.encoding.length = v.type.size := Endian.length_bigEndian _ _

theorem encoding_eq : v.encoding = Endian.bigEndian v.type.size v.bits := by
  have hbits : v.bits = (v.toInt % 256 ^ v.type.size).toNat := by
    cases v with
    | int8 x => exact toNat_eq_twosComplement x.toBitVec
    | int16 x => exact toNat_eq_twosComplement x.toBitVec
    | int32 x => exact toNat_eq_twosComplement x.toBitVec
    | int64 x => exact toNat_eq_twosComplement x.toBitVec
  rw [encoding, hbits]

/-- The bits fit the width, so the encoding determines them. -/
theorem bigValue_encoding : Endian.bigValue v.encoding = v.bits := by
  have hlt : v.bits < 256 ^ v.type.size := by
    cases v with
    | int8 x => exact x.toUInt8.toNat_lt
    | int16 x => exact x.toUInt16.toNat_lt
    | int32 x => exact x.toUInt32.toNat_lt
    | int64 x => exact x.toUInt64.toNat_lt
  rw [encoding_eq, Endian.bigValue_bigEndian, Nat.mod_eq_of_lt hlt]

/-- A single byte needs no conversion. -/
theorem encoding_int8 (x : Int8) : (int8 x).encoding = [x.toUInt8] := by
  rw [encoding_eq]
  simp [type, IntType.size, bits, Endian.bigEndian]

theorem append_eq (b : Buffer) : v.append host b = b.append v.encoding := by
  cases v with
  | int8 x => rw [encoding_int8, append, appendInt8, appendVoid]
  | int16 x => rw [encoding_eq, append, appendInt16, appendInt, appendVoid, bytes_htobe, type, IntType.size, bits]
  | int32 x => rw [encoding_eq, append, appendInt32, appendInt, appendVoid, bytes_htobe, type, IntType.size, bits]
  | int64 x => rw [encoding_eq, append, appendInt64, appendInt, appendVoid, bytes_htobe, type, IntType.size, bits]

theorem prepend_eq (b : Buffer) : v.prepend host b = b.prepend v.encoding := by
  cases v with
  | int8 x => rw [encoding_int8, prepend, prependInt8]
  | int16 x => rw [encoding_eq, prepend, prependInt16, prependInt, bytes_htobe, type, IntType.size, bits]
  | int32 x => rw [encoding_eq, prepend, prependInt32, prependInt, bytes_htobe, type, IntType.size, bits]
  | int64 x => rw [encoding_eq, prepend, prependInt64, prependInt, bytes_htobe, type, IntType.size, bits]

end Value

theorem le_readableBytes_of_readable {b : Buffer} (hvalid : b.Valid) {bytes rest : List UInt8}
    (hreadable : b.readable = bytes ++ rest) : bytes.length ≤ b.readableBytes := by
  rw [← hvalid.length_readable, hreadable, List.length_append]
  omega

theorem peekInt_of_prefix {b : Buffer} (hvalid : b.Valid) (host : Endian.Order) {bytes rest : List UInt8}
    (hreadable : b.readable = bytes ++ rest) : b.peekInt host bytes.length = some (Endian.bigValue bytes) := by
  have hlen := le_readableBytes_of_readable hvalid hreadable
  have hwindow : Slice.window b.buffer_ b.peek (b.peek + bytes.length) = bytes := by
    rw [window_peek hlen, hreadable, List.take_left]
  simp [peekInt, hlen, hwindow, betoh_value]

theorem peekInt8_of_prefix {b : Buffer} (hvalid : b.Valid) {byte : UInt8} {rest : List UInt8}
    (hreadable : b.readable = byte :: rest) : b.peekInt8 = some byte.toInt8 := by
  have hlen : [byte].length ≤ b.readableBytes := le_readableBytes_of_readable hvalid hreadable
  have hbyte : b.buffer_[b.peek]? = some byte := by
    have hget : b.readable[0]? = some byte := by simp [hreadable]
    have hpeek : b.readerIndex_ + 0 < b.writerIndex_ := by
      unfold readableBytes at hlen
      simp only [List.length_singleton] at hlen
      omega
    rw [readable, Slice.window, List.getElem?_drop, List.getElem?_take_of_lt hpeek] at hget
    exact hget
  simp only [List.length_singleton] at hlen
  simp [peekInt8, hlen, hbyte]

/-- A read of the value's type takes its encoding off the front and returns the value. -/
theorem read_encoding {b : Buffer} (hvalid : b.Valid) (host : Endian.Order) {v : Value} {rest : List UInt8}
    (hreadable : b.readable = v.encoding ++ rest) :
    ∃ next, v.type.read host b = some (v, next) ∧ next.Valid ∧ next.readable = rest := by
  obtain ⟨next, hretrieve, hnext, hdrop⟩ := retrieve_spec hvalid (le_readableBytes_of_readable hvalid hreadable)
  rw [hreadable, List.drop_left] at hdrop
  rw [v.length_encoding] at hretrieve
  have hpeek := peekInt_of_prefix hvalid host hreadable
  rw [v.length_encoding, v.bigValue_encoding] at hpeek
  refine ⟨next, ?_, hnext, hdrop⟩
  cases v with
  | int8 x =>
    rw [Value.encoding_int8] at hreadable
    have hretrieve : b.retrieveInt8 = some next := hretrieve
    simp [Value.type, IntType.read, readInt8, peekInt8_of_prefix hvalid hreadable, hretrieve]
  | int16 x =>
    have hretrieve : b.retrieveInt16 = some next := hretrieve
    have hpeek : b.peekInt host 2 = some x.toUInt16.toNat := hpeek
    have hresult : b.peekInt16 host = some x := by
      rw [peekInt16, hpeek, Option.map_some, UInt16.ofNat_toNat, Int16.toInt16_toUInt16]
    simp [Value.type, IntType.read, readInt16, hresult, hretrieve]
  | int32 x =>
    have hretrieve : b.retrieveInt32 = some next := hretrieve
    have hpeek : b.peekInt host 4 = some x.toUInt32.toNat := hpeek
    have hresult : b.peekInt32 host = some x := by
      rw [peekInt32, hpeek, Option.map_some, UInt32.ofNat_toNat, Int32.toInt32_toUInt32]
    simp [Value.type, IntType.read, readInt32, hresult, hretrieve]
  | int64 x =>
    have hretrieve : b.retrieveInt64 = some next := hretrieve
    have hpeek : b.peekInt host 8 = some x.toUInt64.toNat := hpeek
    have hresult : b.peekInt64 host = some x := by
      rw [peekInt64, hpeek, Option.map_some, UInt64.ofNat_toNat, Int64.toInt64_toUInt64]
    simp [Value.type, IntType.read, readInt64, hresult, hretrieve]

theorem readAll_encodings {b : Buffer} (hvalid : b.Valid) (host : Endian.Order) {values : List Value}
    {rest : List UInt8} (hreadable : b.readable = values.flatMap Value.encoding ++ rest) :
    ∃ last, readAll host b (values.map Value.type) = some (values, last) ∧ last.Valid ∧ last.readable = rest := by
  induction values generalizing b with
  | nil => exact ⟨b, rfl, hvalid, hreadable⟩
  | cons v values ih =>
    rw [List.flatMap_cons, List.append_assoc] at hreadable
    obtain ⟨next, hread, hnext, hleft⟩ := read_encoding hvalid host hreadable
    obtain ⟨last, hlast, hvalidLast, hrest⟩ := ih hnext hleft
    refine ⟨last, ?_, hvalidLast, hrest⟩
    simp [readAll, hread, hlast]

theorem appendAll_encodings {b : Buffer} (hvalid : b.Valid) (host : Endian.Order) (values : List Value) :
    ∃ full, appendAll host b values = some full ∧ full.Valid ∧
      full.readable = b.readable ++ values.flatMap Value.encoding := by
  induction values generalizing b with
  | nil => exact ⟨b, rfl, hvalid, by simp⟩
  | cons v values ih =>
    obtain ⟨next, happend, hnext, hcontents⟩ := append_spec hvalid v.encoding
    obtain ⟨full, hfull, hvalidFull, hall⟩ := ih hnext
    refine ⟨full, ?_, hvalidFull, ?_⟩
    · simp [appendAll, v.append_eq, happend, hfull]
    · rw [hall, hcontents, List.flatMap_cons, List.append_assoc]

/-- What was prepended last stands first. -/
theorem prependAll_encodings {b : Buffer} (hvalid : b.Valid) (host : Endian.Order) (values : List Value)
    (hroom : (values.map fun v => v.type.size).sum ≤ b.prependableBytes) :
    ∃ full, prependAll host b values = some full ∧ full.Valid ∧
      full.readable = values.reverse.flatMap Value.encoding ++ b.readable := by
  induction values generalizing b with
  | nil => exact ⟨b, rfl, hvalid, by simp⟩
  | cons v values ih =>
    rw [List.map_cons, List.sum_cons, ← v.length_encoding] at hroom
    have hfits : v.encoding.length ≤ b.prependableBytes := by omega
    obtain ⟨next, hprepend, hnext, hcontents⟩ := prepend_spec hvalid hfits
    have hleft : next.prependableBytes = b.prependableBytes - v.encoding.length := by
      simp only [Buffer.prepend, hfits] at hprepend
      cases hprepend
      rfl
    obtain ⟨full, hfull, hvalidFull, hall⟩ := ih hnext (by omega)
    refine ⟨full, ?_, hvalidFull, ?_⟩
    · simp [prependAll, v.prepend_eq, hprepend, hfull]
    · rw [hall, hcontents, List.reverse_cons, List.flatMap_append, List.append_assoc]
      simp

/-- Typed values round-trip. Appended values put their encodings behind what was readable, and once that is
retrieved reads of their types return them in order and empty the buffer; values prepended within the prependable
room are returned by reads of their types in reverse order, which restore what was readable. -/
theorem typed_values_round_trip {b : Buffer} (hvalid : b.Valid) (host : Endian.Order) (values : List Value) :
    (∃ full rest last, appendAll host b values = some full ∧
      full.readable = b.readable ++ values.flatMap Value.encoding ∧
      full.retrieve b.readableBytes = some rest ∧
      readAll host rest (values.map Value.type) = some (values, last) ∧ last.readableBytes = 0) ∧
    ((values.map fun v => v.type.size).sum ≤ b.prependableBytes →
      ∃ full last, prependAll host b values = some full ∧
        readAll host full (values.map Value.type).reverse = some (values.reverse, last) ∧
        last.readable = b.readable) := by
  constructor
  · obtain ⟨full, hfull, hvalidFull, hall⟩ := appendAll_encodings hvalid host values
    have hlen : b.readable.length ≤ full.readableBytes := le_readableBytes_of_readable hvalidFull hall
    rw [hvalid.length_readable] at hlen
    obtain ⟨rest, hretrieve, hvalidRest, hdrop⟩ := retrieve_spec hvalidFull hlen
    have hencodings : rest.readable = values.flatMap Value.encoding ++ [] := by
      rw [hdrop, hall, ← hvalid.length_readable, List.drop_left, List.append_nil]
    obtain ⟨last, hread, hvalidLast, hempty⟩ := readAll_encodings hvalidRest host hencodings
    refine ⟨full, rest, last, hfull, hall, hretrieve, hread, ?_⟩
    rw [← hvalidLast.length_readable, hempty, List.length_nil]
  · intro hroom
    obtain ⟨full, hfull, hvalidFull, hall⟩ := prependAll_encodings hvalid host values hroom
    obtain ⟨last, hread, _, hrest⟩ := readAll_encodings hvalidFull host hall
    rw [List.map_reverse] at hread
    exact ⟨full, last, hfull, hread, hrest⟩

/-- Values of all widths, some of them negative, appended across a growth of the storage and prepended into the
reserved zone. -/
theorem typed_values_round_trip_mixed :
    (∃ full rest last, appendAll .little (init 4) [.int16 (-2), .int64 1, .int8 (-1)] = some full ∧
      full.readable = [255, 254, 0, 0, 0, 0, 0, 0, 0, 1, 255] ∧
      full.retrieve 0 = some rest ∧
      readAll .little rest [.int16, .int64, .int8] = some ([.int16 (-2), .int64 1, .int8 (-1)], last) ∧
      last.readableBytes = 0) ∧
    ∃ full last, prependAll .big (init 4) [.int16 (-2), .int32 7] = some full ∧
      readAll .big full [.int32, .int16] = some ([.int32 7, .int16 (-2)], last) ∧ last.readable = [] := by
  obtain ⟨full, rest, last, hfull, hall, hrest⟩ :=
    (typed_values_round_trip (init_valid 4) .little [.int16 (-2), .int64 1, .int8 (-1)]).1
  obtain ⟨ahead, left, hprepend, hread, hleft⟩ :=
    (typed_values_round_trip (init_valid 4) .big [.int16 (-2), .int32 7]).2 (by decide)
  exact ⟨⟨full, rest, last, hfull, hall.trans (by decide), hrest⟩, ahead, left, hprepend, hread,
    hleft.trans (readable_init 4)⟩

end Buffer

end mudong.ev
