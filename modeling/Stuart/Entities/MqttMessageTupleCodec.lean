/-
The codec that takes a message from one node of the cluster to another.

A frame is the number of bytes of the JSON text, and the text.  The number comes from
`String.getBytes`, which uses the default charset of the platform, while the buffer writes the text
in UTF-8.  So the frame is right only where both give as many bytes; on ASCII text most charsets do.
-/
import Stuart.Lib.Bytes
import Stuart.Caches.RouterCache
import Mathlib.Tactic.DeriveEncodable
import Mathlib.Logic.Equiv.List

namespace Stuart

open List Lib

namespace MqttMessageTupleCodec

/-! ### Data -/

instance encodableChar : Encodable Char :=
  Encodable.ofLeftInverse Char.toNat Char.ofNat Char.ofNat_toNat

instance encodableUInt8 : Encodable UInt8 :=
  Encodable.ofLeftInverse UInt8.toNat UInt8.ofNat (fun _ => UInt8.ofNat_toNat)

deriving instance Encodable for MqttRoute

/-- The fields of an `MqttMessage`, without the ghost number of the sessions' model. -/
structure Message where
  clientId : Str
  messageId : ℤ
  topic : Str
  payload : List UInt8
  qos : ℤ
  dup : Bool
  retain : Bool
  status : ℤ
  retry : ℤ
deriving DecidableEq, Encodable

structure MqttMessageTuple where
  route : Option MqttRoute
  message : Option Message
deriving DecidableEq, Encodable

/-- What differs from one machine to another. -/
structure Platform where
  /-- `String.getBytes`, in the default charset -/
  getBytes : Str → List UInt8
  /-- how many bytes more, when a malformed part of a text is replaced -/
  malformed : List UInt8 → ℕ

/-- `mapFrom` followed by `encode`, and back. -/
structure JsonObject where
  encode : MqttMessageTuple → Str
  mapTo : Str → Option MqttMessageTuple
  mapTo_encode : ∀ tuple, mapTo (encode tuple) = some tuple

/-! ### Buffers -/

abbrev Buffer := List UInt8

def Buffer.appendInt (buffer : Buffer) (i : ℤ) : Buffer := buffer ++ int32Bytes i

def Buffer.appendString (buffer : Buffer) (str : Str) : Buffer := buffer ++ utf8 str

/-- `none` is an exception, here and below. -/
def Buffer.getInt (buffer : Buffer) (pos : ℕ) : Option ℤ := (readAt pos 4 buffer).map int32Of

def Buffer.getString (platform : Platform) (buffer : Buffer) (start finish : ℤ) : Option Str :=
  if 0 ≤ start ∧ start ≤ finish then
    (readAt start.toNat (finish - start).toNat buffer).map (utf8Decode platform.malformed)
  else none

/-! ### The codec -/

section
variable (platform : Platform) (json : JsonObject)

def encodeToWire (buffer : Buffer) (tuple : MqttMessageTuple) : Buffer :=
  let jsonToStr := json.encode tuple
  let length := (platform.getBytes jsonToStr).length
  (buffer.appendInt length).appendString jsonToStr

def decodeFromWire (pos : ℕ) (buffer : Buffer) : Option MqttMessageTuple := do
  let length ← buffer.getInt pos
  let jsonStr ← buffer.getString platform (pos + 4) (pos + 4 + length)
  json.mapTo jsonStr

/-- Any node gets the tuple back from the place where it was written, and the frame takes as many
bytes as its length says, whatever is in front of it and behind it. -/
def RoundTrips (tuple : MqttMessageTuple) : Prop :=
  ∀ (receiver : Platform) (buffer suffix : Buffer),
    decodeFromWire receiver json buffer.length
        (encodeToWire platform json buffer tuple ++ suffix) = some tuple ∧
      ∃ length : ℤ,
        (encodeToWire platform json buffer tuple ++ suffix).getInt buffer.length = some length ∧
          ((encodeToWire platform json buffer tuple).length : ℤ) = buffer.length + (4 + length)

end

/-! ### Frames -/

variable {platform receiver : Platform} {json : JsonObject} {tuple : MqttMessageTuple}
variable {buffer suffix : Buffer}

lemma encodeToWire_append :
    encodeToWire platform json buffer tuple ++ suffix =
      buffer ++ (int32Bytes (platform.getBytes (json.encode tuple)).length ++
        (utf8 (json.encode tuple) ++ suffix)) := by
  simp only [encodeToWire, Buffer.appendInt, Buffer.appendString, append_assoc]

lemma length_encodeToWire :
    (encodeToWire platform json buffer tuple).length =
      buffer.length + (4 + (utf8 (json.encode tuple)).length) := by
  simp only [encodeToWire, Buffer.appendInt, Buffer.appendString, length_append,
    length_int32Bytes, add_assoc]

/-- The first four bytes are the length in the charset of the platform. -/
lemma getInt_encodeToWire (hsize : (platform.getBytes (json.encode tuple)).length < 2 ^ 31) :
    (encodeToWire platform json buffer tuple ++ suffix).getInt buffer.length =
      some ((platform.getBytes (json.encode tuple)).length : ℤ) := by
  set length := (platform.getBytes (json.encode tuple)).length with hlength
  have hread := readAt_append_left buffer (int32Bytes length) (utf8 (json.encode tuple) ++ suffix)
  rw [length_int32Bytes] at hread
  have hvalue := int32Of_int32Bytes (n := length) (by omega) (by omega)
  rw [encodeToWire_append, Buffer.getInt, ← hlength, hread, Option.map_some, hvalue]

/-- The text is read behind them, with that length, as UTF-8. -/
lemma getString_encodeToWire (length : ℕ) :
    (encodeToWire platform json buffer tuple ++ suffix).getString receiver (buffer.length + 4)
        (buffer.length + 4 + length) =
      if length ≤ (utf8 (json.encode tuple) ++ suffix).length then
        some (utf8Decode receiver.malformed ((utf8 (json.encode tuple) ++ suffix).take length))
      else none := by
  have hstart : ((buffer.length : ℤ) + 4).toNat =
      (buffer ++ int32Bytes (platform.getBytes (json.encode tuple)).length).length := by
    rw [length_append, length_int32Bytes]
    omega
  have hlength : ((buffer.length : ℤ) + 4 + length - (buffer.length + 4)).toNat = length := by
    omega
  have hrange : (0 : ℤ) ≤ buffer.length + 4 ∧
      (buffer.length : ℤ) + 4 ≤ buffer.length + 4 + length := by
    omega
  rw [encodeToWire_append, Buffer.getString, if_pos hrange, hstart, hlength, ← append_assoc,
    readAt_append]
  split_ifs <;> rfl

lemma decodeFromWire_encodeToWire
    (hsize : (platform.getBytes (json.encode tuple)).length < 2 ^ 31) :
    decodeFromWire receiver json buffer.length
        (encodeToWire platform json buffer tuple ++ suffix) =
      if (platform.getBytes (json.encode tuple)).length ≤
          (utf8 (json.encode tuple) ++ suffix).length then
        json.mapTo (utf8Decode receiver.malformed
          ((utf8 (json.encode tuple) ++ suffix).take
            (platform.getBytes (json.encode tuple)).length))
      else none := by
  rw [decodeFromWire, getInt_encodeToWire hsize]
  simp only [Option.bind_eq_bind, Option.bind_some]
  rw [getString_encodeToWire]
  split_ifs <;> rfl

/-! ### Which charsets do -/

lemma roundTrips_of_length_eq (hsize : (platform.getBytes (json.encode tuple)).length < 2 ^ 31)
    (hlength : (platform.getBytes (json.encode tuple)).length =
      (utf8 (json.encode tuple)).length) : RoundTrips platform json tuple := by
  intro receiver buffer suffix
  constructor
  · have hfits : (utf8 (json.encode tuple)).length ≤
        (utf8 (json.encode tuple) ++ suffix).length := by
      rw [length_append]
      omega
    rw [decodeFromWire_encodeToWire hsize, hlength, if_pos hfits, take_left, utf8Decode_utf8,
      json.mapTo_encode]
  · refine ⟨_, getInt_encodeToWire hsize, ?_⟩
    rw [length_encodeToWire, hlength]
    push_cast
    rfl

lemma RoundTrips.length_eq (h : RoundTrips platform json tuple)
    (hsize : (platform.getBytes (json.encode tuple)).length < 2 ^ 31) :
    (platform.getBytes (json.encode tuple)).length = (utf8 (json.encode tuple)).length := by
  obtain ⟨-, length, hgetInt, hframe⟩ := h platform [] []
  rw [getInt_encodeToWire hsize, Option.some_inj] at hgetInt
  rw [length_encodeToWire] at hframe
  omega

/-- **The codec round trips** a tuple exactly when its JSON text has as many bytes in the default
charset of the platform as in UTF-8. -/
theorem roundTrips_iff (hsize : (platform.getBytes (json.encode tuple)).length < 2 ^ 31) :
    RoundTrips platform json tuple ↔
      (platform.getBytes (json.encode tuple)).length = (utf8 (json.encode tuple)).length :=
  ⟨fun h => h.length_eq hsize, roundTrips_of_length_eq hsize⟩

/-- The topic has a letter that is not ASCII. -/
def sampleTuple : MqttMessageTuple :=
  ⟨some ⟨some 1, ['c'], 1⟩, some ⟨['p'], 1, ['é'], [1, 2, 3], 1, false, false, 0, 0⟩⟩

def quote (text : Str) : Str := '"' :: (text ++ ['"'])

def field (name : String) (value : Str) : Str := quote name.toList ++ ':' :: value

def object (fields : List Str) : Str := '{' :: (intercalate [','] fields ++ ['}'])

def sampleText : Str :=
  object [
    field "route" (object [
      field "nodeId" (quote "00000000-0000-0000-0000-000000000001".toList),
      field "clientId" (quote ['c']),
      field "qos" ['1']]),
    field "message" (object [
      field "clientId" (quote ['p']),
      field "messageId" ['1'],
      field "topic" (quote ['é']),
      field "payload" (quote "AQID".toList),
      field "qos" ['1'],
      field "dup" "false".toList,
      field "retain" "false".toList,
      field "status" ['0'],
      field "retry" ['0']])]

/-- The JSON text of the sample; any other tuple is numbered. -/
def sampleJson : JsonObject where
  encode tuple :=
    if tuple = sampleTuple then sampleText else 'x' :: replicate (Encodable.encode tuple) '1'
  mapTo text :=
    if text = sampleText then some sampleTuple
    else
      match text with
      | 'x' :: ones => Encodable.decode ones.length
      | _ => none
  mapTo_encode tuple := by
    by_cases hsample : tuple = sampleTuple
    · simp only [hsample, if_true]
    · have hne : 'x' :: replicate (Encodable.encode tuple) '1' ≠ sampleText := by
        intro heq
        have hhead : sampleText.head? = some 'x' := by rw [← heq, head?_cons]
        exact absurd hhead (by decide +kernel)
      simp only [if_neg hsample, if_neg hne, length_replicate, Encodable.encodek]

def unicode : Platform := ⟨utf8, fun _ => 0⟩

/-- ISO-8859-1, one byte a character. -/
def latin1 : Platform :=
  ⟨map fun c => if c.toNat ≤ 0xff then UInt8.ofNat c.toNat else UInt8.ofNat '?'.toNat, fun _ => 0⟩

theorem roundTrips_iff_unicode : RoundTrips unicode sampleJson sampleTuple :=
  (roundTrips_iff (by decide +kernel)).mpr (by decide +kernel)

/-- On a platform with ISO-8859-1 the frame loses its last brace, and nothing can be decoded. -/
theorem not_roundTrips :
    ¬∀ (platform : Platform) (json : JsonObject) (tuple : MqttMessageTuple),
      (platform.getBytes (json.encode tuple)).length < 2 ^ 31 →
        RoundTrips platform json tuple := by
  intro h
  have hdecode := (h latin1 sampleJson sampleTuple (by decide +kernel) latin1 [] []).1
  have hnone : decodeFromWire latin1 sampleJson ([] : Buffer).length
      (encodeToWire latin1 sampleJson [] sampleTuple ++ []) = none := by
    decide +kernel
  rw [hnone] at hdecode
  cases hdecode

/-- A platform whose charset is UTF-8 carries every tuple. -/
theorem roundTrips_of_utf8 (hutf8 : platform.getBytes = utf8)
    (hsize : (utf8 (json.encode tuple)).length < 2 ^ 31) : RoundTrips platform json tuple :=
  roundTrips_of_length_eq (by rwa [hutf8]) (by rw [hutf8])

/-- Where every character takes one byte, only ASCII text gets across. -/
theorem roundTrips_singleByte (hbytes : ∀ text, (platform.getBytes text).length = text.length)
    (hsize : (json.encode tuple).length < 2 ^ 31) :
    RoundTrips platform json tuple ↔ ∀ c ∈ json.encode tuple, c.utf8Size = 1 := by
  rw [← hbytes] at hsize
  rw [← length_utf8_eq_length_iff, ← hbytes, eq_comm]
  exact ⟨fun h => h.length_eq hsize, roundTrips_of_length_eq hsize⟩

end MqttMessageTupleCodec

end Stuart
