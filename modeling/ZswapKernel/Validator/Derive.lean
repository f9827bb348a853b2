import ZswapKernel.SolverCore.Text

/-!
# What an offer transaction declares

`packages/validator/derive.ts` and `extract-root.ts`: the nullifiers, unshielded inputs, fill markers
and input roots of a deserialized offer transaction, each in canonical lower-case hex.

The ledger's `Transaction` is the part of it that these functions read. A map of segments is the list
of its entries.
-/

namespace ZswapKernel

/-- A value the ledger returns as bytes or as a hex string. -/
inductive HexValue
  | bytes (value : List UInt8)
  | text (value : String)
  deriving DecidableEq, Repr

def hexDigit (n : Nat) : Char := if n < 10 then Char.ofNat (48 + n) else Char.ofNat (87 + n)

/-- `Buffer.from(bytes).toString("hex")`. -/
def bytesToHex (bytes : List UInt8) : String :=
  String.ofList (bytes.flatMap fun b => [hexDigit (b.toNat / 16), hexDigit (b.toNat % 16)])

/-- The text without a leading `0x` or `0X`. -/
def stripHexPrefix (value : String) : String :=
  match value.toList with
  | '0' :: 'x' :: rest => String.ofList rest
  | '0' :: 'X' :: rest => String.ofList rest
  | _ => value

/-- `bytesOrStringToHex`. -/
def bytesOrStringToHex : HexValue → String
  | .bytes value => toLowerCase (bytesToHex value)
  | .text value => toLowerCase (stripHexPrefix value)

/-- `canonicalRootHex` of a string. -/
def canonicalRootHex (hex : String) : String := toLowerCase (stripHexPrefix hex)

/-- `String(value)`. -/
def HexValue.toText : HexValue → String
  | .bytes value => String.intercalate "," (value.map fun b => decimal b.toNat)
  | .text value => value

/-! ## The transaction -/

/-- A `ZswapInput`: its nullifier and `serialize()`. -/
structure ZswapInput where
  nullifier : HexValue
  serialized : List UInt8
  deriving Repr

structure ZswapOffer where
  inputs : List ZswapInput := []
  /-- The commitments of the outputs. -/
  outputs : List (Option HexValue) := []
  /-- The nullifiers of the transients. -/
  transients : List HexValue := []
  deriving Repr

structure UtxoSpend where
  owner : HexValue
  intentHash : HexValue
  outputNo : Int
  deriving Repr

structure UtxoOutput where
  owner : HexValue
  tokenType : HexValue
  value : String
  deriving Repr

structure UnshieldedOffer where
  inputs : List UtxoSpend := []
  outputs : List UtxoOutput := []
  deriving Repr

/-- The DUST actions of an intent: `ctime` and the number of spends. -/
structure DustActions where
  ctime : Int
  spends : Nat
  deriving Repr

structure Intent where
  guaranteedUnshieldedOffer : Option UnshieldedOffer := none
  fallibleUnshieldedOffer : Option UnshieldedOffer := none
  /-- `intentHash(segment)`. -/
  intentHash : Nat → HexValue
  ttl : Int
  dustActions : Option DustActions := none

/-- An `UnprovenTransaction`, with its segment maps as lists of entries. -/
structure OfferTransaction where
  guaranteedOffer : Option ZswapOffer := none
  fallibleOffer : List (Nat × ZswapOffer) := []
  intents : List (Nat × Intent) := []

/-! ## Collectors -/

/-- `UnshieldedSpendRef`: an unshielded coin. -/
structure UnshieldedSpendRef where
  owner : String
  intentHash : String
  outputNo : Int
  deriving DecidableEq, Repr

/-- `UnshieldedOutputRef`. -/
structure UnshieldedOutputRef extends UnshieldedSpendRef where
  tokenType : String
  value : String
  deriving DecidableEq, Repr

/-- `shieldedOffersOf`. -/
def shieldedOffersOf (tx : OfferTransaction) : List ZswapOffer :=
  tx.guaranteedOffer.toList ++ tx.fallibleOffer.map (·.2)

/-- `collectNullifiers`: inputs and transients of every segment. -/
def collectNullifiers (tx : OfferTransaction) : List String :=
  (shieldedOffersOf tx).flatMap fun offer =>
    (offer.inputs.map fun input => bytesOrStringToHex input.nullifier) ++
      offer.transients.map bytesOrStringToHex

/-- `collectUnshieldedSpends`; `addressFromKey` is the ledger's. -/
def collectUnshieldedSpends (addressFromKey : String → String) (tx : OfferTransaction) :
    List UnshieldedSpendRef :=
  tx.intents.flatMap fun (_, intent) =>
    (intent.guaranteedUnshieldedOffer.toList ++ intent.fallibleUnshieldedOffer.toList).flatMap
      fun offer => offer.inputs.map fun spend => {
        owner := toLowerCase (addressFromKey (bytesOrStringToHex spend.owner))
        intentHash := toLowerCase (bytesOrStringToHex spend.intentHash)
        outputNo := spend.outputNo }

/-- `collectOutputCommitments`. -/
def collectOutputCommitments (tx : OfferTransaction) : List String :=
  (shieldedOffersOf tx).flatMap fun offer =>
    offer.outputs.filterMap (·.map fun commitment => toLowerCase (bytesOrStringToHex commitment))

/-- The outputs of one unshielded offer, under the intent hash of `hashSegment`. -/
def collectOutputs (intent : Intent) (offer : Option UnshieldedOffer) (hashSegment : Nat) :
    List UnshieldedOutputRef :=
  (offer.map (·.outputs)).getD [] |>.zipIdx.filterMap fun (out, outputNo) =>
    let owner := bytesOrStringToHex out.owner
    let tokenType := bytesOrStringToHex out.tokenType
    if owner ≠ "" ∧ tokenType ≠ "" ∧ out.value ≠ "" then
      some ⟨⟨owner, bytesOrStringToHex (intent.intentHash hashSegment), outputNo⟩, tokenType,
        out.value⟩
    else none

/-- `collectUnshieldedOutputs`: guaranteed outputs under segment 0, fallible ones under the segment
of the intent. -/
def collectUnshieldedOutputs (tx : OfferTransaction) : List UnshieldedOutputRef :=
  tx.intents.flatMap fun (physicalSegment, intent) =>
    collectOutputs intent intent.guaranteedUnshieldedOffer 0 ++
      collectOutputs intent intent.fallibleUnshieldedOffer physicalSegment

/-! ## Input roots -/

def hexDigitValue (c : Char) : Option Nat :=
  if '0' ≤ c ∧ c ≤ '9' then some (c.toNat - 48)
  else if 'a' ≤ c ∧ c ≤ 'f' then some (c.toNat - 87)
  else if 'A' ≤ c ∧ c ≤ 'F' then some (c.toNat - 55)
  else none

/-- `Buffer.from(hex, "hex")`: the bytes up to the first pair that is not hex. -/
def hexToBytes : List Char → List UInt8
  | high :: low :: rest =>
    match hexDigitValue high, hexDigitValue low with
    | some h, some l => UInt8.ofNat (16 * h + l) :: hexToBytes rest
    | _, _ => []
  | _ => []

/-- `indexOf`, or `none` for -1. -/
def indexOf {α : Type} [BEq α] (needle : List α) : List α → Option Nat
  | [] => if needle.isEmpty then some 0 else none
  | x :: xs => if needle.isPrefixOf (x :: xs) then some 0 else (indexOf needle xs).map (· + 1)

def rootGapAfterNullifier : Nat := 33

def pinnedInputTag : String := "zswap-input[v2]"

/-- The length of a SCALE-compact run, from its first byte. -/
def scaleRunLength (firstByte : UInt8) : Nat :=
  match firstByte.toNat % 4 with
  | 0 => 1
  | 1 => 2
  | 2 => 4
  | _ => firstByte.toNat / 4 + 5

/-- `extractInputRoot`. -/
def extractInputRoot (input : ZswapInput) : Except String String :=
  let ser := input.serialized
  let nul := hexToBytes (canonicalRootHex input.nullifier.toText).toList
  if nul.length ≠ 32 then .error s!"unexpected nullifier length {nul.length}"
  else
    match indexOf nul ser with
    | none => .error "nullifier not found in serialized input"
    | some nulOff =>
      let header := (ser.take nulOff).map fun b => Char.ofNat b.toNat
      if (indexOf pinnedInputTag.toList header).isNone then
        .error ("input tag header missing \"" ++ pinnedInputTag ++ "\"")
      else
        let rootOff := nulOff + 32 + rootGapAfterNullifier
        match ser[rootOff]? with
        | none => .error "root offset past end of input"
        | some firstByte =>
          let runLen := scaleRunLength firstByte
          if runLen < 1 ∨ runLen > 33 ∨ rootOff + runLen > ser.length then
            .error s!"implausible root run length {runLen}"
          else .ok (bytesToHex ((ser.drop rootOff).take runLen))

/-- `extractOfferInputRoots`: the roots of the inputs; a transient proves against none. -/
def extractOfferInputRoots (tx : OfferTransaction) : Except String (List String) :=
  ((shieldedOffersOf tx).flatMap (·.inputs)).mapM extractInputRoot

end ZswapKernel
