import ZswapKernel.SolverCore.Text
import ZswapKernel.Validator.Validate

/-!
# The contract of an offer verdict

`packages/solver-core/validation-contract.ts`: what a verdict on an indexed offer may say. The node
parses each verdict before it sends it, the solver parses each that it receives.

A decimal state version is its value, and an ISO text its instant. The guards on the JSON type of a
field are those of its type here.

* `parseOfferValidationVerdict_eq_some` — a verdict parses if it is well formed and says nothing
  contradictory.
-/

namespace ZswapKernel

inductive OfferValidationCode
  | valid
  | unsupportedProfile
  | hashMismatch
  | notIndexed
  | notLive
  | expired
  | unsupportedShape
  | badEncoding
  | tooLarge
  | badDeserialize
  | wrongTxVariant
  | noSpendableInput
  | notASwap
  | unknownToken
  | rootUnreadable
  | nullifierSpent
  | utxoNotLive
  | rootUnknown
  | proofInvalid
  | signatureInvalid
  deriving DecidableEq, Repr

def OfferValidationCode.text : OfferValidationCode → String
  | .valid => "VALID"
  | .unsupportedProfile => "UNSUPPORTED_PROFILE"
  | .hashMismatch => "HASH_MISMATCH"
  | .notIndexed => "NOT_INDEXED"
  | .notLive => "NOT_LIVE"
  | .expired => "EXPIRED"
  | .unsupportedShape => "UNSUPPORTED_SHAPE"
  | .badEncoding => "BAD_ENCODING"
  | .tooLarge => "TOO_LARGE"
  | .badDeserialize => "BAD_DESERIALIZE"
  | .wrongTxVariant => "WRONG_TX_VARIANT"
  | .noSpendableInput => "NO_SPENDABLE_INPUT"
  | .notASwap => "NOT_A_SWAP"
  | .unknownToken => "UNKNOWN_TOKEN"
  | .rootUnreadable => "ROOT_UNREADABLE"
  | .nullifierSpent => "NULLIFIER_SPENT"
  | .utxoNotLive => "UTXO_NOT_LIVE"
  | .rootUnknown => "ROOT_UNKNOWN"
  | .proofInvalid => "PROOF_INVALID"
  | .signatureInvalid => "SIGNATURE_INVALID"

inductive OfferValidationStatus
  | live
  | consumed
  | cancelled
  | expired
  | unknown
  | notIndexed
  deriving DecidableEq, Repr

def OfferValidationStatus.text : OfferValidationStatus → String
  | .live => "live"
  | .consumed => "consumed"
  | .cancelled => "cancelled"
  | .expired => "expired"
  | .unknown => "unknown"
  | .notIndexed => "not_indexed"

/-- `OFFER_VALIDATION_PROFILE`. -/
def offerValidationProfile : String := "offer-files-solver-v1"

/-- `OFFER_VALIDATION_MAX_PROFILE_CHARS`. -/
def offerValidationMaxProfileChars : Nat := 64

/-- `OFFER_VALIDATION_MAX_REASON_CHARS`. -/
def offerValidationMaxReasonChars : Nat := 1024

structure OfferValidationRequest where
  profile : String
  offerId : String
  offer : String

/-- `ValidatedOfferSemantics`. -/
structure ValidationSemantics where
  gives : List OfferLeg
  wants : List OfferLeg
  inputNullifiers : List String
  expiresAt : Int
  deriving DecidableEq, Repr

/-- `OfferValidationVerdict`. -/
structure ValidationVerdict where
  profile : String
  valid : Bool
  live : Bool
  claimedOfferId : String
  computedOfferId : Option String
  stateVersion : Nat
  validatedAt : Int
  status : OfferValidationStatus
  code : OfferValidationCode
  reason : Option String := none
  computed : Option ValidationSemantics := none
  deriving DecidableEq, Repr

/-! ## The grammar -/

/-- `isCanonicalOfferId`: `/^[0-9a-f]{64}$/`. -/
def isCanonicalOfferId (value : String) : Bool :=
  value.length = 64 && value.toList.all fun c => ('0' ≤ c && c ≤ '9') || ('a' ≤ c && c ≤ 'f')

/-- `isCanonicalU64`, of a decimal text by its value. -/
def isCanonicalU64 (value : Nat) : Bool := 1 ≤ value && value < 2 ^ 64

/-- `isCanonicalPositiveU256`: `/^[1-9][0-9]{0,77}$/` up to the maximum. -/
def isCanonicalPositiveU256 (value : String) : Bool :=
  (match value.toList with
    | [] => false
    | first :: rest => ('1' ≤ first && first ≤ '9') && rest.all Char.isDigit && rest.length ≤ 77) &&
  bigInt value < 2 ^ 256

/-- `isCanonicalIso`, of an ISO text by its instant: the range of a `Date`. -/
def isCanonicalIso (ms : Int) : Bool := -8640000000000000 ≤ ms && ms ≤ 8640000000000000

/-- `[a-z0-9]`. -/
def isProfileChar (c : Char) : Bool := ('a' ≤ c && c ≤ 'z') || ('0' ≤ c && c ≤ '9')

/-- `isProfileIdentifier`: `/^[a-z0-9][a-z0-9._-]*$/`, of at most 64 characters. -/
def isProfileIdentifier (value : String) : Bool :=
  value.length ≤ offerValidationMaxProfileChars &&
  match value.toList with
  | [] => false
  | first :: rest => isProfileChar first &&
    rest.all fun c => isProfileChar c || c = '.' || c = '_' || c = '-'

/-- `isLeg`. -/
def isLeg (leg : OfferLeg) : Bool :=
  isCanonicalOfferId leg.token && isCanonicalPositiveU256 leg.amount

/-- `isComputed`. -/
def isComputed (value : ValidationSemantics) : Bool :=
  !value.gives.isEmpty && value.gives.all isLeg && !value.wants.isEmpty && value.wants.all isLeg &&
  value.inputNullifiers.all isCanonicalOfferId && decide value.inputNullifiers.Nodup &&
  isCanonicalIso value.expiresAt

/-- `isSupportedOfferValidationSemantics`: one shielded leg for another. -/
def isSupportedOfferValidationSemantics (value : ValidationSemantics) : Bool :=
  match value.gives, value.wants with
  | [give], [want] =>
    give.kind = .shielded && want.kind = .shielded && give.token ≠ want.token &&
      !value.inputNullifiers.isEmpty
  | _, _ => false

/-- The fields of the verdict, each for itself. -/
def ValidationVerdict.wellFormed (value : ValidationVerdict) : Bool :=
  isProfileIdentifier value.profile && isCanonicalOfferId value.claimedOfferId &&
  value.computedOfferId.all isCanonicalOfferId && isCanonicalU64 value.stateVersion &&
  isCanonicalIso value.validatedAt &&
  value.reason.all (utf16Length · ≤ offerValidationMaxReasonChars) &&
  value.computed.all isComputed

/-- `parseOfferValidationVerdict`. -/
def parseOfferValidationVerdict (value : ValidationVerdict) : Option ValidationVerdict :=
  if !value.wellFormed then none
  else if value.valid && !(value.live && value.status = .live && value.code = .valid &&
      value.computedOfferId = some value.claimedOfferId &&
      value.computed.any isSupportedOfferValidationSemantics) then none
  else if !value.valid && value.code = .valid then none
  -- A row that is not live cannot be reported as usable; a live row may fail a current check.
  else if value.status ≠ .live && value.live then none
  else if value.code = .notIndexed && value.status ≠ .notIndexed then none
  else if value.code = .notLive &&
      (value.live || value.status ∉ [.consumed, .cancelled, .expired, .unknown]) then none
  else if value.code = .expired && (value.live || value.status ∉ [.live, .expired]) then none
  else if decide (value.profile = offerValidationProfile) =
      decide (value.code = .unsupportedProfile) then none
  else some value

/-! ## What parses -/

/-- What the fields of a verdict say together. -/
structure ValidationVerdict.Consistent (value : ValidationVerdict) : Prop where
  valid_iff : value.valid = true ↔ value.code = .valid
  usable : value.valid = true → value.live = true ∧ value.status = .live ∧
    value.computedOfferId = some value.claimedOfferId ∧
    ∃ semantics, value.computed = some semantics ∧
      isSupportedOfferValidationSemantics semantics = true
  live : value.live = true → value.status = .live
  notIndexed : value.code = .notIndexed → value.status = .notIndexed
  notLive : value.code = .notLive → value.live = false ∧
    value.status ∈ [.consumed, .cancelled, .expired, .unknown]
  expired : value.code = .expired → value.live = false ∧ value.status ∈ [.live, .expired]
  profile : value.profile = offerValidationProfile ↔ value.code ≠ .unsupportedProfile

/-- **What parses.** A verdict is parsed as it stands if its fields are well formed and
consistent, and refused otherwise. -/
theorem parseOfferValidationVerdict_eq_some {value parsed : ValidationVerdict} :
    parseOfferValidationVerdict value = some parsed ↔
      parsed = value ∧ value.wellFormed = true ∧ value.Consistent := by
  unfold parseOfferValidationVerdict
  constructor
  · intro h
    split_ifs at h with hform husable hvalid hlive hindexed hnotLive hexpired hprofile
    simp only [Bool.not_eq_true', Bool.and_eq_true, Bool.or_eq_true, decide_eq_true_eq, not_and,
      not_or, Bool.not_eq_true, Bool.not_eq_false, not_not] at *
    refine ⟨(Option.some.inj h).symm, hform, ?_, ?_, ?_, hindexed, hnotLive, hexpired, ?_⟩
    · refine ⟨fun hv => (husable hv).1.1.2, fun hcode => ?_⟩
      by_contra hv
      exact hvalid (Bool.not_eq_true _ ▸ hv) hcode
    · intro hv
      obtain ⟨⟨⟨⟨hlive, hstatus⟩, -⟩, hid⟩, hany⟩ := husable hv
      exact ⟨hlive, hstatus, hid, (Option.any_eq_true _ _).mp hany⟩
    · intro hv
      by_contra hstatus
      rw [hlive hstatus] at hv
      cases hv
    · by_cases hcode : value.code = .unsupportedProfile
      · simpa [hcode] using hprofile
      · simpa [hcode] using hprofile
  · rintro ⟨heq, hform, hvalid, husable, hlive, hindexed, hnotLive, hexpired, hprofile⟩
    rw [heq, if_neg (by simp [hform]), if_neg, if_neg, if_neg, if_neg, if_neg, if_neg, if_neg]
    · by_cases hcode : value.code = .unsupportedProfile <;> simp [hcode, hprofile]
    · intro h
      obtain ⟨hcode, h⟩ := Bool.and_eq_true_iff.mp h
      obtain ⟨hdead, hstatus⟩ := hexpired (of_decide_eq_true hcode)
      simp [hdead, hstatus] at h
    · intro h
      obtain ⟨hcode, h⟩ := Bool.and_eq_true_iff.mp h
      obtain ⟨hdead, hstatus⟩ := hnotLive (of_decide_eq_true hcode)
      simp only [hdead, hstatus, not_true_eq_false, decide_false, Bool.or_self] at h
      cases h
    · intro h
      obtain ⟨hcode, h⟩ := Bool.and_eq_true_iff.mp h
      exact of_decide_eq_true h (hindexed (of_decide_eq_true hcode))
    · intro h
      obtain ⟨hstatus, h⟩ := Bool.and_eq_true_iff.mp h
      exact of_decide_eq_true hstatus (hlive h)
    · intro h
      obtain ⟨hv, hcode⟩ := Bool.and_eq_true_iff.mp h
      rw [hvalid.mpr (of_decide_eq_true hcode)] at hv
      cases hv
    · intro h
      obtain ⟨hv, h⟩ := Bool.and_eq_true_iff.mp h
      obtain ⟨hl, hstatus, hid, hcomputed⟩ := husable hv
      rw [(Option.any_eq_true _ _).mpr hcomputed, hl, hid, hstatus, hvalid.mp hv] at h
      simp at h

end ZswapKernel
