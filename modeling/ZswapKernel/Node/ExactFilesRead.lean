import ZswapKernel.Node.OfferLiveness
import ZswapKernel.Node.OfferVerdicts
import ZswapKernel.Node.RootRetention
import ZswapKernel.Solver.Route

/-!
# The read of exact files

`packages/node/offer-files-read.ts` answers with the stored bytes of the offers that are usable now,
and with a verdict for every other one. `packages/solver-core/exact-files-contract.ts` says what may
be asked and answered, and `readExactOfferFiles` of `api-client.ts` is the client.

The guards on JSON types and keys are those of the types here. The deadline and the disconnects of
a request only cancel it; the window of concurrent reads is a counter.

* `readExactFiles_ok` — bytes are served where they are usable at a committed state that the read has
  seen, and every refusal is one too.
* `acceptExactFiles_readExactFiles` — the client accepts every answer of the node.
* `liveOffer_refused` — what an indexed offer whose row is live can be refused for.
-/

namespace ZswapKernel

open Awaiting

/-! ## The contract -/

structure ExactFilesRequest where
  profile : String
  offerIds : List String

/-- `ExactFilesEntry`. -/
structure ServedFile where
  offerId : String
  verdict : ValidationVerdict
  offer : Option String := none
  deriving DecidableEq, Repr

structure ExactFilesResponse where
  profile : String
  files : List ServedFile
  deriving DecidableEq, Repr

/-- `parseExactFilesRequest`. -/
def parseExactFilesRequest (value : ExactFilesRequest) : Option ExactFilesRequest :=
  if !isProfileIdentifier value.profile then none
  else if value.offerIds.isEmpty || maxExactFilesPerRead < value.offerIds.length ||
      !value.offerIds.all isCanonicalOfferId || !decide value.offerIds.Nodup then none
  else some value

/-- One pass of the loop over the files. -/
def isBoundFile (hashOffer : String → Except String String) (profile : String)
    (entry : ServedFile) : Bool :=
  match parseOfferValidationVerdict entry.verdict with
  | none => false
  | some verdict =>
    verdict.profile = profile && verdict.claimedOfferId = entry.offerId &&
    if verdict.valid then
      match entry.offer with
      | none => false
      | some offer => offer ≠ "" &&
        match hashOffer offer with
        | .error _ => false
        | .ok computed => computed = entry.offerId
    else entry.offer.isNone

/-- The loop over the files. -/
def areBoundFiles (hashOffer : String → Except String String) (profile : String) :
    List String → List ServedFile → Bool
  | _, [] => true
  | seen, entry :: files =>
    isCanonicalOfferId entry.offerId && decide (entry.offerId ∉ seen) &&
    isBoundFile hashOffer profile entry &&
    areBoundFiles hashOffer profile (entry.offerId :: seen) files

/-- `parseExactFilesResponse`, with a `hashOffer`. -/
def parseExactFilesResponse (hashOffer : String → Except String String)
    (value : ExactFilesResponse) : Option ExactFilesResponse :=
  if !isProfileIdentifier value.profile then none
  else if value.files.isEmpty || maxExactFilesPerRead < value.files.length then none
  else if areBoundFiles hashOffer value.profile [] value.files then some value
  else none

/-- `exactFileEntry`. -/
def exactFileEntry (response : ExactFilesResponse) (offerId : String) : Option ServedFile :=
  response.files.find? (·.offerId = offerId)

/-- What `readExactOfferFiles` asks for. -/
def exactFilesRequest (offerIds : List String) : Except String ExactFilesRequest :=
  if !offerIds.all isCanonicalOfferId then
    .error "requested offer hash must be exactly 64 lowercase hexadecimal characters"
  else
    match parseExactFilesRequest ⟨offerValidationProfile, offerIds⟩ with
    | none => .error "offerIds are not a canonical exact-files request"
    | some request => .ok request

/-- What `readExactOfferFiles` makes of a response. -/
def acceptExactFiles (hashOffer : String → Except String String) (offerIds : List String)
    (response : ExactFilesResponse) : Except String ExactFilesResponse :=
  match parseExactFilesResponse hashOffer response with
  | none => .error "response is not a canonical, content-bound exact-files response"
  | some parsed =>
    if parsed.profile ≠ offerValidationProfile ∨ parsed.files.map (·.offerId) ≠ offerIds then
      .error "response entries are not exactly bound to the requested identities and order"
    else .ok parsed

/-! ## The read -/

/-- `readExactOfferFile`. -/
def readExactOfferFile (env : NodeEnv) (ledger : Ledger)
    (decode : String → Except String (List UInt8)) (profile offerId : String) :
    ValidationAct ServedFile := do
  let anchor ← requireCurrentBackend false
  if profile ≠ offerValidationProfile then do
    let verdict ← settle (unsupportedProfileVerdict profile offerId anchor)
    return { offerId := offerId, verdict := verdict }
  else do
    match ← runQuery fun s => .ok (s.db.getOfferByHash offerId) with
    | none => do
      let verdict ← settle (checkedVerdict profile offerId anchor false false none .notIndexed
        .notIndexed (some "the requested offer identity is not indexed by this backend"))
      return { offerId := offerId, verdict := verdict }
    | some stored => do
      let offer := stored.offer.transactionHex
      let verdict ← validateOfferForUse env ledger decode ⟨profile, offerId, offer⟩
      if !verdict.valid then return { offerId := offerId, verdict := verdict }
      else
        match offerHashFromBlob ledger decode offer with
        | .error e => Awaiting.fail (.unavailable
            s!"indexed offer bytes became undecodable while serving: Error: {e}")
        | .ok served =>
          if served ≠ offerId then
            Awaiting.fail (.unavailable
              "indexed offer bytes are not bound to the identity they are served under")
          else return { offerId := offerId, verdict := verdict, offer := some offer }

/-- The loop over the identities. -/
def readFiles (env : NodeEnv) (ledger : Ledger) (decode : String → Except String (List UInt8))
    (profile : String) : List String → ValidationAct (List ServedFile)
  | [] => return []
  | offerId :: offerIds => do
    let file ← readExactOfferFile env ledger decode profile offerId
    let files ← readFiles env ledger decode profile offerIds
    return file :: files

/-- The `operation` of the route. -/
def readExactFiles (env : NodeEnv) (ledger : Ledger) (decode : String → Except String (List UInt8))
    (request : ExactFilesRequest) : ValidationAct ExactFilesResponse := do
  let files ← readFiles env ledger decode request.profile request.offerIds
  let response : ExactFilesResponse := ⟨request.profile, files⟩
  match parseExactFilesResponse (offerHashFromBlob ledger decode) response with
  | none => Awaiting.fail (.unavailable "refusing to emit a noncanonical exact-files response")
  | some _ => return response

section Answers

variable {env : NodeEnv} {ledger : Ledger} {decode : String → Except String (List UInt8)}
  {world : Nat → Moment} {i j : Nat} {profile : String}

/-- The backend was reported in sync at `anchor`, the newest block of a state that was seen. -/
structure Current (world : Nat → Moment) (i j : Nat) (s : NodeState)
    (anchor : ValidationStateAnchor) : Prop where
  seen : SeenAt world i j s anchor
  synced : SyncedAt world i j anchor

theorem Current.widen {i' j' : Nat} {s : NodeState} {anchor : ValidationStateAnchor}
    (h : Current world i j s anchor) (hi : i' ≤ i) (hj : j ≤ j') : Current world i' j' s anchor :=
  ⟨h.seen.widen hi hj, h.synced.widen hi hj⟩

/-- `row` is what a query for `offerId` answered between `i` and `j`. -/
def LookedUp (world : Nat → Moment) (i j : Nat) (offerId : String) (row : Option StoredOffer) :
    Prop :=
  ∃ k t, i ≤ k ∧ k ≤ j ∧ (world k).state = .ok t ∧ t.db.getOfferByHash offerId = row

theorem LookedUp.widen {i' j' : Nat} {offerId : String} {row : Option StoredOffer}
    (h : LookedUp world i j offerId row) (hi : i' ≤ i) (hj : j ≤ j') :
    LookedUp world i' j' offerId row := by
  obtain ⟨k, t, hik, hkj, ht, hrow⟩ := h
  exact ⟨k, t, hi.trans hik, hkj.trans hj, ht, hrow⟩

/-- What the read says of one identity. Bytes are served with the positive verdict on a committed
state; a refusal has no bytes. -/
inductive FileAnswer (env : NodeEnv) (ledger : Ledger) (decode : String → Except String (List UInt8))
    (world : Nat → Moment) (i j : Nat) (profile : String) : ServedFile → Prop
  | unsupported {offerId : String} {s : NodeState} {anchor : ValidationStateAnchor}
      {verdict : ValidationVerdict} (hprofile : profile ≠ offerValidationProfile)
      (hcurrent : Current world i j s anchor)
      (hverdict : unsupportedProfileVerdict profile offerId anchor = .ok verdict) :
      FileAnswer env ledger decode world i j profile ⟨offerId, verdict, none⟩
  | notIndexed {offerId : String} {s : NodeState} {anchor : ValidationStateAnchor}
      {verdict : ValidationVerdict} (hcurrent : Current world i j s anchor)
      (hrow : LookedUp world i j offerId none)
      (hverdict : checkedVerdict profile offerId anchor false false none .notIndexed .notIndexed
        (some "the requested offer identity is not indexed by this backend") = .ok verdict) :
      FileAnswer env ledger decode world i j profile ⟨offerId, verdict, none⟩
  | refused {offerId : String} {stored : StoredOffer} {s proof : NodeState}
      {anchor proofAnchor : ValidationStateAnchor} {verdict : ValidationVerdict}
      (hrow : LookedUp world i j offerId (some stored)) (hcurrent : Current world i j s anchor)
      (hproof : SeenAt world i j proof proofAnchor)
      (hverdict : s.verdictAt env ledger decode proofAnchor.atMs
        ⟨profile, offerId, stored.offer.transactionHex⟩ = .ok verdict)
      (hinvalid : verdict.valid = false) :
      FileAnswer env ledger decode world i j profile ⟨offerId, verdict, none⟩
  | served {offerId offer : String} {s proof : NodeState}
      {anchor proofAnchor : ValidationStateAnchor} {validation : OfferValidation} {expiresAt : Int}
      (hcurrent : Current world i j s anchor) (hproof : SeenAt world i j proof proofAnchor)
      (husable : s.Usable env ledger decode proofAnchor.atMs ⟨profile, offerId, offer⟩ anchor
        validation expiresAt) :
      FileAnswer env ledger decode world i j profile
        ⟨offerId, validVerdict ⟨profile, offerId, offer⟩ anchor validation expiresAt, some offer⟩

theorem FileAnswer.widen {i' j' : Nat} {file : ServedFile}
    (h : FileAnswer env ledger decode world i j profile file) (hi : i' ≤ i) (hj : j ≤ j') :
    FileAnswer env ledger decode world i' j' profile file := by
  cases h with
  | unsupported hprofile hcurrent hverdict =>
    exact .unsupported hprofile (hcurrent.widen hi hj) hverdict
  | notIndexed hcurrent hrow hverdict =>
    exact .notIndexed (hcurrent.widen hi hj) (hrow.widen hi hj) hverdict
  | refused hrow hcurrent hproof hverdict hinvalid =>
    exact .refused (hrow.widen hi hj) (hcurrent.widen hi hj) (hproof.widen hi hj) hverdict hinvalid
  | served hcurrent hproof husable =>
    exact .served (hcurrent.widen hi hj) (hproof.widen hi hj) husable

theorem readExactOfferFile_ok (hworld : CommittedWorld world) {offerId : String} {file : ServedFile}
    (h : (readExactOfferFile env ledger decode profile offerId).run world i = (.ok file, j)) :
    i ≤ j ∧ file.offerId = offerId ∧ FileAnswer env ledger decode world i j profile file := by
  unfold readExactOfferFile at h
  obtain ⟨anchor, i₁, hanchor, hrest⟩ := run_bind_eq_ok.mp h
  obtain ⟨hi₁, ⟨s, hs⟩, hsync⟩ := run_requireCurrentBackend_ok hanchor
  by_cases hprofile : profile ≠ offerValidationProfile
  · rw [if_pos hprofile] at hrest
    obtain ⟨verdict, i₂, hsettled, hends⟩ := run_bind_eq_ok.mp hrest
    obtain ⟨hverdict, rfl⟩ := Prod.mk.inj hsettled
    obtain ⟨hfile, rfl⟩ := Prod.mk.inj hends
    rw [← Except.ok.inj hfile]
    exact ⟨hi₁, rfl, .unsupported hprofile ⟨hs, hsync⟩ hverdict⟩
  · rw [if_neg hprofile] at hrest
    obtain ⟨row, i₂, hquery, hanswers⟩ := run_bind_eq_ok.mp hrest
    obtain ⟨hanswer, rfl⟩ := Prod.mk.inj hquery
    obtain ⟨t, ht, hrow⟩ := Moment.answer_eq_ok.mp hanswer
    have hlooked : LookedUp world i (i₁ + 1) offerId row :=
      ⟨i₁, t, hi₁, Nat.le_succ i₁, ht, Except.ok.inj hrow⟩
    cases row with
    | none =>
      obtain ⟨verdict, i₃, hsettled, hends⟩ := run_bind_eq_ok.mp hanswers
      obtain ⟨hverdict, rfl⟩ := Prod.mk.inj hsettled
      obtain ⟨hfile, rfl⟩ := Prod.mk.inj hends
      rw [← Except.ok.inj hfile]
      exact ⟨by omega, rfl, .notIndexed ⟨hs.widen (le_refl i) (Nat.le_succ _),
        hsync.widen (le_refl i) (Nat.le_succ _)⟩ hlooked hverdict⟩
    | some stored =>
      obtain ⟨verdict, i₃, hvalidated, hends⟩ := run_bind_eq_ok.mp hanswers
      obtain ⟨t', anchor', proof, proofAnchor, ht', hsync', hproof, -, hverdict⟩ :=
        validateOfferForUse_ok hworld hvalidated
      have hi₃ : i₁ + 1 ≤ i₃ := by
        obtain ⟨⟨k, hk, hk', -⟩, -⟩ := ht'
        exact hk.trans hk'
      have hstart : i ≤ i₁ + 1 := by omega
      cases hvalid : verdict.valid with
      | false =>
        rw [hvalid] at hends
        obtain ⟨hfile, rfl⟩ := Prod.mk.inj hends
        rw [← Except.ok.inj hfile]
        exact ⟨by omega, rfl, .refused (hlooked.widen (le_refl i) hi₃)
          ⟨ht'.widen hstart (le_refl _), hsync'.widen hstart (le_refl _)⟩
          (hproof.widen hstart (le_refl _)) hverdict hvalid⟩
      | true =>
        obtain ⟨anchor₀, validation, expiresAt, husable, rfl, -⟩ :=
          verdictAt_valid_iff.mp ⟨hverdict, hvalid⟩
        obtain rfl : anchor₀ = anchor' := by
          have hanchored := husable.anchored
          rw [ht'.anchor] at hanchored
          exact (Except.ok.inj hanchored).symm
        rw [hvalid, husable.named] at hends
        simp only [Bool.not_true, Bool.false_eq_true, if_false, ne_eq, not_true_eq_false] at hends
        obtain ⟨hfile, rfl⟩ := Prod.mk.inj hends
        rw [← Except.ok.inj hfile]
        exact ⟨by omega, rfl, .served
          ⟨ht'.widen hstart (le_refl _), hsync'.widen hstart (le_refl _)⟩
          (hproof.widen hstart (le_refl _)) husable⟩

theorem readFiles_ok (hworld : CommittedWorld world) {offerIds : List String}
    {files : List ServedFile}
    (h : (readFiles env ledger decode profile offerIds).run world i = (.ok files, j)) :
    i ≤ j ∧ files.map (·.offerId) = offerIds ∧
      ∀ file ∈ files, FileAnswer env ledger decode world i j profile file := by
  induction offerIds generalizing i j files with
  | nil =>
    obtain ⟨hfiles, rfl⟩ := Prod.mk.inj h
    rw [← Except.ok.inj hfiles]
    exact ⟨le_refl i, rfl, by simp⟩
  | cons offerId offerIds ih =>
    unfold readFiles at h
    obtain ⟨file, i₁, hfile, hrest⟩ := run_bind_eq_ok.mp h
    obtain ⟨hi₁, hid, hanswer⟩ := readExactOfferFile_ok hworld hfile
    obtain ⟨others, i₂, hothers, hends⟩ := run_bind_eq_ok.mp hrest
    obtain ⟨hi₂, hids, hanswers⟩ := ih hothers
    obtain ⟨hfiles, rfl⟩ := Prod.mk.inj hends
    rw [← Except.ok.inj hfiles]
    refine ⟨hi₁.trans hi₂, by rw [List.map_cons, hid, hids], fun kept hkept => ?_⟩
    rcases List.mem_cons.mp hkept with rfl | hkept
    · exact hanswer.widen (le_refl i) hi₂
    · exact (hanswers kept hkept).widen hi₁ (le_refl _)

theorem exactFilesRequest_eq_ok {offerIds : List String} {request : ExactFilesRequest}
    (h : exactFilesRequest offerIds = .ok request) :
    request.profile = offerValidationProfile ∧ request.offerIds = offerIds := by
  unfold exactFilesRequest parseExactFilesRequest at h
  split_ifs at h
  rw [← Except.ok.inj h]
  exact ⟨rfl, rfl⟩

theorem parseExactFilesResponse_eq_some {hashOffer : String → Except String String}
    {value parsed : ExactFilesResponse} (h : parseExactFilesResponse hashOffer value = some parsed) :
    parsed = value := by
  unfold parseExactFilesResponse at h
  split_ifs at h
  exact (Option.some.inj h).symm

/-- **What a client gets is what the node could vouch for.** Whatever is committed while the node
reads the files that a client asks for, an answer of the node is accepted by the client, has an entry
for each identity in the order of the request, and says of each what holds at a committed state that the
read has seen: the stored bytes where they are usable, and otherwise why not. -/
theorem readExactFiles_ok (hworld : CommittedWorld world) {offerIds : List String}
    {request : ExactFilesRequest} (hrequest : exactFilesRequest offerIds = .ok request)
    {response : ExactFilesResponse}
    (h : (readExactFiles env ledger decode request).run world i = (.ok response, j)) :
    acceptExactFiles (offerHashFromBlob ledger decode) offerIds response = .ok response ∧
      response.files.map (·.offerId) = offerIds ∧
      ∀ file ∈ response.files, FileAnswer env ledger decode world i j offerValidationProfile file := by
  obtain ⟨hprofile, hids⟩ := exactFilesRequest_eq_ok hrequest
  unfold readExactFiles at h
  obtain ⟨files, i₁, hfiles, hrest⟩ := run_bind_eq_ok.mp h
  obtain ⟨-, hnames, hanswers⟩ := readFiles_ok hworld hfiles
  dsimp only at hrest
  cases hparsed : parseExactFilesResponse (offerHashFromBlob ledger decode)
      ⟨request.profile, files⟩ with
  | none =>
    rw [hparsed] at hrest
    cases (Prod.mk.inj hrest).1
  | some parsed =>
    rw [hparsed] at hrest
    obtain ⟨hresponse, rfl⟩ := Prod.mk.inj hrest
    obtain rfl := Except.ok.inj hresponse
    obtain rfl := parseExactFilesResponse_eq_some hparsed
    rw [hids] at hnames
    rw [hprofile] at hanswers
    refine ⟨?_, hnames, hanswers⟩
    unfold acceptExactFiles
    rw [hparsed]
    exact if_neg (by simp [hprofile, hnames])

/-! ## A live row -/

theorem getOfferByHash_live {db : Db} {offer : OfferFile} (hoffer : offer ∈ db.offerFile) :
    ∃ stored, db.getOfferByHash offer.offerHash = some stored ∧ stored.offer ∈ db.offerFile ∧
      stored.status = .live := by
  unfold Db.getOfferByHash
  have hmem : offer ∈ db.offerFile.filter (·.offerHash = offer.offerHash) :=
    List.mem_filter.mpr ⟨hoffer, by simp⟩
  cases hrows : db.offerFile.filter (·.offerHash = offer.offerHash) with
  | nil =>
    rw [hrows] at hmem
    cases hmem
  | cons row rows =>
    have hrow : row ∈ db.offerFile.filter (·.offerHash = offer.offerHash) := by
      rw [hrows]
      exact List.mem_cons_self
    exact ⟨⟨row, .live⟩, rfl, (List.mem_filter.mp hrow).1, rfl⟩

/-- What the proof check rejects is told as an expiry, a bad proof or a bad signature. -/
theorem canonicalValidatorCode_crypto {message : String} {code : OfferValidationCode}
    (h : canonicalValidatorCode (wellFormedFailureCode message).text = .ok code) :
    code ∈ [.expired, .proofInvalid, .signatureInvalid] := by
  unfold wellFormedFailureCode at h
  split_ifs at h
  · cases (show canonicalValidatorCode "INTENT_TTL_EXPIRED" = .ok .expired from rfl).symm.trans h
    simp
  · cases (show canonicalValidatorCode "INTENT_TTL_TOO_FAR" = .ok .proofInvalid from rfl).symm.trans h
    simp
  · cases (show canonicalValidatorCode "SIGNATURE_INVALID" = .ok .signatureInvalid from rfl).symm.trans
      h
    simp
  · cases (show canonicalValidatorCode "PROOF_INVALID" = .ok .proofInvalid from rfl).symm.trans h
    simp

variable {s : NodeState} {offer : OfferFile} {validation : OfferValidation}

/-- The inputs of a live row fail no probe but that of a root. -/
theorem offerLiveness_listed (hsound : s.db.Sound env ledger) (hoffer : offer ∈ s.db.offerFile)
    (hlisted : offer.Listed env ledger s.db validation) {rootCutoffMs : Int}
    {rejection : OfferRejection}
    (h : s.db.offerLiveness validation rootCutoffMs = .error rejection) :
    rejection.code = .rootUnknown := by
  unfold Db.offerLiveness evaluateOfferLiveness at h
  cases hdead : (orderedOfferLivenessDescriptors validation).find?
      (!s.db.isLive rootCutoffMs ·) with
  | none =>
    rw [hdead] at h
    cases h
  | some descriptor =>
    rw [hdead] at h
    rw [← Except.error.inj h]
    have hspent := List.find?_some hdead
    have hmem := List.mem_of_find?_eq_some hdead
    unfold orderedOfferLivenessDescriptors at hmem
    simp only [List.mem_append, List.mem_map] at hmem
    cases descriptor with
    | root root => rfl
    | nullifier nullifier =>
      obtain (⟨value, hvalue, hsame⟩ | ⟨value, hvalue, hsame⟩) | ⟨value, hvalue, hsame⟩ := hmem
      · cases hsame
        have hunspent := hsound.unspent offer hoffer _ (hlisted.nullifiers nullifier hvalue) rfl
        simp [Db.isLive, hunspent] at hspent
      · cases hsame
      · cases hsame
    | unshielded coin =>
      obtain (⟨value, hvalue, hsame⟩ | ⟨value, hvalue, hsame⟩) | ⟨value, hvalue, hsame⟩ := hmem
      · cases hsame
      · cases hsame
        have hcreated := hsound.created offer hoffer _ (hlisted.spends coin hvalue) rfl
        simp [Db.isLive, hcreated] at hspent
      · cases hsame

/-- A live row is not looked at further when it has expired. -/
theorem check_live_inl {stored : StoredOffer} {offerId : String} {nowMs : Int} {state : OfferState}
    (hlive : stored.status = .live)
    (h : stored.check ledger decode offerId nowMs = .ok (.inl state)) :
    state.status = .live ∧ ∀ failure, state.failure = some failure → failure.code = .expired := by
  unfold StoredOffer.check at h
  cases hhash : offerHashFromBlob ledger decode stored.offer.transactionHex with
  | error e => simp [hhash] at h
  | ok storedOfferId =>
    simp only [hhash, hlive, normalizeStoredStatus, ne_eq, not_true_eq_false, if_false] at h
    split_ifs at h with hbound
    cases hexpiry : parseExpiry stored.offer.metadataExpiresAt with
    | none => simp [hexpiry] at h
    | some expiresAt =>
      simp only [hexpiry] at h
      split_ifs at h with hexpired
      · rw [← Sum.inl.inj (Except.ok.inj h)]
        exact ⟨rfl, fun failure hfailure => by rw [← Option.some.inj hfailure]⟩
      · cases Except.ok.inj h

/-- The state of an offer whose row is live. -/
theorem offerState_listed (hsound : s.db.Sound env ledger) (hoffer : offer ∈ s.db.offerFile)
    (hlisted : offer.Listed env ledger s.db validation) {nowMs : Int} {state : OfferState}
    (h : s.offerState env ledger decode offer.offerHash validation nowMs = .ok state) :
    state.status = .live ∧ ∀ failure, state.failure = some failure →
      failure.code ∈ [.expired, .rootUnknown] := by
  obtain ⟨stored, hstored, -, hstatus⟩ := getOfferByHash_live hoffer
  unfold NodeState.offerState at h
  simp only [hstored] at h
  obtain ⟨checked, hcheck, hrest⟩ := Except.bind_eq_ok.mp h
  cases checked with
  | inl early =>
    obtain rfl := Except.ok.inj hrest
    obtain ⟨hlive, hexpired⟩ := check_live_inl hstatus hcheck
    exact ⟨hlive, fun failure hfailure => by simp [hexpired failure hfailure]⟩
  | inr expiresAt =>
    obtain ⟨liveness, hprobe, hends⟩ := Except.bind_eq_ok.mp hrest
    obtain rfl := Except.ok.inj hends
    cases hprobed : s.db.probeLiveness validation (nowMs - env.rootWindowMs) with
    | error e =>
      rw [hprobed] at hprobe
      cases hprobe
    | ok probed =>
      rw [hprobed] at hprobe
      obtain rfl := Except.ok.inj hprobe
      have hfacts := probeLiveness_ok hprobed
      cases probed with
      | ok u => exact ⟨rfl, by simp [OfferState.ofLiveness]⟩
      | error rejection =>
        have hcode := offerLiveness_listed hsound hoffer hlisted hfacts
        refine ⟨rfl, fun failure hfailure => ?_⟩
        rw [← Option.some.inj hfailure]
        simp [OfferRejection.stateFailure, hcode]

theorem initialVerdict_shape {request : OfferValidationRequest} {offerId : String}
    {anchor : ValidationStateAnchor} {state : OfferState} {verdict : ValidationVerdict}
    (hfailure : state.failure = none)
    (h : initialVerdict request offerId validation anchor state = .ok (some verdict)) :
    verdict.computedOfferId = some offerId ∧ verdict.status = .live ∧
      verdict.code = .unsupportedShape := by
  unfold initialVerdict at h
  cases hexpiry : state.expiresAt with
  | none => simp [hfailure, hexpiry] at h
  | some expiresAt =>
    simp only [hfailure, hexpiry] at h
    split_ifs at h with hshape
    · exact (checkedVerdict_fields (some_map_eq_ok h)).2
    · cases Except.ok.inj h

theorem finalVerdict_crypto {request : OfferValidationRequest} {offerId : String}
    {tx : OfferTransaction} {proofMs : Int} {anchor : ValidationStateAnchor} {state : OfferState}
    {verdict : ValidationVerdict} (hfailure : state.failure = none)
    (h : finalVerdict request offerId validation (verifyOfferCrypto ledger tx proofMs) anchor state =
      .ok verdict) :
    verdict.computedOfferId = some offerId ∧ verdict.status = .live ∧
      verdict.code ∈ [.valid, .expired, .proofInvalid, .signatureInvalid] := by
  unfold finalVerdict verifyOfferCrypto at h
  cases hproof : ledger.wellFormed tx proofMs with
  | error message =>
    simp only [hfailure, hproof] at h
    obtain ⟨code, hcode, hverdict⟩ := Except.bind_eq_ok.mp h
    obtain ⟨-, hid, hstatus, hsaid⟩ := checkedVerdict_fields hverdict
    exact ⟨hid, hstatus, hsaid ▸ List.mem_cons_of_mem _ (canonicalValidatorCode_crypto hcode)⟩
  | ok u =>
    simp only [hfailure, hproof] at h
    cases hexpiry : state.expiresAt with
    | none => simp [hexpiry] at h
    | some expiresAt =>
      simp only [hexpiry] at h
      split_ifs at h with hshape
      obtain ⟨-, hid, hstatus, hcode⟩ := checkedVerdict_fields h
      exact ⟨hid, hstatus, by simp [hcode]⟩

/-- **What an indexed offer can be refused for.** In every reachable state of the node, the verdict on
an offer whose row is live knows the offer by its identity and calls it live, and a refusal is for its
expiry, an aged root, its shape, or a proof that no longer checks: never for its bytes, and never for an
input that is spent or missing. -/
theorem liveOffer_refused {ctx : BlockContext} (hrun : NodeRun env ledger ctx s.db)
    (hcodec : CodecRules decode) (hoffer : offer ∈ s.db.offerFile)
    (hround : ∀ rawBytes, offer.transactionHex = ledger.encode rawBytes →
      decode offer.transactionHex = .ok rawBytes)
    {proofMs : Int} {verdict : ValidationVerdict}
    (h : s.verdictAt env ledger decode proofMs
      ⟨offerValidationProfile, offer.offerHash, offer.transactionHex⟩ = .ok verdict) :
    verdict.computedOfferId = some offer.offerHash ∧ verdict.status = .live ∧
      verdict.code ∈ [.valid, .expired, .rootUnknown, .unsupportedShape, .proofInvalid,
        .signatureInvalid] := by
  have hsound := hrun.sound
  obtain ⟨validation, hlisted⟩ := hsound.listed offer hoffer
  obtain ⟨rawBytes, hbytes, hhash, hvalidated⟩ := hlisted.declares
  have hdecode : decode offer.transactionHex = .ok rawBytes := hround rawBytes hbytes
  have hnamed : offerHashFromBlob ledger decode offer.transactionHex = .ok offer.offerHash := by
    unfold offerHashFromBlob
    rw [hdecode, hhash]
    rfl
  have hdecodes : validateZswapOffer ledger decode env.offerMaxBytes offer.transactionHex =
      .ok validation := (validateZswapOffer_ok hcodec).mpr ⟨rawBytes, hdecode, hvalidated⟩
  obtain ⟨anchor, hanchor, hrest⟩ := Except.bind_eq_ok.mp h
  rw [if_neg (by simp)] at hrest
  obtain ⟨structural, hstructural, hstates⟩ := Except.bind_eq_ok.mp hrest
  obtain rfl : structural = .inr (offer.offerHash, validation) := by
    rw [structuralVerdict_eq_inr.mpr ⟨hdecodes, hnamed, rfl⟩] at hstructural
    exact (Except.ok.inj hstructural).symm
  obtain ⟨state, hstate, hdecides⟩ := Except.bind_eq_ok.mp hstates
  obtain ⟨hlive, hfailures⟩ := offerState_listed hsound hoffer hlisted hstate
  obtain ⟨early, hearly, hends⟩ := Except.bind_eq_ok.mp hdecides
  cases hfailure : state.failure with
  | some failure =>
    rw [initialVerdict_failure hfailure] at hearly
    cases early with
    | none => exact absurd hearly (some_map_ne_none _)
    | some decided =>
      obtain ⟨-, hid, hstatus, hcode⟩ := checkedVerdict_fields (some_map_eq_ok hearly)
      obtain rfl := Except.ok.inj hends
      refine ⟨hid, hstatus.trans hlive, ?_⟩
      have hlisted' := hfailures failure hfailure
      rw [hcode]
      simp only [List.mem_cons, List.not_mem_nil, or_false] at hlisted' ⊢
      rcases hlisted' with hexpired | hroot
      · simp [hexpired]
      · simp [hroot]
  | none =>
    cases early with
    | some decided =>
      obtain rfl := Except.ok.inj hends
      obtain ⟨hid, hstatus, hcode⟩ := initialVerdict_shape hfailure hearly
      exact ⟨hid, hstatus, by simp [hcode]⟩
    | none =>
      obtain ⟨hid, hstatus, hcode⟩ := finalVerdict_crypto hfailure hends
      refine ⟨hid, hstatus, ?_⟩
      simp only [List.mem_cons, List.not_mem_nil, or_false] at hcode ⊢
      tauto

end Answers

/-! ## One served offer -/

namespace ServedOffer

def env : NodeEnv := OneOffer.env

def token (digit : Char) : String := String.ofList (List.replicate 64 digit)

/-- A transaction that gives one shielded token for another; its root is `04`. -/
def ledger : Ledger := { SupersededAfterIntake.ledger with
  deriveTokenLegs := fun _ => .ok ([⟨token 'a', "1", .shielded⟩], [⟨token 'b', "2", .shielded⟩])
  encode := fun rawBytes => if rawBytes = [1] then RuledOffer.blob else ""
  sha256 := fun _ => token 'c' }

def rooted : Db := zswapRoot env ⟨2, 1000000⟩ (some "04") {}

def indexed : Except String Db := celestiaZswap env ledger ⟨2, 1000000⟩ [1] rooted

/-- The offer is indexed in block 2, the newest. -/
def state : NodeState := ⟨some (2, 1000000), indexed.toOption.getD {}⟩

/-- A synchronized backend where nothing is committed. -/
def world : Nat → Moment := fun _ => ⟨.ok state, fun _ => .ok ⟨.ok, some 2⟩, none⟩

theorem committed : CommittedWorld world where
  ordered _ hs ht := by rw [Option.some.inj (hs.symm.trans ht)]
  same hs ht _ := Option.some.inj (hs.symm.trans ht)

def request : ExactFilesRequest := ⟨offerValidationProfile, [token 'c']⟩

theorem response_served : ((readExactFiles env ledger RuledOffer.decode request).run world
    0).1.toOption.map (fun response => response.files.map fun file =>
      (file.offer, file.verdict.code)) = some [(some RuledOffer.blob, .valid)] := by
  decide +kernel

theorem quiet : Quiet state world := fun _ => ⟨rfl, rfl⟩

theorem anchored : validationStateAnchorFromRow state.latestBlock = .ok ⟨2, 1000000⟩ := rfl

theorem synced (k : Nat) (fresh : Bool) : (world k).sync fresh = .ok ⟨.ok, some 2⟩ := rfl

theorem indexed_rows : state.db.offerFile.map (fun offer => (offer.offerHash, offer.transactionHex)) =
    [(token 'c', RuledOffer.blob)] := by
  decide +kernel

theorem state_run : NodeRun env ledger ⟨2, 1000000⟩ state.db := by
  have hrooted : NodeRun env ledger ⟨2, 1000000⟩ rooted :=
    (NodeRun.start _).input (.zswapRoot (some "04")) rfl
  cases hindexed : indexed with
  | error message =>
    have hrows := indexed_rows
    simp [state, hindexed, Except.toOption] at hrows
  | ok db =>
    have hstate : state.db = db := by simp [state, hindexed, Except.toOption]
    rw [hstate]
    exact hrooted.input (.celestiaZswap [1]) hindexed

theorem verdict_valid : (state.verdictAt env ledger RuledOffer.decode 1000000
    ⟨offerValidationProfile, token 'c', RuledOffer.blob⟩).toOption.map (·.code) = some .valid := by
  decide +kernel

end ServedOffer

open ServedOffer in
/-- The client gets the bytes of the one offer, which is usable. -/
theorem readExactFiles_ok_served : ∃ j file, file.offer = some RuledOffer.blob ∧
    FileAnswer env ledger RuledOffer.decode world 0 j offerValidationProfile file := by
  obtain ⟨response, hresponse, hfiles⟩ := Option.map_eq_some_iff.mp response_served
  cases hrun : (readExactFiles env ledger RuledOffer.decode request).run world 0 with
  | mk result j =>
    rw [hrun] at hresponse
    obtain rfl := Except.eq_ok_of_toOption hresponse
    obtain ⟨-, -, hanswers⟩ := readExactFiles_ok committed
      (show exactFilesRequest [token 'c'] = .ok request from rfl) hrun
    obtain ⟨file, hfile, hserved⟩ := List.map_eq_singleton_iff.mp hfiles
    refine ⟨j, file, congrArg Prod.fst hserved, hanswers file ?_⟩
    rw [hfile]
    exact List.mem_singleton.mpr rfl

open ServedOffer in
/-- The call of the quiet backend is the verdict on its state, which is positive. -/
theorem validateOfferForUse_quiet_served :
    ((validateOfferForUse env ledger RuledOffer.decode
      ⟨offerValidationProfile, token 'c', RuledOffer.blob⟩).run world 0).1.toOption.map (·.code) =
      some .valid := by
  rw [validateOfferForUse_quiet quiet anchored synced]
  exact verdict_valid

open ServedOffer in
/-- The verdict on the one indexed offer is one of those. -/
theorem liveOffer_refused_served : ∃ verdict : ValidationVerdict,
    verdict.computedOfferId = some (token 'c') ∧ verdict.code = .valid := by
  obtain ⟨verdict, hverdict, hcode⟩ := Option.map_eq_some_iff.mp verdict_valid
  obtain ⟨offer, hoffers, hrow⟩ := List.map_eq_singleton_iff.mp indexed_rows
  obtain ⟨hhash, hbytes⟩ := Prod.mk.inj hrow
  have hread : ∀ rawBytes, offer.transactionHex = ledger.encode rawBytes →
      RuledOffer.decode offer.transactionHex = .ok rawBytes := by
    intro rawBytes hencoded
    rw [hbytes] at hencoded ⊢
    by_cases hone : rawBytes = [1]
    · rw [hone]
      rfl
    · rw [show ledger.encode rawBytes = "" from if_neg hone] at hencoded
      exact absurd hencoded (by decide)
  have hrefused := liveOffer_refused state_run RuledOffer.codec
    (hoffers ▸ List.mem_singleton.mpr rfl) hread
    (hhash.symm ▸ hbytes.symm ▸ Except.eq_ok_of_toOption hverdict)
  exact ⟨verdict, hhash ▸ hrefused.1, hcode⟩

end ZswapKernel
