import ZswapKernel.Lib.NumberText
import ZswapKernel.Lib.Program
import ZswapKernel.Node.FillVerdict
import ZswapKernel.Node.PriceMap

/-!
# The canonical token registry

`validateCanonicalRegistry` (`packages/database/token-registry.ts`): the published document of the
six canonical tokens, checked field by field before any transaction begins. `Date.parse` is a
parameter.

A `ValidatedRegistry` holds the six tokens in their order, each of a colour of its own in lower case
hex; the checks are where it comes from.

* `validateTokens_spec`: what the loop over the six symbols accepts.
-/

namespace ZswapKernel

namespace TokenRegistry

/-- `RegistryNetwork`. -/
inductive RegistryNetwork
  | preview
  | preprod
  | stagenet
  deriving DecidableEq, Repr

def RegistryNetwork.text : RegistryNetwork → String
  | .preview => "preview"
  | .preprod => "preprod"
  | .stagenet => "stagenet"

/-- `CanonicalSymbol`. -/
inductive CanonicalSymbol
  | twBTC
  | twETH
  | twUSDC
  | twUSDM
  | utwUSDC
  | utwBTC
  deriving DecidableEq, Repr

structure Faucet where
  humanAmount : String
  baseUnits : String

structure TokenDefinition where
  name : String
  registryName : String
  kind : String
  decimals : Nat
  domainSeparator : String
  faucet : Faucet
  assetId : String

namespace CanonicalSymbol

def text : CanonicalSymbol → String
  | twBTC => "twBTC"
  | twETH => "twETH"
  | twUSDC => "twUSDC"
  | twUSDM => "twUSDM"
  | utwUSDC => "utwUSDC"
  | utwBTC => "utwBTC"

/-- `CANONICAL_TOKENS[symbol]`. -/
def definition : CanonicalSymbol → TokenDefinition
  | twBTC => ⟨"TWBTC", "Test-wrapped BTC", "shielded", 8, "mint-test-tokens:twBTC",
      ⟨"1", "100000000"⟩, "bitcoin"⟩
  | twETH => ⟨"TWETH", "Test-wrapped ETH", "shielded", 18, "mint-test-tokens:twETH",
      ⟨"5", "5000000000000000000"⟩, "ethereum"⟩
  | twUSDC => ⟨"TWUSDC", "Test-wrapped USDC", "shielded", 6, "mint-test-tokens:twUSDC",
      ⟨"10000", "10000000000"⟩, "usd-coin"⟩
  | twUSDM => ⟨"TWUSDM", "Test-wrapped USDM", "shielded", 6, "mint-test-tokens:twUSDM",
      ⟨"10000", "10000000000"⟩, "usdm-2"⟩
  | utwUSDC => ⟨"UTWUSDC", "Unshielded-test-wrapped USDC", "unshielded", 6,
      "mint-test-tokens:utwUSDC", ⟨"10000", "10000000000"⟩, "usd-coin"⟩
  | utwBTC => ⟨"UTWBTC", "Unshielded-test-wrapped BTC", "unshielded", 8,
      "mint-test-tokens:utwBTC", ⟨"1", "100000000"⟩, "bitcoin"⟩

/-- `CANONICAL_SYMBOLS`. -/
def all : List CanonicalSymbol := [twBTC, twETH, twUSDC, twUSDM, utwUSDC, utwBTC]

/-- The symbols have names of their own. -/
theorem name_injective {a b : CanonicalSymbol} (h : a.definition.name = b.definition.name) :
    a = b := by
  revert h
  cases a <;> cases b <;> decide

/-- Every definition passes the checks on decimals and on the domain separator. -/
theorem definition_bounds (symbol : CanonicalSymbol) : symbol.definition.decimals ≤ 38 ∧
    symbol.definition.domainSeparator.utf8ByteSize ≤ 32 := by
  cases symbol <;> decide

end CanonicalSymbol

/-- A color as the registry keeps it: 64 hex digits in lower case. -/
def Color (color : String) : Prop := hex64 color = true ∧ toLowerCase color = color

instance (color : String) : Decidable (Color color) := inferInstanceAs (Decidable (_ ∧ _))

/-- `CanonicalToken`: everything but the color is the definition of its symbol. -/
structure CanonicalToken where
  symbol : CanonicalSymbol
  tokenColor : String
  isColor : Color tokenColor

namespace CanonicalToken

variable (token : CanonicalToken)

def name : String := token.symbol.definition.name

/-- The token as a row of `known_tokens`. -/
def known : KnownToken where
  tokenColor := token.tokenColor
  name := token.name
  kind := token.symbol.definition.kind
  decimals := token.symbol.definition.decimals
  assetId := some token.symbol.definition.assetId

end CanonicalToken

structure ValidatedRegistry where
  network : RegistryNetwork
  revision : String
  tokens : List CanonicalToken
  ordered : tokens.map (·.symbol) = CanonicalSymbol.all
  distinct : (tokens.map (·.tokenColor)).Nodup
  revised : revision ≠ ""

/-- The six names. -/
def managedNames : List String := CanonicalSymbol.all.map fun symbol => symbol.definition.name

namespace ValidatedRegistry

variable (registry : ValidatedRegistry)

def names : List String := registry.tokens.map (·.name)

def colors : List String := registry.tokens.map (·.tokenColor)

theorem names_eq : registry.names = managedNames := by
  unfold names managedNames
  rw [← registry.ordered, List.map_map]
  rfl

/-- Tokens of one color are one token. -/
theorem eq_of_color {a b : CanonicalToken} (ha : a ∈ registry.tokens) (hb : b ∈ registry.tokens)
    (h : a.tokenColor = b.tokenColor) : a = b :=
  List.inj_on_of_nodup_map registry.distinct ha hb h

/-- A managed name has its token. -/
theorem exists_token {name : String} (h : name ∈ managedNames) :
    ∃ token ∈ registry.tokens, token.name = name := by
  rw [← registry.names_eq] at h
  exact List.mem_map.1 h

end ValidatedRegistry

theorem nodup_managedNames : managedNames.Nodup := by
  decide

/-! ## The checks -/

def object (value : Option Json) (path : String) : Except String Json :=
  match value with
  | some (.object fields) => .ok (.object fields)
  | _ => .error s!"{path} must be an object"

def array (value : Option Json) (path : String) : Except String (List Json) :=
  match value with
  | some (.array values) => .ok values
  | _ => .error s!"{path} must be an array"

def nonEmptyString (value : Option Json) (path : String) : Except String String :=
  match Json.str value with
  | some text => if text = "" then .error s!"{path} must be a non-empty string" else .ok text
  | none => .error s!"{path} must be a non-empty string"

def exactString (value : Option Json) (expected path : String) : Except String Unit :=
  if Json.str value = some expected then .ok ()
  else .error s!"{path} must be {(Json.string expected).stringify}"

/-- `hex(value, path, true)`. -/
def hex32 (value : Option Json) (path : String) : Except String {color // Color color} := do
  let result ← nonEmptyString value path
  if h : hex64 result = true then
    .ok ⟨toLowerCase result, (hex64_toLowerCase result).trans h, toLowerCase_toLowerCase result⟩
  else .error s!"{path} must be 32-byte hex"

/-- `hex(value, path)`. -/
def hex (value : Option Json) (path : String) : Except String String := do
  let result ← nonEmptyString value path
  if result.toList.all isHexDigit then .ok (toLowerCase result)
  else .error s!"{path} must be hex"

/-- `dateTime`; `parses` is whether `Date.parse` gives a number. -/
def dateTime (parses : String → Bool) (value : Option Json) (path : String) :
    Except String Unit := do
  let raw ← nonEmptyString value path
  if parses raw then .ok () else .error s!"{path} must be a date-time"

/-- Each of the fields is a text. -/
def nonEmptyFields (value : Json) (path : String) (fields : List String) : Except String Unit :=
  fields.forM fun field => do discard (nonEmptyString (value.field field) s!"{path}.{field}")

def validateNetwork (raw : Option Json) (expected : RegistryNetwork) (path : String) :
    Except String Json := do
  let network ← object raw path
  exactString (network.field "key") expected.text s!"{path}.key"
  exactString (network.field "networkId") expected.text s!"{path}.networkId"
  let expectedProtocol := if expected = .stagenet then "midnight-2.x" else "midnight-1.x"
  exactString (network.field "protocolFamily") expectedProtocol s!"{path}.protocolFamily"
  nonEmptyFields network path ["displayName", "chainId", "stackIdentity"]
  return network

/-- The versions that a compatibility names. -/
def compatibilityFields : List String :=
  ["compiler", "compactRuntime", "ledger", "midnightJs", "walletSdk"]

def validateCompatibility (raw : Option Json) (network : RegistryNetwork) (path : String) :
    Except String Json := do
  let compatibility ← object raw path
  exactString (compatibility.field "profile") (if network = .stagenet then "v2" else "v1")
    s!"{path}.profile"
  nonEmptyFields compatibility path compatibilityFields
  return compatibility

/-- `/^(0|[1-9][0-9]*)$/`. -/
def isCount (text : String) : Bool :=
  match text.toList with
  | [] => false
  | ['0'] => true
  | c :: digits => c != '0' && (c :: digits).all Char.isDigit

def failUnless (condition : Bool) (message : String) : Except String Unit :=
  if condition then .ok () else .error message

/-- The part of a deployment that says where it runs. -/
def validateDeployed (deployment : Json) (path : String) : Except String Unit := do
  let network ← object (deployment.field "network") s!"{path}.network"
  let key ← nonEmptyString (network.field "key") s!"{path}.network.key"
  failUnless (["preview", "preprod", "stagenet", "undeployed"].contains key)
    s!"{path}.network.key is invalid"
  nonEmptyFields network s!"{path}.network"
    ["displayName", "networkId", "protocolFamily", "chainId", "stackIdentity"]
  let compatibility ← object (deployment.field "compatibility") s!"{path}.compatibility"
  let profile := Json.str (compatibility.field "profile")
  failUnless (profile = some "v1" || profile = some "v2")
    s!"{path}.compatibility.profile is invalid"
  nonEmptyFields compatibility s!"{path}.compatibility" compatibilityFields

def isNull : Option Json → Bool
  | some .null => true
  | _ => false

/-- A field that is not null is checked. -/
def unlessNull (value : Option Json) (check : Except String Unit) : Except String Unit :=
  if isNull value then .ok () else check

def validateToolchain (deployment : Json) (path : String) : Except String Unit := do
  let raw := deployment.field "deploymentToolchain"
  unlessNull raw (do
    let toolchain ← object raw s!"{path}.deploymentToolchain"
    nonEmptyFields toolchain s!"{path}.deploymentToolchain"
      ["runner", "runnerVersion", "walletSdk"])
  failUnless (!(Json.str (deployment.field "status") = some "active" && isNull raw))
    s!"{path}.deploymentToolchain is required for an active deployment"

/-- The maintenance authority: an address unless it is renounced. -/
def validateAuthority (deployment : Json) (path : String) : Except String Unit := do
  let authority ← object (deployment.field "maintenanceAuthority") s!"{path}.maintenanceAuthority"
  let address := authority.field "address"
  let checkAddress := discard (nonEmptyString address s!"{path}.maintenanceAuthority.address")
  match Json.str (authority.field "status") with
  | some "retained" => checkAddress
  | some "renounced" =>
    failUnless (isNull address) s!"{path}.maintenanceAuthority.address must be null when renounced"
  | some "unknown" => unlessNull address checkAddress
  | _ => .error s!"{path}.maintenanceAuthority.status is invalid"

def validateArtifact (deployment : Json) (path : String) : Except String Unit := do
  let artifact ← object (deployment.field "artifact") s!"{path}.artifact"
  let sourceRevision ← hex (artifact.field "sourceRevision") s!"{path}.artifact.sourceRevision"
  failUnless (sourceRevision.length = 40) s!"{path}.artifact.sourceRevision must be a git SHA"
  discard (hex32 (artifact.field "artifactSha256") s!"{path}.artifact.artifactSha256")
  discard (nonEmptyString (artifact.field "compilerVersion") s!"{path}.artifact.compilerVersion")
  let release := artifact.field "openZeppelinRelease"
  unlessNull release (discard (nonEmptyString release s!"{path}.artifact.openZeppelinRelease"))

def validateDeployment (parses : String → Bool) (raw : Json) (symbol : CanonicalSymbol) :
    Except String Json := do
  let path := s!"tokens.{symbol.text}.deployment"
  let deployment ← object (some raw) path
  discard (nonEmptyString (deployment.field "deploymentId") s!"{path}.deploymentId")
  let status := Json.str (deployment.field "status")
  failUnless (status = some "active" || status = some "superseded") s!"{path}.status is invalid"
  discard (hex32 (deployment.field "contractAddress") s!"{path}.contractAddress")
  discard (hex32 (deployment.field "tokenId") s!"{path}.tokenId")
  discard (hex (deployment.field "deploymentTransaction") s!"{path}.deploymentTransaction")
  dateTime parses (deployment.field "deployedAt") s!"{path}.deployedAt"
  dateTime parses (deployment.field "verifiedAt") s!"{path}.verifiedAt"
  validateDeployed deployment path
  validateToolchain deployment path
  let confirmation ← object (deployment.field "confirmation") s!"{path}.confirmation"
  failUnless ((Json.str (confirmation.field "blockHeight")).any isCount)
    s!"{path}.confirmation.blockHeight is invalid"
  discard (nonEmptyString (confirmation.field "blockHash") s!"{path}.confirmation.blockHash")
  validateAuthority deployment path
  validateArtifact deployment path
  return deployment

/-- The raw tokens by their symbols. -/
def indexBySymbol : List Json → List (String × Json) → Except String (List (String × Json))
  | [], bySymbol => .ok bySymbol
  | raw :: rawTokens, bySymbol => do
    let token ← object (some raw) "token"
    let symbol ← nonEmptyString (token.field "symbol") "token.symbol"
    if (bySymbol.lookup symbol).isSome then .error s!"duplicate token symbol {symbol}"
    else indexBySymbol rawTokens (bySymbol ++ [(symbol, token)])

/-- The deployments have ids of their own. -/
def distinctDeployments (symbol : CanonicalSymbol) :
    List Json → List (Option String) → Except String Unit
  | [], _ => .ok ()
  | deployment :: deployments, deploymentIds =>
    let deploymentId := Json.str (deployment.field "deploymentId")
    if deploymentId ∈ deploymentIds then
      .error (s!"{symbol.text} has duplicate deploymentId " ++ deploymentId.getD "")
    else distinctDeployments symbol deployments (deploymentIds ++ [deploymentId])

/-- The one active deployment, which `activeDeploymentId` selects. -/
def activeDeployment (symbol : CanonicalSymbol) (activeId : String) (deployments : List Json) :
    Except String Json :=
  match deployments.filter fun deployment =>
      Json.str (deployment.field "status") = some "active" with
  | [selected] =>
    if Json.str (selected.field "deploymentId") = some activeId then .ok selected
    else .error s!"{symbol.text}.activeDeploymentId must select exactly one active deployment"
  | _ => .error s!"{symbol.text}.activeDeploymentId must select exactly one active deployment"

/-- The fields that name the token. -/
def validateIdentity (symbol : CanonicalSymbol) (token : Json) : Except String Unit := do
  let definition := symbol.definition
  exactString (token.field "name") definition.registryName s!"{symbol.text}.name"
  failUnless (match token.field "decimals" with
    | some (.number value) => value = .finite definition.decimals && definition.decimals ≤ 38
    | _ => false) s!"{symbol.text}.decimals mismatch or outside database bounds"
  exactString (token.field "privacy") definition.kind s!"{symbol.text}.privacy"
  exactString (token.field "domainSeparator") definition.domainSeparator
    s!"{symbol.text}.domainSeparator"
  failUnless (definition.domainSeparator.utf8ByteSize ≤ 32)
    s!"{symbol.text}.domainSeparator exceeds 32 UTF-8 bytes"
  let faucet ← object (token.field "faucet") s!"{symbol.text}.faucet"
  exactString (faucet.field "humanAmount") definition.faucet.humanAmount
    s!"{symbol.text}.faucet.humanAmount"
  exactString (faucet.field "baseUnits") definition.faucet.baseUnits
    s!"{symbol.text}.faucet.baseUnits"

/-- The color of a token: the token id of its active deployment, on the registry's network. -/
def validateToken (parses : String → Bool) (network compatibility : Json)
    (symbol : CanonicalSymbol) (token : Json) : Except String {color // Color color} := do
  validateIdentity symbol token
  let activeId ← nonEmptyString (token.field "activeDeploymentId")
    s!"{symbol.text}.activeDeploymentId"
  let raw ← array (token.field "deployments") s!"{symbol.text}.deployments"
  let deployments ← raw.mapM fun deployment => validateDeployment parses deployment symbol
  distinctDeployments symbol deployments []
  let selected ← activeDeployment symbol activeId deployments
  let selectedNetwork ← object (selected.field "network") s!"{symbol.text}.active.network"
  ["key", "networkId", "protocolFamily", "chainId", "stackIdentity"].forM fun field =>
    failUnless (Json.str (selectedNetwork.field field) = Json.str (network.field field))
      s!"{symbol.text}.active.network.{field} does not match registry network"
  let selectedCompatibility ← object (selected.field "compatibility")
    s!"{symbol.text}.active.compatibility"
  failUnless (Json.str (selectedCompatibility.field "profile") =
      Json.str (compatibility.field "profile"))
    s!"{symbol.text}.active.compatibility.profile does not match registry compatibility"
  hex32 (selected.field "tokenId") s!"{symbol.text}.active.tokenId"

/-- The loop over the symbols. `colors` are those taken. -/
def validateTokens (parses : String → Bool) (network compatibility : Json)
    (bySymbol : List (String × Json)) :
    List CanonicalSymbol → List String → Except String (List CanonicalToken)
  | [], _ => .ok []
  | symbol :: symbols, colors =>
    match bySymbol.lookup symbol.text with
    | none => .error s!"missing canonical token {symbol.text}"
    | some token => do
      let color ← validateToken parses network compatibility symbol token
      if color.val ∈ colors then .error s!"duplicate active tokenId {color.val}"
      else
        let tokens ← validateTokens parses network compatibility bySymbol symbols
          (colors ++ [color.val])
        return ⟨symbol, color.val, color.property⟩ :: tokens

/-- **The tokens that are accepted**: one for each symbol, their colors new and distinct. -/
theorem validateTokens_spec {parses : String → Bool} {network compatibility : Json}
    {bySymbol : List (String × Json)} :
    ∀ {symbols : List CanonicalSymbol} {colors : List String} {tokens : List CanonicalToken},
      validateTokens parses network compatibility bySymbol symbols colors = .ok tokens →
      tokens.map (·.symbol) = symbols ∧ (tokens.map (·.tokenColor)).Nodup ∧
        ∀ token ∈ tokens, token.tokenColor ∉ colors
  | [], colors, tokens, h => by
    obtain rfl := Except.ok.inj h
    exact ⟨rfl, List.nodup_nil, nofun⟩
  | symbol :: symbols, colors, tokens, h => by
    unfold validateTokens at h
    cases htoken : bySymbol.lookup symbol.text with
    | none => rw [htoken] at h; cases h
    | some token =>
      rw [htoken] at h
      obtain ⟨color, -, h⟩ := Except.bind_eq_ok.1 h
      obtain ⟨hnew, h⟩ := Except.ite_error_eq_ok.1 h
      obtain ⟨rest, hrest, h⟩ := Except.bind_eq_ok.1 h
      obtain rfl := Except.ok.inj h
      obtain ⟨hsymbols, hnodup, hfresh⟩ := validateTokens_spec hrest
      refine ⟨?_, ?_, fun other hother => ?_⟩
      · rw [List.map_cons, hsymbols]
      · rw [List.map_cons, List.nodup_cons]
        refine ⟨fun hmem => ?_, hnodup⟩
        obtain ⟨other, hother, hcolor⟩ := List.mem_map.1 hmem
        exact hfresh other hother (hcolor ▸ List.mem_append_right _ List.mem_cons_self)
      · rcases List.mem_cons.1 hother with rfl | hother
        · exact hnew
        · exact fun hmem => hfresh other hother (List.mem_append_left _ hmem)

theorem nonEmptyString_ne {value : Option Json} {path text : String}
    (h : nonEmptyString value path = .ok text) : text ≠ "" := by
  unfold nonEmptyString at h
  cases hstr : Json.str value with
  | none => rw [hstr] at h; cases h
  | some own =>
    rw [hstr] at h
    obtain ⟨hne, h⟩ := Except.ite_error_eq_ok.1 h
    exact Except.ok.inj h ▸ hne

/-- The document's own fields: the revision, the network, the compatibility and the raw tokens. -/
def validateHeader (parses : String → Bool) (registry : Json) (expectedNetwork : RegistryNetwork) :
    Except String ({revision : String // revision ≠ ""} × Json × Json × List (String × Json)) := do
  exactString (registry.field "schemaVersion") "1.0.0" "schemaVersion"
  exactString (registry.field "status") "ready" "status"
  match h : nonEmptyString (registry.field "registryRevision") "registryRevision" with
  | .error message => .error message
  | .ok revision =>
    dateTime parses (registry.field "generatedAt") "generatedAt"
    let network ← validateNetwork (registry.field "network") expectedNetwork "network"
    let compatibility ← validateCompatibility (registry.field "compatibility") expectedNetwork
      "compatibility"
    let rawTokens ← array (registry.field "tokens") "tokens"
    failUnless (rawTokens.length = CanonicalSymbol.all.length)
      "registry must contain exactly the six canonical tokens"
    let bySymbol ← indexBySymbol rawTokens []
    return (⟨revision, nonEmptyString_ne h⟩, network, compatibility, bySymbol)

/-- `validateCanonicalRegistry`. -/
def validateCanonicalRegistry (parses : String → Bool) (value : Json)
    (expectedNetwork : RegistryNetwork) : Except String ValidatedRegistry := do
  let registry ← object (some value) "registry"
  let (revision, network, compatibility, bySymbol) ←
    validateHeader parses registry expectedNetwork
  match h : validateTokens parses network compatibility bySymbol CanonicalSymbol.all [] with
  | .error message => .error message
  | .ok tokens =>
    return ⟨expectedNetwork, revision.val, tokens, (validateTokens_spec h).1,
      (validateTokens_spec h).2.1, revision.property⟩

end TokenRegistry

end ZswapKernel
