import Tagwise.Api.Server
import Tagwise.Moderation.Gate

/-! The endpoints over tags, from the raw parameters of a request. Rate limits stand
before the handlers and are no part of them. -/

namespace Tagwise.Api
open Js Tagwise.Core Services Lib Moderation

/-- Every endpoint that takes a tag runs it through this first. -/
def normalizeTagParamOrThrow (raw : JsString) : ApiAsync NormalizedTag :=
  match normalizeTag raw with
  | .accepted tag => return tag
  | .rejected reason => .fail (.badRequest (js "invalid tag: " ++ reason.text) reason.text)

/-- `if (!row || row.status !== "active") throw`. -/
def activeOrThrow (error : Thrown) : Option Identity → ApiAsync Identity
  | none => .fail (.thrown error)
  | some row => if row.status ≠ .active then .fail (.thrown error) else return row

def notOwner : Thrown := .forbidden (js "caller does not own this tag") none

def identityKey (tag : NormalizedTag) : JsString := js "identity:" ++ tag.text

theorem identityKey_unit (tag : NormalizedTag) {i : Nat} {u : UInt16} (hi : 9 ≤ i)
    (h : (identityKey tag)[i]? = some u) : isTagUnit u = true := by
  have hl : (js "identity:").length = 9 := by decide
  rw [identityKey, List.getElem?_append_right (by omega)] at h
  exact tag.units u (List.mem_of_getElem? h)

/-- The cache reader passes over the keys of `identity`, whatever the prefix is. -/
theorem RedisCacheReader.isResolveKey_identity (dep : Deployment) (tag : NormalizedTag) :
    RedisCacheReader.isResolveKey dep (identityKey tag) = false := by
  by_contra h
  obtain ⟨rest,hrest⟩ := List.isPrefixOf_iff_prefix.mp (Bool.not_eq_false _ ▸ h)
  have hunit : ∀ j, j < 8 →
      (identityKey tag)[dep.redisKeyPrefix.length + j]? = (js "resolve:")[j]? := by
    intro j hj
    have hl : (js "resolve:").length = 8 := by decide
    rw [← hrest, List.append_assoc, List.getElem?_append_right (by omega), Nat.add_sub_cancel_left,
      List.getElem?_append_left (by omega)]
  by_cases hp : dep.redisKeyPrefix.length < 2
  · have hr := hunit 0 (by decide)
    have hk : ∀ i < 2, (identityKey tag)[i]? = (js "identity:")[i]? := fun i hi =>
      List.getElem?_append_left (by rw [show (js "identity:").length = 9 by decide]; omega)
    rw [Nat.add_zero, hk _ hp] at hr
    interval_cases dep.redisKeyPrefix.length <;> exact absurd hr (by decide)
  · exact absurd (identityKey_unit tag (by omega) (hunit 7 (by decide))) (by decide)

/-- The cache is asked under a key that it passes over, so it is left out here. -/
def identity (tag : NormalizedTag) : Async IdentityResponse := do
  match ← findActiveIdentity tag with
  | none => .fail (notFound tag)
  | some row => return toIdentityResponse tag row

/-- The body of `qr` and of `paymentLink`. -/
structure PaymentLinkResponse where
  tag : JsString
  wallet : JsString
  paymentLink : JsString
  deriving DecidableEq

def linkOf (dep : Deployment) (tag : NormalizedTag) : Async PaymentLinkResponse := do
  match ← findActiveIdentity tag with
  | none => .fail (notFound tag)
  | some row => return {
      tag := presentTag tag
      wallet := row.wallet
      paymentLink := buildPaymentLink dep.paymentLinkBaseUrl tag }

def qr (dep : Deployment) (tag : NormalizedTag) : Async PaymentLinkResponse := linkOf dep tag

def paymentLink (dep : Deployment) (tag : NormalizedTag) : Async PaymentLinkResponse :=
  linkOf dep tag

def searchResultLimit : Nat := 10
def searchOverFetchLimit : Nat := 50

def rankOf (row : Identity) (query : JsString) : Nat :=
  if row.tag = query then 0
  else if query.isPrefixOf row.tag then 1
  else
    let displayName := (row.displayName.map toLowerCase).getD []
    if displayName = query then 2
    else if query.isPrefixOf displayName then 3
    else 4

structure SearchResultItem where
  tag : JsString
  displayName : Option JsString
  avatar : Option JsString
  verified : Bool
  deriving DecidableEq

def ApiConfig.finds (cfg : ApiConfig) (query : JsString) (row : Identity) : Bool :=
  cfg.tagStartsWith row.tag query || row.displayName.any (cfg.displayNameContains · query)

/-- The comparison of the sort, of rows beside their ranks. -/
def ranksBefore (a b : Identity × Nat) : Bool :=
  a.2 < b.2 || (a.2 = b.2 && a.1.tag.length ≤ b.1.tag.length)

def search (cfg : ApiConfig) (rawQuery : JsString) : ApiAsync (List SearchResultItem) :=
  let query := toLowerCase (trim rawQuery)
  if query.length = 0 then return []
  else do
    let rows ← findManyActive query (cfg.finds query) searchOverFetchLimit
    let ranked := (rows.map (fun row => (row, rankOf row query))).filter (fun (_, rank) => rank < 4)
    return ((ranked.mergeSort ranksBefore).take searchResultLimit).map (fun (row, _) => {
      tag := presentTag row.tag
      displayName := row.displayName
      avatar := row.avatar
      verified := row.verified })

def TagOwnershipGuard.canActivate (authPubkey rawTag : JsString) : ApiAsync Unit :=
  if authPubkey.length = 0 then
    .fail (.thrown (.forbidden (js "authentication required before ownership can be checked") none))
  else do
    let normalizedTag ← normalizeTagParamOrThrow rawTag
    let found ← relay (findUnique normalizedTag)
    let row ← activeOrThrow (.notFound (js "tag not found")) found
    if row.owner ≠ authPubkey then .fail (.thrown notOwner) else return ()

/-- An unsigned transaction for the caller to sign and submit. -/
structure TransactionResponse where
  transaction : JsString
  pda : JsString
  lastValidBlockHeight : JsString
  deriving DecidableEq

def ApiConfig.transactionResponse (cfg : ApiConfig) (tx : BuiltTransaction)
    (blockhash : BlockhashLifetime) : TransactionResponse where
  transaction := cfg.getBase64EncodedWireTransaction tx.transaction
  pda := tx.pda
  lastValidBlockHeight := decimal blockhash.lastValidBlockHeight

def invalidWallet : ApiError :=
  .badRequest (js "wallet is not a valid base58 Solana address") (js "INVALID_WALLET")

def invalidFeePayer : ApiError :=
  .badRequest (js "feePayer is not a valid base58 Solana address") (js "INVALID_FEE_PAYER")

/-- The part of the service behind its check of the row. -/
def WalletUpdateService.buildFor (cfg : ApiConfig) (tag : NormalizedTag)
    (ownerPubkey newWallet : JsString) (row : Identity) : ApiAsync TransactionResponse :=
  if row.owner ≠ ownerPubkey then .fail (.thrown notOwner)
  else if !cfg.kit.isAddress newWallet then .fail invalidWallet
  else do
    let blockhash ← getLatestBlockhash
    let tx ← built (buildUpdateWalletTransaction cfg.dep.sol cfg.kit cfg.codecs
      { programId := cfg.tipRegistryProgramId, tag, ownerPubkey, newWallet, blockhash })
    return cfg.transactionResponse tx blockhash

def WalletUpdateService.buildTransaction (cfg : ApiConfig) (tag : NormalizedTag)
    (ownerPubkey newWallet : JsString) : ApiAsync TransactionResponse := do
  let found ← relay (findUnique tag)
  let row ← activeOrThrow (notFound tag) found
  WalletUpdateService.buildFor cfg tag ownerPubkey newWallet row

inductive NamingGateReason
  | available
  | reserved
  | inappropriate
  | alreadyRegistered
  deriving DecidableEq, Repr

def NamingGateReason.text : NamingGateReason → JsString
  | .available => js "available"
  | .reserved => js "reserved"
  | .inappropriate => js "inappropriate"
  | .alreadyRegistered => js "already_registered"

structure NamingGateResult where
  available : Bool
  reason : NamingGateReason
  deriving DecidableEq

/-- Any row takes the name, a blocked one too. -/
def checkNamingGate (dep : Deployment) (tag : NormalizedTag) : Async NamingGateResult :=
  match checkModerationGate dep.engine tag with
  | .error () => .fail .moderation
  | .ok (.refused .reserved) => return ⟨false, .reserved⟩
  | .ok (.refused .inappropriate) => return ⟨false, .inappropriate⟩
  | .ok .allowed => do
    let row ← findUnique tag
    if row.isSome then return ⟨false, .alreadyRegistered⟩ else return ⟨true, .available⟩

structure AvailabilityResponse where
  tag : JsString
  available : Bool
  reason : JsString
  deriving DecidableEq

/-- A malformed tag is a normal answer here. -/
def availability (dep : Deployment) (rawTag : JsString) : Async AvailabilityResponse :=
  match normalizeTag rawTag with
  | .rejected _ => return ⟨presentTag rawTag, false, js "invalid"⟩
  | .accepted tag => do
    let gateResult ← checkNamingGate dep tag
    return ⟨presentTag tag, gateResult.available, gateResult.reason.text⟩

def feeEstimateFallbackLamports : Nat := 5000

def insufficientBalance (requiredLamports currentLamports : Nat) : ApiError :=
  .paymentRequired (js "insufficient balance to cover rent and fees for this registration")
    (decimal requiredLamports) (decimal currentLamports)
    (decimal (requiredLamports - currentLamports))

/-- The check and the exception its result turns into. -/
def checkSufficientBalance (cfg : ApiConfig) (feePayer : JsString)
    (transaction : CompiledTransaction) : ApiAsync Unit := do
  let rentExemptLamports ← getMinimumBalanceForRentExemption tagAccountSize
  let fee ← getFeeForMessage (cfg.messageBase64 transaction.messageBytes)
  let payer ← built (address cfg.kit feePayer)
  let currentLamports ← getBalance payer
  let requiredLamports := rentExemptLamports + fee.getD feeEstimateFallbackLamports
  if requiredLamports ≤ currentLamports then return ()
  else .fail (insufficientBalance requiredLamports currentLamports)

/-- The body's fields stay `null` where the body has `null`. -/
structure RegisterParams where
  rawTag : JsString
  wallet : Nullish JsString
  feePayer : Nullish JsString
  ownerPubkey : JsString
  deriving DecidableEq

/-- `feePayer !== undefined && !isValidSolanaAddress(feePayer)`: of a `null` the check
reads the length. -/
def checkFeePayer (kit : Kit) : Nullish JsString → ApiAsync Unit
  | .undefined => return ()
  | .null => .fail .typeError
  | .value feePayer => if !kit.isAddress feePayer then .fail invalidFeePayer else return ()

/-- What `register` does with a name that is free. -/
def registerFree (cfg : ApiConfig) (params : RegisterParams) (tag : NormalizedTag) :
    ApiAsync TransactionResponse :=
  let walletAddress := params.wallet.coalesce params.ownerPubkey
  let payerPubkey := params.feePayer.coalesce params.ownerPubkey
  if !cfg.kit.isAddress walletAddress then .fail invalidWallet
  else do
    checkFeePayer cfg.kit params.feePayer
    let blockhash ← getLatestBlockhash
    let tx ← built (buildRegisterTagTransaction cfg.dep.sol cfg.kit cfg.codecs {
      programId := cfg.tipRegistryProgramId
      tag
      ownerPubkey := params.ownerPubkey
      payerPubkey
      walletAddress
      blockhash })
    checkSufficientBalance cfg payerPubkey tx.transaction
    return cfg.transactionResponse tx blockhash

def alreadyRegistered : ApiError :=
  .conflict (js "tag is already registered") NamingGateReason.alreadyRegistered.text

/-- What `register` does with the answer of the naming gate. -/
def registerGated (cfg : ApiConfig) (params : RegisterParams) (tag : NormalizedTag)
    (gateResult : NamingGateResult) : ApiAsync TransactionResponse :=
  if !gateResult.available then
    if gateResult.reason = .alreadyRegistered then .fail alreadyRegistered
    else
      .fail (.thrown (.forbidden (js "tag is not available: " ++ gateResult.reason.text)
        (some gateResult.reason.text)))
  else registerFree cfg params tag

def register (cfg : ApiConfig) (params : RegisterParams) : ApiAsync TransactionResponse := do
  let tag ← normalizeTagParamOrThrow params.rawTag
  let gateResult ← relay (checkNamingGate cfg.dep tag)
  registerGated cfg params tag gateResult

/-- The requests with the parameters their handlers read. `authPubkey` is what the
bearer token has been found to name. -/
inductive ApiRequest
  | resolve (rawTag : JsString)
  | identity (rawTag : JsString)
  | qr (rawTag : JsString)
  | paymentLink (rawTag : JsString)
  | search (rawQuery : JsString)
  | updateIdentity (rawTag authPubkey : JsString) (dto : UpdateIdentityRequestDto)
      (provided : UpdateIdentityProvidedFields)
  | updateWallet (rawTag authPubkey wallet : JsString)
  | availability (rawTag : JsString)
  | register (params : RegisterParams)
  deriving DecidableEq

inductive ApiAnswer
  | resolved (response : ResolveResponse)
  | identity (response : IdentityResponse)
  | link (response : PaymentLinkResponse)
  | found (items : List SearchResultItem)
  | transaction (response : TransactionResponse)
  | availability (response : AvailabilityResponse)
  deriving DecidableEq

/-- A request's guard and handler, on the API instance that it reaches. -/
def ApiRequest.body (cfg : ApiConfig) (server : Nat) : ApiRequest → ApiAsync ApiAnswer
  | .resolve rawTag => do
    let tag ← normalizeTagParamOrThrow rawTag
    return .resolved (← relay (Api.resolve cfg.dep server tag))
  | .identity rawTag => do
    let tag ← normalizeTagParamOrThrow rawTag
    return .identity (← relay (Api.identity tag))
  | .qr rawTag => do
    let tag ← normalizeTagParamOrThrow rawTag
    return .link (← relay (Api.qr cfg.dep tag))
  | .paymentLink rawTag => do
    let tag ← normalizeTagParamOrThrow rawTag
    return .link (← relay (Api.paymentLink cfg.dep tag))
  | .search rawQuery => do return .found (← Api.search cfg rawQuery)
  | .updateIdentity rawTag authPubkey dto provided => do
    TagOwnershipGuard.canActivate authPubkey rawTag
    let tag ← normalizeTagParamOrThrow rawTag
    return .identity
      (← relay (Api.updateIdentity cfg.dep { tag, ownerPubkey := authPubkey, dto, provided }))
  | .updateWallet rawTag authPubkey wallet => do
    TagOwnershipGuard.canActivate authPubkey rawTag
    let tag ← normalizeTagParamOrThrow rawTag
    return .transaction (← WalletUpdateService.buildTransaction cfg tag authPubkey wallet)
  | .availability rawTag => do return .availability (← relay (Api.availability cfg.dep rawTag))
  | .register params => do return .transaction (← Api.register cfg params)

/-- What happens between requests: time, outages, a cached key at the end of its life,
and the node and the database moving on. -/
inductive ApiWeather
  | tick (ms : Nat)
  | database (up : Bool)
  | redis (up : Bool)
  | rpc (up : Bool)
  | expire (key : JsString)
  | node (node : RpcNode)
  | order (order : ScanOrder)

def ApiWeather.act (w : ApiWorld) : ApiWeather → ApiWorld
  | .tick ms => w.withMirror { w.mirror with now := w.mirror.now + ms }
  | .database up => w.withMirror { w.mirror with dbUp := up }
  | .redis up => w.withMirror { w.mirror with redisUp := up }
  | .rpc up => w.withMirror { w.mirror with rpcUp := up }
  | .expire key => w.withMirror (w.mirror.putKey key none)
  | .node latest => { w with node := latest }
  | .order latest => { w with order := latest }

inductive ApiEvent
  | request (server : Nat) (request : ApiRequest)
  | weather (weather : ApiWeather)

/-- A request beside what the caller gets for it: a value, an error, or nothing while
the lookup that it shares has no end. -/
abbrev ApiOutput := ApiRequest × Option (Except ApiError ApiAnswer)

namespace ApiWorld

def serve (cfg : ApiConfig) (w : ApiWorld) : ApiEvent → ApiWorld × Option ApiOutput
  | .weather weather => (weather.act w, none)
  | .request server request =>
    match (request.body cfg server).run ApiWorld.handle w with
    | none => (w, some (request, none))
    | some (w', answer) => (w', some (request, some answer))

/-- What the callers see of a sequence of requests, each served to its end. -/
def answers (cfg : ApiConfig) (w : ApiWorld) (events : List ApiEvent) : List (Option ApiOutput) :=
  outputs (serve cfg) w events

end ApiWorld

end Tagwise.Api
