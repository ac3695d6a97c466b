import Tagwise.Api.Endpoints
import Tagwise.Indexer.BackfillModeration
import Tagwise.Indexer.Pipeline
import Tagwise.Lib.Pool
import Tagwise.Program.Entry

/-! The whole network: the program's accounts with all their past, a node that reports them
late or out of order, the indexer, and any number of API instances over one mirror and one
cache. -/

namespace Tagwise.Protocol
open Js Tagwise.Core Services Lib Api

structure NetworkConfig extends ApiConfig where
  programId : Program.Pubkey

structure Network where
  services : ApiWorld
  chain : Program.Chain
  /-- Every state that a transaction has left, the present one at the head. -/
  past : List Program.Chain

/-- Nobody has registered a tag or asked for one. -/
def Network.start (node : RpcNode) (order : ScanOrder) : Network where
  services := ⟨World.fresh, node, order⟩
  chain := .genesis
  past := [.genesis]

/-- What runs: a request at one of the API's instances, and the indexer's entry points. The
live subscription hands one notification to the pipeline; the startup, the gap-heal and the
nightly sweep are one function. -/
inductive NetworkCall
  | request (server : Nat) (request : ApiRequest)
  | notification (observation : Indexer.Observation)
  | reconcile
  | backfillModerationGate
  deriving DecidableEq

inductive NetworkResult
  | answer (answer : ApiAnswer)
  | processed (outcome : Indexer.ProcessOutcome)
  | reconciled (result : Indexer.ReconcileResult)
  | backfilled (result : Indexer.BackfillResult)
  deriving DecidableEq

def NetworkCall.body (cfg : NetworkConfig) : NetworkCall → ApiAsync NetworkResult
  | .request server asked => do return .answer (← asked.body cfg.toApiConfig server)
  | .notification o => do
    return .processed (← relay (Indexer.processAccountObservation cfg.dep o))
  | .reconcile => do return .reconciled (← relay (Indexer.reconcile cfg.dep))
  | .backfillModerationGate => do
    return .backfilled (← relay (Indexer.backfillModerationGate cfg.dep))

/-- What happens beside the calls. -/
inductive NetworkWeather
  /-- A transaction reaches the program, with the signatures it carries. -/
  | land (tx : Program.Transaction) (signed : List Program.Pubkey) (payerFunded : Bool)
  | services (weather : ApiWeather)
  /-- What the node answers from here on. -/
  | report (accountInfo : JsString → Option (List UInt8))
      (programAccounts : Nat × List (JsString × List UInt8))

def Network.handle (n : Network) (c : ApiCommand) : Option (Network × ApiReply c) :=
  (n.services.handle c).map (fun (services, r) => ({ n with services }, r))

def Network.act (cfg : NetworkConfig) (n : Network) : NetworkWeather → Network
  | .land tx signed payerFunded =>
    let chain := Program.submitTransaction cfg.dep.sol cfg.programId tx signed payerFunded n.chain
    { n with chain, past := chain :: n.past }
  | .services weather => { n with services := weather.act n.services }
  | .report accountInfo programAccounts =>
    let mirror := { n.services.mirror with accountInfo, programAccounts }
    { n with services := n.services.withMirror mirror }

abbrev NetworkPool := Pool ApiCommand ApiReply ApiError NetworkResult Network NetworkCall

abbrev NetworkEvent := Event NetworkCall NetworkWeather

namespace NetworkPool

def step (cfg : NetworkConfig) : NetworkPool → NetworkEvent → NetworkPool :=
  Pool.step Network.handle (NetworkCall.body cfg) (Network.act cfg)

/-- The network after any transactions, reports, calls, turns and outages. -/
def after (cfg : NetworkConfig) (node : RpcNode) (order : ScanOrder)
    (events : List NetworkEvent) : NetworkPool :=
  run (step cfg) (Pool.init (Network.start node order)) events

end NetworkPool

/-- The data is an account of the program as it stood, at its address. -/
def Sighted (sol : Program.Solana) (past : List Program.Chain) (address : JsString)
    (data : List UInt8) : Prop :=
  ∃ chain ∈ past, ∃ key account, chain.tagAccounts key = some account ∧
    address = sol.base58 key ∧ data = account.serialize

/-- Whatever decodes has been there; other bytes may be anything. -/
def Reported (sol : Program.Solana) (past : List Program.Chain) (address : JsString)
    (data : List UInt8) : Prop :=
  (∃ decoded, decodeTagAccount sol data = .ok decoded) → Sighted sol past address data

/-- The node may be behind, forget and repeat, but it makes no account up: neither in its
answers nor in its notifications. -/
def Honest (cfg : NetworkConfig) (pool : NetworkPool) : NetworkEvent → Prop
  | .spawn (.notification o) => Reported cfg.dep.sol pool.shared.past o.address o.data
  | .outside (.report accountInfo programAccounts) =>
    (∀ address data, accountInfo address = some data →
      Reported cfg.dep.sol pool.shared.past address data) ∧
    ∀ account ∈ programAccounts.2,
      Reported cfg.dep.sol pool.shared.past account.1 account.2
  | _ => True

/-- An account of this tag has stood at the tag's address with this owner and this wallet. -/
def Stood (sol : Program.Solana) (past : List Program.Chain) (text owner wallet : JsString) :
    Prop :=
  ∃ tag : NormalizedTag, tag.text = text ∧
    ∃ chain ∈ past, ∃ key account, chain.tagAccounts key = some account ∧
      sol.findProgramAddress [Program.tagSeedPrefix, asciiBytes text] = some (key, account.bump) ∧
      Program.StoresTag account (asciiBytes text) ∧
      owner = sol.base58 account.owner ∧ wallet = sol.base58 account.wallet

/-- The transaction that registers what was asked for, under a name that the gate allows. -/
def IssuedToRegister (cfg : ApiConfig) (params : RegisterParams) (response : TransactionResponse) :
    Prop :=
  ∃ tag blockhash tx, normalizeTag params.rawTag = .accepted tag ∧
    Moderation.checkModerationGate cfg.dep.engine tag = .ok .allowed ∧
    buildRegisterTagTransaction cfg.dep.sol cfg.kit cfg.codecs {
      programId := cfg.tipRegistryProgramId
      tag
      ownerPubkey := params.ownerPubkey
      payerPubkey := params.feePayer.coalesce params.ownerPubkey
      walletAddress := params.wallet.coalesce params.ownerPubkey
      blockhash } = .ok tx ∧
    response = cfg.transactionResponse tx blockhash

/-- The transaction that sets this wallet in the owner's name. -/
def IssuedToUpdate (cfg : ApiConfig) (tag : NormalizedTag) (ownerPubkey newWallet : JsString)
    (response : TransactionResponse) : Prop :=
  ∃ blockhash tx, buildUpdateWalletTransaction cfg.dep.sol cfg.kit cfg.codecs
      { programId := cfg.tipRegistryProgramId, tag, ownerPubkey, newWallet, blockhash } = .ok tx ∧
    response = cfg.transactionResponse tx blockhash

/-- The answer is about the tag asked for, and `said` may be said of what it names. A
transaction that changes a wallet is given to an owner only. -/
def Vouched (cfg : ApiConfig) (said : JsString → JsString → JsString → Prop) :
    ApiRequest → ApiAnswer → Prop
  | .resolve rawTag, .resolved response =>
    ∃ tag row, normalizeTag rawTag = .accepted tag ∧ said tag row.owner row.wallet ∧
      response = resolveResponse cfg.dep tag row
  | .identity rawTag, .identity response | .updateIdentity rawTag _ _ _, .identity response =>
    ∃ tag row, normalizeTag rawTag = .accepted tag ∧ said tag row.owner row.wallet ∧
      response = toIdentityResponse tag row
  | .qr rawTag, .link response | .paymentLink rawTag, .link response =>
    ∃ tag owner, normalizeTag rawTag = .accepted tag ∧ said tag owner response.wallet ∧
      response.tag = presentTag tag ∧
      response.paymentLink = buildPaymentLink cfg.dep.paymentLinkBaseUrl tag
  | .search _, .found items =>
    ∀ item ∈ items, ∃ tag owner wallet, item.tag = presentTag tag ∧ said tag owner wallet
  | .updateWallet rawTag authPubkey wallet, .transaction response =>
    ∃ tag old, normalizeTag rawTag = .accepted tag ∧ said tag authPubkey old ∧
      IssuedToUpdate cfg tag authPubkey wallet response
  | .availability rawTag, .availability response =>
    response.reason = NamingGateReason.alreadyRegistered.text →
      ∃ tag owner wallet, normalizeTag rawTag = .accepted tag ∧ said tag owner wallet
  | .register params, .transaction response => IssuedToRegister cfg params response
  | _, _ => False

/-- The same of whatever runs in the network. -/
def NetworkVouched (cfg : ApiConfig) (said : JsString → JsString → JsString → Prop) :
    NetworkCall → NetworkResult → Prop
  | .request _ asked, .answer answer => Vouched cfg said asked answer
  | .request _ _, _ => False
  | _, _ => True

end Tagwise.Protocol
