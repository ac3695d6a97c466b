import Tagwise.Lib.Licence
import Tagwise.Proofs.Attestation
import Tagwise.Proofs.ProfilePatch
import Tagwise.Proofs.Registration
import Tagwise.Proofs.Screening
import Tagwise.Proofs.SignIn
import Tagwise.Protocol.Site

/-! Whatever the site does in somebody's name goes back to a text which that key has signed. -/

namespace Tagwise.Proofs.Warrant
open Js Tagwise.Core Services Lib Api Protocol
open BlockedInvisible (ownCommand)

variable {cfg : SiteConfig}

/-- A challenge was issued for the pubkey, and a verify has redeemed it with a signature. -/
def SignedIn (cfg : SiteConfig) (auth : AuthPool) (pubkey : JsString) : Prop :=
  ∃ i j message random issuedAt, SingleUse.Redeems cfg.auth auth i j pubkey message random issuedAt

/-- The reply is the tag's row, active and the caller's. -/
def FindsOwn (tag pubkey : JsString) : (c : ApiCommand) → ApiReply c → Prop
  | .mirror (.findUniqueIdentity t), .ok (some row) =>
    t = tag ∧ row.owner = pubkey ∧ row.status = .active
  | _, _ => False

def Edits (tag : JsString) : ApiCommand → Prop
  | .mirror (.updateIdentity t _) => t = tag
  | _ => False

/-- The row of a tag is edited on the strength of the caller's own read of it, until the next
command that goes to the mirror. -/
def ownership (cfg : SiteConfig) (tag : JsString) (call : SiteCall) :
    Licence ApiCommand ApiReply where
  needs := Edits tag
  grants := fun c r => ∃ server moment request pubkey, call = .http server moment request ∧
    Caller cfg.toHttpConfig moment request.authorization pubkey ∧ FindsOwn tag pubkey c r
  keeps := fun c => ownCommand c = true

def onMirror (L : Licence ApiCommand ApiReply) : Licence Command Reply where
  needs := fun c => L.needs (.mirror c)
  grants := fun c r => L.grants (.mirror c) r
  keeps := fun c => L.keeps (.mirror c)

theorem relay_licensed {L : Licence ApiCommand ApiReply} {Q : α → Prop} {held : Prop} {p : Async α}
    (h : p.Licensed (onMirror L) Q held) : (relay p).Licensed L Q held := by
  have hneeds : ∀ c, L.needs (.mirror c) → (onMirror L).needs c := fun _ h => h
  have hgrants : ∀ c r, (onMirror L).grants c r → L.grants (.mirror c) r := fun _ _ h => h
  have hkeeps : ∀ c, (onMirror L).keeps c → L.keeps (.mirror c) := fun _ h => h
  exact Prog.licensed_embed hneeds hgrants hkeeps h

section Quiet
variable {dep : Deployment}

/-- No edit of a row. -/
def ApiQuiet (c : ApiCommand) : Prop := ∀ tag, ¬ Edits tag c

abbrev Quiet (c : Command) : Prop := ApiQuiet (.mirror c)

theorem quiet_of_reading {c : Command} (h : ColumnOwnership.writesRows c = false) : Quiet c := by
  intro tag hedit
  cases c with
  | updateIdentity => cases h
  | _ => cases hedit

theorem relay_quiet {p : Async α} (h : p.Always Quiet) : (relay p).Always ApiQuiet :=
  Prog.always_embed h

theorem own_quiet {p : ApiAsync α} (h : p.Always (fun c => ownCommand c = true)) :
    p.Always ApiQuiet := by
  refine Prog.always_mono (fun c hc tag hedit => ?_) h
  cases c with
  | mirror c => cases hc
  | _ => cases hedit

theorem param_quiet (rawTag : JsString) : (normalizeTagParamOrThrow rawTag).Always ApiQuiet :=
  own_quiet (BlockedInvisible.param_always rawTag)

theorem findUnique_quiet (tag : JsString) : (findUnique tag).Always Quiet :=
  always_awaitDb ⟨quiet_of_reading rfl,fun _ => trivial⟩

theorem findActive_quiet (tag : JsString) : (findActiveIdentity tag).Always Quiet :=
  Prog.always_bind (findUnique_quiet tag) (fun _ => trivial)

theorem identity_quiet (tag : NormalizedTag) : (identity tag).Always Quiet := by
  refine Prog.always_bind (findActive_quiet tag.text) (fun found => ?_)
  cases found <;> trivial

theorem linkOf_quiet (tag : NormalizedTag) : (linkOf dep tag).Always Quiet := by
  refine Prog.always_bind (findActive_quiet tag.text) (fun found => ?_)
  cases found <;> trivial

theorem gate_quiet (tag : NormalizedTag) : (checkNamingGate dep tag).Always Quiet := by
  unfold checkNamingGate
  split
  · trivial
  · trivial
  · trivial
  · exact Prog.always_bind (findUnique_quiet tag.text) (fun _ => Prog.always_ite trivial trivial)

theorem availability_quiet (rawTag : JsString) : (availability dep rawTag).Always Quiet := by
  unfold availability
  split
  · trivial
  · exact Prog.always_bind (gate_quiet _) (fun _ => trivial)

theorem search_quiet (cfg : ApiConfig) (rawQuery : JsString) :
    (search cfg rawQuery).Always ApiQuiet := by
  refine own_quiet (Prog.always_ite trivial (Prog.always_bind ⟨rfl,fun r => ?_⟩ (fun _ => trivial)))
  cases r <;> trivial

theorem register_quiet (cfg : ApiConfig) (params : RegisterParams) :
    (register cfg params).Always ApiQuiet :=
  Prog.always_bind (param_quiet _) (fun tag => Prog.always_bind (relay_quiet (gate_quiet tag))
    (fun result => own_quiet (BlockedInvisible.registerGated_always cfg params tag result)))

theorem guard_quiet (authPubkey rawTag : JsString) :
    (TagOwnershipGuard.canActivate authPubkey rawTag).Always ApiQuiet := by
  refine Prog.always_ite trivial (Prog.always_bind (param_quiet rawTag) (fun tag => ?_))
  refine Prog.always_bind (relay_quiet (findUnique_quiet tag.text)) (fun found => ?_)
  refine Prog.always_bind ?_ (fun row => Prog.always_ite trivial trivial)
  cases found with
  | none => trivial
  | some row => exact Prog.always_ite trivial trivial

theorem applyChange_quiet (change : Indexer.VerifiedTagChange) :
    (Indexer.applyChange dep change).Always Quiet :=
  WriterPath.applyChange_always dep (fun _ h => h) (fun _ h => h) (fun _ h => h) (fun _ h => h)

theorem indexer_quiet (cfg : NetworkConfig) (call : IndexerCall) :
    (call.call.body cfg).Always ApiQuiet := by
  have hcursor : ∀ slot, (Indexer.advanceCursor slot).Always Quiet :=
    Screening.advanceCursor_always (fun _ => quiet_of_reading rfl) (quiet_of_reading rfl)
      (fun _ => quiet_of_reading rfl)
  cases call with
  | notification o =>
    exact Prog.always_bind (relay_quiet (Screening.process_always applyChange_quiet hcursor o))
      (fun _ => trivial)
  | reconcile =>
    exact Prog.always_bind (relay_quiet
      (Screening.reconcile_always applyChange_quiet hcursor (quiet_of_reading rfl)))
      (fun _ => trivial)
  | backfillModerationGate =>
    exact Prog.always_bind (relay_quiet (WriterPath.backfill_always cfg.dep (quiet_of_reading rfl)
      (fun _ _ h => h) (fun _ => quiet_of_reading rfl))) (fun _ => trivial)

/-- What the wallet's service does once the row is the caller's. -/
theorem build_own (cfg : ApiConfig) (tag : NormalizedTag) (ownerPubkey newWallet : JsString) :
    (if !cfg.kit.isAddress newWallet then .fail invalidWallet
      else do
        let blockhash ← getLatestBlockhash
        let tx ← built (buildUpdateWalletTransaction cfg.dep.sol cfg.kit cfg.codecs
          { programId := cfg.tipRegistryProgramId, tag, ownerPubkey, newWallet, blockhash })
        return cfg.transactionResponse tx blockhash :
      ApiAsync TransactionResponse).Always (fun c => ownCommand c = true) :=
  Prog.always_ite trivial (Prog.always_bind
    (BlockedInvisible.awaitRpc_always ⟨rfl,fun _ => trivial⟩) (fun _ =>
      Prog.always_bind (BlockedInvisible.built_always _) (fun _ => trivial)))

theorem buildTransaction_quiet (cfg : ApiConfig) (tag : NormalizedTag)
    (ownerPubkey newWallet : JsString) :
    (WalletUpdateService.buildTransaction cfg tag ownerPubkey newWallet).Always ApiQuiet := by
  refine Prog.always_bind (relay_quiet (findUnique_quiet tag.text)) (fun found => ?_)
  refine Prog.always_bind ?_ (fun row => Prog.always_ite trivial (own_quiet (build_own cfg tag _ _)))
  cases found with
  | none => trivial
  | some row => exact Prog.always_ite trivial trivial

/-- A route that edits nothing and changes no wallet. -/
theorem quiet_licensed {tag : JsString} {call : SiteCall} {p : ApiAsync α} {held : Prop}
    (h : p.Always ApiQuiet) : p.Licensed (ownership cfg tag call) (fun _ => False) held :=
  Prog.licensed_of_always (Prog.always_mono (fun _ hc => hc tag) h)

end Quiet

/-- Whoever passes the first guard is the one whom the token names. -/
theorem jwt_cases (cfg : HttpConfig) (moment : Moment) (authorization : Option JsString) :
    (∃ e, JwtAuthGuard.canActivate (cfg.verifyAsync moment.timeMs) authorization = .fail e) ∨
    ∃ pubkey, Caller cfg moment authorization pubkey ∧
      JwtAuthGuard.canActivate (cfg.verifyAsync moment.timeMs) authorization =
        .done pubkey := by
  unfold JwtAuthGuard.canActivate
  split
  · exact .inl ⟨_,rfl⟩
  · exact .inl ⟨_,rfl⟩
  · rename_i token hne htoken
    split
    · exact .inl ⟨_,rfl⟩
    · rename_i pubkey hverify
      exact .inr ⟨pubkey,⟨token,htoken,fun h => (by subst h; exact hne rfl),hverify⟩,rfl⟩

section Licensed
variable {tag pubkey : JsString} {server : Nat} {moment : Moment} {request : HttpRequest}
  (caller : Caller cfg.toHttpConfig moment request.authorization pubkey)

/-- The licence of a request. -/
abbrev requestLicence (cfg : SiteConfig) (tag : JsString) (server : Nat) (moment : Moment)
    (request : HttpRequest) : Licence ApiCommand ApiReply :=
  ownership cfg tag (.http server moment request)

include caller

/-- The read that the services begin with. -/
theorem findUnique_licensed :
    (findUnique tag).Licensed (onMirror (requestLicence cfg tag server moment request))
      (fun found => ∃ row, found = some row ∧ row.owner = pubkey ∧ row.status = .active) False := by
  refine ⟨fun hedit => hedit.elim,fun r => ?_⟩
  cases r with
  | error e => trivial
  | ok found =>
    intro h
    obtain ⟨row,rfl,howner,hactive⟩ := h
    exact .inl ⟨server,moment,request,pubkey,rfl,caller,rfl,howner,hactive⟩

theorem updateIdentity_licensed (params : UpdateIdentityParams)
    (howner : params.ownerPubkey = pubkey) :
    (Api.updateIdentity cfg.dep params).Licensed
      (onMirror (requestLicence cfg tag server moment request)) (fun _ => False) False := by
  by_cases htag : params.tag.text = tag
  · subst htag howner
    have hfind : (findActiveIdentity params.tag.text).Licensed
        (onMirror (requestLicence cfg params.tag.text server moment request))
        (fun found => ∃ row, found = some row ∧ row.owner = params.ownerPubkey) False := by
      refine Prog.licensed_bind (findUnique_licensed caller) (fun found h => ?_)
      obtain ⟨row,hrow,howner⟩ := h
      obtain ⟨hrow,hactive⟩ := Option.filter_eq_some_iff.mp hrow
      exact ⟨row,hrow,howner,of_decide_eq_true hactive⟩
    refine Prog.licensed_bind hfind (fun found => ?_)
    cases found with
    | none => trivial
    | some row =>
      refine Prog.licensed_ite (fun _ => trivial) (fun howner => ?_)
      have hcheck : ∀ field text, (checkFreeText cfg.dep field text).Licensed
          (onMirror (requestLicence cfg params.tag.text server moment request)) (fun _ => True)
          True := fun field text =>
        Prog.licensed_of_keeps (WriterPath.checkFreeText_always cfg.dep field text) trivial
      refine Prog.licensed_bind (Prog.licensed_mono (fun _ h => h)
        (fun _ => ⟨row,rfl,not_not.mp howner⟩) (hcheck _ _)) (fun _ => ?_)
      refine Prog.licensed_bind (hcheck _ _) (fun _ => ?_)
      have hupdate : ∀ data, (update params.tag.text data).Licensed
          (onMirror (requestLicence cfg params.tag.text server moment request)) (fun _ => False)
          True := by
        intro data
        refine ⟨fun _ => trivial,fun r => ?_⟩
        cases r with
        | error e => trivial
        | ok row => exact False.elim
      refine Prog.licensed_bind (hupdate _) (fun updated => Prog.licensed_of_always ?_)
      exact Prog.always_bind (WriterPath.delete_always cfg.dep (fun h => h)) (fun _ => trivial)
  · exact Prog.licensed_of_always
      (WriterPath.updateIdentity_always cfg.dep (fun h => h) (fun h => htag h) (fun h => h))

omit caller in
theorem own_licensed {call : SiteCall} {Q : α → Prop} {held : Prop} {p : ApiAsync α}
    (h : p.Always (fun c => ownCommand c = true)) (hheld : held) :
    p.Licensed (ownership cfg tag call) Q held := by
  refine Prog.licensed_of_keeps (Prog.always_mono (fun c hc => ⟨?_,hc⟩) h) hheld
  cases c with
  | mirror c => cases hc
  | _ => exact id

/-- The row is the caller's, and what follows it asks the RPC node alone. -/
theorem buildTransaction_licensed (tag : NormalizedTag) (wallet : JsString) :
    (WalletUpdateService.buildTransaction cfg.toApiConfig tag pubkey wallet).Licensed
      (requestLicence cfg tag.text server moment request) (fun _ => True) False := by
  refine Prog.licensed_bind (relay_licensed (findUnique_licensed caller)) (fun found => ?_)
  have hactive : (activeOrThrow (notFound tag) found).Licensed
      (requestLicence cfg tag.text server moment request) (fun row => row.owner = pubkey)
      (∃ row, found = some row ∧ row.owner = pubkey ∧ row.status = .active) := by
    cases found with
    | none => trivial
    | some row =>
      exact Prog.licensed_ite (fun _ => trivial)
        (fun hactive howner => ⟨row,rfl,howner,not_not.mp hactive⟩)
  refine Prog.licensed_bind hactive (fun row => ?_)
  unfold WalletUpdateService.buildFor
  refine Prog.licensed_ite (fun _ => trivial) (fun howner => ?_)
  exact own_licensed (build_own cfg.toApiConfig tag pubkey wallet) (not_not.mp howner)

end Licensed

/-- The requests for a transaction that changes the tag's wallet. -/
def Rewallets (tag : JsString) : SiteCall → Prop
  | .http _ _ request => ∃ rawTag wallet t, request.route = .updateWallet rawTag wallet ∧
      normalizeTag rawTag = .accepted t ∧ t.text = tag
  | _ => False

theorem throttle_quiet (cfg : SiteConfig) (moment : Moment) (pubkey : JsString) :
    (IdentityUpdateThrottlerGuard.canActivate (cfg.profile moment) moment pubkey).Always ApiQuiet :=
  Prog.always_ite trivial trivial

theorem validated_quiet (errors : List JsString) : (validated errors).Always ApiQuiet := by
  unfold validated
  split <;> trivial

/-- Behind the first guard there is a caller. -/
theorem session_licensed {L : Licence ApiCommand ApiReply} {Q : α → Prop} {moment : Moment}
    {authorization : Option JsString} {f : JsString → ApiAsync α}
    (hf : ∀ pubkey, Caller cfg.toHttpConfig moment authorization pubkey →
      (f pubkey).Licensed L Q False) :
    (JwtAuthGuard.canActivate (cfg.verifyAsync moment.timeMs) authorization >>= f).Licensed L Q
      False := by
  rcases jwt_cases cfg.toHttpConfig moment authorization with ⟨e,he⟩ | ⟨pubkey,caller,he⟩
  · rw [he]
    trivial
  · rw [he, Prog.done_bind]
    exact hf pubkey caller

theorem patch_licensed (tag rawTag : JsString) (server : Nat) (moment : Moment)
    (request : HttpRequest) (body : UpdateIdentityBody) :
    (patchIdentity (cfg.profile moment) moment
      { authorization := request.authorization, rawTag, body }).Licensed
        (requestLicence cfg tag server moment request) (fun _ => False) False := by
  refine session_licensed (fun pubkey caller => ?_)
  refine Prog.licensed_bind (quiet_licensed (guard_quiet pubkey rawTag)) (fun _ => ?_)
  refine Prog.licensed_bind (quiet_licensed (throttle_quiet cfg moment pubkey)) (fun _ => ?_)
  have hpipe : (validationPipe (cfg.profile moment).validators body).Always ApiQuiet := by
    unfold validationPipe
    simp only
    split <;> trivial
  refine Prog.licensed_bind (quiet_licensed hpipe) (fun dto => ?_)
  refine Prog.licensed_bind (quiet_licensed (param_quiet rawTag)) (fun t => ?_)
  exact relay_licensed (updateIdentity_licensed caller _ rfl)

theorem wallet_licensed (tag : JsString) {rawTag wallet : JsString} (server : Nat)
    (moment : Moment) {request : HttpRequest} (hroute : request.route = .updateWallet rawTag wallet) :
    (postWallet cfg.toHttpConfig moment request.authorization rawTag wallet).Licensed
      (requestLicence cfg tag server moment request)
      (fun _ => Rewallets tag (.http server moment request)) False := by
  refine session_licensed (fun pubkey caller => ?_)
  refine Prog.licensed_bind (quiet_licensed (guard_quiet pubkey rawTag)) (fun _ => ?_)
  refine Prog.licensed_bind (quiet_licensed (throttle_quiet cfg moment pubkey)) (fun _ => ?_)
  refine Prog.licensed_bind (quiet_licensed (validated_quiet _)) (fun _ => ?_)
  unfold normalizeTagParamOrThrow
  split
  · rename_i t hn
    change Prog.Licensed _ _ False (WalletUpdateService.buildTransaction _ t pubkey wallet)
    by_cases htag : t.text = tag
    · subst htag
      exact Prog.licensed_mono (fun _ _ => trivial) id (buildTransaction_licensed caller t wallet)
    · refine Prog.licensed_mono (fun _ h => htag ?_) id
        (quiet_licensed (buildTransaction_quiet cfg.toApiConfig t pubkey wallet))
      obtain ⟨rawTag',wallet',t',hroute',hn',ht'⟩ := h
      cases hroute.symm.trans hroute'
      cases hn.symm.trans hn'
      exact ht'
  · trivial

theorem open_quiet (cfg : HttpConfig) (server : Nat) {asked : ApiRequest}
    (h : (asked.body cfg.toApiConfig server).Always ApiQuiet) :
    (openRoute cfg server asked).Always ApiQuiet :=
  Prog.always_bind h (fun _ => trivial)

theorem jwt_quiet (verify : JsString → Option JsString) (authorization : Option JsString) :
    (JwtAuthGuard.canActivate verify authorization).Always ApiQuiet := by
  unfold JwtAuthGuard.canActivate
  split
  · trivial
  · trivial
  · split <;> trivial

theorem call_licensed (tag : JsString) (call : SiteCall) :
    (SiteCall.body cfg call).Licensed (ownership cfg tag call) (fun _ => Rewallets tag call)
      False := by
  cases call with
  | indexer call =>
    exact Prog.licensed_mono (fun _ h => h) id (quiet_licensed
      (Prog.always_bind (indexer_quiet cfg.network call) (fun _ => trivial)))
  | http server moment request =>
    have hquiet : ∀ p : ApiAsync HttpAnswer, request.body cfg.toHttpConfig server moment = p →
        (∀ rawTag wallet, request.route ≠ .updateWallet rawTag wallet) → p.Always ApiQuiet →
        (SiteCall.body cfg (.http server moment request)).Licensed
          (ownership cfg tag (.http server moment request))
          (fun _ => Rewallets tag (.http server moment request)) False := by
      intro p hp hroute halways
      refine Prog.licensed_mono (fun _ h => ?_) id
        (quiet_licensed (Prog.always_bind (hp ▸ halways) (fun _ => trivial)))
      obtain ⟨rawTag,wallet,_,he,_⟩ := h
      exact hroute rawTag wallet he
    have hbody : ∀ rawTag, (normalizeTagParamOrThrow rawTag).Always ApiQuiet := param_quiet
    cases hroute : request.route with
    | resolve rawTag =>
      refine hquiet (openRoute cfg.toHttpConfig server (.resolve rawTag))
        (by rw [HttpRequest.body, hroute]) (by simp [hroute]) (open_quiet _ _ ?_)
      exact Prog.always_bind (hbody rawTag) (fun tag => Prog.always_bind (relay_quiet
        (Prog.always_mono (fun _ hc => quiet_of_reading (ColumnOwnership.reading_sends hc.1))
          (WriterPath.resolve_resolving cfg.dep server tag))) (fun _ => trivial))
    | identity rawTag =>
      refine hquiet (openRoute cfg.toHttpConfig server (.identity rawTag))
        (by rw [HttpRequest.body, hroute]) (by simp [hroute]) (open_quiet _ _ ?_)
      exact Prog.always_bind (hbody rawTag) (fun tag =>
        Prog.always_bind (relay_quiet (identity_quiet tag)) (fun _ => trivial))
    | availability rawTag =>
      refine hquiet (openRoute cfg.toHttpConfig server (.availability rawTag))
        (by rw [HttpRequest.body, hroute]) (by simp [hroute]) (open_quiet _ _ ?_)
      exact Prog.always_bind (relay_quiet (availability_quiet rawTag)) (fun _ => trivial)
    | search q =>
      refine hquiet (openRoute cfg.toHttpConfig server (.search (q.getD [])))
        (by rw [HttpRequest.body, hroute]) (by simp [hroute]) (open_quiet _ _ ?_)
      exact Prog.always_bind (search_quiet cfg.toApiConfig _) (fun _ => trivial)
    | qr rawTag =>
      refine hquiet (openRoute cfg.toHttpConfig server (.qr rawTag))
        (by rw [HttpRequest.body, hroute]) (by simp [hroute]) (open_quiet _ _ ?_)
      exact Prog.always_bind (hbody rawTag) (fun tag =>
        Prog.always_bind (relay_quiet (linkOf_quiet tag)) (fun _ => trivial))
    | paymentLink rawTag =>
      refine hquiet (openRoute cfg.toHttpConfig server (.paymentLink rawTag))
        (by rw [HttpRequest.body, hroute]) (by simp [hroute]) (open_quiet _ _ ?_)
      exact Prog.always_bind (hbody rawTag) (fun tag =>
        Prog.always_bind (relay_quiet (linkOf_quiet tag)) (fun _ => trivial))
    | register body =>
      refine hquiet (do return .api (.transaction
          (← postRegister cfg.toHttpConfig moment request body)))
        (by rw [HttpRequest.body, hroute]) (by simp [hroute]) (Prog.always_bind ?_ (fun _ => trivial))
      refine Prog.always_bind (jwt_quiet _ _) (fun pubkey => Prog.always_bind ?_ (fun _ =>
        Prog.always_bind (validated_quiet _) (fun _ => register_quiet _ _)))
      exact Prog.always_ite trivial trivial
    | me =>
      refine hquiet (do return .me (← getMe cfg.toHttpConfig moment request.authorization))
        (by rw [HttpRequest.body, hroute]) (by simp [hroute]) (Prog.always_bind ?_ (fun _ => trivial))
      exact jwt_quiet _ _
    | updateIdentity rawTag body =>
      have hpatch : (do return .api (.identity (← patchIdentity (cfg.profile moment) moment
          { authorization := request.authorization, rawTag, body })) : ApiAsync HttpAnswer).Licensed
            (requestLicence cfg tag server moment request) (fun _ => False) False :=
        Prog.licensed_bind (patch_licensed tag rawTag server moment request body) (fun _ h => h)
      rw [SiteCall.body, HttpRequest.body, hroute]
      refine Prog.licensed_bind hpatch (fun _ h => ?_)
      obtain ⟨rawTag',wallet,_,hroute',_⟩ := h
      cases hroute.symm.trans hroute'
    | updateWallet rawTag wallet =>
      rw [SiteCall.body, HttpRequest.body, hroute]
      exact Prog.licensed_bind (Prog.licensed_bind
        (wallet_licensed tag server moment hroute) (fun _ h => h)) (fun _ h => h)

/-- A transaction is for the token's subject, and only they are told who they are. -/
def Vested (cfg : SiteConfig) (moment : Moment) (authorization : Option JsString) :
    Route → HttpAnswer → Prop
  | .updateWallet rawTag wallet, .api (.transaction response) =>
    ∃ pubkey tag, Caller cfg.toHttpConfig moment authorization pubkey ∧
      normalizeTag rawTag = .accepted tag ∧
      IssuedToUpdate cfg.toApiConfig tag pubkey wallet response
  | .register body, .api (.transaction response) =>
    ∃ pubkey, Caller cfg.toHttpConfig moment authorization pubkey ∧
      IssuedToRegister cfg.toApiConfig
        { rawTag := body.tag, wallet := body.wallet, feePayer := body.feePayer,
          ownerPubkey := pubkey } response
  | .me, .me pubkey => Caller cfg.toHttpConfig moment authorization pubkey
  | .updateWallet _ _, _ | .register _, _ | .me, _ | _, .api (.transaction _) | _, .me _ => False
  | _, _ => True

section Yields
variable {dep : Deployment}

theorem param_yields (rawTag : JsString) :
    (normalizeTagParamOrThrow rawTag).Yields (fun tag => normalizeTag rawTag = .accepted tag) := by
  unfold normalizeTagParamOrThrow
  split
  · assumption
  · trivial

theorem built_yields (result : Except BuildError α) :
    (built result).Yields (fun a => result = .ok a) := by
  cases result with
  | ok a => exact rfl
  | error e => trivial

theorem gate_yields (tag : NormalizedTag) :
    (checkNamingGate dep tag).Yields (fun result => result.available = true →
      Moderation.checkModerationGate dep.engine tag = .ok .allowed) := by
  unfold checkNamingGate
  split
  · trivial
  · exact fun h => (by cases h)
  · exact fun h => (by cases h)
  · rename_i hallowed
    refine Prog.honours_bind (Prog.yields_any _) (fun found _ => ?_)
    exact Prog.honours_ite (fun _ h => (by cases h)) (fun _ _ => hallowed)

theorem relay_yields {Q : α → Prop} {p : Async α} (h : p.Yields Q) : (relay p).Yields Q := by
  have hmay : ∀ c : Command, True → (fun _ : ApiCommand => True) (.mirror c) := fun _ h => h
  have htold : ∀ (c : Command) (r : Reply c), True → True := fun _ _ h => h
  exact Prog.honours_embed hmay htold h

theorem buildTransaction_yields (cfg : ApiConfig) (tag : NormalizedTag)
    (ownerPubkey newWallet : JsString) :
    (WalletUpdateService.buildTransaction cfg tag ownerPubkey newWallet).Yields
      (IssuedToUpdate cfg tag ownerPubkey newWallet) := by
  refine Prog.honours_bind (Prog.yields_any _) (fun found _ => ?_)
  refine Prog.honours_bind (Prog.yields_any _) (fun row _ => ?_)
  refine Prog.honours_ite (fun _ => trivial) (fun _ => ?_)
  refine Prog.honours_ite (fun _ => trivial) (fun _ => ?_)
  refine Prog.honours_bind (Prog.yields_any _) (fun blockhash _ => ?_)
  exact Prog.honours_bind (built_yields _) (fun tx htx => ⟨blockhash,tx,htx,rfl⟩)

theorem register_yields (cfg : ApiConfig) (params : RegisterParams) :
    (register cfg params).Yields (IssuedToRegister cfg params) := by
  refine Prog.honours_bind (param_yields params.rawTag) (fun tag hn => ?_)
  refine Prog.honours_bind (relay_yields (gate_yields tag)) (fun gateResult hg => ?_)
  refine Prog.honours_ite (fun _ => Prog.honours_ite (fun _ => trivial) (fun _ => trivial))
    (fun ha => ?_)
  have hgate : Moderation.checkModerationGate cfg.dep.engine tag = .ok .allowed := hg (by simpa using ha)
  refine Prog.honours_ite (fun _ => trivial) (fun _ => ?_)
  refine Prog.honours_bind (Prog.yields_any _) (fun _ _ => ?_)
  refine Prog.honours_bind (Prog.yields_any _) (fun blockhash _ => ?_)
  refine Prog.honours_bind (built_yields _) (fun tx htx => ?_)
  exact Prog.honours_bind (Prog.yields_any _)
    (fun _ _ => ⟨tag,blockhash,tx,hn,hgate,htx,rfl⟩)

/-- What follows the first guard is done in the caller's name. -/
theorem session_yields {Q : α → Prop} {moment : Moment} {authorization : Option JsString}
    {f : JsString → ApiAsync α}
    (hf : ∀ pubkey, Caller cfg.toHttpConfig moment authorization pubkey → (f pubkey).Yields Q) :
    (JwtAuthGuard.canActivate (cfg.verifyAsync moment.timeMs) authorization >>= f).Yields Q := by
  rcases jwt_cases cfg.toHttpConfig moment authorization with ⟨e,he⟩ | ⟨pubkey,caller,he⟩
  · rw [he]
    trivial
  · rw [he, Prog.done_bind]
    exact hf pubkey caller

/-- What a route answers, to whoever has sent the request. -/
theorem request_vested (server : Nat) (moment : Moment) (request : HttpRequest) :
    (request.body cfg.toHttpConfig server moment).Yields
      (Vested cfg moment request.authorization request.route) := by
  obtain ⟨authorization,ip,route⟩ := request
  have hany : ∀ {α : Type} (p : ApiAsync α), p.Yields (fun _ => True) := Prog.yields_any
  cases route with
  | resolve rawTag | identity rawTag | qr rawTag | paymentLink rawTag =>
    refine Prog.honours_bind (Prog.honours_bind (hany _) (fun tag _ =>
      Prog.honours_bind (hany _) (fun _ _ => ?_))) (fun _ h => h)
    trivial
  | availability rawTag | search q =>
    refine Prog.honours_bind (Prog.honours_bind (hany _) (fun _ _ => ?_)) (fun _ h => h)
    trivial
  | updateIdentity rawTag body => exact Prog.honours_bind (hany _) (fun _ _ => trivial)
  | updateWallet rawTag wallet =>
    have hpost : (postWallet cfg.toHttpConfig moment authorization rawTag wallet).Yields
        (fun response => ∃ pubkey tag, Caller cfg.toHttpConfig moment authorization pubkey ∧
          normalizeTag rawTag = .accepted tag ∧
          IssuedToUpdate cfg.toApiConfig tag pubkey wallet response) := by
      refine session_yields (fun pubkey caller => ?_)
      refine Prog.honours_bind (hany _) (fun _ _ => Prog.honours_bind (hany _) (fun _ _ =>
        Prog.honours_bind (hany _) (fun _ _ => ?_)))
      refine Prog.honours_bind (param_yields rawTag) (fun tag hn => ?_)
      exact Prog.honours_mono (fun response h => ⟨pubkey,tag,caller,hn,h⟩)
        (buildTransaction_yields cfg.toApiConfig tag pubkey wallet)
    exact Prog.honours_bind hpost (fun _ h => h)
  | register body =>
    have hpost : (postRegister cfg.toHttpConfig moment ⟨authorization,ip,.register body⟩
        body).Yields (fun response => Vested cfg moment authorization (.register body)
          (.api (.transaction response))) := by
      refine session_yields (fun pubkey caller => ?_)
      refine Prog.honours_bind (hany _) (fun _ _ => Prog.honours_bind (hany _) (fun _ _ => ?_))
      exact Prog.honours_mono (fun response h => ⟨pubkey,caller,h⟩) (register_yields _ _)
    exact Prog.honours_bind hpost (fun _ h => h)
  | me =>
    have hme : (getMe cfg.toHttpConfig moment authorization).Yields
        (fun pubkey => Caller cfg.toHttpConfig moment authorization pubkey) := by
      unfold getMe
      rcases jwt_cases cfg.toHttpConfig moment authorization with ⟨e,he⟩ | ⟨pubkey,caller,he⟩
      · rw [he]
        trivial
      · rw [he]
        exact caller
    exact Prog.honours_bind hme (fun _ h => h)

end Yields

/-- Whoever's name a request was sent in, that key has signed in. -/
structure Genuine (cfg : SiteConfig) (site : Site) : Prop where
  ledger : SingleUse.Ledger cfg.auth site.auth
  recorded : Recorded Network.handle (SiteCall.body cfg) site.requests
  callers : ∀ (i : Nat) server moment request rest pubkey,
    site.requests.threads[i]? = some ⟨.http server moment request, rest⟩ →
    Caller cfg.toHttpConfig moment request.authorization pubkey → Issued site.auth pubkey

theorem issued_step {auth : AuthPool} {pubkey : JsString} (h : Issued auth pubkey)
    (event : AuthEvent) : Issued (auth.step AuthWorld.handle (AuthCall.body cfg.auth) AuthWorld.act
      event) pubkey := by
  obtain ⟨i,hi⟩ := h
  obtain ⟨call,ht⟩ := SignIn.result_done hi
  exact ⟨i,SignIn.done_result (step_done auth event ht)⟩

theorem start_genuine (now : Nat) {random : List (Program.Bytes nonceBytes)}
    (distinct : random.Nodup) (node : RpcNode) (order : ScanOrder) :
    Genuine cfg (Site.start now random node order) :=
  ⟨SingleUse.ledger_start cfg.auth now distinct,init_recorded _,
    fun _ _ _ _ _ _ h => (by cases h)⟩

theorem step_genuine (hkit : SingleUse.Alphabetic cfg.auth.kit) (site : Site) (event : SiteEvent)
    (h : Genuine cfg site) (unforged : Unforged cfg site event) :
    Genuine cfg (site.step cfg event) := by
  cases event with
  | auth event =>
    refine ⟨SingleUse.ledger_step hkit _ event h.ledger,h.recorded,
      fun i server moment request rest pubkey ht caller => ?_⟩
    exact issued_step (h.callers i server moment request rest pubkey ht caller) event
  | request event =>
    refine ⟨h.ledger,step_recorded _ event h.recorded,
      fun i server moment request rest pubkey ht caller => ?_⟩
    rcases step_origin site.requests event ht with ⟨rest',ht'⟩ | hspawn
    · exact h.callers i server moment request rest' pubkey ht' caller
    · subst hspawn
      obtain ⟨token,htoken,_,hverify⟩ := caller
      exact unforged token pubkey htoken hverify

theorem issued_signedIn (hkit : SingleUse.Alphabetic cfg.auth.kit) {auth : AuthPool}
    (h : SingleUse.Ledger cfg.auth auth) {pubkey : JsString} (hissued : Issued auth pubkey) :
    SignedIn cfg auth pubkey := by
  obtain ⟨i,hi⟩ := hissued
  have htoken : SingleUse.token auth i = some pubkey := by rw [SingleUse.token, hi]
  obtain ⟨j,message,random,issuedAt,hr⟩ := SingleUse.token_redeems hkit h htoken
  exact ⟨i,j,message,random,issuedAt,hr⟩

theorem Caller.unique {moment : Moment} {authorization : Option JsString} {a b : JsString}
    (ha : Caller cfg.toHttpConfig moment authorization a)
    (hb : Caller cfg.toHttpConfig moment authorization b) : a = b := by
  obtain ⟨token,htoken,_,hverify⟩ := ha
  obtain ⟨token',htoken',_,hverify'⟩ := hb
  cases htoken.symm.trans htoken'
  exact Option.some.inj (hverify.symm.trans hverify')

/-- The tag's row has been read as an active one of the pubkey's, and the mirror has not been
asked for anything since. -/
def ReadAsOwn (tag pubkey : JsString) (es : List (Entry ApiCommand ApiReply Network)) : Prop :=
  ∃ front grant back, es = front ++ grant :: back ∧ FindsOwn tag pubkey grant.command grant.reply ∧
    ∀ e ∈ back, ownCommand e.command = true

/-- What is done in somebody's name is done for a key that has signed in. A row is edited only
by a request that has just read it as its caller's own; a transaction that changes a wallet is
built for its caller, behind the same read; and one that registers a tag, for its caller. -/
structure Warranted (cfg : SiteConfig) (site : Site) : Prop where
  edits : ∀ before e after tag data, site.requests.trace = before ++ e :: after →
    e.command = .mirror (.updateIdentity tag data) →
    ∃ server moment request rest pubkey,
      site.requests.threads[e.who]? = some ⟨.http server moment request, rest⟩ ∧
      Caller cfg.toHttpConfig moment request.authorization pubkey ∧
      SignedIn cfg site.auth pubkey ∧ ReadAsOwn tag pubkey (own before e.who)
  answers : ∀ (i : Nat) server moment request answer,
    site.requests.threads[i]? = some ⟨.http server moment request, .done (.http answer)⟩ →
    Vested cfg moment request.authorization request.route answer
  callers : ∀ (i : Nat) server moment request rest pubkey,
    site.requests.threads[i]? = some ⟨.http server moment request, rest⟩ →
    Caller cfg.toHttpConfig moment request.authorization pubkey → SignedIn cfg site.auth pubkey
  wallets : ∀ (i : Nat) server moment request answer rawTag wallet tag pubkey,
    site.requests.threads[i]? = some ⟨.http server moment request, .done (.http answer)⟩ →
    request.route = .updateWallet rawTag wallet → normalizeTag rawTag = .accepted tag →
    Caller cfg.toHttpConfig moment request.authorization pubkey →
    ReadAsOwn tag.text pubkey (own site.requests.trace i)

/-- The licence of a request is its caller's read. -/
theorem readAsOwn_of_granted {tag : JsString} {call : SiteCall}
    {es : List (Entry ApiCommand ApiReply Network)} (h : Granted (ownership cfg tag call) es) :
    ∃ server moment request pubkey, call = .http server moment request ∧
      Caller cfg.toHttpConfig moment request.authorization pubkey ∧ ReadAsOwn tag pubkey es := by
  obtain ⟨front,grant,back,he,⟨server,moment,request,pubkey,hcall,caller,hfinds⟩,hback⟩ := h
  exact ⟨server,moment,request,pubkey,hcall,caller,front,grant,back,he,hfinds,hback⟩

theorem genuine_edits (hkit : SingleUse.Alphabetic cfg.auth.kit) {site : Site}
    (h : Genuine cfg site) {before after : List (Entry ApiCommand ApiReply Network)}
    {e : Entry ApiCommand ApiReply Network} {tag : JsString} {data : IdentityData}
    (htrace : site.requests.trace = before ++ e :: after)
    (hc : e.command = .mirror (.updateIdentity tag data)) :
    ∃ server moment request rest pubkey,
      site.requests.threads[e.who]? = some ⟨.http server moment request, rest⟩ ∧
      Caller cfg.toHttpConfig moment request.authorization pubkey ∧
      SignedIn cfg site.auth pubkey ∧ ReadAsOwn tag pubkey (own before e.who) := by
  have hknown : e.who < site.requests.threads.length := h.recorded.known e (by rw [htrace]; simp)
  obtain ⟨⟨call,rest⟩,ht⟩ : ∃ t, site.requests.threads[e.who]? = some t :=
    ⟨_,List.getElem?_eq_getElem hknown⟩
  have hneeds : (ownership cfg tag call).needs e.command := by
    rw [hc]
    exact rfl
  obtain ⟨server,moment,request,pubkey,hcall,caller,hread⟩ := readAsOwn_of_granted
    (h.recorded.granted ht (call_licensed tag call) htrace rfl hneeds)
  subst hcall
  exact ⟨server,moment,request,rest,pubkey,ht,caller,
    issued_signedIn hkit h.ledger (h.callers _ _ _ _ _ _ ht caller),hread⟩

theorem genuine_wallets {site : Site} (h : Genuine cfg site) {i server : Nat} {moment : Moment}
    {request : HttpRequest} {answer : HttpAnswer} {rawTag wallet : JsString} {tag : NormalizedTag}
    {pubkey : JsString}
    (ht : site.requests.threads[i]? = some ⟨.http server moment request, .done (.http answer)⟩)
    (hroute : request.route = .updateWallet rawTag wallet)
    (hn : normalizeTag rawTag = .accepted tag)
    (caller : Caller cfg.toHttpConfig moment request.authorization pubkey) :
    ReadAsOwn tag.text pubkey (own site.requests.trace i) := by
  have hre : Rewallets tag.text (.http server moment request) := ⟨rawTag,wallet,tag,hroute,hn,rfl⟩
  obtain ⟨_,_,_,pubkey',hcall,caller',hread⟩ := readAsOwn_of_granted
    (h.recorded.granted_result ht (call_licensed tag.text _) hre)
  cases hcall
  cases Caller.unique caller caller'
  exact hread

/-- Along every run of sign-ins, requests and the indexer, in every order. -/
theorem every_act_warranted (cfg : SiteConfig) (hkit : SingleUse.Alphabetic cfg.auth.kit)
    (now : Nat) (random : List (Program.Bytes nonceBytes)) (distinct : random.Nodup)
    (node : RpcNode) (order : ScanOrder) (events : List SiteEvent)
    (unforged : Along (Site.step cfg) (Unforged cfg) (Site.start now random node order) events) :
    Warranted cfg ((Site.start now random node order).after cfg events) := by
  have h : Genuine cfg ((Site.start now random node order).after cfg events) :=
    run_invariant_along (start_genuine now distinct node order) (step_genuine hkit) unforged
  refine ⟨fun before e after tag data => genuine_edits hkit h,
    fun i server moment request answer ht => ?_,
    fun i server moment request rest pubkey ht caller => ?_,
    fun i server moment request answer rawTag wallet tag pubkey => genuine_wallets h⟩
  · have hbody : (SiteCall.body cfg (.http server moment request)).Yields (fun result =>
        ∀ answer, result = .http answer →
          Vested cfg moment request.authorization request.route answer) := by
      refine Prog.honours_bind (request_vested server moment request) (fun a ha answer he => ?_)
      cases he
      exact ha
    have hfollows : Follows (SiteCall.body cfg (.http server moment request))
      (own _ i) (.done (.http answer)) := h.recorded.follows i _ ht
    exact hfollows.yields hbody answer rfl
  · exact issued_signedIn hkit h.ledger (h.callers i server moment request rest pubkey ht caller)

def sampleSite : SiteConfig where
  toApiConfig := Registration.abcConfig
  verifyAsync := fun _ token => if token = js "session" then some Api.wallet else none
  throttles := ProfilePatch.sampleConfig.toRegisterConfig
  identityUpdateThrottleTtlSeconds := 60
  identityUpdateThrottleLimit := 10
  throttler := ProfilePatch.sampleConfig.throttler
  validators := ProfilePatch.sampleConfig.validators
  programId := Program.sampleProgram
  auth := .sample

/-- The account of `abc`, which is the wallet's. -/
def walletObservation : Indexer.Observation :=
  let account := { Program.abcAccount with owner := Api.walletKey }
  ⟨Program.base58 Program.abcAddress,account.serialize,7⟩

def patches : HttpRequest where
  authorization := some (js "Bearer session")
  ip := none
  route := .updateIdentity (js "@Abc") ⟨some (some (js "Abc")),none,none,none⟩

/-- The wallet signs in, and its tag is indexed. -/
def arrivals : List SiteEvent :=
  (signInEvents walletText walletSignature).map .auth ++
    .request (.spawn (.indexer (.notification walletObservation))) ::
    List.replicate 7 (.request (.turn 0))

/-- Then it asks for another name to be displayed. -/
def patching : List SiteEvent :=
  .request (.spawn (.http 0 ⟨⟨true,fun _ => none⟩,0⟩ patches)) ::
    List.replicate 5 (.request (.turn 1))

def sampleStart : Site :=
  .start sampleNow [sampleRandom] BlockedInvisible.sampleWorld.node .byTag

theorem wallet_issued : Issued (sampleStart.after sampleSite arrivals).auth Api.wallet :=
  ⟨1,by decide +kernel⟩

theorem patching_unforged :
    Along (Site.step sampleSite) (Unforged sampleSite) sampleStart (arrivals ++ patching) := by
  refine along_append.mpr ⟨?_,fun token pubkey _ hverify => ?_,?_⟩
  · simp [arrivals, signInEvents, challengeEvents, List.replicate, Along, Unforged]
  · have hpubkey : pubkey = Api.wallet := by
      simp only [sampleSite] at hverify
      split at hverify
      · exact (Option.some.inj hverify).symm
      · cases hverify
    rw [hpubkey]
    exact wallet_issued
  · simp [List.replicate, Along, Unforged]

theorem patching_warranted :
    let site := sampleStart.after sampleSite (arrivals ++ patching)
    Warranted sampleSite site ∧
      site.requests.shared.services.mirror.identities.rows.map Identity.displayName =
        [some (js "Abc")] :=
  ⟨every_act_warranted sampleSite SingleUse.sample_alphabetic _ _ (List.nodup_singleton _) _ _ _
    patching_unforged,by decide +kernel⟩

end Tagwise.Proofs.Warrant
