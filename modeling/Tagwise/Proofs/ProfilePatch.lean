import Tagwise.Js.JsonText
import Tagwise.Lib.Ensures
import Tagwise.Proofs.BlockedInvisible
import Tagwise.Proofs.WriteTimeOwnership
import Tagwise.Sdk.Profile
import Tagwise.Services.Stamps

/-! A patch of a profile from the SDK's call to the rows: what it was given is what is
written, and what it was not given stays as it was. -/

namespace Tagwise.Proofs.ProfilePatch
open Js Tagwise.Core Services Lib Api Sdk
open LookupPath (resolveKey)
open MirrorRecord (find_unselected)

/-- A column after a patch, by what the caller has given for it: a text as UTF-8 has it. -/
def patched (write : JsString → JsString) (old : Option JsString) :
    Option (Nullish JsString) → Option JsString
  | none | some .undefined => old
  | some .null => none
  | some (.value text) => some (throughUtf8 (write text))

/-- It is the text itself where no surrogate in it is alone. -/
theorem patched_paired (write : JsString → JsString) (old : Option JsString) {text : JsString}
    (h : Paired (write text)) : patched write old (some (.value text)) = some (write text) :=
  congrArg some (throughUtf8_paired h)

def patchedRow (fields : UpdateProfileFields) (row : Identity) : Identity :=
  { row with
    displayName := patched trim row.displayName fields.displayName
    avatar := patched id row.avatar fields.avatar
    bio := patched trim row.bio fields.bio
    preferredToken := patched id row.preferredToken fields.preferredToken }

/-- The part of the services that a patch may touch: the rows, the resolve keys, and
`updatedAt` of the rows. -/
structure Part where
  identities : Identities
  redis : JsString → Option CacheValue
  updatedAt : JsString → Nat

/-- The row of the tag, the caller's and active, is edited and answered with; nothing
else has changed but its own `updatedAt` and its own key. -/
structure Edited (dep : Deployment) (edit : Identity → Identity) (ownerPubkey tag : JsString)
    (before after : Part) (response : IdentityResponse) : Prop where
  row : ∃ row, before.identities.find tag = some row ∧ row.status = .active ∧
    row.owner = ownerPubkey ∧ after.identities.find tag = some (edit row) ∧
    response = toIdentityResponse tag (edit row)
  others : ∀ other, other ≠ tag → after.identities.find other = before.identities.find other ∧
    after.updatedAt other = before.updatedAt other
  keys : ∀ key, key ≠ resolveKey dep tag → after.redis key = before.redis key

/-- What a call of `updateProfile` that returns has done: the token's subject has patched
a row of its own. -/
def Patches (config : ProfileConfig) (sessionToken : Option JsString) (rawTag : JsString)
    (fields : UpdateProfileFields) (before : Part) (response : IdentityResponse)
    (after : Part) : Prop :=
  ∃ token sub tag, sessionToken = some token ∧ config.verify token = some sub ∧
    normalizeTag rawTag = .accepted tag ∧
    Edited config.dep (patchedRow fields) sub tag before after response

/-- `updatedAt` of the rows beside the mirror. -/
abbrev Stamped := World × (JsString → Nat)

def part (s : Stamped) : Part := ⟨s.1.identities, s.1.redis, s.2⟩

abbrev handle : Stamped → (c : Command) → Option (Stamped × Reply c) :=
  Prog.alongside World.handle stamp

section Steps
variable {s s' : Stamped} {tag : JsString}

theorem find_step {r : Reply (.findUniqueIdentity tag)}
    (h : handle s (.findUniqueIdentity tag) = some (s', r)) :
    part s' = part s ∧ ∀ found, r = .ok found → found = (part s).identities.find tag := by
  obtain ⟨w',hw,rfl⟩ := Prog.of_alongside h
  simp only [World.handle] at hw
  split at hw
  · cases hw
    exact ⟨rfl,fun found hf => by cases hf; rfl⟩
  · cases hw
    exact ⟨rfl,fun found hf => by cases hf⟩

/-- What a statement that writes one row has done. -/
structure Wrote (tag : JsString) (row : Identity) (before after : Part) : Prop where
  own : after.identities.find tag = some row
  others : ∀ other, other ≠ tag → after.identities.find other = before.identities.find other ∧
    after.updatedAt other = before.updatedAt other
  redis : after.redis = before.redis

theorem write_ok {data : IdentityData} {row' : Identity}
    (h : handle s (.updateIdentity tag data) = some (s', .ok row')) :
    ∃ row, (part s).identities.find tag = some row ∧ row' = data.apply row ∧
      Wrote tag row' (part s) (part s') := by
  obtain ⟨w',hw,rfl⟩ := Prog.of_alongside h
  rcases World.handle_update_cases hw with ⟨row,hf,rfl,hr⟩ | ⟨_,_,hr⟩
  · cases hr
    refine ⟨row,hf,rfl,?_,fun other hne => ⟨?_,?_⟩,rfl⟩
    · simp [part, World.updateManyIdentity, hf, IdentityWhere.selects, (Table.find_mem hf).2]
    · exact find_unselected (.inl hne.symm)
    · simp [part, stamp, written, hne.symm]
  · cases hr

theorem write_error {data : IdentityData} {e : DbError}
    (h : handle s (.updateIdentity tag data) = some (s', .error e)) : part s' = part s := by
  obtain ⟨w',hw,rfl⟩ := Prog.of_alongside h
  rcases World.handle_update_cases hw with ⟨_,_,_,hr⟩ | ⟨rfl,_,_⟩
  · cases hr
  · rfl

theorem delete_step {key : JsString} {r : Reply (.redisDel key)}
    (h : handle s (.redisDel key) = some (s', r)) :
    (part s').identities = (part s).identities ∧ (part s').updatedAt = (part s).updatedAt ∧
      ∀ other, other ≠ key → (part s').redis other = (part s).redis other := by
  obtain ⟨w',hw,rfl⟩ := Prog.of_alongside h
  simp only [World.handle] at hw
  split at hw
  · cases hw
    exact ⟨rfl,rfl,fun other hne => Function.update_of_ne hne _ _⟩
  · cases hw
    exact ⟨rfl,rfl,fun _ _ => rfl⟩

end Steps

/-- A call of the service returns with `Q`, or throws and nothing has changed. -/
abbrev Leaves (Q : α → Part → Prop) (p : Async α) (before : Part) : Prop :=
  p.Atomic handle part Q before

theorem findUnique_leaves (tag : JsString) (before : Part) :
    Leaves (fun found after => after = before ∧ found = before.identities.find tag)
      (findUnique tag) before := by
  intro s s' r hv h
  obtain ⟨hkept,hfound⟩ := find_step h
  rw [hv] at hkept hfound
  cases r with
  | error e => exact hkept
  | ok found => exact ⟨hkept,hfound found rfl⟩

theorem checkFreeText_leaves (dep : Deployment) (field : JsString) (text : Option JsString)
    (before : Part) :
    Leaves (fun _ after => after = before ∧ True) (checkFreeText dep field text) before := by
  rcases checkFreeText_cases dep field text with h | ⟨e,h⟩
  · rw [h]
    exact ⟨rfl,trivial⟩
  · rw [h]
    rfl

theorem update_leaves (tag : JsString) (data : IdentityData) (before : Part) :
    Leaves (fun row' after => ∃ row, before.identities.find tag = some row ∧
        row' = data.apply row ∧ Wrote tag row' before after)
      (update tag data) before := by
  intro s s' r hv h
  cases r with
  | error e => exact (write_error h).trans hv
  | ok row' =>
    subst hv
    exact write_ok h

/-- The deletion never throws, whatever Redis does. -/
theorem delete_ensures (dep : Deployment) (tag : JsString) (before : Part) :
    (RedisCacheReader.delete dep (resolveKey dep tag)).Ensures handle part
      (fun r after => r = .ok () ∧ after.identities = before.identities ∧
        after.updatedAt = before.updatedAt ∧
        ∀ key, key ≠ resolveKey dep tag → after.redis key = before.redis key) before := by
  rw [RedisCacheReader.delete, resolveKey, RedisCacheReader.isResolveKey_built]
  intro s s' r hv h
  obtain ⟨hrows,hstamps,hkeys⟩ := delete_step h
  rw [hv] at hrows hstamps hkeys
  exact ⟨rfl,hrows,hstamps,hkeys⟩

/-- The end of a patch, from the write on. -/
theorem written_leaves (dep : Deployment) (tag : NormalizedTag) {data : IdentityData}
    {ownerPubkey : JsString} {before : Part} {row : Identity}
    (hf : before.identities.find tag.text = some row) (hactive : row.status = .active)
    (howner : row.owner = ownerPubkey) :
    Leaves (fun response after => Edited dep data.apply ownerPubkey tag before after response)
      (do
        let updated ← update tag data
        RedisCacheReader.delete dep (resolveKey dep tag)
        return toIdentityResponse tag updated) before := by
  apply Prog.ensures_bind (update_leaves tag.text data before)
  · intro updated mid h
    obtain ⟨found,hfound,rfl,hw⟩ := h
    cases hf.symm.trans hfound
    apply Prog.ensures_bind (delete_ensures dep tag mid)
    · intro u after h
      obtain ⟨_,hrows,hstamps,hkeys⟩ := h
      have hown : after.identities.find tag.text = some (data.apply row) := by
        rw [hrows]
        exact hw.own
      refine ⟨⟨row,hf,hactive,howner,hown,rfl⟩,fun other hne => ?_,fun key hne => ?_⟩
      · rw [hrows, hstamps]
        exact hw.others other hne
      · rw [hkeys key hne, hw.redis]
    · intro e after h
      cases h.1
  · intro e after h
    exact h

theorem updateIdentity_leaves (dep : Deployment) (params : UpdateIdentityParams) (before : Part) :
    Leaves (fun response after => Edited dep (profileData params.dto params.provided).apply
        params.ownerPubkey params.tag before after response)
      (Api.updateIdentity dep params) before := by
  have hread : Leaves (fun found after => after = before ∧
      found = (before.identities.find params.tag).filter (fun row => row.status = .active))
      (findActiveIdentity params.tag) before := by
    apply Prog.atomic_bind (findUnique_leaves params.tag before)
    intro found hfound
    rw [hfound]
    exact ⟨rfl,rfl⟩
  apply Prog.atomic_bind hread
  intro found hfound
  cases found with
  | none => exact rfl
  | some row =>
    obtain ⟨hf,hactive⟩ := Option.filter_eq_some_iff.mp hfound.symm
    by_cases ho : row.owner ≠ params.ownerPubkey
    · simp only [ho, ne_eq, not_false_eq_true, ↓reduceIte]
      rfl
    · simp only [ho, ↓reduceIte]
      apply Prog.atomic_bind (checkFreeText_leaves dep _ _ before)
      intro _ _
      apply Prog.atomic_bind (checkFreeText_leaves dep _ _ before)
      intro _ _
      exact written_leaves dep params.tag hf (of_decide_eq_true hactive) (not_not.mp ho)

abbrev StampedApi := ApiWorld × (JsString → Nat)

def mirrorOf (s : StampedApi) : Stamped := (s.1.mirror, s.2)

/-- Only statements on the mirror write rows. -/
def apiStamp (w : ApiWorld) :
    (c : ApiCommand) → ApiReply c → (JsString → Nat) → JsString → Nat
  | .mirror command, r, updatedAt => stamp w.mirror command r updatedAt
  | _, _, updatedAt => updatedAt

abbrev serve : StampedApi → (c : ApiCommand) → Option (StampedApi × ApiReply c) :=
  Prog.alongside ApiWorld.handle apiStamp

def apiPart (s : StampedApi) : Part := part (mirrorOf s)

/-- A request returns with `Q`, or throws and nothing has changed. -/
abbrev Ends (Q : α → Part → Prop) (p : ApiAsync α) (before : Part) : Prop :=
  p.Atomic serve apiPart Q before

theorem relay_ends {Q : α → Part → Prop} {p : Async α} {before : Part} (h : Leaves Q p before) :
    Ends Q (relay p) before := by
  refine Prog.atomic_embed mirrorOf (fun _ => rfl) (fun s c s' r hs => ?_) h
  obtain ⟨w',hw,rfl⟩ := Prog.of_alongside hs
  obtain ⟨⟨mirror,reply⟩,hm,he⟩ := Option.map_eq_some_iff.mp hw
  cases he
  exact Prog.alongside_some hm s.2

section Guards
variable {before : Part}

theorem normalizeTagParam_ends (raw : JsString) :
    Ends (fun tag after => after = before ∧ normalizeTag raw = .accepted tag)
      (normalizeTagParamOrThrow raw) before := by
  rw [normalizeTagParamOrThrow]
  cases normalizeTag raw with
  | accepted tag => exact ⟨rfl,rfl⟩
  | rejected reason => exact rfl

theorem jwtAuth_ends (verify : JsString → Option JsString) (token : JsString) :
    Ends (fun sub after => after = before ∧ verify token = some sub)
      (JwtAuthGuard.canActivate verify (some (bearerPrefix ++ token))) before := by
  have htoken : (some (bearerPrefix ++ token)).bind bearerToken = some token := by
    rw [Option.bind_some, bearerToken,
      if_pos (List.isPrefixOf_iff_prefix.mpr (List.prefix_append _ _)), List.drop_left]
  rw [JwtAuthGuard.canActivate, htoken]
  cases token with
  | nil => exact rfl
  | cons u rest =>
    dsimp only
    cases verify (u :: rest) with
    | none => exact rfl
    | some sub => exact ⟨rfl,rfl⟩

theorem activeOrThrow_ends (error : Thrown) (found : Option Identity) :
    Ends (fun _ after => after = before ∧ True) (activeOrThrow error found) before := by
  cases found with
  | none => exact rfl
  | some row =>
    rw [activeOrThrow]
    split
    · exact rfl
    · exact ⟨rfl,trivial⟩

theorem tagOwnership_ends (authPubkey rawTag : JsString) :
    Ends (fun _ after => after = before ∧ True)
      (TagOwnershipGuard.canActivate authPubkey rawTag) before := by
  rw [TagOwnershipGuard.canActivate]
  split
  · exact rfl
  · apply Prog.atomic_bind (normalizeTagParam_ends rawTag)
    intro tag _
    apply Prog.atomic_bind (relay_ends (findUnique_leaves tag before))
    intro found _
    apply Prog.atomic_bind (activeOrThrow_ends _ found)
    intro row _
    split
    · exact rfl
    · exact ⟨rfl,trivial⟩

theorem throttler_ends (config : ProfileConfig) (moment : Moment) (authPubkey : JsString) :
    Ends (fun _ after => after = before ∧ True)
      (IdentityUpdateThrottlerGuard.canActivate config moment authPubkey) before := by
  rw [IdentityUpdateThrottlerGuard.canActivate]
  split
  · exact rfl
  · exact ⟨rfl,trivial⟩

theorem validationPipe_ends (v : Validators) (body : UpdateIdentityBody) :
    Ends (fun dto after => after = before ∧ dto = plainToInstance body) (validationPipe v body)
      before := by
  rw [validationPipe]
  cases (plainToInstance body).errors v with
  | nil => exact ⟨rfl,rfl⟩
  | cons message rest => exact rfl

end Guards

/-- One column through the JSON body, the instance and the statement's data. -/
theorem patched_json (write : JsString → JsString) (old : Option JsString)
    (field : Option (Nullish JsString)) :
    ((if (jsonField field).isSome = true then some ((jsonField field).join.map write)
      else none).map storedText).getD old = patched write old field := by
  cases field with
  | none => rfl
  | some given =>
    cases given with
    | undefined | null | value => rfl

theorem profileData_patched (fields : UpdateProfileFields) (row : Identity) :
    (profileData (plainToInstance fields.body) fields.body.provided).apply row =
      patchedRow fields row := by
  have hplain : ∀ (old : Option JsString) (field : Option (Nullish JsString)),
      ((if (jsonField field).isSome = true then some (jsonField field).join else none).map
        storedText).getD old = patched id old field := by
    intro old field
    rw [← patched_json, Option.map_id]
    rfl
  rw [patchedRow, ← patched_json trim row.displayName, ← hplain row.avatar,
    ← patched_json trim row.bio, ← hplain row.preferredToken]
  rfl

theorem patchIdentity_ends (config : ProfileConfig) (moment : Moment) (token : JsString)
    (tag : NormalizedTag) (fields : UpdateProfileFields) (before : Part) :
    Ends (fun response after => ∃ sub, config.verify token = some sub ∧
        Edited config.dep (patchedRow fields) sub tag before after response)
      (patchIdentity config moment ⟨some (bearerPrefix ++ token), tag, fields.body⟩) before := by
  apply Prog.atomic_bind (jwtAuth_ends config.verify token)
  intro sub hsub
  apply Prog.atomic_bind (tagOwnership_ends sub tag)
  intro _ _
  apply Prog.atomic_bind (throttler_ends config moment sub)
  intro _ _
  apply Prog.atomic_bind (validationPipe_ends config.validators fields.body)
  intro dto hdto
  subst hdto
  apply Prog.atomic_bind (normalizeTagParam_ends tag.text)
  intro tag' htag
  cases (normalizeTag_text tag).symm.trans htag
  refine relay_ends (Prog.atomic_mono (fun response after h => ⟨sub,hsub,?_⟩)
    (updateIdentity_leaves config.dep _ before))
  have hedit := funext (profileData_patched fields)
  rw [← hedit]
  exact h

theorem updateProfile_patches (config : ProfileConfig) (moment : Moment)
    (sessionToken : Option JsString) (rawTag : JsString) (fields : UpdateProfileFields)
    (before : Part) :
    (TipClient.updateProfile config moment sessionToken rawTag fields).Atomic serve apiPart
      (Patches config sessionToken rawTag fields before) before := by
  cases sessionToken with
  | none => exact rfl
  | some token =>
    have hsession : (TipClient.requireSession (some token)).Atomic serve apiPart
        (fun token' after => after = before ∧ token' = token) before := by
      cases token with
      | nil => exact rfl
      | cons u rest => exact ⟨rfl,rfl⟩
    have htag : (normalizeTagOrThrow rawTag).Atomic serve apiPart
        (fun tag after => after = before ∧ normalizeTag rawTag = .accepted tag) before := by
      rw [normalizeTagOrThrow]
      cases normalizeTag rawTag with
      | accepted tag => exact ⟨rfl,rfl⟩
      | rejected reason => exact rfl
    apply Prog.atomic_bind hsession
    intro token' ht
    subst ht
    apply Prog.atomic_bind htag
    intro tag hn
    refine Prog.atomic_embed (fun s => s) (fun _ => rfl) (fun _ _ _ _ h => h) ?_
    refine Prog.atomic_mono (fun response after h => ?_)
      (patchIdentity_ends config moment token' tag fields before)
    obtain ⟨sub,hsub,hedited⟩ := h
    exact ⟨token',sub,tag,rfl,hsub,hn,hedited⟩

/-- What the services answer, up or down. -/
def Answered (c : ApiCommand) : Prop := ∀ s, ∃ s' r, serve s c = some (s', r)

theorem answered_mirror {command : Command}
    (h : ∀ w, ∃ w' r, World.handle w command = some (w', r)) : Answered (.mirror command) := by
  intro s
  obtain ⟨w',r,hw⟩ := h s.1.mirror
  have hs : s.1.handle (.mirror command) = some (s.1.withMirror w', r) := by
    rw [ApiWorld.handle, hw]
    rfl
  exact ⟨_,r,Prog.alongside_some hs s.2⟩

theorem answered_find (tag : JsString) : Answered (.mirror (.findUniqueIdentity tag)) := by
  apply answered_mirror
  intro w
  by_cases up : w.dbUp = true
  · exact ⟨_,_,World.handle_findUnique up tag⟩
  · exact ⟨_,_,if_neg up⟩

theorem answered_update (tag : JsString) (data : IdentityData) :
    Answered (.mirror (.updateIdentity tag data)) := by
  apply answered_mirror
  intro w
  simp only [World.handle]
  split
  · split
    · split
      · exact ⟨_,_,rfl⟩
      · exact ⟨_,_,rfl⟩
    · exact ⟨_,_,rfl⟩
  · exact ⟨_,_,rfl⟩

theorem answered_delete (key : JsString) : Answered (.mirror (.redisDel key)) := by
  apply answered_mirror
  intro w
  obtain ⟨redis,r,hw⟩ := World.handle_redisDel w key
  exact ⟨_,r,hw⟩

theorem normalizeTagParam_answered (raw : JsString) :
    (normalizeTagParamOrThrow raw).Always Answered := by
  rw [normalizeTagParamOrThrow]
  cases normalizeTag raw with
  | accepted tag | rejected reason => exact trivial

theorem tagOwnership_answered (authPubkey rawTag : JsString) :
    (TagOwnershipGuard.canActivate authPubkey rawTag).Always Answered := by
  refine Prog.always_ite trivial (Prog.always_bind (normalizeTagParam_answered rawTag)
    (fun tag => ?_))
  refine Prog.always_bind (Prog.always_embed
    (always_awaitDb ⟨answered_find tag,fun _ => trivial⟩)) (fun found => ?_)
  refine Prog.always_bind ?_ (fun row => Prog.always_ite trivial trivial)
  cases found with
  | none => exact trivial
  | some row => exact Prog.always_ite trivial trivial

theorem jwtAuth_answered (verify : JsString → Option JsString) (authorization : Option JsString) :
    (JwtAuthGuard.canActivate verify authorization).Always Answered := by
  rw [JwtAuthGuard.canActivate]
  split
  · exact trivial
  · exact trivial
  · split
    · exact trivial
    · exact trivial

theorem validationPipe_answered (v : Validators) (body : UpdateIdentityBody) :
    (validationPipe v body).Always Answered := by
  rw [validationPipe]
  cases (plainToInstance body).errors v with
  | nil | cons => exact trivial

theorem patchIdentity_answered (config : ProfileConfig) (moment : Moment)
    (request : PatchRequest) : (patchIdentity config moment request).Always Answered := by
  refine Prog.always_bind (jwtAuth_answered _ _) (fun sub => ?_)
  refine Prog.always_bind (tagOwnership_answered _ _) (fun _ => ?_)
  refine Prog.always_bind (Prog.always_ite trivial trivial) (fun _ => ?_)
  refine Prog.always_bind (validationPipe_answered _ _) (fun dto => ?_)
  refine Prog.always_bind (normalizeTagParam_answered _) (fun tag => Prog.always_embed ?_)
  exact WriterPath.updateIdentity_always config.dep (answered_find _) (answered_update _ _)
    (answered_delete _)

theorem updateProfile_ends (config : ProfileConfig) (moment : Moment)
    (sessionToken : Option JsString) (rawTag : JsString) (fields : UpdateProfileFields)
    (s : StampedApi) :
    ∃ s' result, (TipClient.updateProfile config moment sessionToken rawTag fields).run serve s =
      some (s', result) := by
  apply Prog.run_answered
  refine Prog.always_bind ?_ (fun token => Prog.always_bind ?_ (fun tag => ?_))
  · rw [TipClient.requireSession.eq_def]
    split
    · exact trivial
    · exact trivial
    · exact trivial
  · rw [normalizeTagOrThrow]
    cases normalizeTag rawTag with
    | accepted tag | rejected reason => exact trivial
  · exact Prog.always_embed (patchIdentity_answered config moment _)

/-- A patch that is accepted writes what it was given, on the caller's own row, and answers
with it; one that is rejected, at whatever stage, changes nothing. Every call comes to one
or the other. -/
theorem profile_patched (config : ProfileConfig) (moment : Moment)
    (sessionToken : Option JsString) (rawTag : JsString) (fields : UpdateProfileFields) :
    (∀ before, (TipClient.updateProfile config moment sessionToken rawTag fields).Atomic serve
      apiPart (Patches config sessionToken rawTag fields before) before) ∧
    ∀ s, ∃ s' result, (TipClient.updateProfile config moment sessionToken rawTag fields).run serve
      s = some (s', result) :=
  ⟨updateProfile_patches config moment sessionToken rawTag fields,
    updateProfile_ends config moment sessionToken rawTag fields⟩

def sampleConfig : ProfileConfig where
  registerThrottleTtlSeconds := 60
  registerThrottleLimit := 5
  redisKeyPrefix := js "tip:"
  dep := .sample
  identityUpdateThrottleTtlSeconds := 60
  identityUpdateThrottleLimit := 10
  throttler := ⟨id, id⟩
  verify := fun token => if token = js "session" then some (js "alice") else none
  validators := {
    minLength := fun text min => min ≤ text.length
    maxLength := fun text max => text.length ≤ max
    isUrl := fun text => (js "https://").isPrefixOf text }

/-- Alice prefers another token. -/
def solFields : UpdateProfileFields where
  displayName := none
  avatar := some .undefined
  bio := none
  preferredToken := some (.value (js "SOL"))

/-- She gives half of a surrogate pair for a name. -/
def halfName : UpdateProfileFields where
  displayName := some (.value [0xD83D])
  avatar := none
  bio := none
  preferredToken := none

/-- Her row, last written at 0. -/
def aliceWorld : ApiWorld :=
  BlockedInvisible.sampleWorld.withMirror { WriteTimeOwnership.abcWorld with now := 5 }

def aliceRun (fields : UpdateProfileFields) :
    Option (StampedApi × Except TipError IdentityResponse) :=
  (TipClient.updateProfile sampleConfig ⟨⟨true, fun _ => none⟩, 0⟩ (some (js "session"))
    (js "@abc") fields).run serve (aliceWorld, fun _ => 0)

/-- What every patch leaves, hers does. -/
theorem aliceRun_ends {fields : UpdateProfileFields} {Q : IdentityResponse → Part → Prop}
    (get : IdentityResponse → Part → α) {a : α}
    (h : (TipClient.updateProfile sampleConfig ⟨⟨true, fun _ => none⟩, 0⟩ (some (js "session"))
      (js "@abc") fields).Atomic serve apiPart Q (apiPart (aliceWorld, fun _ => 0)))
    (hrun : (aliceRun fields).map (fun (s, result) => result.toOption.map (get · (apiPart s))) =
      some (some a)) :
    ∃ response after, Q response after ∧ get response after = a := by
  obtain ⟨⟨s',result⟩,hs,he⟩ := Option.map_eq_some_iff.mp hrun
  have hends := Prog.ensures_run h hs
  cases result with
  | error e => cases he
  | ok response => exact ⟨response,_,hends,Option.some.inj he⟩

/-- The row's `updatedAt`, which no field names, moves with every patch that is a statement;
and a name is kept as UTF-8 has it. -/
theorem stamped_and_replaced :
    (¬ ∀ (config : ProfileConfig) (moment : Moment) (sessionToken : Option JsString)
      (rawTag : JsString) (fields : UpdateProfileFields) (before : Part),
      (TipClient.updateProfile config moment sessionToken rawTag fields).Atomic serve apiPart
        (fun _ after => after.updatedAt = before.updatedAt) before) ∧
    ¬ ∀ (config : ProfileConfig) (moment : Moment) (sessionToken : Option JsString)
      (rawTag : JsString) (fields : UpdateProfileFields) (before : Part),
      (TipClient.updateProfile config moment sessionToken rawTag fields).Atomic serve apiPart
        (fun response _ => ∀ text, fields.displayName = some (.value text) →
          response.displayName = some (trim text)) before := by
  constructor
  · intro h
    have hrun : (aliceRun solFields).map (fun (s, result) =>
        result.toOption.map (fun _ => (apiPart s).updatedAt (js "abc"))) = some (some 5) := by decide
    obtain ⟨_,after,hkept,hmoved⟩ :=
      aliceRun_ends (fun _ after => after.updatedAt (js "abc")) (h _ _ _ _ _ _) hrun
    rw [hkept] at hmoved
    cases hmoved
  · intro h
    have hrun : (aliceRun halfName).map (fun (_, result) =>
        result.toOption.map IdentityResponse.displayName) = some (some (some [0xFFFD])) := by decide
    obtain ⟨response,_,hkept,hstored⟩ :=
      aliceRun_ends (fun response _ => response.displayName) (h _ _ _ _ _ _) hrun
    have hgiven : trim [0xD83D] = [0xD83D] := by decide
    rw [hkept [0xD83D] rfl, hgiven] at hstored
    cases hstored

end Tagwise.Proofs.ProfilePatch
