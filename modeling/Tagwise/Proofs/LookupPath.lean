import Tagwise.Proofs.MirrorRecord

/-! Where a resolve call stands, by what it has sent and heard. -/

namespace Tagwise.Proofs.LookupPath
open Js Tagwise.Core Services Api Lib
open MirrorRecord (MirrorEntry finds leads isLeave unblocks Reading)

def resolveKey (dep : Deployment) (tag : JsString) : JsString :=
  buildResolveCacheKey dep.redisKeyPrefix tag

/-- An answer of the RPC node on the account of a tag. -/
def hears (dep : Deployment) (tag : JsString) :
    (c : Command) → Reply c → Option (Except Unit (Option (List UInt8)))
  | .getAccountInfo address, account =>
    match deriveTagPda dep.sol tag with
    | .ok (pda, _) => if address = pda then some account else none
    | .error _ => none
  | _, _ => none

def valueFrom (dep : Deployment) (tag : JsString) : Option Identity → CacheValue
  | none => .negative
  | some row => .response (resolveResponse dep tag row)

/-- What a key holds after a lookup that found this row, and, without one, this answer of
the RPC node. -/
def lookupValue (dep : Deployment) (tag : JsString) (mirrorRow : Option Identity)
    (account : Except Unit (Option (List UInt8))) : CacheValue :=
  valueFrom dep tag
    ((mirrorRow.or (fromAccount dep account)).filter (fun row => row.status = .active))

/-- The value that the row makes, with an answer of the RPC node that was given. -/
def Says (dep : Deployment) (es : List MirrorEntry) (tag : JsString) (row : Option Identity)
    (v : CacheValue) : Prop :=
  ∃ account, v = lookupValue dep tag row account ∧
    (row = none → ∃ e ∈ es, hears dep tag e.command e.reply = some account)

/-- The value is what a recorded read makes. -/
def Saw (dep : Deployment) (es : List MirrorEntry) (tag : JsString) (v : CacheValue) : Prop :=
  ∃ read ∈ es, ∃ row, finds tag read.command read.reply = some row ∧ Says dep es tag row v

/-- The answers of a lookup that a key can hold. -/
def valueOf : Except Thrown ResolveResponse → Option CacheValue
  | .ok response => some (.response response)
  | .error (.notFound _) => some .negative
  | .error _ => none

def outcome : Prog Command Reply Thrown α → Option (Except Thrown α)
  | .done a => some (.ok a)
  | .fail e => some (.error e)
  | .call _ _ => none

structure Uncached (dep : Deployment) (tag : JsString) (es : List MirrorEntry)
    (q : Async ResolveResponse) : Prop where
  sets : ∀ key v ttl k, q = .call (.redisSet key v ttl) k →
    key = resolveKey dep tag ∧ Saw dep es tag v
  returns : ∀ result v, outcome q = some result → valueOf result = some v → Saw dep es tag v

theorem findUnique_follows {tag : JsString} {es : List MirrorEntry} {q : Async (Option Identity)}
    (h : Follows (findUnique tag) es q) :
    (∃ k, q = .call (.findUniqueIdentity tag) k) ∨ (∃ e, q = .fail (.database e)) ∨
    ∃ read row, es = [read] ∧ finds tag read.command read.reply = some row ∧ q = .done row := by
  rcases Follows.call_inv h with ⟨rfl,rfl⟩ | ⟨i,f,r,rest,rfl,hrest⟩
  · exact .inl ⟨_,rfl⟩
  cases r with
  | error e =>
    obtain ⟨rfl,rfl⟩ := Follows.fail_inv hrest
    exact .inr (.inl ⟨e,rfl⟩)
  | ok row =>
    obtain ⟨rfl,rfl⟩ := Follows.done_inv hrest
    exact .inr (.inr ⟨_,row,rfl,by simp [finds],rfl⟩)

/-- What `sourceRow` leaves: an account asked for, or the row to answer from. -/
theorem sourceRow_follows {dep : Deployment} {tag : JsString} {mirrorRow : Option Identity}
    {es : List MirrorEntry} {q : Async (Option Identity × Option Nat)}
    (h : Follows (sourceRow dep tag mirrorRow) es q) :
    (∀ row ttl, q = .done (row, ttl) → ∃ account,
      row = (mirrorRow.or (fromAccount dep account)).filter (fun row => row.status = .active) ∧
      (mirrorRow = none → ∃ e ∈ es, hears dep tag e.command e.reply = some account)) ∧
    (∀ key v ttl k, q ≠ .call (.redisSet key v ttl) k) ∧ ∀ m, q ≠ .fail (.notFound m) := by
  cases mirrorRow with
  | some mirrorRow =>
    obtain ⟨rfl,rfl⟩ := Follows.done_inv h
    refine ⟨fun row ttl hq => ?_,fun _ _ _ _ hq => (by cases hq),fun _ hq => (by cases hq)⟩
    cases hq
    refine ⟨.error (),?_,fun hn => (by cases hn)⟩
    by_cases ha : mirrorRow.status = .active <;> simp [Option.filter, ha]
  | none =>
    simp only [sourceRow, SolanaChainFallback.lookup] at h
    cases hp : deriveTagPda dep.sol tag with
    | error e =>
      rw [hp] at h
      obtain ⟨rfl,rfl⟩ := Follows.fail_inv h
      exact ⟨fun _ _ hq => (by cases hq),fun _ _ _ _ hq => (by cases hq),fun _ hq => (by cases hq)⟩
    | ok found =>
      obtain ⟨pda,bump⟩ := found
      rw [hp] at h
      rcases Follows.call_inv h with ⟨rfl,rfl⟩ | ⟨i,f,account,rest,rfl,hrest⟩
      · exact ⟨fun _ _ hq => (by cases hq),fun _ _ _ _ hq => (by cases hq),fun _ hq => (by cases hq)⟩
      have hheard : hears dep tag (.getAccountInfo pda) account = some account := by
        simp [hears, hp]
      have hrow : ∃ ttl, rest = [] ∧
          q = .done ((fromAccount dep account).filter (fun row => row.status = .active), ttl) := by
        simp only [Prog.bind, Prog.pure_done] at hrest
        cases hrow : fromAccount dep account with
        | none =>
          simp only [hrow] at hrest
          obtain ⟨rfl,rfl⟩ := Follows.done_inv hrest
          exact ⟨none,rfl,rfl⟩
        | some row =>
          simp only [hrow] at hrest
          by_cases ha : row.status = .active
          · rw [if_pos ha] at hrest
            obtain ⟨rfl,rfl⟩ := Follows.done_inv hrest
            exact ⟨some dep.resolveCacheNegativeTtlSeconds,rfl,by simp [Option.filter, ha]⟩
          · rw [if_neg ha] at hrest
            obtain ⟨rfl,rfl⟩ := Follows.done_inv hrest
            exact ⟨none,rfl,by simp [Option.filter, ha]⟩
      obtain ⟨ttl,rfl,rfl⟩ := hrow
      refine ⟨fun row ttl' hq => ?_,fun _ _ _ _ hq => (by cases hq),fun _ hq => (by cases hq)⟩
      cases hq
      exact ⟨account,by simp,fun _ => ⟨_,List.mem_cons_self,hheard⟩⟩

theorem set_built (dep : Deployment) (tag : JsString) (v : CacheValue) (ttl : Option Nat) :
    RedisCacheReader.set dep (resolveKey dep tag) v ttl =
      (do let _ ← redisSet (resolveKey dep tag) v (ttl.getD dep.resolveCacheTtlSeconds)
          return () : Async Unit) := by
  rw [RedisCacheReader.set, resolveKey, RedisCacheReader.isResolveKey_built]
  rfl

/-- The set, and then the answer that it has set. -/
theorem answerFrom_follows {dep : Deployment} {tag : JsString} {source : Option Identity × Option Nat}
    {es : List MirrorEntry} {q : Async ResolveResponse}
    (h : Follows (answerFrom dep tag (resolveKey dep tag) source) es q) :
    (∀ key v ttl k, q = .call (.redisSet key v ttl) k →
      key = resolveKey dep tag ∧ v = valueFrom dep tag source.1) ∧
    ∀ result v, outcome q = some result → valueOf result = some v →
      v = valueFrom dep tag source.1 := by
  obtain ⟨row,ttlOverride⟩ := source
  cases row with
  | none =>
    simp only [answerFrom, set_built] at h
    rcases Follows.call_inv h with ⟨rfl,rfl⟩ | ⟨i,f,r,rest,rfl,hrest⟩
    · refine ⟨fun key v ttl k hq => ?_,fun result v hr => (by cases hr)⟩
      cases hq
      exact ⟨rfl,rfl⟩
    · obtain ⟨rfl,rfl⟩ := Follows.fail_inv hrest
      refine ⟨fun key v ttl k hq => (by cases hq),fun result v hr hv => ?_⟩
      cases hr
      cases hv
      rfl
  | some row =>
    simp only [answerFrom, set_built] at h
    rcases Follows.call_inv h with ⟨rfl,rfl⟩ | ⟨i,f,r,rest,rfl,hrest⟩
    · refine ⟨fun key v ttl k hq => ?_,fun result v hr => (by cases hr)⟩
      cases hq
      exact ⟨rfl,rfl⟩
    · obtain ⟨rfl,rfl⟩ := Follows.done_inv hrest
      refine ⟨fun key v ttl k hq => (by cases hq),fun result v hr hv => ?_⟩
      cases hr
      cases hv
      rfl

theorem uncached_follows {dep : Deployment} {tag : JsString} {es : List MirrorEntry}
    {q : Async ResolveResponse}
    (h : Follows (resolveUncached dep tag (resolveKey dep tag)) es q) : Uncached dep tag es q := by
  rcases Follows.bind_inv h with ⟨q1,hq1,hne,rfl⟩ | ⟨front,back,mirrorRow,rfl,hread,hback⟩
  · rcases findUnique_follows hq1 with ⟨k,rfl⟩ | ⟨e,rfl⟩ | ⟨_,row,_,_,rfl⟩
    · exact ⟨fun _ _ _ _ hq => (by cases hq),fun _ _ hr => (by cases hr)⟩
    · refine ⟨fun _ _ _ _ hq => (by cases hq),fun result v hr hv => ?_⟩
      cases hr
      cases hv
    · exact absurd rfl (hne row)
  rcases findUnique_follows hread with ⟨k,hk⟩ | ⟨e,he⟩ | ⟨read,row,rfl,hfinds,hrow⟩
  · cases hk
  · cases he
  cases hrow
  rcases Follows.bind_inv hback with ⟨q2,hq2,hne,rfl⟩ | ⟨middle,last,⟨row,ttl⟩,rfl,hsource,hlast⟩
  · obtain ⟨_,hset,hnot⟩ := sourceRow_follows hq2
    cases q2 with
    | done a => exact absurd rfl (hne a)
    | fail e =>
      refine ⟨fun _ _ _ _ hq => (by cases hq),fun result v hr hv => ?_⟩
      cases hr
      cases e with
      | notFound m => exact absurd rfl (hnot m)
      | database | rpc | moderation | pda | forbidden => cases hv
    | call c k =>
      refine ⟨fun key v ttl k' hq => ?_,fun _ _ hr => (by cases hr)⟩
      cases hq
      exact absurd rfl (hset key v ttl k)
  · obtain ⟨account,hrow,hheard⟩ := (sourceRow_follows hsource).1 row ttl rfl
    have hsaw : Saw dep ([read] ++ (middle ++ last)) tag (lookupValue dep tag mirrorRow account) := by
      refine ⟨read,by simp,mirrorRow,hfinds,account,rfl,fun hn => ?_⟩
      obtain ⟨e,he,heard⟩ := hheard hn
      exact ⟨e,by simp [he],heard⟩
    rw [lookupValue, ← hrow] at hsaw
    obtain ⟨hsets,hreturns⟩ := answerFrom_follows hlast
    refine ⟨fun key v ttl' k hq => ?_,fun result v hr hv => ?_⟩
    · obtain ⟨hkey,rfl⟩ := hsets key v ttl' k hq
      exact ⟨hkey,hsaw⟩
    · rw [hreturns result v hr hv]
      exact hsaw

theorem get_built (dep : Deployment) (tag : JsString) :
    RedisCacheReader.get dep (resolveKey dep tag) = (do
      match ← redisGet (resolveKey dep tag) with
      | .ok value => return value
      | .error () => return none : Async (Option CacheValue)) := by
  rw [RedisCacheReader.get, resolveKey, RedisCacheReader.isResolveKey_built]
  rfl

/-- The call behind a key that Redis does not have. -/
def missed (dep : Deployment) (server : Nat) (tag : JsString) : Async ResolveResponse := do
  match ← enterFlight server (resolveKey dep tag) with
  | .joins flight => settled (← awaitFlight flight)
  | .leads flight =>
    let result ← settle (resolveUncached dep tag (resolveKey dep tag))
    leaveFlight server (resolveKey dep tag) flight result
    settled result

def answered (dep : Deployment) (server : Nat) (tag : JsString) :
    Except Unit (Option CacheValue) → Async ResolveResponse
  | .ok (some .negative) => .fail (notFound tag)
  | .ok (some (.response cached)) => return cached
  | .ok none | .error () => missed dep server tag

theorem resolve_eq (dep : Deployment) (server : Nat) (tag : NormalizedTag) :
    resolve dep server tag = .call (.redisGet (resolveKey dep tag)) (answered dep server tag) := by
  have hget := get_built dep tag
  rw [resolveKey] at hget
  simp only [resolve, hget]
  change Prog.call _ _ = Prog.call _ _
  congr 1
  funext r
  match r with
  | .ok (some .negative) => rfl
  | .ok (some (.response cached)) => rfl
  | .ok none => rfl
  | .error () => rfl

/-- A lookup of another call that this one shares. -/
def joins : (c : Command) → Reply c → Option (Nat × JsString × Nat)
  | .enterFlight server key, .joins flight => some (server, key, flight)
  | _, _ => none

def awaits : (c : Command) → Reply c → Option (Nat × Except Thrown ResolveResponse)
  | .awaitFlight flight, result => some (flight, result)
  | _, _ => none

def hits : (c : Command) → Reply c → Option (JsString × CacheValue)
  | .redisGet key, .ok (some v) => some (key, v)
  | _, _ => none

/-- No lookup opened, none left. -/
def Grounded (es : List MirrorEntry) : Prop :=
  ∀ e ∈ es, leads e.command e.reply = none ∧ isLeave e.command = false

def Inside (es : List MirrorEntry) : Prop := ∀ e ∈ es, isLeave e.command = false

structure Path (dep : Deployment) (server : Nat) (tag : JsString) (es : List MirrorEntry)
    (q : Async ResolveResponse) : Prop where
  opens : ∀ e ∈ es, ∀ s key f, leads e.command e.reply = some (s, key, f) →
    s = server ∧ key = resolveKey dep tag
  enters : ∀ s key k, q = .call (.enterFlight s key) k → Grounded es
  sets : ∀ key v ttl k, q = .call (.redisSet key v ttl) k →
    key = resolveKey dep tag ∧ Inside es ∧ Saw dep es tag v
  leaves : ∀ s key f result k, q = .call (.leaveFlight s key f result) k →
    s = server ∧ key = resolveKey dep tag ∧ Inside es ∧
    (∃ e ∈ es, leads e.command e.reply = some (server, key, f)) ∧
    ∀ v, valueOf result = some v → Saw dep es tag v
  ends : ∀ result v, outcome q = some result → valueOf result = some v →
    (∃ e ∈ es, hits e.command e.reply = some (resolveKey dep tag, v)) ∨
    (∃ e ∈ es, ∃ e' ∈ es, ∃ f shared, joins e.command e.reply = some (server, resolveKey dep tag, f) ∧
      awaits e'.command e'.reply = some (f, shared) ∧ valueOf shared = some v) ∨
    Saw dep es tag v

theorem settle_follows {α : Type} {p : Async α} {es : List MirrorEntry}
    {q : Async (Except Thrown α)} (h : Follows (settle p) es q) :
    ∃ q', Follows p es q' ∧ q = settle q' := by
  induction p generalizing es with
  | done a =>
    obtain ⟨rfl,rfl⟩ := Follows.done_inv h
    exact ⟨.done a,.start _,rfl⟩
  | fail e =>
    obtain ⟨rfl,rfl⟩ := Follows.done_inv h
    exact ⟨.fail e,.start _,rfl⟩
  | call c k ih =>
    rcases Follows.call_inv h with ⟨rfl,rfl⟩ | ⟨i,f,r,rest,rfl,hrest⟩
    · exact ⟨.call c k,.start _,rfl⟩
    · obtain ⟨q',hq,rfl⟩ := ih r hrest
      exact ⟨q',.heard i f r hq,rfl⟩

/-- Commands of a lookup, apart from opening and leaving it. -/
structure Looking (c : Command) : Prop where
  lead : ∀ r, leads c r = none
  leave : isLeave c = false
  enter : ∀ server key, c ≠ .enterFlight server key
  write : Reading c
  unblock : unblocks c = false

theorem uncached_looking (dep : Deployment) (tag key : JsString) :
    (resolveUncached dep tag key).Always Looking := by
  have hset : ∀ v ttl, (RedisCacheReader.set dep key v ttl).Always Looking := by
    intro v ttl
    exact Prog.always_ite trivial ⟨⟨fun r => rfl,rfl,by simp,fun r => rfl,rfl⟩,fun r => trivial⟩
  refine Prog.always_bind ⟨⟨fun r => rfl,rfl,by simp,fun r => rfl,rfl⟩,fun r => ?_⟩ (fun mirrorRow =>
    Prog.always_bind ?_ (fun source => ?_))
  · cases r with
    | error e => exact trivial
    | ok row => exact trivial
  · cases mirrorRow with
    | some row => exact trivial
    | none =>
      refine Prog.always_bind ?_ (fun fromChain => ?_)
      · rw [SolanaChainFallback.lookup]
        cases deriveTagPda dep.sol tag with
        | error e => exact trivial
        | ok found => exact ⟨⟨fun r => rfl,rfl,by simp,fun r => rfl,rfl⟩,fun r => trivial⟩
      · cases fromChain with
        | none => exact trivial
        | some row => exact Prog.always_ite trivial trivial
  · obtain ⟨row,ttl⟩ := source
    cases row with
    | none => exact Prog.always_bind (hset _ _) (fun _ => trivial)
    | some row => exact Prog.always_bind (hset _ _) (fun _ => trivial)

theorem Says.mono {dep : Deployment} {es es' : List MirrorEntry} {tag : JsString}
    {row : Option Identity} {v : CacheValue} (h : Says dep es tag row v) (hsub : es ⊆ es') :
    Says dep es' tag row v := by
  obtain ⟨account,hv,hheard⟩ := h
  refine ⟨account,hv,fun hn => ?_⟩
  obtain ⟨e,he,heard⟩ := hheard hn
  exact ⟨e,hsub he,heard⟩

theorem Saw.mono {dep : Deployment} {es es' : List MirrorEntry} {tag : JsString} {v : CacheValue}
    (h : Saw dep es tag v) (hsub : es ⊆ es') : Saw dep es' tag v := by
  obtain ⟨read,hread,row,hfinds,hsaid⟩ := h
  exact ⟨read,hsub hread,row,hfinds,hsaid.mono hsub⟩

theorem settle_done {p : Async ResolveResponse} {result : Except Thrown ResolveResponse}
    (h : Prog.done result = settle p) : outcome p = some result := by
  cases p with
  | done a =>
    cases h
    rfl
  | fail e =>
    cases h
    rfl
  | call c k => cases h

/-- The lookup of the call that has opened it. -/
structure Leading (dep : Deployment) (server : Nat) (tag : JsString) (flight : Nat)
    (es : List MirrorEntry) (q : Async ResolveResponse) : Prop where
  opens : ∀ e ∈ es, leads e.command e.reply = none
  enters : ∀ s key k, q ≠ .call (.enterFlight s key) k
  sets : ∀ key v ttl k, q = .call (.redisSet key v ttl) k →
    key = resolveKey dep tag ∧ Inside es ∧ Saw dep es tag v
  leaves : ∀ s key f result k, q = .call (.leaveFlight s key f result) k →
    s = server ∧ key = resolveKey dep tag ∧ f = flight ∧ Inside es ∧
    ∀ v, valueOf result = some v → Saw dep es tag v
  ends : ∀ result v, outcome q = some result → valueOf result = some v → Saw dep es tag v

theorem leading_follows {dep : Deployment} {server : Nat} {tag : JsString} {flight : Nat}
    {es : List MirrorEntry} {q : Async ResolveResponse}
    (h : Follows (do
      let result ← settle (resolveUncached dep tag (resolveKey dep tag))
      leaveFlight server (resolveKey dep tag) flight result
      settled result : Async ResolveResponse) es q) : Leading dep server tag flight es q := by
  have hlooking := uncached_looking dep tag (resolveKey dep tag)
  rcases Follows.bind_inv h with ⟨q1,hq1,hne,rfl⟩ | ⟨front,back,result,rfl,hlook,hback⟩
  · obtain ⟨q',hq',rfl⟩ := settle_follows hq1
    have hes := hq'.always hlooking
    cases q' with
    | done a => exact absurd rfl (hne _)
    | fail e => exact absurd rfl (hne _)
    | call c k =>
      have hc := hq'.stands hlooking
      refine ⟨fun e he => (hes e he).lead _,fun s key k' hq => ?_,fun key v ttl k' hq => ?_,
        fun s key f result k' hq => ?_,fun result v hr => (by cases hr)⟩
      · cases hq
        exact absurd rfl (hc.enter s key)
      · cases hq
        obtain ⟨hkey,hsaw⟩ := (uncached_follows hq').sets _ _ _ _ rfl
        exact ⟨hkey,fun e he => (hes e he).leave,hsaw⟩
      · cases hq
        cases hc.leave
  · obtain ⟨q',hq',hdone⟩ := settle_follows hlook
    have hes := hq'.always hlooking
    have hsaw : ∀ v, valueOf result = some v → Saw dep front tag v :=
      fun v hv => (uncached_follows hq').returns result v (settle_done hdone) hv
    rcases Follows.call_inv hback with ⟨rfl,rfl⟩ | ⟨i,f,r,rest,rfl,hrest⟩
    · rw [List.append_nil]
      refine ⟨fun e he => (hes e he).lead _,fun s key k' hq => (by cases hq),
        fun key v ttl k' hq => (by cases hq),fun s key f result' k' hq => ?_,
        fun result' v hr => (by cases hr)⟩
      cases hq
      exact ⟨rfl,rfl,rfl,fun e he => (hes e he).leave,hsaw⟩
    · have hrest : Follows (settled result) rest q := hrest
      have hq : rest = [] ∧ outcome q = some result := by
        cases result with
        | ok a =>
          obtain ⟨rfl,rfl⟩ := Follows.done_inv hrest
          exact ⟨rfl,rfl⟩
        | error e =>
          obtain ⟨rfl,rfl⟩ := Follows.fail_inv hrest
          exact ⟨rfl,rfl⟩
      obtain ⟨rfl,hq⟩ := hq
      have hcall : ∀ c k, q ≠ .call c k := by
        rintro c k rfl
        cases hq
      refine ⟨fun e he => ?_,fun s key k' => hcall _ k',fun key v ttl k' hq => absurd hq (hcall _ k'),
        fun s key f result' k' hq => absurd hq (hcall _ k'),fun result' v hr hv => ?_⟩
      · rcases List.mem_append.mp he with he | he
        · exact (hes e he).lead _
        · cases List.mem_singleton.mp he
          rfl
      · cases hq.symm.trans hr
        exact (hsaw v hv).mono (List.subset_append_left _ _)

theorem settled_follows {result : Except Thrown ResolveResponse} {es : List MirrorEntry}
    {q : Async ResolveResponse} (h : Follows (settled result) es q) :
    es = [] ∧ outcome q = some result := by
  cases result with
  | ok a =>
    obtain ⟨rfl,rfl⟩ := Follows.done_inv h
    exact ⟨rfl,rfl⟩
  | error e =>
    obtain ⟨rfl,rfl⟩ := Follows.fail_inv h
    exact ⟨rfl,rfl⟩

theorem no_call {q : Async α} {result : Except Thrown α} (h : outcome q = some result) :
    ∀ c k, q ≠ .call c k := by
  rintro c k rfl
  cases h

section Resolve
variable {dep : Deployment} {server : Nat} {tag : JsString} {es : List MirrorEntry}
variable {q : Async ResolveResponse}

/-- A call that stands at a command which caches, opens and leaves nothing. -/
theorem Path.at_rest (hes : Grounded es) {c : Command} {k : Reply c → Async ResolveResponse}
    (hset : ∀ key v ttl, c ≠ .redisSet key v ttl) (hleave : isLeave c = false)
    (hq : q = .call c k) : Path dep server tag es q := by
  subst hq
  refine ⟨fun e he s key f hl => ?_,fun s key k' _ => hes,fun key v ttl k' hq => ?_,
    fun s key f result k' hq => ?_,fun result v hr => (by cases hr)⟩
  · rw [(hes e he).1] at hl
    cases hl
  · cases hq
    exact absurd rfl (hset key v ttl)
  · cases hq
    cases hleave

/-- A call that has ended without a lookup of its own. -/
theorem Path.ended (hes : Grounded es) {result : Except Thrown ResolveResponse}
    (hq : outcome q = some result)
    (hends : ∀ v, valueOf result = some v →
      (∃ e ∈ es, hits e.command e.reply = some (resolveKey dep tag, v)) ∨
      ∃ e ∈ es, ∃ e' ∈ es, ∃ f shared,
        joins e.command e.reply = some (server, resolveKey dep tag, f) ∧
        awaits e'.command e'.reply = some (f, shared) ∧ valueOf shared = some v) :
    Path dep server tag es q := by
  have hcall := no_call hq
  refine ⟨fun e he s key f hl => ?_,fun s key k _ => hes,fun key v ttl k h => absurd h (hcall _ k),
    fun s key f result k h => absurd h (hcall _ k),fun result' v hr hv => ?_⟩
  · rw [(hes e he).1] at hl
    cases hl
  · cases hq.symm.trans hr
    rcases hends v hv with h | h
    · exact .inl h
    · exact .inr (.inl h)

/-- A command before that opens and leaves nothing changes nothing. -/
theorem Path.cons {e : MirrorEntry} (hl : leads e.command e.reply = none)
    (hv : isLeave e.command = false) (h : Path dep server tag es q) :
    Path dep server tag (e :: es) q := by
  have hsub : es ⊆ e :: es := List.subset_cons_self e es
  have hinside : Inside es → Inside (e :: es) := by
    intro hes e' he'
    rcases List.mem_cons.mp he' with rfl | he'
    · exact hv
    · exact hes e' he'
  refine ⟨fun e' he' s key f hlead => ?_,fun s key k hq e' he' => ?_,fun key v ttl k hq => ?_,
    fun s key f result k hq => ?_,fun result v hr hval => ?_⟩
  · rcases List.mem_cons.mp he' with rfl | he'
    · cases hl.symm.trans hlead
    · exact h.opens e' he' s key f hlead
  · rcases List.mem_cons.mp he' with rfl | he'
    · exact ⟨hl,hv⟩
    · exact h.enters s key k hq e' he'
  · obtain ⟨hkey,hin,hsaw⟩ := h.sets key v ttl k hq
    exact ⟨hkey,hinside hin,hsaw.mono hsub⟩
  · obtain ⟨hs,hkey,hin,⟨e',he',hlead⟩,hsaw⟩ := h.leaves s key f result k hq
    exact ⟨hs,hkey,hinside hin,⟨e',hsub he',hlead⟩,fun v hv => (hsaw v hv).mono hsub⟩
  · rcases h.ends result v hr hval with ⟨e',he',hh⟩ | ⟨e',he',e'',he'',hj⟩ | hsaw
    · exact .inl ⟨e',hsub he',hh⟩
    · exact .inr (.inl ⟨e',hsub he',e'',hsub he'',hj⟩)
    · exact .inr (.inr (hsaw.mono hsub))

/-- The opening of a lookup, and the lookup. -/
theorem Leading.path {e : MirrorEntry} {f : Nat}
    (hlead : leads e.command e.reply = some (server, resolveKey dep tag, f))
    (hv : isLeave e.command = false) (h : Leading dep server tag f es q) :
    Path dep server tag (e :: es) q := by
  have hsub : es ⊆ e :: es := List.subset_cons_self e es
  have hinside : Inside es → Inside (e :: es) := by
    intro hes e' he'
    rcases List.mem_cons.mp he' with rfl | he'
    · exact hv
    · exact hes e' he'
  refine ⟨fun e' he' s key f' hl => ?_,fun s key k hq => absurd hq (h.enters s key k),
    fun key v ttl k hq => ?_,fun s key f' result k hq => ?_,fun result v hr hval =>
    .inr (.inr ((h.ends result v hr hval).mono hsub))⟩
  · rcases List.mem_cons.mp he' with rfl | he'
    · cases hlead.symm.trans hl
      exact ⟨rfl,rfl⟩
    · cases (h.opens e' he').symm.trans hl
  · obtain ⟨hkey,hin,hsaw⟩ := h.sets key v ttl k hq
    exact ⟨hkey,hinside hin,hsaw.mono hsub⟩
  · obtain ⟨hs,rfl,rfl,hin,hsaw⟩ := h.leaves s key f' result k hq
    exact ⟨hs,rfl,hinside hin,⟨e,List.mem_cons_self,hlead⟩,fun v hv => (hsaw v hv).mono hsub⟩

theorem miss_follows (h : Follows (missed dep server tag) es q) : Path dep server tag es q := by
  rcases Follows.call_inv h with ⟨rfl,rfl⟩ | ⟨i,f,r,rest,rfl,hrest⟩
  · exact .at_rest (fun e he => (by cases he)) (by simp) rfl rfl
  cases r with
  | joins flight =>
    rcases Follows.call_inv hrest with ⟨rfl,rfl⟩ | ⟨i',f',shared,rest',rfl,hrest'⟩
    · refine .at_rest (fun e he => ?_) (by simp) rfl rfl
      cases List.mem_singleton.mp he
      exact ⟨rfl,rfl⟩
    · obtain ⟨rfl,hq⟩ := settled_follows hrest'
      refine .ended (fun e he => ?_) hq (fun v hv => ?_)
      · simp only [List.mem_cons, List.not_mem_nil, or_false] at he
        rcases he with rfl | rfl
        · exact ⟨rfl,rfl⟩
        · exact ⟨rfl,rfl⟩
      · exact .inr ⟨_,List.mem_cons_self,_,List.mem_cons_of_mem _ (List.mem_singleton_self _),
          flight,shared,rfl,rfl,hv⟩
  | leads flight => exact (leading_follows hrest).path rfl rfl

end Resolve

theorem resolve_follows {dep : Deployment} {server : Nat} {tag : NormalizedTag}
    {es : List MirrorEntry} {q : Async ResolveResponse}
    (h : Follows (resolve dep server tag) es q) : Path dep server tag es q := by
  rw [resolve_eq] at h
  rcases Follows.call_inv h with ⟨rfl,rfl⟩ | ⟨i,f,r,rest,rfl,hrest⟩
  · exact .at_rest (fun e he => (by cases he)) (by simp) rfl rfl
  match r with
  | .error () => exact (miss_follows hrest).cons rfl rfl
  | .ok none => exact (miss_follows hrest).cons rfl rfl
  | .ok (some .negative) =>
    obtain ⟨rfl,rfl⟩ := Follows.fail_inv hrest
    refine .ended (fun e he => ?_) rfl (fun v hv => ?_)
    · cases List.mem_singleton.mp he
      exact ⟨rfl,rfl⟩
    · cases hv
      exact .inl ⟨_,List.mem_singleton_self _,rfl⟩
  | .ok (some (.response cached)) =>
    obtain ⟨rfl,rfl⟩ := Follows.done_inv hrest
    refine .ended (fun e he => ?_) rfl (fun v hv => ?_)
    · cases List.mem_singleton.mp he
      exact ⟨rfl,rfl⟩
    · cases hv
      exact .inl ⟨_,List.mem_singleton_self _,rfl⟩

section Alone
variable {dep : Deployment} {tag : JsString} {w : World}

theorem sourceRow_run {pda : JsString} {bump : UInt8} {account : Except Unit (Option (List UInt8))}
    (hpda : deriveTagPda dep.sol tag = .ok (pda, bump))
    (haccount : w.handle (.getAccountInfo pda) = some (w, account)) (mirrorRow : Option Identity) :
    ∃ ttl, (ttl = none ∨ ttl = some dep.resolveCacheNegativeTtlSeconds) ∧
      (sourceRow dep tag mirrorRow).run World.handle w = some (w, .ok
        ((mirrorRow.or (fromAccount dep account)).filter (fun row => row.status = .active), ttl)) := by
  cases mirrorRow with
  | some row =>
    refine ⟨none,.inl rfl,?_⟩
    by_cases ha : row.status = .active
    · simp [sourceRow, Option.filter, ha]
    · simp [sourceRow, Option.filter, ha]
  | none =>
    have hlookup : (SolanaChainFallback.lookup dep tag).run World.handle w =
        some (w, .ok (fromAccount dep account)) := by
      rw [SolanaChainFallback.lookup, hpda]
      exact (Prog.run_call haccount).trans rfl
    rw [sourceRow, Prog.run_bind_ok hlookup]
    cases hrow : fromAccount dep account with
    | none => exact ⟨none,.inl rfl,rfl⟩
    | some row =>
      by_cases ha : row.status = .active
      · exact ⟨some dep.resolveCacheNegativeTtlSeconds,.inr rfl,by simp [Option.filter, ha]⟩
      · exact ⟨none,.inl rfl,by simp [Option.filter, ha]⟩

variable (tag) in
theorem answerFrom_run (hredis : w.redisUp = true) {row : Option Identity} {ttl : Option Nat}
    (hnegative : 0 < dep.resolveCacheNegativeTtlSeconds)
    (httl : 0 < ttl.getD dep.resolveCacheTtlSeconds) :
    ∃ result, (answerFrom dep tag (resolveKey dep tag) (row, ttl)).run World.handle w =
      some (w.putKey (resolveKey dep tag) (some (valueFrom dep tag row)), result) := by
  have hset : ∀ v ttl, 0 < ttl → w.handle (.redisSet (resolveKey dep tag) v ttl) =
      some (w.putKey (resolveKey dep tag) (some v), .ok ()) := fun v ttl hpos => if_pos ⟨hredis,hpos⟩
  cases row with
  | none =>
    rw [answerFrom, set_built]
    exact ⟨_,(Prog.run_call (hset _ _ hnegative)).trans rfl⟩
  | some row =>
    simp only [answerFrom, set_built]
    exact ⟨_,(Prog.run_call (hset _ _ httl)).trans rfl⟩

/-- Run alone, `resolveUncached` caches the value of the row that the mirror has. -/
theorem resolveUncached_run (up : w.dbUp = true) (hredis : w.redisUp = true)
    (httl : 0 < dep.resolveCacheTtlSeconds) (hnegative : 0 < dep.resolveCacheNegativeTtlSeconds)
    {pda : JsString} {bump : UInt8} (hpda : deriveTagPda dep.sol tag = .ok (pda, bump)) :
    ∃ account result, w.handle (.getAccountInfo pda) = some (w, account) ∧
      (resolveUncached dep tag (resolveKey dep tag)).run World.handle w =
        some (w.putKey (resolveKey dep tag)
          (some (lookupValue dep tag (w.identities.find tag) account)), result) := by
  obtain ⟨account,haccount⟩ : ∃ account, w.handle (.getAccountInfo pda) = some (w, account) := by
    by_cases hrpc : w.rpcUp = true
    · exact ⟨_,if_pos hrpc⟩
    · exact ⟨_,if_neg hrpc⟩
  have hfind : (findUnique tag).run World.handle w = some (w, .ok (w.identities.find tag)) :=
    (Prog.run_call (World.handle_findUnique up tag)).trans rfl
  obtain ⟨ttl,hcases,hsource⟩ := sourceRow_run hpda haccount (w.identities.find tag)
  have hpos : 0 < ttl.getD dep.resolveCacheTtlSeconds := by
    rcases hcases with rfl | rfl
    · exact httl
    · exact hnegative
  obtain ⟨result,hanswer⟩ := answerFrom_run tag hredis hnegative hpos
  refine ⟨account,result,haccount,?_⟩
  rw [resolveUncached, Prog.run_bind_ok hfind, Prog.run_bind_ok hsource]
  exact hanswer

end Alone

end Tagwise.Proofs.LookupPath
