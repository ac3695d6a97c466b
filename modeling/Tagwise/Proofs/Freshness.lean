import Tagwise.Proofs.MirrorLedger

namespace Tagwise.Proofs.Freshness
open Js Tagwise.Core Services Api Lib
open MirrorRecord
open LookupPath
open MirrorLedger (Ledger)

/-- A call that resolves the tag. -/
def LookupOf (pool : MirrorPool) (i : Nat) (tag : JsString) : Prop :=
  ∃ server t rest, pool.threads[i]? = some ⟨.resolve server t, rest⟩ ∧ t.text = tag

/-- A writer deletes a key only when every lookup that read the row before its write has
left. -/
def Unstraddled (dep : Deployment) (pool : MirrorPool) : MirrorEvent → Prop
  | .turn who => ∀ tag call c k, pool.threads[who]? = some ⟨call, .call c k⟩ →
    c = .redisDel (resolveKey dep tag) →
    ∀ before read between write after,
      pool.trace = before ++ read :: (between ++ write :: after) →
      write.who = who → writes write.command write.reply = some tag →
      LookupOf pool read.who tag → finds tag read.command read.reply ≠ none →
      ∃ leave ∈ pool.trace, leave.who = read.who ∧ isLeave leave.command = true
  | _ => True

/-- The write is recorded, and its key has been deleted by its writer. -/
def Invalidated (dep : Deployment) (pool : MirrorPool) (tag : JsString)
    (before : List MirrorEntry) (write : MirrorEntry) : Prop :=
  ∃ between delete rest, pool.trace = before ++ write :: (between ++ delete :: rest) ∧
    writes write.command write.reply = some tag ∧
    delete.command = .redisDel (resolveKey dep tag) ∧ delete.who = write.who

/-- The answer that a result gives, if it is one. -/
def valueOfResult : Except Thrown MirrorResult → Option CacheValue
  | .ok (.resolved response) => some (.response response)
  | .error (.notFound _) => some .negative
  | _ => none

/-- An answer read after a write. -/
def AnswersAfter (dep : Deployment) (pool : MirrorPool) (tag : JsString)
    (before : List MirrorEntry) (write : MirrorEntry) (v : CacheValue) : Prop :=
  ∃ between read rest row, pool.trace = before ++ write :: (between ++ read :: rest) ∧
    finds tag read.command read.reply = some row ∧ Says dep pool.trace tag row v

structure Coherent (dep : Deployment) (identities : Identities) (events : List MirrorEvent) :
    Prop where
  /-- When all calls have ended, an entry is what a lookup of the present row makes. -/
  agrees : (∀ i < (MirrorPool.after dep identities events).threads.length,
      (MirrorPool.after dep identities events).result i ≠ none) →
    ∀ tag v, (MirrorPool.after dep identities events).shared.redis (resolveKey dep tag) = some v →
      Says dep (MirrorPool.after dep identities events).trace tag
        ((MirrorPool.after dep identities events).shared.identities.find tag) v
  /-- A call begun after a write was invalidated answers from that write or a later one. -/
  fresh : ∀ early late, events = early ++ late → ∀ tag before write,
    Invalidated dep (MirrorPool.after dep identities early) tag before write →
    ∀ i result v, (MirrorPool.after dep identities early).threads.length ≤ i →
      LookupOf (MirrorPool.after dep identities events) i tag →
      (MirrorPool.after dep identities events).result i = some result →
      valueOfResult result = some v →
      AnswersAfter dep (MirrorPool.after dep identities events) tag before write v
  /-- And a write that blocks hides the tag from it. -/
  hidden : ∀ early late, events = early ++ late → ∀ tag before write,
    Invalidated dep (MirrorPool.after dep identities early) tag before write →
    blocks write.command = true →
    ∀ i response, (MirrorPool.after dep identities early).threads.length ≤ i →
      LookupOf (MirrorPool.after dep identities events) i tag →
      (MirrorPool.after dep identities events).result i ≠ some (.ok (.resolved response))

section Replies
variable {w w' : World} {c : Command} {r : Reply c} (h : w.handle c = some (w', r))
include h

theorem finds_answer {tag : JsString} {row : Option Identity} (hf : finds tag c r = some row) :
    w.identities.find tag = row := by
  cases c with
  | findUniqueIdentity t =>
    simp only [World.handle] at h
    split at h
    · cases h
      simp only [finds, Option.ite_none_right_eq_some, Option.some.injEq] at hf
      obtain ⟨rfl,rfl⟩ := hf
      rfl
    · cases h
      cases hf
  | _ => cases hf

theorem hits_answer {key : JsString} {v : CacheValue} (hf : hits c r = some (key, v)) :
    w.redis key = some v := by
  cases c with
  | redisGet k =>
    simp only [World.handle] at h
    split at h
    · cases h
      cases hv : w.redis k with
      | none =>
        rw [hv] at hf
        cases hf
      | some v' =>
        rw [hv] at hf
        cases hf
        exact hv
    · cases h
      cases hf
  | _ => cases hf

theorem joins_answer {server : Nat} {key : JsString} {f : Nat}
    (hf : joins c r = some (server, key, f)) : w.inFlight server key = some f := by
  cases c with
  | enterFlight s k =>
    simp only [World.handle] at h
    split at h
    · rename_i flight hflight
      cases h
      cases hf
      exact hflight
    · cases h
      cases hf
  | _ => cases hf

theorem awaits_answer {f : Nat} {result : Except Thrown ResolveResponse}
    (hf : awaits c r = some (f, result)) : w.settled f = some result := by
  cases c with
  | awaitFlight f' =>
    simp only [World.handle] at h
    split at h
    · rename_i result' hresult
      cases h
      cases hf
      exact hresult
    · cases h
  | _ => cases hf

end Replies

theorem finds_or_writes {tag tag' : JsString} {c : Command} {r : Reply c}
    (hf : finds tag c r ≠ none) : writes c r ≠ some tag' := by
  cases c with
  | findUniqueIdentity t => simp [writes]
  | _ => exact absurd rfl hf

section Coherence
variable {dep : Deployment} {pool : MirrorPool}
variable (hl : Ledger dep pool) (hm : Moments (Ledger dep) (Unstraddled dep) pool)

include hl in
theorem mem_of_own {i : Nat} {e : MirrorEntry} (he : e ∈ own pool.trace i) :
    e ∈ pool.trace ∧ e.who = i ∧ ∃ w, e.found.handle e.command = some (w, e.reply) :=
  ⟨(mem_own.mp he).1,(mem_own.mp he).2,hl.recorded.answered e (mem_own.mp he).1⟩

/-- A lookup is one from its first command on. -/
theorem lookup_past {past : MirrorPool} (hp : Ledger dep past)
    (hcalls : ∀ (i : Nat) t, past.threads[i]? = some t →
      ∃ rest, pool.threads[i]? = some ⟨t.call, rest⟩) {e : MirrorEntry} {tag : JsString}
    (hlook : LookupOf pool e.who tag) (he : e ∈ past.trace) : LookupOf past e.who tag := by
  obtain ⟨server,t,rest,hthread,htag⟩ := hlook
  obtain ⟨⟨call,rest'⟩,hpast⟩ : ∃ thread, past.threads[e.who]? = some thread :=
    ⟨_,List.getElem?_eq_getElem (hp.recorded.known e he)⟩
  obtain ⟨rest'',hsame⟩ := hcalls _ _ hpast
  cases hthread.symm.trans hsame
  exact ⟨server,t,rest',hpast,htag⟩

include hm in
/-- What was read by a lookup that has not left when the key is deleted comes after the
write. -/
theorem read_after {tag : JsString} {before between rest : List MirrorEntry}
    {write delete read : MirrorEntry} {row : Option Identity}
    (hs : pool.trace = before ++ write :: (between ++ delete :: rest))
    (hw : writes write.command write.reply = some tag)
    (hd : delete.command = .redisDel (resolveKey dep tag)) (hwho : delete.who = write.who)
    (hread : read ∈ pool.trace) (hf : finds tag read.command read.reply = some row)
    (hlook : LookupOf pool read.who tag)
    (hstays : ∀ leave ∈ before ++ write :: between, leave.who = read.who →
      isLeave leave.command = false) :
    ∃ between rest, pool.trace = before ++ write :: (between ++ read :: rest) := by
  rw [hs] at hread
  rcases List.mem_append.mp hread with hread | hread
  · -- a read before the write: its lookup had left at the deletion
    obtain ⟨a,b,rfl⟩ := List.append_of_mem hread
    obtain ⟨past,call,k,hp,hmeets,htrace,_,hthread,hcalls⟩ :=
      hm ((a ++ read :: b) ++ write :: between) delete rest (by rw [hs]; simp)
    obtain ⟨leave,hleave,hleft,his⟩ := hmeets tag call delete.command k hthread hd a read b write
      between (by rw [htrace]; simp) hwho.symm hw (lookup_past hp hcalls hlook (by rw [htrace]; simp))
      (by rw [hf]; simp)
    rw [hstays leave (htrace ▸ hleave) hleft] at his
    cases his
  · rcases List.mem_cons.mp hread with rfl | hread
    · exact absurd hw (finds_or_writes (by rw [hf]; simp))
    · obtain ⟨m,m',hsplit⟩ := List.append_of_mem hread
      exact ⟨m,m',by rw [hs, hsplit]⟩

include hm in
/-- What is cached is what its lookup has seen, and the lookup is still in flight. -/
theorem put_saw {x y : List MirrorEntry} {put : MirrorEntry} {key : JsString} {v : CacheValue}
    {ttl : Nat} (hs : pool.trace = x ++ put :: y) (hput : put.command = .redisSet key v ttl) :
    ∃ tag, key = resolveKey dep tag ∧ LookupOf pool put.who tag ∧ Inside (own x put.who) ∧
      Saw dep (own x put.who) tag v := by
  obtain ⟨past,call,k,hp,_,rfl,_,hthread,hcalls⟩ := hm x put y hs
  obtain ⟨server,t,rfl,hkey,hin,hsaw⟩ :=
    MirrorLedger.stands_set (hp.recorded.follows _ _ hthread) hput
  obtain ⟨rest,hnow⟩ := hcalls _ _ hthread
  exact ⟨t,hkey,⟨server,t,rest,hnow,rfl⟩,hin,hsaw⟩

include hm in
/-- What a lookup hands to those that share it is what it has seen. -/
theorem leave_saw {x y : List MirrorEntry} {leave : MirrorEntry} {server : Nat} {key : JsString}
    {f : Nat} {result : Except Thrown ResolveResponse} (hs : pool.trace = x ++ leave :: y)
    (hleave : leave.command = .leaveFlight server key f result) :
    ∃ tag, key = resolveKey dep tag ∧ LookupOf pool leave.who tag ∧
      (∃ e ∈ own x leave.who, leads e.command e.reply = some (server, key, f)) ∧
      ∀ v, valueOf result = some v → Saw dep (own x leave.who) tag v := by
  obtain ⟨past,call,k,hp,_,rfl,_,hthread,hcalls⟩ := hm x leave y hs
  obtain ⟨t,rfl,hkey,_,hopen,hsaw,_⟩ :=
    MirrorLedger.stands_leave (hp.recorded.follows _ _ hthread) hleave
  obtain ⟨rest,hnow⟩ := hcalls _ _ hthread
  exact ⟨t,hkey,⟨server,t,rest,hnow,rfl⟩,hopen,hsaw⟩

theorem own_subset (trace : List MirrorEntry) (i : Nat) : own trace i ⊆ trace :=
  fun _ he => (mem_own.mp he).1

include hl in
/-- Each write of a call that has ended is followed by the deletion of its key. -/
theorem deleted_after {i : Nat} (hi : i < pool.threads.length) (hdone : pool.result i ≠ none)
    {x y : List MirrorEntry} {write : MirrorEntry} {tag : JsString} (hwho : write.who = i)
    (hs : pool.trace = x ++ write :: y) (hw : writes write.command write.reply = some tag) :
    ∃ delete ∈ y, delete.who = i ∧ delete.command = .redisDel (resolveKey dep tag) := by
  obtain ⟨⟨call,rest⟩,hthread⟩ : ∃ thread, pool.threads[i]? = some thread :=
    ⟨_,List.getElem?_eq_getElem hi⟩
  have hq : ∀ c k, rest ≠ .call c k := by
    rintro c k rfl
    rw [Pool.result, hthread] at hdone
    exact hdone rfl
  have hown : own pool.trace i = own x i ++ write :: own y i := by
    have hself : own [write] i = [write] := hwho ▸ own_self write
    rw [hs, own_append, ← List.singleton_append, own_append, hself]
    rfl
  obtain ⟨delete,hdelete,hd⟩ := (hl.recorded.follows i _ hthread).paid
    (WriterPath.deletes_apart dep) hq (MirrorLedger.body_pays call) hown hw
  exact ⟨delete,(mem_own.mp hdelete).1,(mem_own.mp hdelete).2,hd⟩

include hl hm in
theorem entry_agrees (hdone : ∀ i < pool.threads.length, pool.result i ≠ none) {tag : JsString}
    {v : CacheValue} (hv : pool.shared.redis (resolveKey dep tag) = some v) :
    Says dep pool.trace tag (pool.shared.identities.find tag) v := by
  obtain ⟨x,put,y,ttl,hs,hput,hkept⟩ := hl.cached _ v hv
  obtain ⟨t,hkey,hlook,hin,read,hread,row,hf,hsaid⟩ := put_saw hm hs hput
  cases buildResolveCacheKey_inj hkey
  obtain ⟨hmem,hwho⟩ := mem_own.mp hread
  obtain ⟨a,b,rfl⟩ := List.append_of_mem hmem
  have hreads : finds tag read.command read.reply ≠ none := by rw [hf]; simp
  have hunwritten : ∀ e ∈ read :: (b ++ put :: y), writes e.command e.reply ≠ some tag := by
    intro e he hw
    rcases List.mem_cons.mp he with rfl | he
    · exact finds_or_writes hreads hw
    -- a write since the read: its key was deleted before the entry was put
    obtain ⟨m,m',hsplit⟩ := List.append_of_mem he
    have hs' : pool.trace = (a ++ read :: m) ++ e :: m' := by rw [hs]; simp [hsplit]
    have hknown : e.who < pool.threads.length := hl.recorded.known e (by rw [hs']; simp)
    obtain ⟨delete,hdelete,hdwho,hd⟩ := deleted_after hl hknown (hdone _ hknown) rfl hs' hw
    obtain ⟨n,n',rfl⟩ := List.append_of_mem hdelete
    have hsd : pool.trace = ((a ++ read :: m) ++ e :: n) ++ delete :: n' := by rw [hs']; simp
    have hne : delete ≠ put := by
      rintro rfl
      rw [hput] at hd
      cases hd
    obtain ⟨between,hx⟩ := before_of_split (hsd.symm.trans hs)
      (fun hy => hkept delete hy hd) hne
    obtain ⟨past,call,k,hp,hmeets,htrace,_,hthread,hcalls⟩ := hm _ _ _ hsd
    obtain ⟨leave,hleave,hleft,his⟩ := hmeets tag call delete.command k hthread hd a read m e n
      (by rw [htrace]; simp) hdwho.symm hw
      (lookup_past hp hcalls (hwho ▸ hlook) (by rw [htrace]; simp)) hreads
    have hinside := hin leave (mem_own.mpr ⟨by rw [hx, ← htrace]; exact List.mem_append_left _ hleave,
      hleft.trans hwho⟩)
    rw [hinside] at his
    cases his
  have hrow : pool.shared.identities.find tag = row := by
    obtain ⟨w,hh⟩ := hl.recorded.answered read (by rw [hs]; simp)
    rw [hl.rows a read (b ++ put :: y) tag (by rw [hs]; simp) hunwritten]
    exact finds_answer hh hf
  rw [hrow]
  exact hsaid.mono (fun e he => by rw [hs]; exact List.mem_append_left _ (own_subset _ _ he))

section After
variable {tag : JsString} {before between rest tail : List MirrorEntry}
variable {write delete : MirrorEntry} {v : CacheValue}
variable (hs : pool.trace = (before ++ write :: (between ++ delete :: rest)) ++ tail)
variable (hw : writes write.command write.reply = some tag)
variable (hd : delete.command = .redisDel (resolveKey dep tag)) (hwho : delete.who = write.who)
include hm hs hw hd hwho

theorem saw_after {x : List MirrorEntry} {i : Nat} (hsaw : Saw dep (own x i) tag v)
    (hx : x ⊆ pool.trace) (hlook : LookupOf pool i tag)
    (hstays : ∀ leave ∈ before ++ write :: between, leave.who = i →
      isLeave leave.command = false) : AnswersAfter dep pool tag before write v := by
  obtain ⟨read,hread,row,hf,hsaid⟩ := hsaw
  obtain ⟨hmem,rfl⟩ := mem_own.mp hread
  have hs' : pool.trace = before ++ write :: (between ++ delete :: (rest ++ tail)) := by
    rw [hs]
    simp
  obtain ⟨m,m',hsplit⟩ := read_after hm hs' hw hd hwho (hx hmem) hf hlook hstays
  exact ⟨m,read,m',row,hsplit,hf,hsaid.mono (fun e he => hx (own_subset _ _ he))⟩

variable {i : Nat} (hnew : ∀ e ∈ before ++ write :: (between ++ delete :: rest), e.who ≠ i)
include hnew

omit hm hw hd hwho in
/-- What stands before an entry of a later call has the deletion. -/
theorem later_split {x y : List MirrorEntry} {e : MirrorEntry} (he : pool.trace = x ++ e :: y)
    (hi : e.who = i) : ∃ m, x = (before ++ write :: (between ++ delete :: rest)) ++ m :=
  prefix_before (hs.symm.trans he) (fun hmem => hnew e hmem hi)

include hl

/-- A later call that hits an entry. -/
theorem hit_fresh {e : MirrorEntry} (he : e ∈ own pool.trace i)
    (hh : hits e.command e.reply = some (resolveKey dep tag, v)) :
    AnswersAfter dep pool tag before write v := by
  obtain ⟨hmem,hi,w,hanswer⟩ := mem_of_own hl he
  obtain ⟨x,y,hx⟩ := List.append_of_mem hmem
  obtain ⟨past,_,_,hp,_,htrace,hfound,_⟩ := hm x e y hx
  have hredis : past.shared.redis (resolveKey dep tag) = some v := by
    rw [hfound]
    exact hits_answer hanswer hh
  obtain ⟨a,put,b,ttl,hput,hset,hkept⟩ := hp.cached _ v hredis
  rw [htrace] at hput
  obtain ⟨m,hm'⟩ := later_split hs hnew hx hi
  have hne : delete ≠ put := by
    rintro rfl
    rw [hset] at hd
    cases hd
  have hxd : x = (before ++ write :: between) ++ delete :: (rest ++ m) := by
    rw [hm']
    simp
  obtain ⟨n,ha⟩ := before_of_split (hxd.symm.trans hput)
    (fun hy => hkept delete hy hd) hne
  obtain ⟨t,hkey,hlook,hin,hsaw⟩ := put_saw hm (hx.trans (by rw [hput]; simp) :
    pool.trace = a ++ put :: (b ++ e :: y)) hset
  cases buildResolveCacheKey_inj hkey
  refine saw_after hm hs hw hd hwho hsaw (fun e' he' => ?_) hlook (fun leave hleave hleft => ?_)
  · rw [hx, hput]
    exact List.mem_append_left _ (List.mem_append_left _ he')
  · exact hin leave (mem_own.mpr ⟨by rw [ha]; exact List.mem_append_left _ hleave,hleft⟩)

/-- A later call that shares a lookup. -/
theorem share_fresh {e e' : MirrorEntry} (he : e ∈ own pool.trace i) (he' : e' ∈ own pool.trace i)
    {server f : Nat} {shared : Except Thrown ResolveResponse}
    (hj : joins e.command e.reply = some (server, resolveKey dep tag, f))
    (ha : awaits e'.command e'.reply = some (f, shared)) (hv : valueOf shared = some v) :
    AnswersAfter dep pool tag before write v := by
  obtain ⟨hmem,hi,w,hanswer⟩ := mem_of_own hl he
  obtain ⟨hmem',hi',w',hanswer'⟩ := mem_of_own hl he'
  obtain ⟨x,y,hx⟩ := List.append_of_mem hmem
  obtain ⟨x',y',hx'⟩ := List.append_of_mem hmem'
  obtain ⟨past,_,_,hp,_,htrace,hfound,_⟩ := hm x e y hx
  obtain ⟨past',_,_,hp',_,htrace',hfound',_⟩ := hm x' e' y' hx'
  obtain ⟨enter,henter,hlead,hstays⟩ := hp.flying server (resolveKey dep tag) f
    (by rw [hfound]; exact joins_answer hanswer hj)
  obtain ⟨leave,hleave,s,key,hleft⟩ := hp'.settled f shared
    (by rw [hfound']; exact awaits_answer hanswer' ha)
  rw [htrace] at henter hstays
  rw [htrace'] at hleave
  have hleave : leave ∈ pool.trace := by
    rw [hx']
    exact List.mem_append_left _ hleave
  obtain ⟨a,b,hab⟩ := List.append_of_mem hleave
  obtain ⟨t,hkey,hlook,⟨enter',henter',hlead'⟩,hsaw⟩ := leave_saw hm hab hleft
  have hsame : enter = enter' := by
    refine hl.numbered enter ?_ enter' ?_ _ _ _ _ f hlead hlead'
    · rw [hx]
      exact List.mem_append_left _ henter
    · rw [hab]
      exact List.mem_append_left _ (mem_own.mp henter').1
  subst hsame
  cases hlead.symm.trans hlead'
  cases buildResolveCacheKey_inj hkey
  obtain ⟨m,hm'⟩ := later_split hs hnew hx hi
  refine saw_after hm hs hw hd hwho (hsaw v hv) (fun e he => ?_) hlook (fun l hmem hleft => ?_)
  · rw [hab]
    exact List.mem_append_left _ he
  · refine hstays l ?_ (hleft.trans (mem_own.mp henter').2.symm)
    rw [hm']
    have hmem : l ∈ before ++ write :: (between ++ delete :: rest) := by
      rcases List.mem_append.mp hmem with hb | hb
      · exact List.mem_append_left _ hb
      · refine List.mem_append_right _ ?_
        rw [← List.cons_append]
        exact List.mem_append_left _ hb
    exact List.mem_append_left _ hmem

/-- A later call answers from the write or from a later state. -/
theorem answer_fresh (hlook : LookupOf pool i tag) {result : Except Thrown MirrorResult}
    (hr : pool.result i = some result) (hv : valueOfResult result = some v) :
    AnswersAfter dep pool tag before write v := by
  obtain ⟨server,t,q,hthread,rfl⟩ := id hlook
  obtain ⟨q',hpath,rfl⟩ := MirrorLedger.body_path (hl.recorded.follows i _ hthread)
  obtain ⟨result',hq,hv'⟩ : ∃ result', outcome q' = some result' ∧ valueOf result' = some v := by
    rw [Pool.result, hthread] at hr
    cases q' with
    | done a =>
      cases hr
      exact ⟨_,rfl,hv⟩
    | fail e =>
      cases hr
      refine ⟨_,rfl,?_⟩
      cases e with
      | notFound m => exact hv
      | _ => cases hv
    | call c k => cases hr
  rcases hpath.ends result' v hq hv' with ⟨e,he,hh⟩ | ⟨e,he,e',he',f,shared,hj,ha,hvs⟩ | hsaw
  · exact hit_fresh hl hm hs hw hd hwho hnew he hh
  · exact share_fresh hl hm hs hw hd hwho hnew he he' hj ha hvs
  · refine saw_after hm hs hw hd hwho hsaw (List.Subset.refl _) hlook (fun leave hmem hleft => ?_)
    refine absurd hleft (hnew leave ?_)
    rcases List.mem_append.mp hmem with hb | hb
    · exact List.mem_append_left _ hb
    · refine List.mem_append_right _ ?_
      rw [← List.cons_append]
      exact List.mem_append_left _ hb

end After

theorem lookupValue_blocked {tag : JsString} {row : Identity} (h : row.status = .blocked)
    (account : Except Unit (Option (List UInt8))) :
    lookupValue dep tag (some row) account = .negative := by
  simp [lookupValue, Option.filter, h, valueFrom]

include hl hm in
/-- What is read after a blocking write is not found. -/
theorem blocked_negative {tag : JsString} {before : List MirrorEntry} {write : MirrorEntry}
    {v : CacheValue} (hw : writes write.command write.reply = some tag)
    (hb : blocks write.command = true) (h : AnswersAfter dep pool tag before write v) :
    v = .negative := by
  obtain ⟨between,read,rest,row,hs,hf,account,hv,_⟩ := h
  have hread : pool.trace = (before ++ write :: between) ++ read :: rest := by
    rw [hs]
    simp
  obtain ⟨past,call,k,hp,_,htrace,hfound,hthread,_⟩ := hm _ _ _ hread
  obtain ⟨row',hrow,hblocked⟩ := hp.blocked write (by rw [htrace]; simp) tag hw hb
  obtain ⟨w,hanswer⟩ := hl.recorded.answered read (by rw [hread]; simp)
  rw [hfound, finds_answer hanswer hf] at hrow
  rw [hv, hrow, lookupValue_blocked hblocked]

end Coherence

/-- Where no lookup that has read the old row outlives the deletion, the cache agrees with
the mirror. -/
theorem coherent (dep : Deployment) (identities : Identities) (events : List MirrorEvent)
    (h : Along (MirrorPool.step dep) (Unstraddled dep) (MirrorPool.start identities) events) :
    Coherent dep identities events := by
  obtain ⟨hl,hm⟩ : Ledger dep (MirrorPool.after dep identities events) ∧
      Moments (Ledger dep) (Unstraddled dep) (MirrorPool.after dep identities events) :=
    run_moments (MirrorLedger.ledger_start identities) MirrorLedger.ledger_step h
  have hfresh : ∀ early late, events = early ++ late → ∀ tag before write,
      Invalidated dep (MirrorPool.after dep identities early) tag before write →
      ∀ i result v, (MirrorPool.after dep identities early).threads.length ≤ i →
        LookupOf (MirrorPool.after dep identities events) i tag →
        (MirrorPool.after dep identities events).result i = some result →
        valueOfResult result = some v →
        AnswersAfter dep (MirrorPool.after dep identities events) tag before write v := by
    intro early late hsplit tag before write hinv i result v hi hlook hr hv
    obtain ⟨between,delete,rest,htrace,hw,hd,hwho⟩ := hinv
    have hearly : Ledger dep (MirrorPool.after dep identities early) :=
      run_invariant (MirrorLedger.ledger_start identities) MirrorLedger.ledger_step early
    obtain ⟨tail,htail⟩ : ∃ tail, (MirrorPool.after dep identities events).trace =
        (MirrorPool.after dep identities early).trace ++ tail := by
      rw [hsplit, MirrorPool.after, run_append]
      exact run_trace _ late
    rw [htrace] at htail
    refine answer_fresh hl hm htail hw hd hwho (fun e he hei => ?_) hlook hr hv
    have hknown := hearly.recorded.known e (htrace ▸ he)
    omega
  refine ⟨fun hdone tag v hv => entry_agrees hl hm hdone hv,hfresh,
    fun early late hsplit tag before write hinv hb i response hi hlook hr => ?_⟩
  have hafter := hfresh early late hsplit tag before write hinv i _ _ hi hlook hr rfl
  obtain ⟨_,_,_,_,hw,_,_⟩ := hinv
  cases blocked_negative hl hm hw hb hafter

/-- An engine with one word. -/
def strictDeployment : Deployment :=
  { Deployment.sample with engine := ⟨fun text => .ok (text = js "abc")⟩ }

/-- The row of `abc`, mirrored before the engine knew the word. -/
def abcRow : Identity where
  tag := js "abc"
  owner := Program.base58 Program.sampleOwner
  wallet := Program.base58 Program.sampleOwner
  bump := 255
  displayName := none
  avatar := none
  bio := none
  preferredToken := none
  verified := false
  merchant := false
  status := .active
  lastAppliedSlot := 1
  createdAt := 0

def abcIdentities : Identities := ⟨[abcRow], by simp⟩

def turns (who n : Nat) : List MirrorEvent := List.replicate n (.turn who)

/-- A lookup reads the row, the backfill blocks it and deletes its key, and the lookup
then caches what it has read. -/
def straddled : List MirrorEvent :=
  .spawn (.resolve 0 .abc) :: turns 0 3 ++ .spawn .backfillModerationGate :: turns 1 3 ++ turns 0 2 ++
    [.spawn (.resolve 0 .abc), .turn 2]

/-- The same calls, the lookup ending first. -/
def inTurn : List MirrorEvent :=
  .spawn (.resolve 0 .abc) :: turns 0 5 ++ .spawn .backfillModerationGate :: turns 1 3 ++
    .spawn (.resolve 0 .abc) :: turns 2 5

def abcPool (events : List MirrorEvent) : MirrorPool :=
  MirrorPool.after strictDeployment abcIdentities events

theorem blocked_served :
    (abcPool straddled).shared.identities.find (js "abc") = some { abcRow with status := .blocked } ∧
    (abcPool straddled).result 2 =
      some (.ok (.resolved (resolveResponse strictDeployment (js "abc") abcRow))) ∧
    ¬ Coherent strictDeployment abcIdentities straddled := by
  have hrow : (abcPool straddled).shared.identities.find (js "abc") =
      some { abcRow with status := .blocked } := by decide
  have hentry : (abcPool straddled).shared.redis (resolveKey strictDeployment (js "abc")) =
      some (.response (resolveResponse strictDeployment (js "abc") abcRow)) := by decide
  refine ⟨hrow,by decide,fun h => ?_⟩
  have hended : ∀ i < (abcPool straddled).threads.length, (abcPool straddled).result i ≠ none := by
    decide
  obtain ⟨account,hv,_⟩ := h.agrees hended _ _ hentry
  have hfound : (MirrorPool.after strictDeployment abcIdentities straddled).shared.identities.find
      (js "abc") = some { abcRow with status := .blocked } := hrow
  rw [hfound, lookupValue_blocked rfl] at hv
  cases hv

def deleting (pool : MirrorPool) (who : Nat) : Bool :=
  match pool.threads[who]? with
  | some ⟨_, .call (.redisDel _) _⟩ => true
  | _ => false

/-- Every resolve call has left its lookup. -/
def allLeft (pool : MirrorPool) : Bool :=
  (List.range pool.threads.length).all fun i =>
    match pool.threads[i]? with
    | some ⟨.resolve _ _, _⟩ => pool.trace.any (fun e => e.who = i ∧ isLeave e.command = true)
    | _ => true

theorem unstraddled_of_idle {dep : Deployment} {pool : MirrorPool} {who : Nat}
    (h : deleting pool who = false) : Unstraddled dep pool (.turn who) := by
  rintro tag call c k hthread rfl
  rw [deleting, hthread] at h
  cases h

theorem unstraddled_of_left {dep : Deployment} {pool : MirrorPool} {who : Nat}
    (h : allLeft pool = true) : Unstraddled dep pool (.turn who) := by
  intro tag call c k _ _ before read between write after _ _ _ hlook _
  obtain ⟨server,t,rest,hthread,_⟩ := hlook
  have hi := List.all_eq_true.mp h read.who
    (List.mem_range.mpr (List.getElem?_eq_some_iff.mp hthread).1)
  rw [hthread] at hi
  obtain ⟨leave,hmem,hleave⟩ := List.any_eq_true.mp hi
  exact ⟨leave,hmem,(of_decide_eq_true hleave).1,(of_decide_eq_true hleave).2⟩

theorem inTurn_along : Along (MirrorPool.step strictDeployment) (Unstraddled strictDeployment)
    (MirrorPool.start abcIdentities) inTurn :=
  ⟨trivial,unstraddled_of_idle (by decide),unstraddled_of_idle (by decide),
    unstraddled_of_idle (by decide),unstraddled_of_idle (by decide),
    unstraddled_of_idle (by decide),trivial,unstraddled_of_idle (by decide),
    unstraddled_of_idle (by decide),unstraddled_of_left (by decide),trivial,
    unstraddled_of_idle (by decide),unstraddled_of_idle (by decide),
    unstraddled_of_idle (by decide),unstraddled_of_idle (by decide),
    unstraddled_of_idle (by decide),trivial⟩

theorem blocked_hidden :
    (abcPool inTurn).result 2 = some (.error (notFound (js "abc"))) ∧
    Coherent strictDeployment abcIdentities inTurn :=
  ⟨by decide,coherent strictDeployment abcIdentities inTurn inTurn_along⟩

end Tagwise.Proofs.Freshness
