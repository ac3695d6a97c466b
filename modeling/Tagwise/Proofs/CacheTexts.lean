import Tagwise.Api.CacheText
import Tagwise.Lib.Refine
import Tagwise.Protocol.Network

/-! Redis holds texts, where the network's model has values: the one refines the other. -/

namespace Tagwise.Proofs.CacheTexts
open Js Services Lib Api Protocol

def World.withResolveKeys (w : World) (redis : JsString → Option CacheValue) : World :=
  { w with redis }

def Network.withMirror (n : Network) (mirror : World) : Network :=
  { n with services := n.services.withMirror mirror }

def Network.withResolveKeys (n : Network) (redis : JsString → Option CacheValue) : Network :=
  Network.withMirror n (World.withResolveKeys n.services.mirror redis)

/-- The network with the texts that Redis holds. Its own resolve keys stand unused. -/
structure TextNetwork where
  network : Network
  texts : JsString → Option JsString

namespace TextNetwork

def start (node : RpcNode) (order : ScanOrder) : TextNetwork :=
  ⟨Network.start node order, fun _ => none⟩

def putText (n : TextNetwork) (key : JsString) (text : Option JsString) : TextNetwork :=
  { n with texts := Function.update n.texts key text }

/-- The client sends a text as UTF-8, and decodes what it is sent. -/
def handle (numberText : JsString → JsString) (n : TextNetwork) :
    (c : ApiCommand) → Option (TextNetwork × ApiReply c)
  | .mirror (.redisGet key) =>
    if n.network.services.mirror.redisUp then
      some (n, .ok ((n.texts key).bind (readCacheText numberText)))
    else some (n, .error ())
  | .mirror (.redisSet key value ttl) =>
    if n.network.services.mirror.redisUp ∧ 0 < ttl then
      some (n.putText key (some (throughUtf8 (cacheText value))), .ok ())
    else some (n, .error ())
  | .mirror (.redisDel key) =>
    if n.network.services.mirror.redisUp then some (n.putText key none, .ok ())
    else some (n, .error ())
  | c => (n.network.handle c).map (fun (network, r) => ({ n with network }, r))

def act (cfg : NetworkConfig) (n : TextNetwork) : NetworkWeather → TextNetwork
  | .services (.expire key) => n.putText key none
  | weather => { n with network := n.network.act cfg weather }

/-- What the cache reader would make of the texts. -/
def reads (numberText : JsString → JsString) (n : TextNetwork) : JsString → Option CacheValue :=
  fun key => (n.texts key).bind (readCacheText numberText)

/-- The network whose resolve keys hold what the reader makes of the texts. -/
def values (numberText : JsString → JsString) (n : TextNetwork) : Network :=
  Network.withResolveKeys n.network (n.reads numberText)

end TextNetwork

abbrev TextPool := Pool ApiCommand ApiReply ApiError NetworkResult TextNetwork NetworkCall

def TextPool.after (numberText : JsString → JsString) (cfg : NetworkConfig) (node : RpcNode)
    (order : ScanOrder) (events : List NetworkEvent) : TextPool :=
  run (Pool.step (TextNetwork.handle numberText) (NetworkCall.body cfg) (TextNetwork.act cfg))
    (Pool.init (TextNetwork.start node order)) events

variable {numberText : JsString → JsString}

/-- The commands that Redis answers. -/
def Cached : Command → Bool
  | .redisGet _ | .redisSet _ _ _ | .redisDel _ => true
  | _ => false

/-- The others neither read the resolve keys nor change them. -/
theorem handle_uncached (w : World) (redis : JsString → Option CacheValue) {c : Command}
    (hc : Cached c = false) :
    (World.withResolveKeys w redis).handle c =
      (w.handle c).map (fun r => (World.withResolveKeys r.1 redis, r.2)) := by
  obtain ⟨identities,slot,now,dbUp,_,_,rpcUp,_,_,inFlight,_,settled⟩ := w
  cases c
  case redisGet | redisSet | redisDel => cases hc
  case updateManyIdentity | findUniqueIdentity | findManyActiveTags | findUniqueState =>
    cases dbUp <;> rfl
  case updateIdentity tag data =>
    cases dbUp
    · rfl
    · simp only [World.handle, World.withResolveKeys, if_true]
      split
      · cases identities.find tag <;> rfl
      · rfl
  case createIdentity data =>
    cases dbUp
    · rfl
    · simp only [World.handle, World.withResolveKeys, if_true]
      cases identities.insert (data.row now) <;> rfl
  case updateManyState latest =>
    cases dbUp
    · rfl
    · cases slot with
      | none => rfl
      | some stored =>
        simp only [World.handle, World.withResolveKeys, if_true]
        split <;> rfl
  case createState =>
    cases dbUp
    · rfl
    · cases slot <;> rfl
  case getProgramAccounts | getAccountInfo => cases rpcUp <;> rfl
  case enterFlight server key =>
    simp only [World.handle, World.withResolveKeys]
    cases inFlight server key <;> rfl
  case leaveFlight => rfl
  case awaitFlight flight =>
    simp only [World.handle, World.withResolveKeys]
    cases settled flight <;> rfl

theorem handle_network (n : Network) (redis : JsString → Option CacheValue) {c : ApiCommand}
    (hc : ∀ command, c = .mirror command → Cached command = false) :
    (Network.withResolveKeys n redis).handle c =
      (n.handle c).map (fun r => (Network.withResolveKeys r.1 redis, r.2)) := by
  cases c with
  | mirror command =>
    have hmirror := handle_uncached n.services.mirror redis (hc command rfl)
    have hservices : (Network.withResolveKeys n redis).services.mirror =
        World.withResolveKeys n.services.mirror redis := rfl
    rw [Network.handle, ApiWorld.handle, hservices, hmirror, Network.handle, ApiWorld.handle]
    cases n.services.mirror.handle command <;> rfl
  | _ => rfl

theorem handle_apart (n : TextNetwork) {c : ApiCommand}
    (hc : ∀ command, c = .mirror command → Cached command = false) :
    (n.values numberText).handle c =
      (n.handle numberText c).map (fun r => (r.1.values numberText, r.2)) := by
  have hown : n.handle numberText c =
      (n.network.handle c).map (fun r => ({ n with network := r.1 }, r.2)) := by
    cases c with
    | mirror command =>
      cases command
      case redisGet | redisSet | redisDel => exact Bool.noConfusion (hc _ rfl)
      all_goals rfl
    | _ => rfl
  rw [hown, Option.map_map]
  exact handle_network n.network _ hc

theorem reads_put (n : TextNetwork) (key : JsString) (text : Option JsString) :
    (n.putText key text).reads numberText =
      Function.update (n.reads numberText) key (text.bind (readCacheText numberText)) := by
  funext other
  by_cases h : other = key
  · subst h
    simp [TextNetwork.reads, TextNetwork.putText]
  · simp [TextNetwork.reads, TextNetwork.putText, h]

theorem values_put (n : TextNetwork) (key : JsString) (text : Option JsString) :
    (n.putText key text).values numberText = Network.withMirror (n.values numberText)
      ((n.values numberText).services.mirror.putKey key
        (text.bind (readCacheText numberText))) := by
  rw [TextNetwork.values, reads_put]
  rfl

/-- One command of one and of the other: what is written as a text is read as the value. -/
theorem handle_values (n : TextNetwork) (c : ApiCommand) :
    (n.values numberText).handle c =
      (n.handle numberText c).map (fun r => (r.1.values numberText, r.2)) := by
  have hup : (n.values numberText).services.mirror.redisUp = n.network.services.mirror.redisUp :=
    rfl
  cases c with
  | mirror command =>
    cases command
    case redisGet key =>
      simp only [Network.handle, ApiWorld.handle, World.handle, TextNetwork.handle, hup]
      split <;> rfl
    case redisSet key value ttl =>
      have hread : ((some (throughUtf8 (cacheText value))).bind (readCacheText numberText)) =
          some value := by
        rw [sent_cacheText, Option.bind_some, readCacheText_text]
      simp only [Network.handle, ApiWorld.handle, World.handle, TextNetwork.handle, hup]
      split
      · simp only [Option.map_some, values_put, hread]
        rfl
      · rfl
    case redisDel key =>
      simp only [Network.handle, ApiWorld.handle, World.handle, TextNetwork.handle, hup]
      split
      · simp only [Option.map_some, values_put, Option.bind_none]
        rfl
      · rfl
    all_goals
      apply handle_apart
      intro command h
      cases h
      rfl
  | _ => rfl

theorem act_values (cfg : NetworkConfig) (n : TextNetwork) (weather : NetworkWeather) :
    (n.act cfg weather).values numberText = (n.values numberText).act cfg weather := by
  cases weather with
  | services weather =>
    cases weather
    case expire key => exact values_put n key none
    all_goals rfl
  | _ => rfl

variable (numberText) in
theorem after_values (cfg : NetworkConfig) (node : RpcNode) (order : ScanOrder)
    (events : List NetworkEvent) :
    (TextPool.after numberText cfg node order events).map (TextNetwork.values numberText) =
      NetworkPool.after cfg node order events := by
  rw [TextPool.after, Pool.map_run handle_values (act_values cfg)]
  rfl

/-- Nothing is held but what the reader writes for some value. -/
def Written (n : TextNetwork) : Prop :=
  ∀ key text, n.texts key = some text → ∃ value, text = cacheText value

theorem put_written {n : TextNetwork} (hn : Written n) (key : JsString) {text : Option JsString}
    (htext : ∀ t, text = some t → ∃ value, t = cacheText value) : Written (n.putText key text) := by
  intro other t h
  simp only [TextNetwork.putText, Function.update_apply] at h
  split at h
  · exact htext t h
  · exact hn other t h

theorem handle_written {n n' : TextNetwork} {c : ApiCommand} {r : ApiReply c} (hn : Written n)
    (h : n.handle numberText c = some (n', r)) : Written n' := by
  unfold TextNetwork.handle at h
  split at h
  · split at h <;> cases h <;> exact hn
  · split at h
    · cases h
      exact put_written hn _ (fun t ht => ⟨_,(Option.some.inj ht).symm.trans (sent_cacheText _)⟩)
    · cases h
      exact hn
  · split at h
    · cases h
      exact put_written hn _ (fun t ht => by cases ht)
    · cases h
      exact hn
  · obtain ⟨p,_,hp⟩ := Option.map_eq_some_iff.mp h
    cases hp
    exact hn

theorem act_written (cfg : NetworkConfig) {n : TextNetwork} (hn : Written n)
    (weather : NetworkWeather) : Written (n.act cfg weather) := by
  unfold TextNetwork.act
  split
  · exact put_written hn _ (fun t ht => by cases ht)
  · exact hn

theorem after_written (cfg : NetworkConfig) (node : RpcNode) (order : ScanOrder)
    (events : List NetworkEvent) :
    Written (TextPool.after numberText cfg node order events).shared := by
  refine run_invariant (I := fun pool : TextPool => Written pool.shared) (fun key text h => by cases h)
    (fun pool event hpool => ?_) events
  cases event with
  | spawn call => exact hpool
  | turn who =>
    obtain hstill | ⟨call,c,k,s,r,_,hh,hturn⟩ :=
      Pool.turn_cases (TextNetwork.handle numberText) pool who
    · rw [Pool.step, hstill]
      exact hpool
    · rw [Pool.step, hturn]
      exact handle_written hpool hh
  | outside what => exact act_written cfg hpool what

/-- Over any run the texts stand for the values: every request gets the same answer, whatever
strings its response holds, and no text is read as anything but what it was written for. -/
theorem texts_refine (numberText : JsString → JsString) (cfg : NetworkConfig) (node : RpcNode)
    (order : ScanOrder) (events : List NetworkEvent) :
    (TextPool.after numberText cfg node order events).map (TextNetwork.values numberText) =
      NetworkPool.after cfg node order events ∧
    (∀ who, (TextPool.after numberText cfg node order events).result who =
      (NetworkPool.after cfg node order events).result who) ∧
    ∀ key text, (TextPool.after numberText cfg node order events).shared.texts key = some text →
      ∃ value, text = cacheText value ∧
        (NetworkPool.after cfg node order events).shared.services.mirror.redis key =
          some value := by
  have hmap := after_values numberText cfg node order events
  refine ⟨hmap,fun who => ?_,fun key text h => ?_⟩
  · rw [← hmap, Pool.map_result]
  · obtain ⟨value,hvalue⟩ := after_written cfg node order events key text h
    have hreads : (NetworkPool.after cfg node order events).shared.services.mirror.redis key =
        ((TextPool.after numberText cfg node order events).shared.texts key).bind
          (readCacheText numberText) := by
      rw [← hmap]
      rfl
    rw [hreads, h, Option.bind_some, hvalue, readCacheText_text]
    exact ⟨value,rfl,rfl⟩

end Tagwise.Proofs.CacheTexts
