import Tagwise.Moderation.Profanity
import Tagwise.Program.Sample

namespace Tagwise.Services
open Js

/-- What a running deployment is configured with. Both apps read one
`REDIS_KEY_PREFIX`; the rest of the record belongs to the API. -/
structure Deployment where
  sol : Program.Solana
  engine : Moderation.ProfanityEngine
  redisKeyPrefix : JsString
  paymentLinkBaseUrl : JsString
  resolveCacheTtlSeconds : Nat
  resolveCacheNegativeTtlSeconds : Nat

/-- The defaults of both apps, over the sample derivation and an empty word list. -/
def Deployment.sample : Deployment where
  sol := Program.sampleSolana
  engine := ⟨fun _ => .ok false⟩
  redisKeyPrefix := js "tip:"
  paymentLinkBaseUrl := js "https://tagwise.me"
  resolveCacheTtlSeconds := 300
  resolveCacheNegativeTtlSeconds := 30

end Tagwise.Services
