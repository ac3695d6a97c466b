import Tagwise.Js.Text

namespace Tagwise.Moderation
open Js

/-- The third-party word list: `exists` on a candidate, or the exception it throws. -/
structure ProfanityEngine where
  existsIn : JsString → Except Unit Bool

/-- Each digit with the letters it can stand for. -/
def leetspeakSubstitutions : JsString → Option (List JsString)
  | [48] => some [js "o"]
  | [49] => some [js "i", js "l"]
  | [50] => some [js "z"]
  | [51] => some [js "e"]
  | [52] => some [js "a"]
  | [53] => some [js "s"]
  | [54] => some [js "g"]
  | [55] => some [js "t"]
  | [56] => some [js "b"]
  | [57] => some [js "g"]
  | _ => none

def maxVariants : Nat := 4096

def isLineTerminator (u : UInt16) : Bool := u == 10 || u == 13 || u == 0x2028 || u == 0x2029

/-- `replace(/(.)\1+/g, "$1")`: a run of one unit, line terminators apart, becomes that unit. -/
def collapseRuns : JsString → JsString
  | [] => []
  | [u] => [u]
  | u :: v :: rest =>
    if u = v ∧ isLineTerminator u = false then collapseRuns (v :: rest)
    else u :: collapseRuns (v :: rest)

/-- The options of one variant, pushed onto `next` until it is full. -/
def pushOptions (variant : JsString) (next : List JsString) : List JsString → List JsString
  | [] => next
  | option :: options =>
    let next := next ++ [variant ++ option]
    if maxVariants ≤ next.length then next else pushOptions variant next options

/-- The two loops of a round as they run, each with its break. -/
def pushVariants (options : List JsString) (next : List JsString) : List JsString → List JsString
  | [] => next
  | variant :: variants =>
    let next := pushOptions variant next options
    if maxVariants ≤ next.length then next else pushVariants options next variants

/-- One round of the expansion: what the loops come to, whose two breaks stop the list at
`maxVariants`. -/
def expandVariants (variants : List JsString) (char : JsString) : List JsString :=
  let options := (leetspeakSubstitutions char).getD [char]
  (variants.flatMap (fun variant => options.map (variant ++ ·))).take maxVariants

def underscore : UInt16 := 95

def generateProfanityCheckVariants (tag : JsString) : List JsString :=
  let prepared := (toLowerCase tag).filter (· != underscore)
  let variants := ((codePoints prepared).map encodeCodePoint).foldl expandVariants [[]]
  (variants.map collapseRuns).eraseDups

def allowlist : List JsString :=
  ["analyze", "analyse", "assess", "assassin", "classic", "bass", "grass", "pass", "password",
    "shiitake", "cockpit", "cocktail", "scunthorpe", "penistone", "essex", "sussex",
    "matsushita"].map js

def extraBlockedTerms : List JsString := []

def includes (candidate term : JsString) : Bool :=
  candidate.tails.any (term.isPrefixOf ·)

def containsBlockedContent (engine : ProfanityEngine) (candidate : JsString) : Except Unit Bool := do
  if ← engine.existsIn candidate then return true
  return extraBlockedTerms.any (includes candidate)

/-- The loop over the variants, which stops at the first match. -/
def anyBlocked (engine : ProfanityEngine) : List JsString → Except Unit Bool
  | [] => .ok false
  | variant :: rest => do
    if ← containsBlockedContent engine variant then return true
    anyBlocked engine rest

/-- Whether `tag` is blocked, the one reason being `"profanity"`. -/
def isBlockedName (engine : ProfanityEngine) (tag : JsString) : Except Unit Bool := do
  let lower := toLowerCase tag
  if lower ∈ allowlist then return false
  if ← containsBlockedContent engine lower then return true
  anyBlocked engine (generateProfanityCheckVariants lower)

end Tagwise.Moderation
