import Tagwise.Js.Text

namespace Tagwise.Core
open Js

def reservedTags : List JsString :=
  ["admin", "administrator", "support", "help", "helpdesk", "official", "verify", "verified",
    "security", "billing", "payment", "payments", "wallet", "refund", "root", "system", "api",
    "www", "mail", "about", "settings", "login", "signup", "team", "staff", "moderator", "mod",
    "tip", "tagwise", "tagwise_official"].map js

/-- Exact match only. -/
def isReservedTag (tag : JsString) : Bool := reservedTags.contains tag

end Tagwise.Core
