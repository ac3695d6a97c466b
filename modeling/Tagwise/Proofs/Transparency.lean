import Tagwise.Proofs.Warrant
import Tagwise.Protocol.Remote

/-! An app that asks through the client hears what the API says, as if nothing stood between
them. -/

namespace Tagwise.Proofs.Transparency
open Js Tagwise.Core Services Lib Protocol
open Api hiding settle settled
open Sdk.Http hiding request
open Sdk (bigInt TipApiErrorFields)

variable {cfg : WireConfig}

theorem plain_items (numberText : JsString → JsString) (items : List SearchResultItem) :
    PlainElements numberText (items.map itemJson) := by
  induction items with
  | nil => trivial
  | cons item items ih =>
    exact ⟨⟨trivial,plain_jsonText _ _,plain_jsonText _ _,trivial,trivial⟩,ih⟩

theorem plain_answer (numberText : JsString → JsString) (answer : HttpAnswer) :
    answer.json.Plain numberText := by
  cases answer with
  | me pubkey => exact ⟨trivial,trivial⟩
  | api answer =>
    cases answer with
    | resolved response => exact plain_responseJson _ response
    | identity response =>
      have htext : ∀ text, (jsonText text).Plain numberText := plain_jsonText _
      exact ⟨trivial,trivial,trivial,htext _,htext _,htext _,htext _,trivial,trivial,trivial,trivial⟩
    | found items => exact plain_items _ items
    | _ => exact ⟨trivial,trivial,trivial,trivial⟩

theorem plain_strings (numberText : JsString → JsString) (messages : List JsString) :
    PlainElements numberText (messages.map Json.string) := by
  induction messages with
  | nil => trivial
  | cons message messages ih => exact ⟨trivial,ih⟩

theorem natural_status : ∀ status ∈ errorStatuses, Natural (decimal status) := by
  intro status h
  simp only [errorStatuses, List.mem_cons, List.not_mem_nil, or_false] at h
  rcases h with rfl | rfl | rfl | rfl | rfl | rfl | rfl | rfl
  all_goals exact ⟨List.all_eq_true.mp (by decide),.inr ⟨_,_,rfl,by decide⟩⟩

/-- Every error goes out as JSON that comes back. -/
theorem plain_reply (framework : Framework cfg) (error : ApiError) :
    (GlobalExceptionFilter.catch (error.exception cfg.createBody)).body.Plain cfg.numberText := by
  have hstatus : ∀ status ∈ errorStatuses, (Json.number (decimal status)).Plain cfg.numberText :=
    fun status h => ⟨natural_status status h,framework.numbers status h⟩
  have hcreated : ∀ status message description, message.Plain cfg.numberText →
      status ∈ errorStatuses →
      (GlobalExceptionFilter.catch (.http status (cfg.createBody message description status))).body.Plain
        cfg.numberText :=
    fun status message description hm hs => ⟨hstatus status hs,framework.plain _ _ hm status hs⟩
  cases error with
  | thrown error =>
    cases error with
    | notFound message => exact hcreated _ _ _ trivial (by decide)
    | forbidden message reason =>
      cases reason with
      | none => exact hcreated _ _ _ trivial (by decide)
      | some reason => exact ⟨hstatus 403 (by decide),trivial,trivial,trivial⟩
    | _ => exact ⟨hstatus 500 (by decide),trivial,trivial⟩
  | badRequest message reason => exact ⟨hstatus 400 (by decide),trivial,trivial,trivial⟩
  | conflict message reason => exact ⟨hstatus 409 (by decide),trivial,trivial,trivial⟩
  | paymentRequired message required current shortfall =>
    exact ⟨hstatus 402 (by decide),hstatus 402 (by decide),trivial,trivial,trivial,trivial,trivial⟩
  | unauthorized message => exact hcreated _ _ _ trivial (by decide)
  | tooManyRequests message => exact ⟨hstatus 429 (by decide),trivial,trivial⟩
  | validation messages => exact hcreated _ _ _ (plain_strings _ messages) (by decide)
  | _ => exact ⟨hstatus 500 (by decide),trivial,trivial⟩

theorem elementTexts_strings (messages : List JsString) :
    elementTexts (messages.map Json.string) = some messages := by
  induction messages with
  | nil => rfl
  | cons message messages ih =>
    rw [List.map_cons, elementTexts, ih]
    rfl

/-- A failed response whose body is JSON ends in the error made of it. -/
theorem settle_failed {status : Nat} {body : Json} {error : Sdk.TipApiError}
    (hstatus : (Response.ok ⟨status,some body⟩) = false)
    (h : mapErrorResponse status (some body) = .ok error) :
    settle ⟨status,some body⟩ = .error (.tip error) := by
  have hbody : safeParseJson ⟨status,some body⟩ = some body := rfl
  rw [settle, hstatus, hbody, h]
  rfl

theorem settle_unmapped {status : Nat} {body : Json} {error : Sdk.NativeError}
    (hstatus : (Response.ok ⟨status,some body⟩) = false)
    (h : mapErrorResponse status (some body) = .error error) :
    settle ⟨status,some body⟩ = .error (.native error) := by
  have hbody : safeParseJson ⟨status,some body⟩ = some body := rfl
  rw [settle, hstatus, hbody, h]
  rfl

theorem bigInt_cases (s : JsString) : (∃ n, bigInt s = .ok n) ∨ bigInt s = .error .syntaxError := by
  unfold bigInt
  split
  · exact .inr rfl
  · exact .inl ⟨_,rfl⟩

/-- The amounts of a 402 are read in their order, and a bad one ends the reading. -/
theorem settle_payment (message required current shortfall : JsString) :
    let reply := GlobalExceptionFilter.catch
      ((ApiError.paymentRequired message required current shortfall).exception cfg.createBody)
    settle ⟨reply.status,some reply.body⟩ =
      .error (typedError cfg.createBody (.paymentRequired message required current shortfall)) := by
  intro reply
  have hmapped : mapErrorResponse 402 (some reply.body) = (do
      let required ← bigInt required
      let current ← bigInt current
      let shortfall ← bigInt shortfall
      return .insufficientBalance ⟨message,402,some reply.body⟩ required current shortfall) := rfl
  rcases bigInt_cases required with ⟨r,hr⟩ | hr
  · rcases bigInt_cases current with ⟨c,hc⟩ | hc
    · rcases bigInt_cases shortfall with ⟨s,hs⟩ | hs
      · simp only [hr, hc, hs] at hmapped
        simp only [typedError, hr, hc, hs]
        exact settle_failed rfl hmapped
      · simp only [hr, hc, hs] at hmapped
        simp only [typedError, hr, hc, hs]
        exact settle_unmapped rfl hmapped
    · simp only [hr, hc] at hmapped
      simp only [typedError, hr, hc]
      exact settle_unmapped rfl hmapped
  · simp only [hr] at hmapped
    simp only [typedError, hr]
    exact settle_unmapped rfl hmapped

/-- The client makes of every error what it is meant to. -/
theorem settle_error (framework : Framework cfg) (error : ApiError) :
    let reply := GlobalExceptionFilter.catch (error.exception cfg.createBody)
    settle ⟨reply.status,some reply.body⟩ = .error (typedError cfg.createBody error) := by
  have hbody : ∀ status message message' description,
      lastField (js "message") (cfg.createBody message description status) = some message' →
      property (js "message") (some (GlobalExceptionFilter.catch
        (.http status (cfg.createBody message description status))).body) = some message' := by
    intro status message message' description h
    refine (congrArg (fun field => Option.or field _) h).trans ?_
    rfl
  cases error with
  | thrown error =>
    cases error with
    | notFound message =>
      refine settle_failed rfl ?_
      have hm : property (js "message") (some (GlobalExceptionFilter.catch (ApiError.exception
          cfg.createBody (.thrown (.notFound message)))).body) =
          some (.string (said message (js "Not Found"))) :=
        hbody 404 _ _ _ (framework.message message _ 404)
      change Sdk.TagNotFoundError (coalesce _ (property (js "message") _)) 404 _ = _
      rw [hm]
      rfl
    | forbidden message reason =>
      cases reason with
      | none =>
        refine settle_failed rfl ?_
        have hm : property (js "message") (some (GlobalExceptionFilter.catch (ApiError.exception
            cfg.createBody (.thrown (.forbidden message none)))).body) =
            some (.string (said message (js "Forbidden"))) :=
          hbody 403 _ _ _ (framework.message message _ 403)
        change Sdk.ForbiddenError (coalesce _ (property (js "message") _)) 403 _ = _
        rw [hm]
        rfl
      | some reason => exact settle_failed rfl rfl
    | _ => exact settle_failed rfl rfl
  | unauthorized message => exact settle_failed rfl rfl
  | validation messages =>
    refine settle_failed rfl ?_
    have hm : property (js "message") (some (GlobalExceptionFilter.catch (ApiError.exception
        cfg.createBody (.validation messages))).body) = some (.array (messages.map .string)) :=
      hbody 400 _ _ _ (framework.messages _ _ 400)
    have hreason : property (js "reason") (some (GlobalExceptionFilter.catch (ApiError.exception
        cfg.createBody (.validation messages))).body) = none := by
      refine (congrArg (fun field => Option.or field _)
        (framework.reason (.array (messages.map .string)) (js "Bad Request") 400)).trans ?_
      rfl
    have htext : (Json.array (messages.map .string)).toText =
        some ((js ",").intercalate messages) := by
      rw [Json.toText, elementTexts_strings]
      rfl
    change Sdk.ValidationError (coalesce _ (property (js "message") _)) _
      (property (js "reason") _) = _
    rw [hm, hreason]
    change Sdk.ValidationError (.array (messages.map .string)) _ _ = _
    rw [Sdk.ValidationError, TipApiErrorFields.construct, htext]
    rfl
  | paymentRequired message required current shortfall =>
    exact settle_payment message required current shortfall
  | _ => exact settle_failed rfl rfl

variable {remote : Remote} {client : TipClient}

/-- The client over the API. -/
abbrev across (remote : Remote) (p : ClientAsync Json) : Prog ApiCommand ApiReply ClientError Json :=
  p.through remote.fetch

/-- What the API makes of a request, as the client is meant to hear it. -/
def heardAt (remote : Remote) (authorization : Option JsString) (route : Route) :
    Prog ApiCommand ApiReply ClientError Json :=
  heard remote.api (HttpRequest.body remote.api.toHttpConfig remote.server remote.moment
    ⟨authorization,remote.ip,route⟩)

/-- The reply to a request that one of the routes takes, on the way back. -/
theorem request_heard (framework : Framework remote.api) {params : RequestParams}
    {request : WireRequest} {route : Route}
    (harrive : remote.arrive (client.fetching params) = some request)
    (hroute : routeOf remote.api.numberText request = some route) :
    across remote (client.request params) = heardAt remote request.authorization route := by
  have hfetch : remote.fetch (client.fetching params) = (do
      let result ← (HttpRequest.body remote.api.toHttpConfig remote.server remote.moment
        ⟨request.authorization,remote.ip,route⟩).attempt
      return remote.received (remote.api.reply route result)) := by
    rw [Remote.fetch, harrive, Option.bind_some, WireConfig.serve, hroute]
    exact Prog.bind_assoc _ _ _
  have hthrough : across remote (client.request params) =
      remote.fetch (client.fetching params) >>= fun response =>
        (settled response).through remote.fetch := Prog.through_request _ _
  rw [hthrough, hfetch, Prog.bind_assoc]
  refine Prog.attempt_bind (fun answer => ?_) (fun error => ?_)
  · have hjson : remote.received (remote.api.reply route (.ok answer)) =
        ⟨route.status,some answer.json⟩ := by
      rw [Remote.received, WireConfig.reply, parse_sent (plain_answer _ answer)]
    change (settled (remote.received (remote.api.reply route (.ok answer)))).through
      remote.fetch = _
    rw [hjson]
    cases route <;> rfl
  · have hjson : remote.received (remote.api.reply route (.error error)) =
        ⟨(GlobalExceptionFilter.catch (error.exception remote.api.createBody)).status,
          some (GlobalExceptionFilter.catch (error.exception remote.api.createBody)).body⟩ := by
      rw [Remote.received, WireConfig.reply, parse_sent (plain_reply framework error)]
    change (settled (remote.received (remote.api.reply route (.error error)))).through
      remote.fetch = _
    rw [hjson, settled, settle_error framework error]
    rfl

/-- A session token as the API gives them out: printable, and with no white space. -/
def Printable (token : JsString) : Prop := ∀ u ∈ token, 33 ≤ u.toNat ∧ u.toNat ≤ 126

theorem headerSpace_printable {u : UInt16} (h : 33 ≤ u.toNat ∧ u.toNat ≤ 126) :
    isHeaderSpace u = false := by
  have hne : ∀ v ∈ ([9, 10, 13, 32] : List UInt16), u ≠ v := by
    intro v hv he
    subst he
    simp only [List.mem_cons, List.not_mem_nil, or_false] at hv
    rcases hv with hv | hv | hv | hv <;> simp [hv] at h
  by_contra hspace
  rw [Bool.not_eq_false] at hspace
  exact hne u (List.contains_iff_mem.mp hspace) rfl

theorem headerValue_bearer {token : JsString} (hne : token ≠ []) (h : Printable token) :
    headerValue (bearerPrefix ++ token) = some (bearerPrefix ++ token) := by
  have hfront : (bearerPrefix ++ token).dropWhile isHeaderSpace = bearerPrefix ++ token := rfl
  have hback : ((bearerPrefix ++ token).reverse.dropWhile isHeaderSpace).reverse =
      bearerPrefix ++ token := by
    obtain rfl | ⟨front,last,rfl⟩ := List.eq_nil_or_concat token
    · exact absurd rfl hne
    · have hlast : ¬ isHeaderSpace last = true := by
        rw [headerSpace_printable (h last (by simp))]
        exact Bool.false_ne_true
      rw [List.concat_eq_append, ← List.append_assoc, List.reverse_concat,
        List.dropWhile_cons_of_neg hlast, List.reverse_cons, List.reverse_reverse]
  have hunits : (bearerPrefix ++ token).all
      (fun u => u.toNat < 256 && !([0, 10, 13].contains u)) = true := by
    rw [List.all_append, Bool.and_eq_true]
    refine ⟨by decide,List.all_eq_true.mpr (fun u hu => ?_)⟩
    obtain ⟨hlow,hhigh⟩ := h u hu
    have hout : [0, 10, 13].contains u = false := by
      by_contra hin
      rw [Bool.not_eq_false, List.contains_iff_mem] at hin
      simp only [List.mem_cons, List.not_mem_nil, or_false] at hin
      rcases hin with rfl | rfl | rfl <;> simp at hlow
    rw [hout, Bool.and_eq_true]
    exact ⟨decide_eq_true (by omega),rfl⟩
  rw [headerValue, hfront, hback]
  exact if_pos hunits

/-- The headers name nobody, or the token's subject. -/
theorem lookup_authorization (params : RequestParams) :
    (headers params).lookup (js "authorization") = match params.token with
      | none | some [] => none
      | some token => some (bearerPrefix ++ token) := by
  obtain ⟨method,path,query,body,token⟩ := params
  cases body <;> rcases token with _ | _ | token <;> rfl

theorem buildUrl_mounted (mounted : Mounted client remote.origin) {segments : List JsString}
    (hne : segments ≠ []) (h : ∀ s ∈ segments, s ≠ [] ∧ PlainSegment s) (params : RequestParams)
    (hpath : params.path = pathText segments) :
    (client.fetching params).url = remote.origin ++ (pathText segments ++
      searchText (params.query.filterMap (fun (key, value) => value.map (fun text => (key, text))))) := by
  rw [TipClient.fetching, buildUrl, hpath]
  exact mounted segments _ hne h

/-- A request of the client is before the API as it was meant: its segments and pairs, its
caller and its body. -/
theorem arrive_mounted (mounted : Mounted client remote.origin) {segments : List JsString}
    (hne : segments ≠ []) (h : ∀ s ∈ segments, s ≠ [] ∧ PlainSegment s) {params : RequestParams}
    (hpath : params.path = pathText segments)
    (htoken : ∀ token, params.token = some token → token ≠ [] ∧ Printable token) :
    remote.arrive (client.fetching params) = some {
      method := methodText params.method
      target := pathText segments ++ searchText
        (params.query.filterMap (fun (key, value) => value.map (fun text => (key, text))))
      authorization := params.token.map (bearerPrefix ++ ·)
      body := params.body } := by
  have hheaders : (client.fetching params).init.headers.lookup (js "authorization") =
      params.token.map (bearerPrefix ++ ·) := by
    refine (lookup_authorization params).trans ?_
    cases ht : params.token with
    | none => rfl
    | some token =>
      cases token with
      | nil => exact absurd rfl (htoken [] ht).1
      | cons u token => rfl
  rw [Remote.arrive, buildUrl_mounted mounted hne h params hpath, behind_append, hheaders]
  cases ht : params.token with
  | none => rfl
  | some token =>
    obtain ⟨hne,hprintable⟩ := htoken token ht
    simp only [Option.map_some, headerValue_bearer hne hprintable]
    rfl

theorem tag_segment (tag : NormalizedTag) : tag.text ≠ [] ∧ PlainSegment tag.text := by
  refine ⟨fun hnil => ?_,fun u hu => ?_⟩
  · have hlong := tag.long
    rw [hnil] at hlong
    exact absurd hlong (by decide)
  · have hunit := tag.units u hu
    simp only [isTagUnit, Bool.or_eq_true, Bool.and_eq_true, decide_eq_true_eq, beq_iff_eq] at hunit
    simp only [isPathUnit, Bool.or_eq_true, Bool.and_eq_true, decide_eq_true_eq]
    omega

/-- The words of the paths. -/
theorem word_segment {word : JsString} (h : (word != [] && word.all isPathUnit) = true) :
    word ≠ [] ∧ PlainSegment word := by
  rw [Bool.and_eq_true] at h
  exact ⟨bne_iff_ne.mp h.1,fun u hu => List.all_eq_true.mp h.2 u hu⟩

theorem word_segments {words : List JsString}
    (h : words.all (fun word => word != [] && word.all isPathUnit) = true) :
    ∀ s ∈ words, s ≠ [] ∧ PlainSegment s := by
  intro s hs
  exact word_segment (List.all_eq_true.mp h s hs)

/-- A request of the client that one of the routes takes. -/
theorem asked_heard (framework : Framework remote.api) (mounted : Mounted client remote.origin)
    {segments : List JsString} (hne : segments ≠ [])
    (h : ∀ s ∈ segments, s ≠ [] ∧ PlainSegment s) {params : RequestParams}
    (hpath : params.path = pathText segments)
    (htoken : ∀ token, params.token = some token → token ≠ [] ∧ Printable token)
    {route : Route} (hroute : ∀ target,
      readTarget target = (segments, (params.query.filterMap
        (fun (key, value) => value.map (fun text => (key, text)))).map
          (fun pair => (throughUtf8 pair.1, throughUtf8 pair.2))) →
      routeOf remote.api.numberText ⟨methodText params.method,target,
        params.token.map (bearerPrefix ++ ·),params.body⟩ = some route) :
    across remote (client.request params) =
      heardAt remote (params.token.map (bearerPrefix ++ ·)) route :=
  request_heard framework (arrive_mounted mounted hne h hpath htoken)
    (hroute _ (readTarget_text (fun s hs => (h s hs).2) _))

/-- The reads of one tag that throw where the tag is malformed. -/
inductive TagRead
  | resolve
  | identity
  | qr
  | paymentLink

namespace TagRead

def ask (client : TipClient) : TagRead → JsString → ClientAsync Json
  | .resolve => client.resolve
  | .identity => client.identity
  | .qr => client.qr
  | .paymentLink => client.paymentLink

def route : TagRead → JsString → Route
  | .resolve => .resolve
  | .identity => .identity
  | .qr => .qr
  | .paymentLink => .paymentLink

def segment : TagRead → JsString
  | .resolve => js "resolve"
  | .identity => js "identity"
  | .qr => js "qr"
  | .paymentLink => js "payment-link"

end TagRead

theorem tag_path (word : JsString) (tag : NormalizedTag) {path : JsString}
    (h : path = pathText [js "v1", word] ++ [solidus]) :
    path ++ tag.text = pathText [js "v1", word, tag.text] := by
  rw [h]
  simp [pathText]

theorem tag_segments {word : JsString} (h : (word != [] && word.all isPathUnit) = true)
    (tag : NormalizedTag) : ∀ s ∈ [js "v1", word, tag.text], s ≠ [] ∧ PlainSegment s := by
  intro s hs
  simp only [List.mem_cons, List.not_mem_nil, or_false] at hs
  rcases hs with rfl | rfl | rfl
  · exact word_segment (by decide)
  · exact word_segment h
  · exact tag_segment tag

/-- A `GET` under the path of a word and a tag. -/
theorem get_heard (framework : Framework remote.api) (mounted : Mounted client remote.origin)
    {word path : JsString} {route : Route} (hword : (word != [] && word.all isPathUnit) = true)
    (hpath : path = pathText [js "v1", word] ++ [solidus]) (tag : NormalizedTag)
    (hroute : getRoute [js "v1", word, tag.text] [] = some route) :
    across remote (client.get (path ++ tag.text) []) = heardAt remote none route := by
  refine asked_heard framework mounted (List.cons_ne_nil _ _) (tag_segments hword tag)
    (tag_path word tag hpath) (fun token ht => by cases ht) (fun target htarget => ?_)
  rw [routeOf, htarget]
  exact hroute

theorem param_accepted {rawTag : JsString} {tag : NormalizedTag}
    (h : normalizeTag rawTag = .accepted tag) : normalizeTagParamOrThrow rawTag = .done tag := by
  rw [normalizeTagParamOrThrow, h]
  rfl

/-- The API normalizes for itself, and to the same tag. -/
theorem read_normalized (read : TagRead) {rawTag : JsString} {tag : NormalizedTag}
    (h : normalizeTag rawTag = .accepted tag) :
    heardAt remote none (read.route rawTag) = heardAt remote none (read.route tag.text) := by
  have hparam : normalizeTagParamOrThrow rawTag = normalizeTagParamOrThrow tag.text :=
    (param_accepted h).trans (param_accepted (normalizeTag_text tag)).symm
  cases read
  all_goals
    simp only [heardAt, TagRead.route, HttpRequest.body, openRoute, ApiRequest.body, hparam]

theorem read_heard (framework : Framework remote.api) (mounted : Mounted client remote.origin)
    (read : TagRead) {rawTag : JsString} {tag : NormalizedTag}
    (h : normalizeTag rawTag = .accepted tag) :
    across remote (read.ask client rawTag) = heardAt remote none (read.route rawTag) := by
  have hget : ∀ (word : JsString) {path route}, (word != [] && word.all isPathUnit) = true →
      path = pathText [js "v1", word] ++ [solidus] →
      getRoute [js "v1", word, tag.text] [] = some route →
      across remote (client.read path rawTag) = heardAt remote none route := by
    intro word path route hword hpath hroute
    rw [TipClient.read, TipClient.normalizeTagOrThrow, h]
    exact get_heard framework mounted hword hpath tag hroute
  rw [read_normalized read h]
  cases read with
  | resolve => exact hget (js "resolve") (by decide) (by decide) rfl
  | identity => exact hget (js "identity") (by decide) (by decide) rfl
  | qr => exact hget (js "qr") (by decide) (by decide) rfl
  | paymentLink => exact hget (js "payment-link") (by decide) (by decide) rfl

/-- A malformed tag is refused with the same reason on both sides. -/
theorem read_refused (read : TagRead) {rawTag : JsString} {reason : TagRejectionReason}
    (h : normalizeTag rawTag = .rejected reason) :
    across remote (read.ask client rawTag) = .fail (.tagInvalid rawTag reason) ∧
    HttpRequest.body remote.api.toHttpConfig remote.server remote.moment
      ⟨none,remote.ip,read.route rawTag⟩ =
        .fail (.badRequest (js "invalid tag: " ++ reason.text) reason.text) := by
  have hclient : ∀ path,
      across remote (client.read path rawTag) = .fail (.tagInvalid rawTag reason) := by
    intro path
    rw [TipClient.read, TipClient.normalizeTagOrThrow, h]
    rfl
  have hparam : normalizeTagParamOrThrow rawTag =
      .fail (.badRequest (js "invalid tag: " ++ reason.text) reason.text) := by
    rw [normalizeTagParamOrThrow, h]
  cases read
  all_goals
    refine ⟨hclient _,?_⟩
    simp only [TagRead.route, HttpRequest.body, openRoute, ApiRequest.body, hparam]
    rfl

/-- Whether a tag is taken is answered the same with a request and without one. -/
theorem availability_heard (framework : Framework remote.api)
    (mounted : Mounted client remote.origin) (rawTag : JsString) :
    across remote (client.availability rawTag) = heardAt remote none (.availability rawTag) := by
  cases h : normalizeTag rawTag with
  | rejected reason =>
    have hserver : availability remote.api.dep rawTag =
        .done ⟨presentTag rawTag,false,js "invalid"⟩ := by
      rw [availability, h]
      rfl
    rw [TipClient.availability, h]
    simp only [heardAt, HttpRequest.body, openRoute, ApiRequest.body, hserver]
    rfl
  | accepted tag =>
    have hserver : availability remote.api.dep rawTag = availability remote.api.dep tag.text := by
      rw [availability, availability, h, normalizeTag_text tag]
    have hnormalized : heardAt remote none (.availability rawTag) =
        heardAt remote none (.availability tag.text) := by
      simp only [heardAt, HttpRequest.body, openRoute, ApiRequest.body, hserver]
    have hword : (js "availability" != [] && (js "availability").all isPathUnit) = true := by decide
    rw [hnormalized, TipClient.availability, h]
    exact get_heard framework mounted hword (by decide) tag rfl

/-- A search is for the text as UTF-8 has it. -/
theorem search_heard (framework : Framework remote.api) (mounted : Mounted client remote.origin)
    (q : JsString) :
    across remote (client.search q) = heardAt remote none (.search (some (throughUtf8 q))) := by
  have hsegments : ∀ s ∈ [js "v1", js "search"], s ≠ [] ∧ PlainSegment s :=
    word_segments (by decide)
  have hq : throughUtf8 (js "q") = js "q" := by decide
  have hpath : js "/v1/search" = pathText [js "v1", js "search"] := by decide
  refine asked_heard framework mounted (List.cons_ne_nil _ _) hsegments hpath
    (fun token ht => by cases ht) (fun target htarget => ?_)
  rw [routeOf, htarget]
  simp only [List.filterMap_cons, Option.map_some, List.filterMap_nil, List.map_cons, List.map_nil,
    hq]
  rfl

theorem lastField_append (key : JsString) (front back : List (JsString × Json)) :
    lastField key (front ++ back) = (lastField key back).or (lastField key front) := by
  induction front with
  | nil => rw [List.nil_append, lastField, Option.or_none]
  | cons field front ih =>
    obtain ⟨name,value⟩ := field
    rw [List.cons_append, lastField, lastField, ih, Option.or_assoc]

theorem lastField_optional (key name : JsString) (value : Option Json) :
    lastField key (TipClient.optionalField name value) = if name = key then value else none := by
  cases value with
  | none => split <;> rfl
  | some value =>
    rw [TipClient.optionalField, Option.map_some, Option.toList_some, lastField, lastField,
      Option.none_or]

theorem plain_optional (numberText : JsString → JsString) (name : JsString) {value : Option Json}
    (h : ∀ v ∈ value, v.Plain numberText) {fields : List (JsString × Json)}
    (hfields : PlainFields numberText fields) :
    PlainFields numberText (TipClient.optionalField name value ++ fields) := by
  cases value with
  | none => exact hfields
  | some value => exact ⟨h value rfl,hfields⟩

theorem present_json (value : Option (Option JsString)) :
    presentOf (value.map jsonText) = some value := by
  rcases value with _ | _ | text <;> rfl

theorem profile_body (fields : Sdk.UpdateProfileFields) :
    updateIdentityBodyOf (TipClient.fieldsJson fields) = some fields.body := by
  simp +decide only [updateIdentityBodyOf, TipClient.fieldsJson, property, lastField_append,
    lastField_optional, Option.or_none, Option.none_or, if_true, if_false, present_json]
  rfl

theorem plain_profile (numberText : JsString → JsString) (fields : Sdk.UpdateProfileFields) :
    (TipClient.fieldsJson fields).Plain numberText := by
  have hfield : ∀ value : Option (Option JsString), ∀ v ∈ value.map jsonText,
      v.Plain numberText := by
    intro value v hv
    obtain ⟨text,_,rfl⟩ := Option.map_eq_some_iff.mp hv
    exact plain_jsonText numberText text
  have hempty : PlainFields numberText [] := trivial
  rw [TipClient.fieldsJson, ← List.append_nil (TipClient.optionalField (js "preferredToken") _),
    List.append_assoc, List.append_assoc]
  exact plain_optional numberText _ (hfield _) (plain_optional numberText _ (hfield _)
    (plain_optional numberText _ (hfield _) (plain_optional numberText _ (hfield _) hempty)))

/-- What the client leaves out of a registration is as if it had not been given. -/
def kept (value : Nullish JsString) : Nullish JsString :=
  match TipClient.truthy value with
  | none => .undefined
  | some text => .value text

theorem nullish_json (value : Nullish JsString) :
    nullishOf ((TipClient.truthy value).map .string) = some (kept value) := by
  unfold kept
  cases TipClient.truthy value <;> rfl

theorem register_body (tag : NormalizedTag) (params : TipClient.RegisterParams) :
    registerBodyOf (TipClient.registerJson tag params) =
      some ⟨tag.text,kept params.wallet,kept params.feePayer⟩ := by
  simp +decide only [registerBodyOf, TipClient.registerJson, property, lastField, lastField_append,
    lastField_optional, Option.or_none, Option.none_or, if_true, if_false, nullish_json]
  rfl

theorem plain_register (numberText : JsString → JsString) (tag : NormalizedTag)
    (params : TipClient.RegisterParams) : (TipClient.registerJson tag params).Plain numberText := by
  have hfield : ∀ value : Option JsString, ∀ v ∈ value.map Json.string, v.Plain numberText := by
    intro value v hv
    obtain ⟨text,_,rfl⟩ := Option.map_eq_some_iff.mp hv
    trivial
  have hempty : PlainFields numberText [] := trivial
  rw [TipClient.registerJson, ← List.append_nil (TipClient.optionalField (js "feePayer") _)]
  exact ⟨trivial,plain_optional numberText _ (hfield _) (plain_optional numberText _ (hfield _) hempty)⟩

/-- The changes of a tag that is there. -/
inductive TagUpdate
  | wallet (newWallet : JsString)
  | profile (fields : Sdk.UpdateProfileFields)

namespace TagUpdate

def ask (client : TipClient) : TagUpdate → JsString → ClientAsync Json
  | .wallet newWallet, tag => client.updateWallet tag newWallet
  | .profile fields, tag => client.updateProfile tag fields

def route : TagUpdate → JsString → Route
  | .wallet newWallet, tag => .updateWallet tag newWallet
  | .profile fields, tag => .updateIdentity tag fields.body

end TagUpdate

/-- The guards and the handler normalize for themselves, and to the same tag. -/
theorem update_normalized (update : TagUpdate) (authorization : Option JsString)
    {rawTag : JsString} {tag : NormalizedTag} (h : normalizeTag rawTag = .accepted tag) :
    heardAt remote authorization (update.route rawTag) =
      heardAt remote authorization (update.route tag.text) := by
  have hparam : normalizeTagParamOrThrow rawTag = normalizeTagParamOrThrow tag.text :=
    (param_accepted h).trans (param_accepted (normalizeTag_text tag)).symm
  have hguard : ∀ authPubkey, TagOwnershipGuard.canActivate authPubkey rawTag =
      TagOwnershipGuard.canActivate authPubkey tag.text := fun authPubkey => by
    rw [TagOwnershipGuard.canActivate, TagOwnershipGuard.canActivate, hparam]
  cases update with
  | wallet newWallet =>
    simp only [heardAt, TagUpdate.route, HttpRequest.body, postWallet, hparam, hguard]
  | profile fields =>
    simp only [heardAt, TagUpdate.route, HttpRequest.body, patchIdentity,
      TagsController.updateIdentity, hparam, hguard]

/-- A session whose token can be sent. -/
def Session (client : TipClient) (token : JsString) : Prop :=
  client.sessionToken = some token ∧ token ≠ [] ∧ Printable token

theorem requireSession_token {token : JsString} (session : Session client token) :
    client.requireSession = .done token := by
  obtain ⟨htoken,hne,_⟩ := session
  rw [TipClient.requireSession, htoken]
  cases token with
  | nil => exact absurd rfl hne
  | cons u token => rfl

theorem session_sent {token : JsString} (session : Session client token) :
    ∀ t, some token = some t → t ≠ [] ∧ Printable t := by
  intro t ht
  cases ht
  exact session.2

theorem update_heard (framework : Framework remote.api) (mounted : Mounted client remote.origin)
    (update : TagUpdate) {rawTag token : JsString} {tag : NormalizedTag}
    (session : Session client token) (h : normalizeTag rawTag = .accepted tag) :
    across remote (update.ask client rawTag) =
      heardAt remote (some (bearerPrefix ++ token)) (update.route rawTag) := by
  have hidentity : (js "identity" != [] && (js "identity").all isPathUnit) = true := by decide
  rw [update_normalized update _ h]
  cases update with
  | wallet newWallet =>
    have hsegments : ∀ s ∈ [js "v1", js "identity", tag.text, js "wallet"],
        s ≠ [] ∧ PlainSegment s := by
      intro s hs
      have hsplit : s ∈ [js "v1", js "identity", tag.text] ++ [js "wallet"] := hs
      rcases List.mem_append.mp hsplit with hs | hs
      · exact tag_segments hidentity tag s hs
      · rw [List.mem_singleton.mp hs]
        exact word_segment (by decide)
    have hpath : js "/v1/identity/" ++ tag.text ++ js "/wallet" =
        pathText [js "v1", js "identity", tag.text, js "wallet"] := by
      have hfront : js "/v1/identity/" = pathText [js "v1", js "identity"] ++ [solidus] := by decide
      have hback : js "/wallet" = solidus :: js "wallet" := by decide
      rw [hfront, hback]
      simp [pathText]
    have hplain : (Json.object [(js "wallet", .string newWallet)]).Plain remote.api.numberText :=
      ⟨trivial,trivial⟩
    rw [TagUpdate.ask, TipClient.updateWallet, requireSession_token session,
      TipClient.normalizeTagOrThrow, h]
    refine asked_heard framework mounted (List.cons_ne_nil _ _) hsegments hpath
      (session_sent session) (fun target htarget => ?_)
    rw [routeOf, htarget]
    simp only [Option.bind_some, parse_sent hplain]
    rfl
  | profile fields =>
    rw [TagUpdate.ask, TipClient.updateProfile, requireSession_token session,
      TipClient.normalizeTagOrThrow, h]
    refine asked_heard framework mounted (List.cons_ne_nil _ _) (tag_segments hidentity tag)
      (tag_path (js "identity") tag (by decide)) (session_sent session) (fun target htarget => ?_)
    rw [routeOf, htarget]
    simp only [Option.bind_some, parse_sent (plain_profile _ fields)]
    change Option.map _ (updateIdentityBodyOf (TipClient.fieldsJson fields)) = _
    rw [profile_body]
    rfl

theorem register_heard (framework : Framework remote.api) (mounted : Mounted client remote.origin)
    {params : TipClient.RegisterParams} {token : JsString} {tag : NormalizedTag}
    (session : Session client token) (h : normalizeTag params.tag = .accepted tag) :
    across remote (client.register params) = heardAt remote (some (bearerPrefix ++ token))
      (.register ⟨tag.text,kept params.wallet,kept params.feePayer⟩) := by
  have hsegments : ∀ s ∈ [js "v1", js "register"], s ≠ [] ∧ PlainSegment s :=
    word_segments (by decide)
  have hpath : js "/v1/register" = pathText [js "v1", js "register"] := by decide
  rw [TipClient.register, requireSession_token session, Prog.done_bind,
    TipClient.normalizeTagOrThrow, h]
  refine asked_heard framework mounted (List.cons_ne_nil _ _) hsegments hpath
    (session_sent session) (fun target htarget => ?_)
  rw [routeOf, htarget]
  simp only [Option.bind_some, parse_sent (plain_register _ tag params)]
  change Option.map _ (registerBodyOf (TipClient.registerJson tag params)) = _
  rw [register_body]
  rfl

theorem write_refused {token rawTag : JsString} {reason : TagRejectionReason}
    (session : Session client token) (h : normalizeTag rawTag = .rejected reason)
    (f : JsString → NormalizedTag → ClientAsync Json) :
    across remote (do f (← client.requireSession) (← TipClient.normalizeTagOrThrow rawTag)) =
      .fail (.tagInvalid rawTag reason) := by
  rw [requireSession_token session, Prog.done_bind, TipClient.normalizeTagOrThrow, h]
  rfl

theorem write_unconnected (h : client.sessionToken = none ∨ client.sessionToken = some [])
    (f : JsString → ClientAsync Json) :
    across remote (do f (← client.requireSession)) = .fail .noSession := by
  rw [TipClient.requireSession]
  rcases h with h | h <;> rw [h] <;> rfl

theorem bigInt_decimal (n : Nat) : bigInt (decimal n) = .ok (n : Int) := by
  have hread : stringToBigInt (decimal n) = some (n : Int) := stringToBigInt_text (.ofNat n)
  rw [bigInt, hread]

/-- A balance that does not do is told in the node's own numbers. -/
theorem typed_balance (createBody : Json → JsString → Nat → List (JsString × Json))
    (requiredLamports currentLamports : Nat) :
    ∃ fields, typedError createBody (insufficientBalance requiredLamports currentLamports) =
      .tip (.insufficientBalance fields requiredLamports currentLamports
        (requiredLamports - currentLamports : Nat)) := by
  refine ⟨⟨js "insufficient balance to cover rent and fees for this registration",402,
    some (GlobalExceptionFilter.catch
      ((insufficientBalance requiredLamports currentLamports).exception createBody)).body⟩,?_⟩
  simp only [insufficientBalance, typedError, bigInt_decimal]
  rfl

/-- Over the wire the client does what the API does, with its answers and its errors: a read
answers for a raw tag as the API would, and refuses where the API would, for the same reason;
a write is the caller's own, and is not sent without a session or with a malformed tag. -/
structure Transparent (remote : Remote) (client : TipClient) : Prop where
  reads : ∀ (read : TagRead) rawTag tag, normalizeTag rawTag = .accepted tag →
    across remote (read.ask client rawTag) = heardAt remote none (read.route rawTag)
  refused : ∀ (read : TagRead) rawTag reason, normalizeTag rawTag = .rejected reason →
    across remote (read.ask client rawTag) = .fail (.tagInvalid rawTag reason) ∧
    HttpRequest.body remote.api.toHttpConfig remote.server remote.moment
      ⟨none,remote.ip,read.route rawTag⟩ =
        .fail (.badRequest (js "invalid tag: " ++ reason.text) reason.text)
  availability : ∀ rawTag,
    across remote (client.availability rawTag) = heardAt remote none (.availability rawTag)
  search : ∀ q,
    across remote (client.search q) = heardAt remote none (.search (some (throughUtf8 q)))
  updates : ∀ (update : TagUpdate) rawTag tag token, Session client token →
    normalizeTag rawTag = .accepted tag →
    across remote (update.ask client rawTag) =
      heardAt remote (some (bearerPrefix ++ token)) (update.route rawTag)
  registers : ∀ (params : TipClient.RegisterParams) tag token, Session client token →
    normalizeTag params.tag = .accepted tag →
    across remote (client.register params) = heardAt remote (some (bearerPrefix ++ token))
      (.register ⟨tag.text,kept params.wallet,kept params.feePayer⟩)
  malformed : ∀ (update : TagUpdate) rawTag reason token, Session client token →
    normalizeTag rawTag = .rejected reason →
    across remote (update.ask client rawTag) = .fail (.tagInvalid rawTag reason) ∧
    ∀ wallet feePayer, across remote (client.register ⟨rawTag,wallet,feePayer⟩) =
      .fail (.tagInvalid rawTag reason)
  unconnected : client.sessionToken = none ∨ client.sessionToken = some [] →
    ∀ (update : TagUpdate) rawTag, across remote (update.ask client rawTag) = .fail .noSession ∧
      ∀ params, across remote (client.register params) = .fail .noSession
  amounts : ∀ requiredLamports currentLamports, ∃ fields,
    typedError remote.api.createBody (insufficientBalance requiredLamports currentLamports) =
      .tip (.insufficientBalance fields requiredLamports currentLamports
        (requiredLamports - currentLamports : Nat))

theorem client_transparent (remote : Remote) (client : TipClient)
    (framework : Framework remote.api) (mounted : Mounted client remote.origin) :
    Transparent remote client where
  reads read _ _ h := read_heard framework mounted read h
  refused read _ _ h := read_refused read h
  availability := availability_heard framework mounted
  search := search_heard framework mounted
  updates update _ _ _ session h := update_heard framework mounted update session h
  registers _ _ _ session h := register_heard framework mounted session h
  malformed update rawTag reason token session h := by
    refine ⟨?_,fun wallet feePayer => write_refused session h _⟩
    cases update with
    | wallet newWallet => exact write_refused session h _
    | profile fields => exact write_refused session h _
  unconnected h update rawTag := by
    refine ⟨?_,fun params => write_unconnected h _⟩
    cases update with
    | wallet newWallet => exact write_unconnected h _
    | profile fields => exact write_unconnected h _
  amounts := typed_balance remote.api.createBody

/-- The framework's body of a text, or of the messages of a validation. -/
def sampleBody (message : Json) (description : JsString) (status : Nat) : List (JsString × Json) :=
  match message with
  | .string [] => [(js "message", .string description), (js "statusCode", .number (decimal status))]
  | message => [(js "message", message), (js "error", .string description),
      (js "statusCode", .number (decimal status))]

theorem sample_framework : Framework {
    toHttpConfig := Warrant.sampleSite.toHttpConfig
    createBody := sampleBody
    numberText := id } where
  message message description status := by cases message <;> rfl
  messages _ _ _ := rfl
  reason message description status := by
    have hreason : lastField (js "reason") (sampleBody message description status) = none := by
      unfold sampleBody
      split <;> rfl
    exact hreason
  plain message description hm status hs := by
    have hstatus : (Json.number (decimal status)).Plain id := ⟨natural_status status hs,rfl⟩
    have hplain : PlainFields id (sampleBody message description status) := by
      unfold sampleBody
      split
      · exact ⟨trivial,hstatus,trivial⟩
      · exact ⟨hm,trivial,hstatus,trivial⟩
    exact hplain
  numbers _ _ := rfl

def sampleRemote : Remote where
  origin := js "https://tip.tagwise.me"
  api := {
    toHttpConfig := Warrant.sampleSite.toHttpConfig
    createBody := sampleBody
    numberText := id }
  server := 0
  moment := ⟨⟨true,fun _ => none⟩,0⟩
  ip := none

def sampleClient : TipClient where
  baseUrl := js "https://tip.tagwise.me/"
  toUrl := fun url pairs => url ++ searchText pairs
  sessionToken := some (js "session")

theorem sample_transparent : Session sampleClient (js "session") ∧
    Transparent sampleRemote sampleClient := by
  have hsession : (js "session").all (fun u => 33 ≤ u.toNat && u.toNat ≤ 126) = true := by decide
  have hprintable : Printable (js "session") := fun u hu => by
    simpa using List.all_eq_true.mp hsession u hu
  have hmounted : Mounted sampleClient sampleRemote.origin := by
    have hbase : (if sampleClient.baseUrl.getLast? = some slash then sampleClient.baseUrl.dropLast
        else sampleClient.baseUrl) = sampleRemote.origin := by decide
    intro segments pairs _ _
    rw [hbase]
    exact List.append_assoc _ _ _
  exact ⟨⟨rfl,by decide,hprintable⟩,
    client_transparent sampleRemote sampleClient sample_framework hmounted⟩

end Tagwise.Proofs.Transparency
