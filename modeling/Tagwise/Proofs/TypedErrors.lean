import Tagwise.Api.ExceptionFilter
import Tagwise.Sdk.Http

namespace Tagwise.Proofs.TypedErrors
open Js Lib Tagwise.Sdk.Http
open Sdk (ErrorClass TipApiError TipApiErrorFields InsufficientBalanceBody InsufficientBalanceError
  UnauthorizedError bigInt)

/-- The status that the documentation of a class gives it. -/
def documentedStatuses : List (Nat × ErrorClass) :=
  [(404, .tagNotFoundError), (401, .unauthorizedError), (403, .forbiddenError),
    (429, .rateLimitedError), (402, .insufficientBalanceError), (400, .validationError)]

/-- The class documented for a response. The one with the amounts is for a body that has them;
what has no class of its own is unexpected. -/
def documentedClass (response : Response) : ErrorClass :=
  match documentedStatuses.lookup response.status with
  | some .insufficientBalanceError =>
    if (isInsufficientBalanceBody response.json).isSome then .insufficientBalanceError
    else .unexpectedApiError
  | some documented => documented
  | none => .unexpectedApiError

/-- The error that a failed response is to end in. -/
structure TypedAs (response : Response) (error : TipApiError) : Prop where
  target : error.target = documentedClass response
  statusCode : error.fields.statusCode = response.status
  body : error.fields.body = response.json

def Typed (response : Response) (result : Except Raised Json) : Prop :=
  ∃ error, result = .error (.tip error) ∧ TypedAs response error

/-- Each of the three reads as an integer. -/
def AmountsRead (amounts : InsufficientBalanceBody) : Prop :=
  IntegerLiteral (trim amounts.requiredLamports) ∧ IntegerLiteral (trim amounts.currentLamports) ∧
    IntegerLiteral (trim amounts.shortfallLamports)

/-- The message, where a class takes it from the body, and the amounts of a 402 convert. -/
structure Convertible (response : Response) : Prop where
  message : response.status ≠ 401 →
    ∀ message, property (js "message") response.json = some message → ¬ HidesToString message
  amounts : response.status = 402 →
    ∀ amounts, isInsufficientBalanceBody response.json = some amounts → AmountsRead amounts

/-- A text for want of a message always converts. -/
theorem coalesce_toText (other : JsString) (value : Option Json) :
    (coalesce (.string other) value).toText ≠ none ↔ ∀ v, value = some v → ¬ HidesToString v := by
  cases value with
  | none => exact ⟨fun _ v hv => (by cases hv),fun _ h => (by cases h)⟩
  | some v =>
    have hsome : (∀ w, some v = some w → ¬ HidesToString w) ↔ ¬ HidesToString v :=
      ⟨fun h => h v rfl,fun h w hw => by cases hw; exact h⟩
    rw [hsome]
    cases v with
    | null => exact ⟨fun _ h => (by cases h),fun _ h => (by cases h)⟩
    | _ => exact not_congr (Json.toText_eq_none _)

theorem construct_ok {message : Json} {statusCode : Nat} {body : Option Json}
    {fields : TipApiErrorFields} :
    TipApiErrorFields.construct message statusCode body = .ok fields ↔
      ∃ text, message.toText = some text ∧ fields = ⟨text,statusCode,body⟩ := by
  rw [TipApiErrorFields.construct]
  cases message.toText with
  | none => simp
  | some text => simp [eq_comm]

theorem bigInt_ok {s : JsString} {n : Int} : bigInt s = .ok n ↔ stringToBigInt s = some n := by
  rw [bigInt]
  cases stringToBigInt s with
  | none => simp
  | some m => simp

theorem bigInt_converts (s : JsString) : (∃ n, bigInt s = .ok n) ↔ IntegerLiteral (trim s) := by
  rw [← stringToBigInt_isSome, Option.isSome_iff_exists]
  exact exists_congr (fun _ => bigInt_ok)

theorem insufficientBalanceError_ok {amounts : InsufficientBalanceBody} {error : TipApiError} :
    InsufficientBalanceError amounts = .ok error ↔
      ∃ text r c s, (coalesce (.string (js "insufficient balance to cover rent and fees"))
          (property (js "message") amounts.body)).toText = some text ∧
        bigInt amounts.requiredLamports = .ok r ∧ bigInt amounts.currentLamports = .ok c ∧
        bigInt amounts.shortfallLamports = .ok s ∧
        error = .insufficientBalance ⟨text,402,amounts.body⟩ r c s := by
  simp only [InsufficientBalanceError, except_bind_ok]
  constructor
  · intro h
    obtain ⟨fields,hfields,r,hr,c,hc,s,hs,he⟩ := h
    obtain ⟨text,htext,rfl⟩ := construct_ok.mp hfields
    cases he
    exact ⟨text,r,c,s,htext,hr,hc,hs,rfl⟩
  · intro h
    obtain ⟨text,r,c,s,htext,hr,hc,hs,he⟩ := h
    exact ⟨_,construct_ok.mpr ⟨text,htext,rfl⟩,r,hr,c,hc,s,hs,he ▸ rfl⟩

section Mapped
variable {response : Response}

/-- A class that takes its message from the body and adds nothing that can fail. -/
theorem plain_typed {make : TipApiErrorFields → TipApiError} {statusCode : Nat} (other : JsString)
    (hfields : ∀ fields, (make fields).fields = fields)
    (htarget : ∀ fields, (make fields).target = documentedClass response)
    (hstatus : statusCode = response.status) (htaken : response.status ≠ 401)
    (hamounts : response.status = 402 → isInsufficientBalanceBody response.json = none) :
    (∃ error, make <$> TipApiErrorFields.construct (coalesce (.string other)
        (property (js "message") response.json)) statusCode response.json = .ok error ∧
      TypedAs response error) ↔ Convertible response := by
  have hconverts := coalesce_toText other (property (js "message") response.json)
  generalize coalesce (.string other) (property (js "message") response.json) = message at hconverts ⊢
  rw [TipApiErrorFields.construct]
  cases ht : message.toText with
  | none =>
    refine ⟨fun h => ?_,fun h => absurd ht (hconverts.mpr (h.message htaken))⟩
    obtain ⟨error,he,_⟩ := h
    cases he
  | some text =>
    have hsome : message.toText ≠ none := by
      rw [ht]
      exact Option.some_ne_none text
    refine ⟨fun _ => ⟨fun _ => hconverts.mp hsome,fun h amounts ha => ?_⟩,fun _ => ?_⟩
    · cases (hamounts h).symm.trans ha
    · refine ⟨make ⟨text,statusCode,response.json⟩,rfl,htarget _,?_,?_⟩
      · rw [hfields]
        exact hstatus
      · rw [hfields]

/-- The one class that has a message of its own. -/
theorem unauthorized_typed (h : response.status = 401) :
    (∃ error, UnauthorizedError response.json = .ok error ∧ TypedAs response error) ↔
      Convertible response := by
  have hclass : documentedClass response = .unauthorizedError := by
    rw [documentedClass, h]
    rfl
  have hamounts : response.status ≠ 402 := by
    rw [h]
    decide
  refine iff_of_true ⟨_,rfl,hclass.symm,h.symm,rfl⟩
    ⟨fun htaken => absurd h htaken,fun h' => absurd h' hamounts⟩

/-- The body a 402 is narrowed to is the body it has. -/
theorem isInsufficientBalanceBody_body {body : Option Json} {amounts : InsufficientBalanceBody}
    (h : isInsufficientBalanceBody body = some amounts) : amounts.body = body := by
  rw [isInsufficientBalanceBody] at h
  simp only [Option.bind_eq_bind, Option.bind_eq_some_iff] at h
  obtain ⟨_,_,_,_,_,_,he⟩ := h
  cases he
  rfl

theorem insufficientBalance_typed {amounts : InsufficientBalanceBody} (h : response.status = 402)
    (ha : isInsufficientBalanceBody response.json = some amounts) :
    (∃ error, InsufficientBalanceError amounts = .ok error ∧ TypedAs response error) ↔
      Convertible response := by
  have hclass : documentedClass response = .insufficientBalanceError := by
    rw [documentedClass, h, ha]
    rfl
  have hbody := isInsufficientBalanceBody_body ha
  have hconverts := coalesce_toText (js "insufficient balance to cover rent and fees")
    (property (js "message") response.json)
  constructor
  · intro herror
    obtain ⟨error,he,_⟩ := herror
    obtain ⟨text,r,c,s,htext,hr,hc,hs,_⟩ := insufficientBalanceError_ok.mp he
    rw [hbody] at htext
    refine ⟨fun _ => hconverts.mp (by rw [htext]; exact Option.some_ne_none text),?_⟩
    intro _ amounts' ha'
    cases ha.symm.trans ha'
    exact ⟨(bigInt_converts _).mp ⟨r,hr⟩,(bigInt_converts _).mp ⟨c,hc⟩,(bigInt_converts _).mp ⟨s,hs⟩⟩
  · intro hconvertible
    have htaken : response.status ≠ 401 := by
      rw [h]
      decide
    obtain ⟨text,htext⟩ := Option.ne_none_iff_exists'.mp (hconverts.mpr (hconvertible.message htaken))
    obtain ⟨hrequired,hcurrent,hshortfall⟩ := hconvertible.amounts h amounts ha
    obtain ⟨r,hr⟩ := (bigInt_converts _).mpr hrequired
    obtain ⟨c,hc⟩ := (bigInt_converts _).mpr hcurrent
    obtain ⟨s,hs⟩ := (bigInt_converts _).mpr hshortfall
    rw [← hbody] at htext
    exact ⟨_,insufficientBalanceError_ok.mpr ⟨text,r,c,s,htext,hr,hc,hs,rfl⟩,hclass.symm,h.symm,hbody⟩

/-- The class of a status whose class asks nothing of the body. -/
theorem documentedClass_of_status {status : Nat} {documented : ErrorClass}
    (h : response.status = status) (hlookup : documentedStatuses.lookup status = some documented)
    (hne : documented ≠ .insufficientBalanceError) : documentedClass response = documented := by
  rw [documentedClass, h, hlookup]
  cases documented with
  | insufficientBalanceError => exact absurd rfl hne
  | _ => rfl

/-- The mapping, status by status. -/
theorem mapErrorResponse_typed (response : Response) :
    (∃ error, mapErrorResponse response.status response.json = .ok error ∧
      TypedAs response error) ↔ Convertible response := by
  rw [mapErrorResponse]
  by_cases h404 : response.status = 404
  · rw [if_pos h404]
    have hclass := documentedClass_of_status h404 rfl (by decide)
    exact plain_typed _ (fun _ => rfl) (fun _ => hclass.symm) rfl (by omega) (by omega)
  rw [if_neg h404]
  by_cases h401 : response.status = 401
  · rw [if_pos h401]
    exact unauthorized_typed h401
  rw [if_neg h401]
  by_cases h403 : response.status = 403
  · rw [if_pos h403]
    have hclass := documentedClass_of_status h403 rfl (by decide)
    exact plain_typed _ (fun _ => rfl) (fun _ => hclass.symm) rfl (by omega) (by omega)
  rw [if_neg h403]
  by_cases h429 : response.status = 429
  · rw [if_pos h429]
    have hclass := documentedClass_of_status h429 rfl (by decide)
    exact plain_typed _ (fun _ => rfl) (fun _ => hclass.symm) rfl (by omega) (by omega)
  rw [if_neg h429]
  by_cases h402 : response.status = 402
  · rw [if_pos h402]
    cases ha : isInsufficientBalanceBody response.json with
    | some amounts => exact insufficientBalance_typed h402 ha
    | none =>
      have hclass : documentedClass response = .unexpectedApiError := by
        rw [documentedClass, h402, ha]
        rfl
      exact plain_typed _ (fun _ => rfl) (fun _ => hclass.symm) rfl h401 (fun _ => ha)
  rw [if_neg h402]
  by_cases h400 : response.status = 400
  · rw [if_pos h400]
    have hclass := documentedClass_of_status h400 rfl (by decide)
    exact plain_typed _ (fun _ => rfl) (fun _ => hclass.symm) h400.symm h401 (by omega)
  · have hclass : documentedClass response = .unexpectedApiError := by
      have hnone : documentedStatuses.lookup response.status = none := by
        simp [List.lookup_eq_none_iff, documentedStatuses, h404, h401, h403, h429, h402, h400]
      rw [documentedClass, hnone]
    rw [if_neg h400]
    exact plain_typed _ (fun _ => rfl) (fun _ => hclass.symm) rfl h401 (by omega)

end Mapped

section Failed
variable {client : Client} {params : RequestParams}

theorem request_failed (h : (answer client params).ok = false) :
    request client params = match mapErrorResponse (answer client params).status
        (answer client params).json with
      | .ok error => .error (.tip error)
      | .error error => .error (.native error) := by
  rw [request, h]
  rfl

theorem request_typed (h : (answer client params).ok = false) :
    Typed (answer client params) (request client params) ↔ Convertible (answer client params) := by
  rw [← mapErrorResponse_typed, request_failed h, Typed]
  cases mapErrorResponse (answer client params).status (answer client params).json with
  | ok error => simp
  | error error => simp

end Failed

/-- A reply of the API as it comes in. -/
def received (reply : Api.HttpReply) : Response := ⟨reply.status,some reply.body⟩

/-- The amounts come back as the integers they were. -/
theorem insufficientBalance_amounts (details : Api.InsufficientBalanceDetails) :
    ∃ text, mapErrorResponse 402
        (received (Api.GlobalExceptionFilter.catch (Api.InsufficientBalanceException details))).json =
      .ok (.insufficientBalance ⟨text,402,
          (received (Api.GlobalExceptionFilter.catch (Api.InsufficientBalanceException details))).json⟩
        details.requiredLamports details.currentLamports details.shortfallLamports) := by
  have hread : ∀ n : Int, bigInt (bigIntText n) = .ok n :=
    fun n => bigInt_ok.mpr (stringToBigInt_text n)
  generalize hbody : (received (Api.GlobalExceptionFilter.catch
    (Api.InsufficientBalanceException details))).json = body
  have hamounts : isInsufficientBalanceBody body = some ⟨body,bigIntText details.requiredLamports,
      bigIntText details.currentLamports,bigIntText details.shortfallLamports⟩ := by
    rw [← hbody]
    rfl
  have hmessage : property (js "message") body = some (.string
      (js "insufficient balance to cover rent and fees for this registration")) := by
    rw [← hbody]
    rfl
  refine ⟨js "insufficient balance to cover rent and fees for this registration",?_⟩
  have hmapped : mapErrorResponse 402 body = InsufficientBalanceError
      ⟨body,bigIntText details.requiredLamports,bigIntText details.currentLamports,
        bigIntText details.shortfallLamports⟩ := by
    rw [mapErrorResponse, hamounts]
    rfl
  rw [hmapped, insufficientBalanceError_ok, hmessage]
  exact ⟨_,_,_,_,rfl,hread _,hread _,hread _,rfl⟩

/-- Such a 402 ends in the error that carries its amounts. -/
theorem request_amounts {client : Client} {params : RequestParams}
    {details : Api.InsufficientBalanceDetails} (h : answer client params =
      received (Api.GlobalExceptionFilter.catch (Api.InsufficientBalanceException details))) :
    ∃ fields, request client params = .error (.tip (.insufficientBalance fields
      details.requiredLamports details.currentLamports details.shortfallLamports)) := by
  have hfailed : (answer client params).ok = false := by
    rw [h]
    rfl
  have hstatus : (answer client params).status = 402 := by
    rw [h]
    rfl
  obtain ⟨text,hmapped⟩ := insufficientBalance_amounts details
  rw [request_failed hfailed, hstatus, h, hmapped]
  exact ⟨_,rfl⟩

section Thrown
variable {createBody : Json → JsString → Nat → List (JsString × Json)} {error : Api.ApiError}

theorem string_converts {s : JsString} : ¬ HidesToString (.string s) := fun h => by cases h

theorem strings_convert {messages : List JsString} :
    ¬ HidesToString (.array (messages.map .string)) := by
  intro h
  cases h with
  | array hmem hhides =>
    obtain ⟨s,_,rfl⟩ := List.mem_map.mp hmem
    exact string_converts hhides

variable (error) in
/-- Every reply has a message that converts. -/
theorem thrown_message (hbody : ∀ message description status,
      lastField (js "message") (createBody message description status) = some message) :
    ∃ message, property (js "message")
        (received (Api.GlobalExceptionFilter.catch (error.exception createBody))).json = some message ∧
      ¬ HidesToString message := by
  have hcreated : ∀ status message description, property (js "message") (received
      (Api.GlobalExceptionFilter.catch (.http status (createBody message description status)))).json =
      some message := by
    intro status message description
    refine (congrArg (fun field => Option.or field _) (hbody message description status)).trans ?_
    rfl
  cases error with
  | thrown error =>
    cases error with
    | notFound message => exact ⟨_,hcreated _ _ _,string_converts⟩
    | forbidden message reason =>
      cases reason with
      | none => exact ⟨_,hcreated _ _ _,string_converts⟩
      | some reason => exact ⟨_,rfl,string_converts⟩
    | _ => exact ⟨_,rfl,string_converts⟩
  | unauthorized message => exact ⟨_,hcreated _ _ _,string_converts⟩
  | validation messages => exact ⟨_,hcreated _ _ _,strings_convert⟩
  | _ => exact ⟨_,rfl,string_converts⟩

/-- Whatever the API throws, a request ends in the class documented for its status, a 402 being
that of a registration. -/
theorem thrown_typed (hbody : ∀ message description status,
      lastField (js "message") (createBody message description status) = some message)
    (hpayment : error.status = 402 → ∃ requiredLamports currentLamports,
      error = Api.insufficientBalance requiredLamports currentLamports)
    {client : Client} {params : RequestParams} (hanswer : answer client params =
      received (Api.GlobalExceptionFilter.catch (error.exception createBody))) :
    Typed (answer client params) (request client params) := by
  have hstatus : (answer client params).status = error.status := by
    rw [hanswer]
    exact Api.exception_status createBody error
  have hfailed : (answer client params).ok = false := by
    rw [Response.ok, hstatus]
    cases error with
    | thrown error => cases error <;> rfl
    | _ => rfl
  obtain ⟨message,hmessage,hconverts⟩ := thrown_message error hbody
  refine (request_typed hfailed).mpr ⟨fun _ message' hm => ?_,fun h402 amounts ha => ?_⟩
  · rw [hanswer, hmessage] at hm
    cases hm
    exact hconverts
  · rw [hstatus] at h402
    obtain ⟨required,current,rfl⟩ := hpayment h402
    rw [hanswer] at ha
    cases ha
    have hdecimal : ∀ n : Nat, IntegerLiteral (trim (decimal n)) :=
      fun n => bigIntText_literal (.ofNat n)
    exact ⟨hdecimal _,hdecimal _,hdecimal _⟩

/-- A registration that is refused for its balance tells the client the node's own numbers. -/
theorem refused_amounts {requiredLamports currentLamports : Nat}
    (h : currentLamports ≤ requiredLamports) {client : Client} {params : RequestParams}
    (hanswer : answer client params = received (Api.GlobalExceptionFilter.catch
      ((Api.insufficientBalance requiredLamports currentLamports).exception createBody))) :
    ∃ fields, request client params = .error (.tip (.insufficientBalance fields requiredLamports
      currentLamports (requiredLamports - currentLamports))) := by
  rw [Api.insufficientBalance_exception createBody h] at hanswer
  exact request_amounts hanswer

end Thrown

/-- A failed response ends in the class documented for it, with its status and its body, exactly
where the conversions of that class cannot fail; and the 402 that the API makes of amounts ends in
the same amounts. -/
theorem failed_typed (client : Client) (params : RequestParams) :
    ((answer client params).ok = false →
      (Typed (answer client params) (request client params) ↔
        Convertible (answer client params))) ∧
    (∀ details, answer client params =
        received (Api.GlobalExceptionFilter.catch (Api.InsufficientBalanceException details)) →
      ∃ fields, request client params = .error (.tip (.insufficientBalance fields
        details.requiredLamports details.currentLamports details.shortfallLamports))) :=
  ⟨request_typed,fun _ h => request_amounts h⟩

/-- A client whose every request is answered with `response`. -/
def answeredWith (response : Response) : Client := ⟨[],fun url _ => url,fun _ _ => response⟩

def register : RequestParams := ⟨.post,js "/v1/register",[],none,none⟩

/-- A page of a proxy, which is no JSON. -/
def unavailable : Response := ⟨503,none⟩

def lamports : Api.InsufficientBalanceDetails := ⟨2044280,5000,2039280⟩

def short : Response :=
  received (Api.GlobalExceptionFilter.catch (Api.InsufficientBalanceException lamports))

theorem unavailable_typed :
    Typed unavailable (request (answeredWith unavailable) register) ∧
    ∃ fields, request (answeredWith short) register =
      .error (.tip (.insufficientBalance fields 2044280 5000 2039280)) := by
  have hconvertible : Convertible unavailable :=
    ⟨fun _ _ h => (by cases h),fun h => absurd h (by decide)⟩
  obtain ⟨htyped,_⟩ := failed_typed (answeredWith unavailable) register
  obtain ⟨_,hamounts⟩ := failed_typed (answeredWith short) register
  exact ⟨(htyped rfl).mpr hconvertible,hamounts lamports rfl⟩

/-- Amounts with a fraction. -/
def fractions : Response := ⟨402,some (.object [(js "requiredLamports", .string (js "1.5")),
  (js "currentLamports", .string (js "0")), (js "shortfallLamports", .string (js "1.5"))])⟩

theorem fractions_untyped :
    (answer (answeredWith fractions) register).ok = false ∧
    ¬ Typed (answer (answeredWith fractions) register) (request (answeredWith fractions) register) := by
  have hraised : request (answeredWith fractions) register = .error (.native .syntaxError) := rfl
  refine ⟨rfl,fun h => ?_⟩
  obtain ⟨error,he,_⟩ := h
  rw [hraised] at he
  cases he

/-- A message that is an object with a `toString` that is none. -/
example : request (answeredWith ⟨500, some (.object [(js "message",
    .object [(js "toString", .null)])])⟩) register = .error (.native .typeError) := rfl

end Tagwise.Proofs.TypedErrors
