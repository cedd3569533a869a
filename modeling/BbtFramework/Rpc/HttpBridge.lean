import BbtFramework.Inbound.Dispatch
import BbtFramework.Library.IntegerText

/-!
# Envelopes over HTTP

The default binding maps the fields of an envelope to headers `x-bbt-*`, its
metadata to `x-bbt-meta-<key>` and its payload to the body; an error travels in
headers `x-bbt-err-*`.  The HTTP stack itself is not part of this repository:
what it does with a request enters as a parameter.
-/

namespace BbtFramework.Rpc

open BbtFramework.Inbound BbtFramework.Library

abbrev Headers := List (String × String)

structure PreparedRequest where
  headers : Headers
  body : String
  deriving DecidableEq, Repr

structure IncomingRequest where
  headers : Headers
  body : String
  deriving DecidableEq, Repr

structure Response where
  statusCode : Nat
  headers : Headers
  body : String
  deriving DecidableEq, Repr

/-- The numbers of the error codes, which infra declares as an enumeration over `int`, and the
domain of its own errors. -/
class ErrorNumbers where
  number : ErrorCode → Int
  declared : Int → Bool
  errorDomainInfra : String
  number_injective : Function.Injective number
  declared_number : ∀ code, declared (number code) = true
  declared_range : ∀ value, declared value = true → IntegerText.InRange value

/-- An error as it comes out of a response: its code is whatever number was sent. -/
structure WireError where
  code : Int
  domain : String
  domainCode : String
  message : String
  details : List (String × String) := []
  deriving DecidableEq, Repr

def metaPrefix : String := "x-bbt-meta-"

/-- `k.compare(0, 11, "x-bbt-meta-") == 0`. -/
def isMetaHeader (name : String) : Bool :=
  name.toList.take 11 == metaPrefix.toList

def headerOf (headers : Headers) (name : String) : Option String :=
  (headers.find? fun header => header.1 == name).map Prod.snd

/-- The headers given to `BuildRequest`. -/
def requestHeaders (envelope : RpcEnvelope) : Headers :=
  [("x-bbt-service", envelope.service), ("x-bbt-method", envelope.method),
    ("x-bbt-request-id", envelope.requestId), ("x-bbt-request-schema", envelope.requestSchema),
    ("x-bbt-response-schema", envelope.responseSchema)] ++
  envelope.metadata.map fun field => (metaPrefix ++ field.1, field.2)

/-- `buildRequest` is the client's, for a method, an address and headers. -/
def toHttpRequest (buildRequest : String → String → Headers → Except Error PreparedRequest)
    (envelope : RpcEnvelope) (url : String) : Except Error PreparedRequest :=
  match buildRequest "POST" url (requestHeaders envelope) with
  | .error reason => .error reason
  | .ok prepared => .ok { prepared with body := bytesToString envelope.payload }

def metadataOf (headers : Headers) : List (String × String) :=
  (headers.filter fun header => isMetaHeader header.1).map fun header =>
    (String.ofList (header.1.toList.drop 11), header.2)

section

variable [Infra]

def envelopeFromRequest (request : IncomingRequest) : Except Error RpcEnvelope :=
  match headerOf request.headers "x-bbt-service", headerOf request.headers "x-bbt-method",
      headerOf request.headers "x-bbt-request-id",
      headerOf request.headers "x-bbt-request-schema",
      headerOf request.headers "x-bbt-response-schema" with
  | some service, some method, some requestId, some requestSchema, some responseSchema =>
      .ok
        { service := service
          method := method
          requestSchema := requestSchema
          responseSchema := responseSchema
          payload := stringToBytes request.body
          requestId := requestId
          metadata := metadataOf request.headers }
  | _, _, _, _, _ =>
      .error (makeError .invalidArgument "http bridge: envelope headers incomplete")

/-- What leaves the process instead of an error that is not valid at the boundary. -/
def errorAtBoundary (error : Error) : Error :=
  match validateErrorAtBoundary error with
  | .error reason => reason
  | .ok () => error

variable [ErrorNumbers]

open ErrorNumbers (number)

def errorHeaders (error : Error) : Headers :=
  [("x-bbt-err-code", toString (number error.code)), ("x-bbt-err-domain", error.domain),
    ("x-bbt-err-domain-code", error.domainCode), ("x-bbt-err-message", error.message)]

def toHttpResponse : Except Error RpcEnvelope → Response
  | .ok reply =>
      { statusCode := 200
        headers := [("x-bbt-request-id", reply.requestId),
          ("x-bbt-response-schema", reply.responseSchema)]
        body := bytesToString reply.payload }
  | .error error =>
      { statusCode := 400, headers := errorHeaders (errorAtBoundary error), body := "" }

/-- The error of a response, once the number of its code is known. -/
def errorOfHeaders (headers : Headers) (code : Int) : WireError where
  code := code
  domain := (headerOf headers "x-bbt-err-domain").getD ErrorNumbers.errorDomainInfra
  domainCode := (headerOf headers "x-bbt-err-domain-code").getD ""
  message := (headerOf headers "x-bbt-err-message").getD "http bridge: no error message"

def envelopeFromResponse (response : Response) :
    Except IntegerText.Failure (Except WireError RpcEnvelope) :=
  if response.statusCode = 200 then
    .ok (.ok
      { service := ""
        method := ""
        requestSchema := ""
        responseSchema := (headerOf response.headers "x-bbt-response-schema").getD ""
        payload := stringToBytes response.body
        requestId := (headerOf response.headers "x-bbt-request-id").getD ""
        metadata := [] })
  else
    match headerOf response.headers "x-bbt-err-code" with
    | none => .ok (.error (errorOfHeaders response.headers (number .protocolError)))
    | some text =>
        match IntegerText.stoi text.toList with
        | .error failure => .error failure
        | .ok code => .ok (.error (errorOfHeaders response.headers code))

/-! ## Headers in transit -/

/-- The names the bridge uses for itself. -/
def isBbtHeader (name : String) : Bool :=
  name.toList.take 6 == "x-bbt-".toList

/-- Of the headers with a name of the bridge, the given ones are delivered, unchanged and in
order, and no other. -/
def Carries (given delivered : Headers) : Prop :=
  delivered.filter (fun header => isBbtHeader header.1) =
    given.filter (fun header => isBbtHeader header.1)

omit [Infra] [ErrorNumbers] in
theorem isBbtHeader_of_isMetaHeader {name : String} (hmeta : isMetaHeader name = true) :
    isBbtHeader name = true := by
  have htake := congrArg (List.take 6) (beq_iff_eq.mp hmeta)
  rw [List.take_take] at htake
  exact beq_iff_eq.mpr htake

omit [Infra] [ErrorNumbers] in
theorem headerOf_filter (headers : Headers) {name : String} (hname : isBbtHeader name = true) :
    headerOf (headers.filter (fun header => isBbtHeader header.1)) name =
      headerOf headers name := by
  rw [headerOf, headerOf, List.find?_filter]
  congr 2
  funext header
  by_cases hheader : header.1 = name
  · simp [hheader, hname]
  · simp [hheader]

omit [Infra] [ErrorNumbers] in
theorem metadataOf_filter (headers : Headers) :
    metadataOf (headers.filter (fun header => isBbtHeader header.1)) = metadataOf headers := by
  rw [metadataOf, metadataOf, List.filter_filter]
  congr 2
  funext header
  by_cases hmeta : isMetaHeader header.1 = true
  · rw [hmeta, isBbtHeader_of_isMetaHeader hmeta]
    rfl
  · rw [eq_false_of_ne_true hmeta, Bool.false_and]

omit [Infra] [ErrorNumbers] in
theorem Carries.headerOf {given delivered : Headers} (hcarries : Carries given delivered)
    {name : String} (hname : isBbtHeader name = true) :
    headerOf delivered name = headerOf given name := by
  rw [← headerOf_filter delivered hname, hcarries, headerOf_filter given hname]

omit [Infra] [ErrorNumbers] in
theorem Carries.metadataOf {given delivered : Headers} (hcarries : Carries given delivered) :
    metadataOf delivered = metadataOf given := by
  rw [← metadataOf_filter delivered, hcarries, metadataOf_filter given]

omit [Infra] [ErrorNumbers] in
theorem isMetaHeader_append (key : String) : isMetaHeader (metaPrefix ++ key) = true := by
  simp [isMetaHeader, String.toList_append, metaPrefix]

omit [Infra] [ErrorNumbers] in
theorem drop_metaPrefix (key : String) :
    String.ofList ((metaPrefix ++ key).toList.drop 11) = key := by
  simp [String.toList_append, metaPrefix]

omit [Infra] [ErrorNumbers] in
/-- No key of the metadata is lost, and no field of the envelope is taken for one. -/
theorem metadataOf_requestHeaders (envelope : RpcEnvelope) :
    metadataOf (requestHeaders envelope) = envelope.metadata := by
  have hfixed : ∀ name ∈ ["x-bbt-service", "x-bbt-method", "x-bbt-request-id",
      "x-bbt-request-schema", "x-bbt-response-schema"], isMetaHeader name = false := by decide
  have hfields : (envelope.metadata.map fun field => (metaPrefix ++ field.1, field.2)).filter
      (fun header => isMetaHeader header.1) =
      envelope.metadata.map fun field => (metaPrefix ++ field.1, field.2) := by
    rw [List.filter_eq_self]
    intro header hheader
    obtain ⟨field, -, rfl⟩ := List.mem_map.mp hheader
    exact isMetaHeader_append field.1
  have hnone : ∀ header ∈ [("x-bbt-service", envelope.service), ("x-bbt-method", envelope.method),
      ("x-bbt-request-id", envelope.requestId), ("x-bbt-request-schema", envelope.requestSchema),
      ("x-bbt-response-schema", envelope.responseSchema)], ¬isMetaHeader header.1 = true := by
    intro header hheader
    have hname : header.1 ∈ ["x-bbt-service", "x-bbt-method", "x-bbt-request-id",
        "x-bbt-request-schema", "x-bbt-response-schema"] := List.mem_map_of_mem hheader
    rw [hfixed _ hname]
    decide
  rw [metadataOf, requestHeaders, List.filter_append, List.filter_eq_nil_iff.mpr hnone,
    List.nil_append, hfields, List.map_map]
  conv_rhs => rw [← List.map_id envelope.metadata]
  refine List.map_congr_left fun field _ => ?_
  exact Prod.ext (drop_metaPrefix field.1) rfl

omit [ErrorNumbers] in
theorem envelopeFromRequest_carried {envelope : RpcEnvelope} {request : IncomingRequest}
    (hcarries : Carries (requestHeaders envelope) request.headers)
    (hbody : request.body = bytesToString envelope.payload) :
    envelopeFromRequest request = .ok envelope := by
  unfold envelopeFromRequest
  rw [hcarries.headerOf (by decide), hcarries.headerOf (by decide),
    hcarries.headerOf (by decide), hcarries.headerOf (by decide),
    hcarries.headerOf (by decide), hcarries.metadataOf, metadataOf_requestHeaders, hbody,
    stringToBytes_bytesToString]
  rfl

omit [Infra] in
theorem stoi_number (code : ErrorCode) :
    IntegerText.stoi (toString (number code)).toList = .ok (number code) :=
  IntegerText.stoi_eq_ok_iff.mpr ⟨(IntegerText.isDecimal_toString _).leads,
    ErrorNumbers.declared_range _ (ErrorNumbers.declared_number code)⟩

omit [Infra] in
theorem envelopeFromResponse_error {error : Error} {response : Response}
    (hstatus : response.statusCode = 400)
    (hcarries : Carries (errorHeaders error) response.headers) :
    envelopeFromResponse response = .ok (.error
      { code := number error.code
        domain := error.domain
        domainCode := error.domainCode
        message := error.message }) := by
  unfold envelopeFromResponse errorOfHeaders
  rw [if_neg (by rw [hstatus]; decide), hcarries.headerOf (by decide),
    hcarries.headerOf (by decide), hcarries.headerOf (by decide), hcarries.headerOf (by decide)]
  change (match IntegerText.stoi (toString (number error.code)).toList with
    | .error failure => _
    | .ok code => _) = _
  rw [stoi_number]
  rfl

/-- The HTTP stack: how its client builds a request, and what arrives of a request that was
sent. -/
structure HttpStack where
  buildRequest : String → String → Headers → Except Error PreparedRequest
  delivers : PreparedRequest → IncomingRequest → Prop

/-- A request arrives with the headers its builder was given and with the body it has when it is
sent. -/
def HttpStack.Faithful (stack : HttpStack) : Prop :=
  ∀ method url headers prepared body request,
    stack.buildRequest method url headers = .ok prepared →
    stack.delivers { prepared with body := body } request →
    Carries headers request.headers ∧ request.body = body

omit [ErrorNumbers] in
/-- What arrives is what the source gave to the builder, whatever that was. -/
theorem envelopeFromRequest_delivered {stack : HttpStack} (hstack : stack.Faithful)
    {envelope : RpcEnvelope} {url : String} {prepared : PreparedRequest}
    {request : IncomingRequest}
    (hprepared : toHttpRequest stack.buildRequest envelope url = .ok prepared)
    (hdelivered : stack.delivers prepared request) :
    envelopeFromRequest request = .ok envelope := by
  unfold toHttpRequest at hprepared
  split at hprepared
  case h_1 => cases hprepared
  case h_2 built hbuilt =>
    cases hprepared
    obtain ⟨hcarries, hbody⟩ := hstack _ _ _ _ _ _ hbuilt hdelivered
    exact envelopeFromRequest_carried hcarries hbody

structure Arrives (sent response : Response) : Prop where
  statusCode : response.statusCode = sent.statusCode
  headers : Carries sent.headers response.headers
  body : response.body = sent.body

def RefusesWith (texts : List String) : Prop :=
  ∀ error reason, Infra.validateErrorDetails error = .error reason →
    ∃ text ∈ texts, reason = makeError .protocolError text

omit [ErrorNumbers] in
theorem refusal_fixed {texts : List String} (hinfra : RefusesWith texts) {error reason : Error}
    (hrefused : validateErrorAtBoundary error = .error reason) :
    ∃ text ∈ texts ++ domainRuleTexts, reason = makeError .protocolError text := by
  refine validateErrorAtBoundary_refusal
    (motive := fun reason => ∃ text ∈ texts ++ domainRuleTexts,
      reason = makeError .protocolError text) ?_ ?_ hrefused
  · intro error reason hdetails
    obtain ⟨text, htext, rfl⟩ := hinfra error reason hdetails
    exact ⟨text, List.mem_append_left _ htext, rfl⟩
  · exact fun text htext => ⟨text, List.mem_append_right _ htext, rfl⟩

/-- Requests, replies and valid errors come out as they went in; an invalid error arrives as a
protocol error that has nothing of it. -/
theorem bridge_round_trips {stack : HttpStack} (hstack : stack.Faithful) {texts : List String}
    (hinfra : RefusesWith texts) :
    (∀ (envelope : RpcEnvelope) url prepared request,
      toHttpRequest stack.buildRequest envelope url = .ok prepared →
      stack.delivers prepared request → envelopeFromRequest request = .ok envelope) ∧
    (∀ (reply : RpcEnvelope) response, Arrives (toHttpResponse (.ok reply)) response →
      ∃ received, envelopeFromResponse response = .ok (.ok received) ∧
        received.requestId = reply.requestId ∧
        received.responseSchema = reply.responseSchema ∧ received.payload = reply.payload) ∧
    (∀ error response, Arrives (toHttpResponse (.error error)) response →
      validateErrorAtBoundary error = .ok () →
      envelopeFromResponse response = .ok (.error
        { code := number error.code
          domain := error.domain
          domainCode := error.domainCode
          message := error.message })) ∧
    ∀ error reason response, Arrives (toHttpResponse (.error error)) response →
      validateErrorAtBoundary error = .error reason →
      ∃ text ∈ texts ++ domainRuleTexts, envelopeFromResponse response = .ok (.error
        { code := number .protocolError
          domain := Infra.errorDomain
          domainCode := ""
          message := text }) := by
  refine ⟨fun envelope url prepared request hprepared hdelivered => ?_,
    fun reply response harrives => ?_, fun error response harrives hvalid => ?_,
    fun error reason response harrives hrefused => ?_⟩
  · exact envelopeFromRequest_delivered hstack hprepared hdelivered
  · have hstatus : response.statusCode = 200 := harrives.statusCode
    have hbody : response.body = bytesToString reply.payload := harrives.body
    refine ⟨_, if_pos hstatus, ?_, ?_, ?_⟩
    · change (headerOf response.headers "x-bbt-request-id").getD "" = _
      rw [harrives.headers.headerOf (by decide)]
      rfl
    · change (headerOf response.headers "x-bbt-response-schema").getD "" = _
      rw [harrives.headers.headerOf (by decide)]
      rfl
    · change stringToBytes response.body = _
      rw [hbody, stringToBytes_bytesToString]
  · have hkept : errorAtBoundary error = error := by rw [errorAtBoundary, hvalid]
    have hheaders := harrives.headers
    change Carries (errorHeaders (errorAtBoundary error)) _ at hheaders
    rw [hkept] at hheaders
    exact envelopeFromResponse_error harrives.statusCode hheaders
  · obtain ⟨text, htext, rfl⟩ := refusal_fixed hinfra hrefused
    have hreplaced : errorAtBoundary error = makeError .protocolError text := by
      rw [errorAtBoundary, hrefused]
    have hheaders := harrives.headers
    change Carries (errorHeaders (errorAtBoundary error)) _ at hheaders
    rw [hreplaced] at hheaders
    exact ⟨text, htext, envelopeFromResponse_error harrives.statusCode hheaders⟩

end

def sampleNumber : ErrorCode → Int
  | .invalidArgument => 1
  | .internalError => 2
  | .runtimeUnavailable => 3
  | .notFound => 4
  | .timedOut => 5
  | .protocolError => 6
  | .closed => 7
  | .overloaded => 8
  | .remoteError => 9
  | .unavailable => 10
  | .invalidContext => 11
  | .cancelled => 12
  | .outcomeUnknown => 13
  | .typeMismatch => 14
  | .transportError => 15
  | .unsupportedRoute => 16

abbrev sampleNumbers : ErrorNumbers where
  number := sampleNumber
  declared := fun value => decide (1 ≤ value ∧ value ≤ 16)
  errorDomainInfra := "infra"
  number_injective := by
    intro first later heq
    cases first <;> cases later <;> first | rfl | exact absurd heq (by decide)
  declared_number := by
    intro code
    cases code <;> decide
  declared_range := by
    intro value hdeclared
    have hbounds := of_decide_eq_true hdeclared
    exact ⟨by omega, by omega⟩

abbrev strictInfra : Infra where
  errorDomain := "infra"
  validateErrorDetails := fun error =>
    if 1 < error.details.length then
      .error
        { code := .protocolError
          domain := "infra"
          domainCode := ""
          message := "error details out of bounds"
          details := [] }
    else .ok ()
  refusal_code := by
    intro error reason hrefused
    split at hrefused
    · cases hrefused
      rfl
    · cases hrefused

def sampleStack : HttpStack where
  buildRequest := fun _ _ headers => .ok ⟨headers, ""⟩
  delivers := fun prepared request =>
    request = ⟨("host", "a") :: prepared.headers, prepared.body⟩

theorem sampleStack_faithful : sampleStack.Faithful := by
  rintro method url headers prepared body request hbuilt hdelivered
  cases hbuilt
  obtain rfl : request = ⟨("host", "a") :: headers, body⟩ := hdelivered
  exact ⟨rfl, rfl⟩

/-- A request whose metadata look like fields of the envelope, and an error with a reserved key
in a foreign domain. -/
theorem bridge_round_trips_sample :
    letI := strictInfra
    letI := sampleNumbers
    let envelope : RpcEnvelope :=
      { service := "echo"
        method := "say"
        requestSchema := "s1"
        responseSchema := "s2"
        payload := [0, 255]
        requestId := "req-1"
        metadata := [("route.a", "1"), ("service", "x"), ("route.a", "2")] }
    let error : Error :=
      { code := .remoteError
        domain := "shop"
        domainCode := "secret"
        message := "secret"
        details := [("expected_sequence", "7")] }
    (∃ prepared, toHttpRequest sampleStack.buildRequest envelope "http://b/rpc" = .ok prepared ∧
        envelopeFromRequest ⟨("host", "a") :: prepared.headers, prepared.body⟩ = .ok envelope) ∧
      ∃ text, envelopeFromResponse (toHttpResponse (.error error)) = .ok (.error
        { code := 6, domain := "infra", domainCode := "", message := text }) := by
  let _ := strictInfra
  let _ := sampleNumbers
  intro envelope error
  have hinfra : RefusesWith ["error details out of bounds"] := by
    intro error reason hrefused
    change (if 1 < error.details.length then _ else _) = _ at hrefused
    split at hrefused
    · cases hrefused
      exact ⟨_, List.mem_singleton_self _, rfl⟩
    · cases hrefused
  obtain ⟨hrequests, -, -, hinvalid⟩ := bridge_round_trips sampleStack_faithful hinfra
  refine ⟨⟨_, rfl, ?_⟩, ?_⟩
  · exact hrequests envelope "http://b/rpc" _ _ rfl rfl
  · obtain ⟨text, -, hdecoded⟩ := hinvalid error _ _ ⟨rfl, rfl, rfl⟩ rfl
    exact ⟨text, hdecoded⟩

/-! ## Responses of any peer -/

section

variable [ErrorNumbers]

open ErrorNumbers (number declared)

/-- The code an error should have: the declared one its header names, and `ProtocolError` when the
header names none. -/
def ExpectedCode (header : Option String) (code : Int) : Prop :=
  (∃ text value, header = some text ∧ IntegerText.IsDecimal text.toList value ∧
      declared value = true ∧ code = value) ∨
    ((¬∃ text value, header = some text ∧ IntegerText.IsDecimal text.toList value ∧
      declared value = true) ∧ code = number .protocolError)

/-- The response is decoded without an exception, and an error has the code it should have. -/
def DecodesAsDeclared (response : Response) : Prop :=
  ∃ result, envelopeFromResponse response = .ok result ∧
    (response.statusCode ≠ 200 → ∃ error, result = .error error ∧
      ExpectedCode (headerOf response.headers "x-bbt-err-code") error.code)

theorem ExpectedCode.of_declared {text : String} {value code : Int}
    (hdecimal : IntegerText.IsDecimal text.toList value) (hdeclared : declared value = true) :
    ExpectedCode (some text) code ↔ code = value := by
  constructor
  · rintro (⟨other, found, heq, hother, -, rfl⟩ | ⟨hnone, -⟩)
    · cases heq
      exact hother.leads.value_eq hdecimal.leads
    · exact absurd ⟨text, value, rfl, hdecimal, hdeclared⟩ hnone
  · rintro rfl
    exact .inl ⟨text, code, rfl, hdecimal, hdeclared, rfl⟩

theorem ExpectedCode.of_undeclared {header : Option String} {code : Int}
    (hnone : ¬∃ text value, header = some text ∧ IntegerText.IsDecimal text.toList value ∧
      declared value = true) :
    ExpectedCode header code ↔ code = number .protocolError := by
  constructor
  · rintro (⟨text, value, heq, hdecimal, hdeclared, -⟩ | ⟨-, hcode⟩)
    · exact absurd ⟨text, value, heq, hdecimal, hdeclared⟩ hnone
    · exact hcode
  · exact fun hcode => .inr ⟨hnone, hcode⟩

/-- With a code in its header, the error is decoded as it should be when the header is a decimal
integer that a code has, or starts with the number of `ProtocolError`. -/
theorem decodes_text_iff {response : Response} {text : String}
    (hstatus : response.statusCode ≠ 200)
    (hheader : headerOf response.headers "x-bbt-err-code" = some text) :
    DecodesAsDeclared response ↔
      (∃ value, IntegerText.IsDecimal text.toList value ∧ declared value = true) ∨
        IntegerText.Leads text.toList (number .protocolError) := by
  have hrange := ErrorNumbers.declared_range
  have hdecoded : ∀ code, IntegerText.stoi text.toList = .ok code →
      (DecodesAsDeclared response ↔ ExpectedCode (some text) code) := by
    intro code hcode
    unfold DecodesAsDeclared envelopeFromResponse
    rw [if_neg hstatus, hheader]
    dsimp only
    rw [hcode]
    constructor
    · rintro ⟨result, hresult, hexpected⟩
      cases hresult
      obtain ⟨error, herror, hmatch⟩ := hexpected hstatus
      cases herror
      exact hmatch
    · intro hmatch
      exact ⟨_, rfl, fun _ => ⟨_, rfl, hmatch⟩⟩
  by_cases hdeclared : ∃ value, IntegerText.IsDecimal text.toList value ∧ declared value = true
  · obtain ⟨value, hdecimal, hknown⟩ := hdeclared
    have hcode := IntegerText.stoi_eq_ok_iff.mpr ⟨hdecimal.leads, hrange value hknown⟩
    rw [hdecoded value hcode, ExpectedCode.of_declared hdecimal hknown]
    exact ⟨fun _ => .inl ⟨value, hdecimal, hknown⟩, fun _ => rfl⟩
  · have hnone : ¬∃ other value, some text = some other ∧
        IntegerText.IsDecimal other.toList value ∧ declared value = true := by
      rintro ⟨other, value, heq, hdecimal, hknown⟩
      cases heq
      exact hdeclared ⟨value, hdecimal, hknown⟩
    constructor
    · intro hdecodes
      have ⟨result, hresult, _⟩ := hdecodes
      unfold envelopeFromResponse at hresult
      rw [if_neg hstatus, hheader] at hresult
      dsimp only at hresult
      cases hcode : IntegerText.stoi text.toList with
      | error failure =>
          rw [hcode] at hresult
          cases hresult
      | ok code =>
          have hexpected := (hdecoded code hcode).mp hdecodes
          rw [ExpectedCode.of_undeclared hnone] at hexpected
          rw [← hexpected]
          exact .inr (IntegerText.stoi_eq_ok_iff.mp hcode).1
    · rintro (hknown | hleads)
      · exact absurd hknown hdeclared
      · have hcode := IntegerText.stoi_eq_ok_iff.mpr
          ⟨hleads, hrange _ (ErrorNumbers.declared_number .protocolError)⟩
        rw [hdecoded _ hcode, ExpectedCode.of_undeclared hnone]

/-- A response is decoded as it should be exactly when it is a success, or carries no code, or the
text of its code is a decimal integer that a code has, or starts with the number of
`ProtocolError`. -/
theorem decodes_as_declared_iff (response : Response) :
    DecodesAsDeclared response ↔
      response.statusCode = 200 ∨ headerOf response.headers "x-bbt-err-code" = none ∨
        ∃ text, headerOf response.headers "x-bbt-err-code" = some text ∧
          ((∃ value, IntegerText.IsDecimal text.toList value ∧ declared value = true) ∨
            IntegerText.Leads text.toList (number .protocolError)) := by
  by_cases hstatus : response.statusCode = 200
  · have hdecoded : DecodesAsDeclared response :=
      ⟨_, if_pos hstatus, fun hother => absurd hstatus hother⟩
    exact ⟨fun _ => .inl hstatus, fun _ => hdecoded⟩
  · cases hheader : headerOf response.headers "x-bbt-err-code" with
    | none =>
        have hnone : ¬∃ text value, (none : Option String) = some text ∧
            IntegerText.IsDecimal text.toList value ∧ declared value = true := by
          rintro ⟨text, value, heq, -⟩
          cases heq
        have hdecoded : DecodesAsDeclared response := by
          unfold DecodesAsDeclared envelopeFromResponse
          rw [if_neg hstatus, hheader]
          exact ⟨_, rfl, fun _ => ⟨_, rfl, .inr ⟨hnone, rfl⟩⟩⟩
        exact ⟨fun _ => .inr (.inl rfl), fun _ => hdecoded⟩
    | some text =>
        rw [decodes_text_iff hstatus hheader]
        constructor
        · exact fun hcode => .inr (.inr ⟨text, rfl, hcode⟩)
        · rintro (hsuccess | hnone | ⟨other, heq, hcode⟩)
          · exact absurd hsuccess hstatus
          · cases hnone
          · cases heq
            exact hcode

/-- The host's HTTP client with its limits: how it builds a request, and what comes back when it
sends one. -/
structure EgressHost where
  buildRequest : String → String → Headers → Except Error PreparedRequest
  exchange : PreparedRequest → Except Error Response
  maxBodyBytes : Nat
  maxHeaderBytes : Nat

def headerBytes (headers : Headers) : Nat :=
  (headers.map fun header => header.1.length + header.2.length).sum

def onWire (error : Error) : WireError where
  code := number error.code
  domain := error.domain
  domainCode := error.domainCode
  message := error.message
  details := error.details

/-- `HttpEgress::Send` with the profile of the headers; `host` is none when there is no client. -/
def sendLegacy [Infra] (host : Option EgressHost) (transport endpoint : String)
    (envelope : RpcEnvelope) : Except IntegerText.Failure (Except WireError RpcEnvelope) :=
  let fail (code : ErrorCode) (text : String) :
      Except IntegerText.Failure (Except WireError RpcEnvelope) :=
    .ok (.error (onWire (makeError code text)))
  if transport ≠ "http" ∧ transport ≠ "tcp" then
    fail .invalidArgument ("rpc egress: unsupported transport '" ++ transport ++ "'")
  else if endpoint = "" then fail .invalidArgument "rpc egress: empty endpoint"
  else if transport ≠ "http" then
    fail .invalidArgument "rpc egress: LegacyHeaders profile only supports http transport"
  else
    match host with
    | none => fail .runtimeUnavailable "http egress: host client unavailable"
    | some host =>
        if host.maxBodyBytes < envelope.payload.length then
          fail .invalidArgument "http egress: request body exceeds host limit"
        else
          match toHttpRequest host.buildRequest envelope ("http://" ++ endpoint ++ "/rpc") with
          | .error reason => .ok (.error (onWire reason))
          | .ok request =>
              if host.maxHeaderBytes < headerBytes request.headers then
                fail .invalidArgument "http egress: request headers exceed host limit"
              else
                match host.exchange request with
                | .error reason => .ok (.error (onWire reason))
                | .ok response =>
                    if host.maxHeaderBytes < headerBytes response.headers then
                      fail .protocolError "http egress: response headers exceed host limit"
                    else envelopeFromResponse response

/-- A send ends in an exception only when the answer of the peer does. -/
theorem sendLegacy_returns [Infra] {host : Option EgressHost}
    (hpeer : ∀ client ∈ host, ∀ request response, client.exchange request = .ok response →
      DecodesAsDeclared response)
    (transport endpoint : String) (envelope : RpcEnvelope) :
    ∃ result, sendLegacy host transport endpoint envelope = .ok result := by
  unfold sendLegacy
  dsimp only
  split
  · exact ⟨_, rfl⟩
  · split
    · exact ⟨_, rfl⟩
    · split
      · exact ⟨_, rfl⟩
      · cases host with
        | none => exact ⟨_, rfl⟩
        | some client =>
            dsimp only
            split
            · exact ⟨_, rfl⟩
            · split
              · exact ⟨_, rfl⟩
              · split
                · exact ⟨_, rfl⟩
                case h_2.isFalse request _ _ =>
                  cases hexchange : client.exchange request with
                  | error reason => exact ⟨_, rfl⟩
                  | ok response =>
                      dsimp only
                      split
                      · exact ⟨_, rfl⟩
                      · obtain ⟨result, hresult, -⟩ := hpeer client rfl request response hexchange
                        exact ⟨result, hresult⟩

end

/-- A code that is no number ends in an exception, and a number that no code has becomes a
code. -/
theorem foreign_code_undecoded :
    letI := sampleNumbers
    let response (code : String) : Response := ⟨400, [("x-bbt-err-code", code)], ""⟩
    envelopeFromResponse (response "busy") = .error .invalidArgument ∧
      ¬DecodesAsDeclared (response "busy") ∧ ¬DecodesAsDeclared (response "99") := by
  let _ := sampleNumbers
  intro response
  have hbusy : envelopeFromResponse (response "busy") = .error .invalidArgument := by decide
  have hforeign : envelopeFromResponse (response "99") =
      .ok (.error (errorOfHeaders (response "99").headers 99)) := by decide
  refine ⟨hbusy, ?_, ?_⟩
  · rintro ⟨result, hresult, -⟩
    rw [hbusy] at hresult
    cases hresult
  · rintro ⟨result, hresult, hexpected⟩
    rw [hforeign] at hresult
    cases hresult
    obtain ⟨error, herror, hcode⟩ := hexpected (by decide)
    cases herror
    rcases hcode with ⟨text, value, -, -, hdeclared, heq⟩ | ⟨-, heq⟩
    · change (99 : Int) = value at heq
      subst heq
      exact absurd hdeclared (by decide)
    · exact absurd heq (by decide)

end BbtFramework.Rpc
