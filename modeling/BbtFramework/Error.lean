import Mathlib.Algebra.Order.Ring.Int
import Mathlib.Data.List.Basic

/-!
# Errors and the boundary rules of the actor domain

`Error`, `ErrorCode` and `MakeError` are infra types the framework re-exports.
What infra itself decides, the domain a fresh error carries and the structural
check of the details, is not part of this repository and enters as the class
`Infra`.  The domain rules of `framework.actor` are the framework's own.

A `std::string` is modelled by `String` with one character for each byte, so
its size is the number of characters.
-/

namespace BbtFramework

/-- The error codes the framework uses. -/
inductive ErrorCode where
  | invalidArgument
  | internalError
  | runtimeUnavailable
  | notFound
  | timedOut
  | protocolError
  | closed
  | overloaded
  | remoteError
  | unavailable
  | invalidContext
  | cancelled
  | outcomeUnknown
  | typeMismatch
  | transportError
  | unsupportedRoute
  deriving DecidableEq, Repr

structure Error where
  code : ErrorCode
  domain : String
  domainCode : String
  message : String
  details : List (String × String)
  deriving DecidableEq, Repr

instance decidableEqExcept {Reason Value : Type} [DecidableEq Reason]
    [DecidableEq Value] : DecidableEq (Except Reason Value)
  | .error first, .error second =>
      if heq : first = second then isTrue (by rw [heq])
      else isFalse (fun hsame => heq (Except.error.inj hsame))
  | .ok first, .ok second =>
      if heq : first = second then isTrue (by rw [heq])
      else isFalse (fun hsame => heq (Except.ok.inj hsame))
  | .error _, .ok _ => isFalse (by simp)
  | .ok _, .error _ => isFalse (by simp)

/-- The behaviour of infra the framework relies on and does not define: the
domain of an error made by `MakeError`, and the structural check of the details
(limits, UTF-8, duplicate keys), whose refusals are protocol errors. -/
class Infra where
  errorDomain : String
  validateErrorDetails : Error → Except Error Unit
  refusal_code : ∀ error reason,
    validateErrorDetails error = .error reason → reason.code = .protocolError

section

variable [Infra]

def makeError (code : ErrorCode) (message : String) : Error where
  code := code
  domain := Infra.errorDomain
  domainCode := ""
  message := message
  details := []

def errorDomainFrameworkActor : String := "framework.actor"
def errorDetailExpectedSequence : String := "expected_sequence"

def isUnsignedDecimal (text : String) : Bool :=
  !text.toList.isEmpty && text.toList.all (fun c => '0' ≤ c && c ≤ '9')

/-- One row of the reserved-key table: the key, the domain that owns it and the
format its value must have. -/
structure ReservedKeyRule where
  key : String
  domain : String
  valueOk : String → Bool

def reservedKeyRules : List ReservedKeyRule :=
  [⟨errorDetailExpectedSequence, errorDomainFrameworkActor, isUnsignedDecimal⟩]

/-- The rule a detail breaks, when it uses a reserved key wrongly. -/
def checkReservedKey (error : Error) (detail : String × String)
    (rule : ReservedKeyRule) : Except Error Unit :=
  if detail.1 ≠ rule.key then .ok ()
  else if error.domain ≠ rule.domain then
    .error (makeError .protocolError "reserved key outside its owning domain")
  else if !rule.valueOk detail.2 then
    .error (makeError .protocolError "reserved key value has invalid format")
  else .ok ()

def validateErrorDomainRules (error : Error) : Except Error Unit :=
  error.details.forM fun detail =>
    reservedKeyRules.forM (checkReservedKey error detail)

def validateErrorAtBoundary (error : Error) : Except Error Unit :=
  match Infra.validateErrorDetails error with
  | .error reason => .error reason
  | .ok () => validateErrorDomainRules error

omit [Infra] in
theorem forM_error {Item : Type} {items : List Item}
    {check : Item → Except Error Unit} {motive : Error → Prop} {reason : Error}
    (hcheck : ∀ item reason, check item = .error reason → motive reason)
    (hforM : items.forM check = .error reason) : motive reason := by
  induction items with
  | nil => cases hforM
  | cons item rest ih =>
      change (check item >>= fun _ => rest.forM check) = .error reason at hforM
      cases hitem : check item with
      | error first =>
          rw [hitem] at hforM
          cases hforM
          exact hcheck item _ hitem
      | ok done =>
          rw [hitem] at hforM
          exact ih hforM

def domainRuleTexts : List String :=
  ["reserved key outside its owning domain", "reserved key value has invalid format"]

theorem validateErrorAtBoundary_refusal {motive : Error → Prop}
    (hinfra : ∀ error reason, Infra.validateErrorDetails error = .error reason →
      motive reason)
    (hfresh : ∀ message ∈ domainRuleTexts, motive (makeError .protocolError message))
    {error reason : Error}
    (hcheck : validateErrorAtBoundary error = .error reason) : motive reason := by
  unfold validateErrorAtBoundary at hcheck
  cases hdetails : Infra.validateErrorDetails error with
  | error first =>
      rw [hdetails] at hcheck
      cases hcheck
      exact hinfra error _ hdetails
  | ok done =>
      rw [hdetails] at hcheck
      refine forM_error (fun detail reason hdetail => ?_) hcheck
      refine forM_error (fun rule reason hrule => ?_) hdetail
      unfold checkReservedKey at hrule
      split at hrule
      · cases hrule
      · split at hrule
        · cases hrule
          exact hfresh _ (by simp [domainRuleTexts])
        · split at hrule
          · cases hrule
            exact hfresh _ (by simp [domainRuleTexts])
          · cases hrule

theorem validateErrorAtBoundary_code {error reason : Error}
    (hcheck : validateErrorAtBoundary error = .error reason) :
    reason.code = .protocolError :=
  validateErrorAtBoundary_refusal (motive := fun reason => reason.code = .protocolError)
    Infra.refusal_code (fun _ _ => rfl) hcheck

/-- What infra promises of its check: it is about the details of the error, and its
refusals carry none. -/
structure Infra.ChecksDetails : Prop where
  plain : ∀ error, error.details = [] → Infra.validateErrorDetails error = .ok ()
  refusal : ∀ error reason, Infra.validateErrorDetails error = .error reason →
    reason.details = []

theorem validateErrorAtBoundary_plain (hinfra : Infra.ChecksDetails) {error : Error}
    (hdetails : error.details = []) : validateErrorAtBoundary error = .ok () := by
  unfold validateErrorAtBoundary validateErrorDomainRules
  rw [hinfra.plain error hdetails, hdetails]
  rfl

theorem refusal_details (hinfra : Infra.ChecksDetails) {error reason : Error}
    (hcheck : validateErrorAtBoundary error = .error reason) : reason.details = [] :=
  validateErrorAtBoundary_refusal (motive := fun reason => reason.details = [])
    hinfra.refusal (fun _ _ => rfl) hcheck

end

/-- An infra whose structural check accepts every error. -/
abbrev permissiveInfra : Infra where
  errorDomain := "infra"
  validateErrorDetails := fun _ => .ok ()
  refusal_code := fun _ _ hrefused => nomatch hrefused

end BbtFramework
