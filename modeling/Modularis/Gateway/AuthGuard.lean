import Modularis.Gateway.AccountController
import Modularis.Shared.Text

namespace Modularis.Gateway.AuthGuard

open Modularis.Gateway.AccountController
open Modularis.Shared.RabbitBus (Json isRecord)
open Modularis.Shared.Text (split)

section Guard

/-- What the guard reads of a request. -/
structure Request where
  cookies : Option Json
  authorization : Option String

/-- The name of the cookie and `JwtService.verifyAsync` at a time, which answers the
claims of a token or throws. -/
structure AuthService where
  cookieName : String
  verifyAsync : Int → String → Option Json

/-- Cookies that are no record are none. -/
def toCookieRecord (value : Option Json) : Option Json := value.filter isRecord

/-- The token of an `Authorization` header. -/
def bearerToken (authorization : Option String) : Option String :=
  match authorization.map fun value => split value ' ' with
  | some (scheme :: token :: _) =>
      if scheme ≠ "Bearer" ∨ trim token = "" then none else some (trim token)
  | _ => none

/-- The cookie is looked at first, and an empty one is none. -/
def extractToken (cookieName : String) (request : Request) : Option String :=
  match (toCookieRecord request.cookies).bind (·.get cookieName) with
  | some (.string cookieToken) =>
      if trim cookieToken ≠ "" then some (trim cookieToken)
      else bearerToken request.authorization
  | _ => bearerToken request.authorization

/-- The response of the guard. -/
def unauthorized (detail : String) : Json :=
  .object
    [("title", .string "Unauthorized"), ("status", .number 401),
      ("detail", .string detail)]

/-- Whatever is wrong with a token, its bearer learns the same. -/
def AuthService.verify (auth : AuthService) (env : Environment) (now : Int)
    (token : String) : Except Exception Json :=
  match auth.verifyAsync now token with
  | some claims => .ok claims
  | none => throwHttp env .unauthorized (unauthorized "Invalid authentication token.")

/-- `request.userId` of a request that may pass. -/
def canActivate (auth : AuthService) (env : Environment) (now : Int) (request : Request) :
    Except Exception (Option Json) :=
  match extractToken auth.cookieName request with
  | none => throwHttp env .unauthorized
      (unauthorized "Authentication is required to open the event stream.")
  | some token => (auth.verify env now token).map (·.get "sub")

end Guard

section Tokens

variable {auth : AuthService} {env : Environment} {now : Int} {request : Request}

/-- The request carries the cookie. -/
def Presents (auth : AuthService) (request : Request) (cookie : String) : Prop :=
  (toCookieRecord request.cookies).bind (·.get auth.cookieName) = some (.string cookie)

/-- A token is a text without white space around it, and names the subject that it was
signed for. -/
structure Signs (auth : AuthService) (env : Environment) : Prop where
  plain : ∀ sub token, env.sign sub = some token → trim token = token ∧ token ≠ ""
  subject : ∀ sub token now claims, env.sign sub = some token →
    auth.verifyAsync now token = some claims → claims.get "sub" = sub

theorem extractToken_of_presents (h : Signs auth env) {sub : Option Json} {cookie : String}
    (hsign : env.sign sub = some cookie) (hpresents : Presents auth request cookie) :
    extractToken auth.cookieName request = some cookie := by
  obtain ⟨htrim, hne⟩ := h.plain sub cookie hsign
  rw [Presents] at hpresents
  simp only [extractToken, hpresents, htrim]
  exact if_pos hne

/-- With a cookie of its own a request passes as the user that the cookie was made for,
or not at all. -/
theorem user_of_presents (h : Signs auth env) {sub userId : Option Json} {cookie : String}
    (hsign : env.sign sub = some cookie) (hpresents : Presents auth request cookie)
    (hpasses : canActivate auth env now request = .ok userId) : userId = sub := by
  simp only [canActivate, extractToken_of_presents h hsign hpresents] at hpasses
  cases hverify : auth.verifyAsync now cookie with
  | none =>
      simp only [AuthService.verify, hverify] at hpasses
      cases hpasses
  | some claims =>
      simp only [AuthService.verify, hverify] at hpasses
      obtain rfl := Except.ok.inj hpasses
      exact h.subject sub cookie now claims hsign hverify

theorem status_of_refused {exception : Exception}
    (h : canActivate auth env now request = .error exception) :
    (normalize env.numberText exception).status = 401 := by
  have hstatus : ∀ detail message, (normalize env.numberText
      (.http .unauthorized (unauthorized detail) message)).status = 401 := fun _ _ => rfl
  unfold canActivate at h
  split at h
  · rw [← Except.error.inj h]
    exact hstatus _ _
  · rename_i token _
    cases hverify : auth.verifyAsync now token with
    | none =>
        simp only [AuthService.verify, hverify] at h
        rw [← Except.error.inj h]
        exact hstatus _ _
    | some claims =>
        simp only [AuthService.verify, hverify] at h
        cases h

end Tokens

end Modularis.Gateway.AuthGuard
