import Modularis.Gateway.AuthGuard
import Modularis.Gateway.UserEventStream

namespace Modularis.Gateway.EventStreamController

open Modularis.Gateway.AccountController (Environment)
open Modularis.Gateway.AuthGuard
open Modularis.Gateway.UserEventStream
open Modularis.Shared.RabbitBus (Json)

section Controller

/-- What the browser is sent of an event. -/
structure MessageEvent where
  id : String
  type : String
  data : Json

/-- What `EventStreamService` makes of an event. -/
def messageEvent (event : StreamEvent) : MessageEvent where
  id := event.id
  type := event.type
  data := .object [("occurredAt", .string event.occurredAt), ("payload", event.payload)]

/-- A response to `GET /events`: its subscription, and the request that it was given for. -/
structure Opening where
  request : AuthGuard.Request
  now : Int
  userId : String
  subscription : Nat

/-- A subject that is no text has a stream on which nothing is published. -/
def events (auth : AuthService) (env : Environment) (parseJson : JsonParser) (now : Int)
    (request : AuthGuard.Request) (world : World) : Option (Opening × World) :=
  match canActivate auth env now request with
  | .ok (some (.string userId)) =>
      some
        ({ request := request
           now := now
           userId := userId
           subscription := world.service.subscriptions.length },
          step parseJson (step parseJson world (.stream userId))
            (.subscribe world.service.observables.length))
  | _ => none

/-- What the response has sent. -/
def sent (world : World) (opening : Opening) : List MessageEvent :=
  (world.service.received opening.subscription).map messageEvent

end Controller

section Responses

variable {auth : AuthService} {env : Environment} {parseJson : JsonParser} {now : Int}
  {request : AuthGuard.Request} {world next : World} {opening : Opening}

/-- A response is subscribed to the stream of the user whom the guard let pass. -/
structure Opens (auth : AuthService) (env : Environment) (world : World)
    (opening : Opening) : Prop where
  passes : canActivate auth env opening.now opening.request =
    .ok (some (.string opening.userId))
  subscribed : ∃ stream,
    Subscribed world.service opening.userId opening.subscription stream

theorem opens_of_events {calls : List String} (h : Consistent calls world.service)
    (hevents : events auth env parseJson now request world = some (opening, next)) :
    Opens auth env next opening ∧ next.service.received opening.subscription = [] ∧
      ∃ calls, Consistent calls next.service := by
  unfold events at hevents
  split at hevents
  · rename_i userId hpasses
    obtain ⟨rfl, rfl⟩ := Prod.mk.inj (Option.some.inj hevents)
    have hstream := h.step parseJson (.stream userId)
    have hlast : (calls ++ [userId])[world.service.observables.length]? = some userId := by
      rw [← h.owned.length_eq]
      exact List.getElem?_concat_length
    have hkept : (step parseJson world (.stream userId)).service.subscriptions =
        world.service.subscriptions :=
      (ensureStream_kept world.service userId).2.1
    have hsubscribed := hstream.subscribed hlast
    have hnew := hstream.received_new world.service.observables.length
    rw [hkept] at hsubscribed hnew
    exact ⟨⟨hpasses, hsubscribed⟩, hnew, _, hstream.step parseJson (.subscribe _)⟩
  · cases hevents

theorem kept_of_events {calls : List String} {other : Opening}
    (h : Consistent calls world.service)
    (hevents : events auth env parseJson now request world = some (opening, next))
    (hother : Opens auth env world other) :
    Opens auth env next other ∧
      next.service.received other.subscription =
        world.service.received other.subscription := by
  obtain ⟨stream, hsubscribed⟩ := hother.subscribed
  unfold events at hevents
  split at hevents
  · rename_i userId hpasses
    obtain ⟨rfl, rfl⟩ := Prod.mk.inj (Option.some.inj hevents)
    have hstream := hsubscribed.step parseJson (.stream userId)
    refine ⟨⟨hother.passes, stream, hstream.step parseJson (.subscribe _)⟩, ?_⟩
    rw [received_step (h.separate.step parseJson _) hstream,
      received_step h.separate hsubscribed]
    simp [Event.arrival]
  · cases hevents

theorem Opens.step (h : Opens auth env world opening) (event : Event) :
    Opens auth env (step parseJson world event) opening := by
  obtain ⟨stream, hsubscribed⟩ := h.subscribed
  exact ⟨h.passes, stream, hsubscribed.step parseJson event⟩

theorem userId_of_presents (hsigns : Signs auth env) (h : Opens auth env world opening)
    {userId cookie : String} (hsign : env.sign (some (.string userId)) = some cookie)
    (hpresents : Presents auth opening.request cookie) : opening.userId = userId := by
  have hsame := user_of_presents hsigns hsign hpresents h.passes
  exact Json.string.inj (Option.some.inj hsame)

end Responses

end Modularis.Gateway.EventStreamController
