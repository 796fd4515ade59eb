import Brainslug.FrontendServer
import Brainslug.ListedDocument

/-! Which requests are answered. A handler answers what it does not recognise and what it found, and is
silent when the database call fails; the handler of unregistered resources is always silent. -/

namespace Brainslug

namespace FrontendServer

variable (outcome : String → SanitizedParams → Executed)

def dbCall (request : Request) : Option (String × SanitizedParams) :=
  (resourceOf request).bind fun resource => resource.handler.dbCall request

/-- One response is sent, its writer finishes the connection, and when the database call fails its
document has an error. -/
def AnsweredOnce (request : Request) : Prop :=
  ∃ response, ((httpServer (.ofOutcomes outcome)).handleRequest request).result = .ok [response] ∧
    response.finishes = true ∧
    ∀ call, dbCall request = some call → (outcome call.1 call.2).ok = false →
      ∃ doc error, response.payload = .json doc ∧ doc.lookup "error" = some error ∧ error ≠ .null

/-- A registered resource makes its database call, if it has one, when the call returns. -/
theorem handleRequest_eq {db : DB} {request : Request} {resource : Resource}
    (hresource : resourceOf request = some resource)
    (hreturns : ∀ call, resource.handler.dbCall request = some call →
      ∃ executed, (db.execute call.1 "" .bound call.2).result = .ok executed) :
    (httpServer db).handleRequest request = match resource.handler.dbCall request with
      | some call => ResourceHandler.callDb db call
      | none => pure [ResourceHandler.unrecognized request] := by
  have hhandle := ResourceHandler.handle_eq resource.handler db request
  refine Eq.trans ?_ hhandle
  cases hcall : resource.handler.dbCall request with
  | none =>
      rw [hcall] at hhandle
      have hresult : (resource.handler.handle db request).result = .ok [ResourceHandler.unrecognized request] := by
        rw [hhandle, Effect.pure_result]
      exact handleRequest_of_some hresource hresult
  | some call =>
      rw [hcall] at hhandle
      obtain ⟨executed, hexecuted⟩ := hreturns call hcall
      have hresult := congrArg Effect.result (hhandle.trans (ResourceHandler.callDb_of_ok db call hexecuted))
      exact handleRequest_of_some hresource hresult

/-- **What is sent.** It depends on what comes of the call of the database, if there is one. -/
theorem handleRequest_of_executed {db : DB} {request : Request}
    (hexecute : ∀ call, dbCall request = some call →
      (db.execute call.1 "" .bound call.2).result = .ok (outcome call.1 call.2)) :
    ((httpServer db).handleRequest request).result =
      .ok (match resourceOf request, dbCall request with
        | none, _ => []
        | some _, none => [ResourceHandler.unrecognized request]
        | some _, some call => ResourceHandler.respond (outcome call.1 call.2)) := by
  cases hresource : resourceOf request with
  | none => rw [handleRequest_of_none hresource, Effect.pure_result]
  | some resource =>
      have hdbCall : dbCall request = resource.handler.dbCall request := by rw [dbCall, hresource, Option.bind_some]
      rw [hdbCall] at hexecute ⊢
      rw [handleRequest_eq hresource fun call hcall => ⟨_, hexecute call hcall⟩]
      cases hcall : resource.handler.dbCall request with
      | none => rfl
      | some call => exact congrArg Effect.result (ResourceHandler.callDb_of_ok db call (hexecute call hcall))

theorem handleRequest_ofOutcomes (request : Request) :
    ((httpServer (.ofOutcomes outcome)).handleRequest request).result =
      .ok (match resourceOf request, dbCall request with
        | none, _ => []
        | some _, none => [ResourceHandler.unrecognized request]
        | some _, some call => ResourceHandler.respond (outcome call.1 call.2)) :=
  handleRequest_of_executed outcome fun _ _ => rfl

/-- **When a request is answered.** Exactly when it is on a registered resource and the database call that
it makes, if it makes one, succeeds. -/
theorem answeredOnce_iff (request : Request) :
    AnsweredOnce outcome request ↔
      (resourceOf request).isSome = true ∧ ∀ call, dbCall request = some call → (outcome call.1 call.2).ok = true := by
  unfold AnsweredOnce
  rw [handleRequest_ofOutcomes]
  cases hresource : resourceOf request with
  | none =>
      constructor
      · rintro ⟨response, ⟨⟩, -⟩
      · rintro ⟨⟨⟩, -⟩
  | some resource =>
      cases hcall : dbCall request with
      | none =>
          refine ⟨fun _ => ⟨rfl, fun call h => by cases h⟩, fun _ => ⟨_, rfl, rfl, fun call h => by cases h⟩⟩
      | some call =>
          simp only [ResourceHandler.respond_eq]
          cases hok : (outcome call.1 call.2).ok with
          | true =>
              refine ⟨fun _ => ⟨rfl, ?_⟩, fun _ => ⟨_, rfl, rfl, ?_⟩⟩
              · rintro call' ⟨⟩
                exact hok
              · rintro call' ⟨⟩ hfails
                rw [hok] at hfails
                cases hfails
          | false =>
              constructor
              · rintro ⟨response, ⟨⟩, -⟩
              · rintro ⟨-, hall⟩
                have htrue := hall call rfl
                rw [hok] at htrue
                cases htrue

/-- A request that no resource matches, and one whose statement fails, are left without an answer. -/
theorem not_answeredOnce :
    ¬AnsweredOnce (fun _ _ => ⟨[], true, ""⟩) ⟨"/music", "list", [("list", "")]⟩ ∧
      ¬AnsweredOnce (fun _ _ => ⟨[], false, "database is locked"⟩) ⟨"/movies", "list", [("list", "")]⟩ := by
  constructor
  · rintro ⟨response, hresponse, -⟩
    have hnone : resourceOf ⟨"/music", "list", [("list", "")]⟩ = none := by decide
    rw [handleRequest_of_none hnone] at hresponse
    cases hresponse
  · rintro ⟨response, hresponse, -⟩
    have hsome : resourceOf ⟨"/movies", "list", [("list", "")]⟩ = some .movies := by decide
    have hcall : dbCall ⟨"/movies", "list", [("list", "")]⟩ = some (moviesResourceHandler.listStatement, ∅) := by
      rw [dbCall, hsome]
      rfl
    rw [handleRequest_ofOutcomes, hsome, hcall] at hresponse
    cases hresponse

end FrontendServer

end Brainslug
