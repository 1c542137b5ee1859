import WzonePortal.Api

/-! The HTTP answer to a request: a route's own response, a domain error through the table
of status codes, or an error that nobody handles, which becomes a 500 without details. -/
namespace WzonePortal

inductive Body
  | error (code message : String) (detail : List (String × Detail))
  | httpDetail (detail : String)
  | message (text : String)
  | temporaryPassword (temporary : String)
  | connection (response : ConnectionResponse)
  | plain (text : String)
  | empty
  deriving DecidableEq, Repr

structure HttpResponse where
  statusCode : ℕ
  body : Body
  deriving DecidableEq, Repr

def HttpResponse.internalError : HttpResponse := ⟨500,.plain "Internal Server Error"⟩

def setKey (key : String) (value : Detail) (entries : List (String × Detail)) :
    List (String × Detail) :=
  if key ∈ entries.map Prod.fst then entries.map fun kv => if kv.1 = key then (key,value) else kv
  else entries ++ [(key,value)]

namespace Exc

/-- Status code and error code of the domain errors. -/
def exceptionStatus : Exc → Option (ℕ × String)
  | .validation _ _ _ => some (422,"validation_error")
  | .authentication _ => some (401,"authentication_failed")
  | .permission _ => some (403,"permission_denied")
  | .notFound _ => some (404,"not_found")
  | .duplicate _ _ => some (409,"duplicate")
  | _ => none

def message : Exc → String
  | .validation message _ _ => message
  | .authentication message => message
  | .permission message => message
  | .notFound message => message
  | .duplicate message _ => message
  | _ => ""

/-- The detail of a domain error, with the name of the refused field. -/
def handlerDetail : Exc → List (String × Detail)
  | .validation _ (some field) detail =>
    if field = "" then detail else setKey "field" (.text field) detail
  | .validation _ none detail => detail
  | .duplicate _ detail => detail
  | _ => []

def httpResponse (e : Exc) : HttpResponse :=
  match e with
  | .http statusCode detail => ⟨statusCode,.httpDetail detail⟩
  | e => match e.exceptionStatus with
    | some (statusCode,code) => ⟨statusCode,.error code e.message e.handlerDetail⟩
    | none => .internalError

/-- The errors of the database layer and the programming errors; no handler takes them. -/
def unhandled : Exc → Bool
  | .keyError | .integrityError | .dataError | .pendingRollback => true
  | _ => false

theorem httpResponse_unhandled {e : Exc} (h : e.unhandled = true) :
    e.httpResponse = .internalError := by
  cases e <;> first | rfl | cases h

end Exc

def Response.httpResponse : Response → HttpResponse
  | .accepted text => ⟨202,.message text⟩
  | .noContent => ⟨204,.empty⟩
  | .temporaryPassword temporary => ⟨200,.temporaryPassword temporary⟩
  | .created connection => ⟨201,.connection connection⟩

def httpAnswer : Except Exc Response → HttpResponse
  | .ok r => r.httpResponse
  | .error e => e.httpResponse

end WzonePortal
