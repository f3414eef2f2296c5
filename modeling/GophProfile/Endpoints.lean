import GophProfile.Router
import GophProfile.Rest

/-! The handlers of the API and of the pages behind the router: what they answer, or a limiter in
their place, is what the client gets, the log says and the metrics count. -/
namespace GophProfile.Middleware

open Effect

/-- What a request asks of the handlers, the parameters of its path, its query and its body read. -/
inductive Endpoint where
  | upload (userID : GoString) (image : Except Err FormImage)
  | get (r : Rest.ContentRequest)
  | metadata (avatarID : GoString)
  | delete (userID avatarID : GoString)
  | getCurrent (r : Rest.ContentRequest)
  | list (userID : GoString)
  | deleteCurrent (userID pathUser : GoString)
  | uploadPage (userID : GoString)
  | uploadForm (form : Web.UploadForm)
  | galleryLookup (userID : GoString)
  | gallery (userID : GoString)
  | deleteForm (userID avatarID : GoString)

variable (P : Packages) (cfg : Config) (s : AvatarService)

def Endpoint.program : Endpoint → GophProfile.Prog Response
  | .upload userID image => Rest.upload cfg s userID image
  | .get r => Rest.get P cfg s r
  | .metadata avatarID => Rest.metadata P cfg s avatarID
  | .delete userID avatarID => Rest.delete P cfg s userID avatarID
  | .getCurrent r => Rest.getCurrent P cfg s r
  | .list userID => Rest.list cfg s userID
  | .deleteCurrent userID pathUser => Rest.deleteCurrent cfg s userID pathUser
  | .uploadPage userID => return Web.uploadForm cfg 200 userID (.text "")
  | .uploadForm form => Web.upload cfg s form
  | .galleryLookup userID => return Web.galleryLookup userID
  | .gallery userID => Web.gallery cfg s userID
  | .deleteForm userID avatarID => Web.delete P cfg s userID avatarID

/-- Uploads have a limiter of their own. -/
def Endpoint.uploads : Endpoint → Bool
  | .upload _ _ => true
  | .uploadForm _ => true
  | _ => false

/-- What is logged of an answer that a dependency is not available, and of an internal error. -/
def ofError (unavailable internal : GoString) (r : Response) : Option GoString :=
  if r.status = 503 then some unavailable else if r.status = 500 then some internal else none

def unavailableText : GoString := lit "зависимость недоступна, запрос отклонён"

/-- What an endpoint logs of an error before it answers it. -/
def Endpoint.remark : Endpoint → Response → Option GoString
  | .upload _ _ => ofError unavailableText (lit "загрузка аватарки")
  | .uploadForm _ => ofError (lit "загрузка через веб-форму отклонена выключателем") (lit "загрузка аватарки через веб-форму")
  | .gallery _ => ofError (lit "галерея отклонена выключателем") (lit "список аватарок для галереи")
  | .deleteForm _ _ =>
    ofError (lit "удаление через веб-форму отклонено выключателем") (lit "удаление аватарки через веб-форму")
  | _ => ofError unavailableText (lit "обработка запроса аватарки")

section Route
variable (canonicalizeIP : GoString → GoString) (deps : RouterDeps) (text : Body → GoString) (client : Client)
  (r : Request)

/-- What `NewRouter` puts at the route of an endpoint. -/
def Endpoint.handler (e : Endpoint) : RouterHandler :=
  let own := handle r.method text e.remark (e.program P cfg s)
  group canonicalizeIP deps text client r
    (if e.uploads then uploadLimit canonicalizeIP deps text client r own else own)

def Endpoint.limiters (e : Endpoint) : List (Limiter × GoString) := limitersOf canonicalizeIP deps client r e.uploads

end Route

/-! ### The statuses of the handlers -/

/-- Whatever was called, the answer is one to end with. -/
def Ending (_ : Called) (r : Response) : Prop := Final r

section Statuses
variable {answers : (c : GophProfile.Call) → c.Answer → Prop}

end Statuses

/-! ### Requests to the endpoints -/

variable {canonicalizeIP : GoString → GoString} {deps : RouterDeps} {text : Body → GoString} {client : Client}

variable {writer : WrapResponseWriter Asked.Answer}
  {trace : Machine.Trace (Call Asked) (Call.Answer Asked.Answer) Exit World (Arrival Asked Asked.Answer)
    ((c : Call Asked) → c.Answer Asked.Answer) Unit}
  {pool : Pool (Call Asked) (Call.Answer Asked.Answer) (Program Asked.Answer Exit) World}

end GophProfile.Middleware
